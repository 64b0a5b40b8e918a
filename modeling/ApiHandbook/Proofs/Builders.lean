import ApiHandbook.Proofs.Mounting
import ApiHandbook.Proofs.Sites
import Mathlib.Order.WellFoundedSet

/-! Functions that build routers, by their full names: the routers that a project builds, the calls that nest a function's
router in another one, and the chains of such calls that lead from a function outwards. -/
namespace ApiHandbook.Project.Axum
open Code

/-- A router in which nested functions go by their full names. -/
abbrev Assembly := Router FunctionName

/-- The function that a path names inside a module: a bare name is one of the module's own, any other path has to name
the module. -/
def fullName? (module : Option String) (p : Path) : Option FunctionName :=
  match p.names with
  | [name] => some ⟨module, name⟩
  | _ => (FunctionName.ofPath? p).filter (·.module.isSome)

/-- The router with its functions under their bare names. -/
def Router.plain (a : Assembly) : Router String := a.map FunctionName.name

@[simp] theorem Router.plain_nest (base inner : Assembly) (rule : String) :
    (Router.nest base rule inner).plain = .nest base.plain rule inner.plain := rfl

@[simp] theorem Router.plain_mount (base : Assembly) (rule : String) (builder : FunctionName) :
    (Router.mount base rule builder).plain = .mount base.plain rule builder.name := rfl

theorem last?_of_fullName? {module : Option String} {p : Path} {f : FunctionName} (h : fullName? module p = some f) :
    p.last? = some f.name := by
  unfold fullName? at h
  split at h
  · rename_i name hname
    obtain rfl := Option.some.inj h
    rw [Path.last?, hname]
    rfl
  · obtain ⟨hf, _⟩ := Option.filter_eq_some_iff.mp h
    obtain ⟨name, hname, rfl⟩ := Option.map_eq_some_iff.mp hf
    exact hname

theorem builds_plain {module : Option String} {e : Expr} {a : Assembly}
    (h : Router.ofExpr? (fullName? module) e = some a) : Builds Path.last? e a.plain :=
  (builds_of_ofExpr? h).map fun _ _ => last?_of_fullName?

/-- An assembly and where it stands. -/
structure Assembled where
  /-- The module that the file declares. -/
  file : Option String
  around : Surroundings
  assembly : Assembly
  deriving DecidableEq, Repr

namespace Assembled

/-- The function that builds the router; none outside of functions. -/
def owner (a : Assembled) : Option FunctionName := a.around.function.map (⟨a.around.module, ·⟩)

theorem map_owner (a : Assembled) : a.owner.map FunctionName.name = a.around.function := by
  rw [owner, Option.map_map]
  exact Option.map_id_apply

/-- The router as it is built under bare names. -/
def plain (a : Assembled) : Built := ⟨a.file, a.around.function, a.assembly.plain⟩

/-- Reads the router at a site; methods build none. -/
def ofSite? (file : Option String) : Site → Option Assembled
  | .call around e => if around.inMethod then none else (Router.ofExpr? (fullName? around.module) e).map (⟨file, around, ·⟩)
  | _ => none

theorem eq_of_ofSite?_call {file : Option String} {around : Surroundings} {e : Expr} {a : Assembled}
    (h : ofSite? file (.call around e) = some a) :
    ∃ assembly, Router.ofExpr? (fullName? around.module) e = some assembly ∧ a = ⟨file, around, assembly⟩ := by
  rw [ofSite?] at h
  split at h
  · cases h
  · obtain ⟨assembly, hassembly, rfl⟩ := Option.map_eq_some_iff.mp h
    exact ⟨assembly, hassembly, rfl⟩

end Assembled

/-- The calls that routers are built with. -/
def isRouterCall (_ : Expr) (method : String) : Bool := method == "route" || method == "nest"

def sitesOf (f : SourceFile) : List Site := Site.ofItems isRouterCall { module := f.module } f.items

/-- The routers of a project. -/
def assembled (files : List SourceFile) : List Assembled :=
  files.flatMap fun f => (sitesOf f).filterMap (Assembled.ofSite? f.module)

/-- Whether nothing stands at a site but a function or a router that can be read. -/
def isAssembled (file : Option String) : Site → Bool
  | .function _ _ => true
  | site => (Assembled.ofSite? file site).isSome

/-- Whether the routers of a project are all built from `Router::new()`, `route` and `nest`, in functions. -/
def AllAssembled (files : List SourceFile) : Prop := ∀ f ∈ files, ∀ s ∈ sitesOf f, isAssembled f.module s = true

instance (files : List SourceFile) : Decidable (AllAssembled files) :=
  inferInstanceAs (Decidable (∀ f ∈ files, ∀ s ∈ sitesOf f, isAssembled f.module s = true))

section Survey
variable {κ α : Type} {v : Survey κ α} {known : Surroundings → κ} {found : Assembled → List α}

theorem flatMap_sites {file : Option String} {sites : List Site} (hsites : ∀ s ∈ sites, isAssembled file s = true)
    (hfunction : ∀ k h, (v.function k h).1 = [])
    (hfound : ∀ around e a, Router.ofExpr? (fullName? around.module) e = some a →
      v.expr (known around) e = found ⟨file, around, a⟩) :
    sites.flatMap (v.atSite known) = (sites.filterMap (Assembled.ofSite? file)).flatMap found := by
  induction sites with
  | nil => rfl
  | cons site sites ih =>
    rw [List.flatMap_cons, ih fun s hs => hsites s (.tail _ hs), List.filterMap_cons]
    have hsite := hsites site List.mem_cons_self
    cases site with
    | function around heading =>
      have hnone : Assembled.ofSite? file (.function around heading) = none := rfl
      rw [hnone, Survey.atSite, hfunction, List.nil_append]
    | call around e =>
      obtain ⟨a, ha⟩ := Option.isSome_iff_exists.mp hsite
      obtain ⟨assembly, hassembly, rfl⟩ := Assembled.eq_of_ofSite?_call ha
      rw [ha, List.flatMap_cons]
      exact congrArg (· ++ _) (hfound around e assembly hassembly)
    | hidden => cases hsite

/-- A survey that looks at the calls of `route` and `nest` finds what it finds in the routers of a project. -/
theorem flatMap_files {files : List SourceFile} (hread : AllAssembled files) (v : Option String → Survey κ α)
    (hlooks : ∀ file, (v file).LooksAt isRouterCall known) (hfunction : ∀ file k h, ((v file).function k h).1 = [])
    (hfound : ∀ file around e a, Router.ofExpr? (fullName? around.module) e = some a →
      (v file).expr (known around) e = found ⟨file, around, a⟩) :
    (files.flatMap fun f => (v f.module).items (known { module := f.module }) f.items) = (assembled files).flatMap found := by
  rw [assembled, List.flatMap_assoc]
  refine List.flatMap_congr fun f hf => ?_
  rw [(hlooks f.module).items_eq]
  exact flatMap_sites (hread f hf) (hfunction f.module) (hfound f.module)

end Survey

/-- A call in which functions go by their full names. -/
abbrev NamedCall := Call FunctionName

/-- The prefix of a call: the rules of the nestings around it in its function, and its own. -/
def Call.path {ν : Type} (c : Call ν) : String := c.rules.foldl joinRules ""

def namedCalls (project : List Assembled) : List NamedCall :=
  project.flatMap fun a => a.assembly.calls a.owner

/-- The calls that lead from a function outwards, each nesting the function in which the one before it stands. -/
inductive Chain (calls : List NamedCall) : Option FunctionName → List NamedCall → Prop where
  | outside : Chain calls none []
  | unmounted {function} : (∀ c ∈ calls, c.builder ≠ function) → Chain calls (some function) []
  | mounted {c function chain} : c ∈ calls → c.builder = function → Chain calls c.caller chain →
      Chain calls (some function) (c :: chain)

/-- The prefixes of a chain, joined from the outermost call inwards. -/
def chainPath (chain : List NamedCall) : String := chain.foldr (fun c mount => joinRules mount c.path) ""

/-- The functions that a chain leads through. -/
def functionsOn (function : Option FunctionName) (chain : List NamedCall) : List FunctionName :=
  function.toList ++ chain.filterMap Call.caller

theorem functionsOn_cons (function : FunctionName) (c : NamedCall) (chain : List NamedCall) :
    functionsOn (some function) (c :: chain) = function :: functionsOn c.caller chain := by
  rw [functionsOn, functionsOn, List.filterMap_cons]
  cases c.caller <;> rfl

structure NestedOnce (calls : List NamedCall) : Prop where
  once : (calls.map Call.builder).Nodup
  acyclic : ∀ function, ¬ Relation.TransGen (Encloses calls) function function

namespace Chain
variable {calls : List NamedCall} {function : Option FunctionName} {chain : List NamedCall}

/-- A function has at most one chain of calls that are told apart by what they nest. -/
theorem unique_of_injective (hinj : ∀ c ∈ calls, ∀ c' ∈ calls, c.builder = c'.builder → c = c')
    (h : Chain calls function chain) {other : List NamedCall} (h' : Chain calls function other) : chain = other := by
  induction h generalizing other with
  | outside =>
    cases h'
    rfl
  | unmounted hnone =>
    cases h' with
    | unmounted _ => rfl
    | mounted hc hb _ => exact absurd hb (hnone _ hc)
  | @mounted c f chain hc hb _ ih =>
    cases h' with
    | unmounted hnone => exact absurd hb (hnone _ hc)
    | @mounted c' _ chain' hc' hb' h' =>
      obtain rfl := hinj c hc c' hc' (hb.trans hb'.symm)
      rw [ih h']

theorem unique (once : (calls.map Call.builder).Nodup) (h : Chain calls function chain) {other : List NamedCall}
    (h' : Chain calls function other) : chain = other :=
  h.unique_of_injective (fun _ hc _ hc' => List.inj_on_of_nodup_map once hc hc') h'

theorem exists_of_callers {calls : List NamedCall} (function : FunctionName)
    (h : ∀ outer, Encloses calls outer function → ∃ chain, Chain calls (some outer) chain) :
    ∃ chain, Chain calls (some function) chain := by
  by_cases hmounted : ∃ c ∈ calls, c.builder = function
  · obtain ⟨c, hc, hb⟩ := hmounted
    cases hcaller : c.caller with
    | none => exact ⟨[c], .mounted hc hb (hcaller ▸ .outside)⟩
    | some outer =>
      obtain ⟨chain, hchain⟩ := h outer ⟨c, hc, hcaller, hb⟩
      exact ⟨c :: chain, .mounted hc hb (hcaller ▸ hchain)⟩
  · exact ⟨[], .unmounted fun c hc hb => hmounted ⟨c, hc, hb⟩⟩

/-- Without cycles every function has a chain: of the finitely many callers, none encloses itself. -/
theorem exists_of_acyclic (acyclic : ∀ function, ¬ Relation.TransGen (Encloses calls) function function)
    (function : Option FunctionName) : ∃ chain, Chain calls function chain := by
  cases function with
  | none => exact ⟨[], .outside⟩
  | some function =>
    have : IsStrictOrder FunctionName (Relation.TransGen (Encloses calls)) :=
      { irrefl := acyclic, trans := fun _ _ _ => Relation.TransGen.trans }
    have hfinite : {g | g ∈ calls.filterMap Call.caller}.Finite := List.finite_toSet _
    have hcaller {outer inner : FunctionName} (h : Encloses calls outer inner) :
        outer ∈ calls.filterMap Call.caller := by
      obtain ⟨c, hc, hf, _⟩ := h
      exact List.mem_filterMap.mpr ⟨c, hc, hf⟩
    refine exists_of_callers function fun outer houter => ?_
    have hwell : {g | g ∈ calls.filterMap Call.caller}.WellFoundedOn (Relation.TransGen (Encloses calls)) :=
      hfinite.wellFoundedOn
    refine hwell.induction (P := fun g => ∃ chain, Chain calls (some g) chain) (hcaller houter) fun g _ ih => ?_
    exact exists_of_callers g fun outer houter => ih outer (hcaller houter) (.single houter)

/-- The functions that the calls of a chain nest are the one it leads from and those around it. -/
theorem eq_or_encloses (h : Chain calls function chain) {c : NamedCall} (hc : c ∈ chain) :
    ∃ f, function = some f ∧ (c.builder = f ∨ Relation.TransGen (Encloses calls) c.builder f) := by
  induction h with
  | outside => cases hc
  | unmounted _ => cases hc
  | @mounted first f chain hfirst hb _ ih =>
    refine ⟨f, rfl, ?_⟩
    rcases List.mem_cons.mp hc with rfl | hc
    · exact .inl hb
    · obtain ⟨g, hg, hcg⟩ := ih hc
      have hstep : Encloses calls g f := ⟨first, hfirst, hg, hb⟩
      rcases hcg with rfl | hcg
      · exact .inr (.single hstep)
      · exact .inr (hcg.tail hstep)

theorem nodup (acyclic : ∀ function, ¬ Relation.TransGen (Encloses calls) function function)
    (h : Chain calls function chain) : chain.Nodup := by
  induction h with
  | outside => exact List.nodup_nil
  | unmounted _ => exact List.nodup_nil
  | @mounted c f chain hc hb hchain ih =>
    refine List.nodup_cons.mpr ⟨fun hmem => ?_, ih⟩
    obtain ⟨g, hg, hcg⟩ := hchain.eq_or_encloses hmem
    have hstep : Encloses calls g c.builder := ⟨c, hc, hg, rfl⟩
    rcases hcg with rfl | hcg
    · exact acyclic _ (.single hstep)
    · exact acyclic _ (hcg.tail hstep)

end Chain

end ApiHandbook.Project.Axum
