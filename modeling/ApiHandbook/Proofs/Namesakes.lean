import ApiHandbook.Proofs.Builders
import ApiHandbook.Proofs.Extraction

/-! Functions of one name in several modules. Mounts are noted under bare names, so that all these functions are taken to
be nested where the last of them is. -/
namespace ApiHandbook.Project.Axum
open Code

/-- The mounts met on the way from a function outwards, each noted for the function in which the one before it stands. -/
inductive Mounts.Leads (mounts : Mounts) : Option String → List (String × Mount) → Prop where
  | outside : Leads mounts none []
  | last {function} : mounts.lookup function = none → Leads mounts (some function) []
  | step {function mount met} : mounts.lookup function = some mount → Leads mounts mount.parent met →
      Leads mounts (some function) ((function, mount) :: met)

namespace Mounts.Leads
variable {mounts : Mounts} {function : String} {met : List (String × Mount)}

theorem chain_eq {function : Option String} (h : mounts.Leads function met) {allowed : Nat} (hlength : met.length ≤ allowed) :
    function.elim [] (mounts.chain allowed) = met.map fun m => m.2.path := by
  induction h generalizing allowed with
  | outside => rfl
  | last hlookup =>
    cases allowed with
    | zero => rfl
    | succ allowed =>
      rw [Option.elim_some, Mounts.chain, hlookup]
      rfl
  | @step _ mount _ hlookup _ ih =>
    cases allowed with
    | zero => cases hlength
    | succ allowed =>
      have htail := ih (Nat.le_of_succ_le_succ hlength)
      simp only [Option.elim_some, Mounts.chain, hlookup, List.map_cons]
      revert htail
      cases mount.parent <;> exact congrArg (mount.path :: ·)

theorem mem_keys {function : Option String} (h : mounts.Leads function met) {m : String × Mount} (hm : m ∈ met) :
    m.1 ∈ mounts.map Prod.fst := by
  induction h with
  | outside => cases hm
  | last _ => cases hm
  | step hlookup _ ih =>
    rcases List.mem_cons.mp hm with rfl | hm
    · obtain ⟨before, after, hsplit, _⟩ := List.lookup_eq_some_iff.mp hlookup
      exact List.mem_map.mpr ⟨_, hsplit ▸ List.mem_append_right _ List.mem_cons_self, rfl⟩
    · exact ih hm

/-- Following mounts is never cut as long as no function is met twice, since there are only so many of them. -/
theorem mountPath_eq (h : mounts.Leads (some function) met) (hnodup : (met.map Prod.fst).Nodup) :
    mounts.mountPath function = met.foldr (fun m mount => joinRules mount m.2.path) "" := by
  have hkeys : met.map Prod.fst ⊆ mounts.map Prod.fst := by
    intro name hname
    obtain ⟨m, hm, rfl⟩ := List.mem_map.mp hname
    exact h.mem_keys hm
  have hlength : met.length ≤ mounts.length := by
    simpa only [List.length_map] using hnodup.length_le_of_subset hkeys
  have hchain : mounts.chain (mounts.length + 1) function = met.map fun m => m.2.path :=
    h.chain_eq (Nat.le_succ_of_le hlength)
  rw [Mounts.mountPath, hchain, List.foldl_reverse, List.foldr_map]

end Mounts.Leads

/-- The last call that nests a function of a name, in whatever module. -/
def lastCall? (calls : List NamedCall) (name : String) : Option NamedCall :=
  calls.reverse.find? (·.builder.name == name)

/-- Whether the last call that nests a function of this name nests this very function, if there is one. -/
def Prevails (calls : List NamedCall) (function : FunctionName) : Prop :=
  (lastCall? calls function.name).all (·.builder == function) = true

instance (calls : List NamedCall) (function : FunctionName) : Decidable (Prevails calls function) :=
  inferInstanceAs (Decidable (_ = true))

theorem Prevails.eq {calls : List NamedCall} {function : FunctionName} (h : Prevails calls function) {c : NamedCall}
    (hc : lastCall? calls function.name = some c) : c.builder = function := by
  rw [Prevails, hc] at h
  exact beq_iff_eq.mp h

theorem mem_of_lastCall? {calls : List NamedCall} {name : String} {c : NamedCall} (h : lastCall? calls name = some c) :
    c ∈ calls := List.mem_reverse.mp (List.mem_of_find?_eq_some h)

theorem exists_lastCall? {calls : List NamedCall} {c : NamedCall} (hc : c ∈ calls) :
    ∃ last, lastCall? calls c.builder.name = some last := by
  rw [← Option.isSome_iff_exists, lastCall?, List.find?_isSome]
  exact ⟨c, List.mem_reverse.mpr hc, beq_self_eq_true _⟩

/-- Where the functions of a chain prevail, each of its calls is the last one for its name. -/
theorem Chain.lastCall?_eq {calls : List NamedCall} {function : Option FunctionName} {chain : List NamedCall}
    (h : Chain calls function chain) (once : (calls.map Call.builder).Nodup)
    (hprevail : ∀ g ∈ functionsOn function chain, Prevails calls g) {c : NamedCall} (hc : c ∈ chain) :
    lastCall? calls c.builder.name = some c := by
  induction h with
  | outside => cases hc
  | unmounted _ => cases hc
  | @mounted first f chain hfirst hb _ ih =>
    rw [functionsOn_cons] at hprevail
    rcases List.mem_cons.mp hc with rfl | hc
    · subst hb
      obtain ⟨last, hlast⟩ := exists_lastCall? hfirst
      have heq := (hprevail c.builder List.mem_cons_self).eq hlast
      rw [hlast, List.inj_on_of_nodup_map once (mem_of_lastCall? hlast) hfirst heq]
    · exact ih (fun g hg => hprevail g (.tail _ hg)) hc

/-- The mounts that are noted for a name are those of the calls of functions of that name, unless an empty router could
be taken for one. -/
theorem filter_mountsOf {name : String} (a : Assembly) (function : Option String) (around : List String)
    (hnew : name = "new" → ∀ n ∈ a.plain.nests around, n.2 ≠ .inline .new) :
    ((a.plain.nests around).flatMap (mountsOf function)).filter (·.1 == name) =
      ((a.mounted around).map fun (rules, builder) =>
        (builder.name, (⟨function, rules.foldl joinRules ""⟩ : Mount))).filter (·.1 == name) := by
  induction a generalizing around with
  | new => rfl
  | route base path bindings ih => exact ih around hnew
  | nest base rule inner ihb ihi =>
    have hinline : (mountsOf function (around ++ [rule], .inline inner.plain)).filter (·.1 == name) = [] := by
      cases hinner : inner.plain with
      | new =>
        refine List.filter_eq_nil_iff.mpr fun m hm hname => ?_
        obtain rfl := List.mem_singleton.mp hm
        exact hnew (beq_iff_eq.mp hname).symm _ (List.mem_append_right _ List.mem_cons_self) (congrArg _ hinner)
      | _ => rfl
    rw [Router.plain_nest, Router.nests, List.flatMap_append, List.flatMap_cons, List.filter_append, List.filter_append,
      hinline, List.nil_append, Router.mounted, List.map_append, List.filter_append,
      ihb around fun h n hn => hnew h n (List.mem_append_left _ hn),
      ihi (around ++ [rule]) fun h n hn => hnew h n (List.mem_append_right _ (.tail _ hn))]
  | mount base rule builder ih =>
    rw [Router.plain_mount, Router.nests, List.flatMap_append, List.flatMap_singleton, List.filter_append,
      Router.mounted, List.map_append, List.filter_append, ih around fun h n hn => hnew h n (List.mem_append_left _ hn)]
    rfl

theorem looksAt_nestings :
    nestings.LooksAt isRouterCall fun around => { function := around.function } where
  struct _ _ := rfl
  implementation _ _ _ _ := rfl
  imports _ _ := rfl
  function _ _ := rfl
  method _ := rfl
  module _ _ _ := rfl
  unselected k receiver method arguments h := by
    obtain ⟨hroute, hnest⟩ := Bool.or_eq_false_iff.mp h
    exact indifferent_nestings k receiver method arguments (beq_eq_false_iff_ne.mp hroute) (beq_eq_false_iff_ne.mp hnest)

theorem looksAt_registrations (mounts : Mounts) (file : Option String) :
    (registrations mounts file).LooksAt isRouterCall fun around => mounts.pathOf around.function where
  struct _ _ := rfl
  implementation _ _ _ _ := rfl
  imports _ _ := rfl
  function _ _ := rfl
  method _ := rfl
  module _ _ _ := rfl
  unselected k receiver method arguments h := by
    obtain ⟨hroute, hnest⟩ := Bool.or_eq_false_iff.mp h
    exact indifferent_registrations mounts file k receiver method arguments (beq_eq_false_iff_ne.mp hroute)
      (beq_eq_false_iff_ne.mp hnest)

section Assembled
variable {files : List SourceFile} (hread : AllAssembled files)
include hread

theorem nestings_assembled : (files.flatMap fun f => nestings.items {} f.items) =
    ((assembled files).map Assembled.plain).flatMap noted := by
  rw [List.flatMap_map]
  refine flatMap_files hread (fun _ => nestings) (fun _ => looksAt_nestings) (fun _ _ _ => rfl) fun file around e a h => ?_
  exact expr_nestings (builds_plain h) around.function []

theorem lookup_assembled (name : String) (hnew : name = "new" → ¬ NestsNew ((assembled files).map Assembled.plain)) :
    (Mounts.ofFiles files).lookup name = (lastCall? (namedCalls (assembled files)) name).map fun c =>
      ⟨c.caller.map FunctionName.name, c.path⟩ := by
  have hfilter : (((assembled files).map Assembled.plain).flatMap noted).filter (·.1 == name) =
      ((namedCalls (assembled files)).filter (·.builder.name == name)).map fun c =>
        (c.builder.name, ⟨c.caller.map FunctionName.name, c.path⟩) := by
    rw [namedCalls, List.flatMap_map, List.filter_flatMap, List.filter_flatMap, List.map_flatMap]
    refine List.flatMap_congr fun a ha => ?_
    rw [noted, Assembled.plain, filter_mountsOf, Router.calls, List.filter_map, List.filter_map, List.map_map,
      ← a.map_owner]
    · rfl
    · intro hname n hn heq
      exact hnew hname ⟨a.plain, List.mem_map_of_mem ha, n, hn, heq⟩
  rw [Mounts.ofFiles, nestings_assembled hread, lookup_foldl_put, List.lookup_nil, Option.or_none, lookup_reverse, hfilter,
    List.getLast?_map, Option.map_map, lastCall?, ← List.head?_filter, List.filter_reverse, List.head?_reverse]
  rfl

theorem mem_extracted_assembled {e : Endpoint} : e ∈ extracted files ↔ ∃ a ∈ assembled files,
    ∃ r ∈ a.assembly.plain.routes ((Mounts.ofFiles files).pathOf a.around.function), e ∈ endpointsAt a.file r := by
  have hroutes : routes files = (assembled files).flatMap fun a =>
      (a.assembly.plain.routes ((Mounts.ofFiles files).pathOf a.around.function)).flatMap (registered a.file) :=
    flatMap_files hread (registrations (Mounts.ofFiles files)) (looksAt_registrations _) (fun _ _ _ => rfl)
      fun file around e a h => expr_registrations _ file (builds_plain h) _
  rw [extracted, hroutes]
  simp only [List.flatMap_assoc, List.mem_flatMap (l := assembled files)]
  refine exists_congr fun a => and_congr_right fun _ => ?_
  rw [List.mem_flatMap]
  exact exists_congr fun r => and_congr_right fun _ => mem_endpoints_registered

section Prevailing
variable (hnest : NestedOnce (namedCalls (assembled files)))
  (hnew : NestsNew ((assembled files).map Assembled.plain) → ∀ a ∈ assembled files, a.around.function ≠ some "new")
include hnest hnew

/-- The calls of a chain are those that the mounts of its functions are noted for, if each of them is the last one for
its name. -/
theorem leads_of_chain {function : Option FunctionName} {chain : List NamedCall}
    (hchain : Chain (namedCalls (assembled files)) function chain)
    (hprevail : ∀ g ∈ functionsOn function chain, Prevails (namedCalls (assembled files)) g)
    (hfunction : NestsNew ((assembled files).map Assembled.plain) → function.map FunctionName.name ≠ some "new") :
    (Mounts.ofFiles files).Leads (function.map FunctionName.name)
      (chain.map fun c => (c.builder.name, ⟨c.caller.map FunctionName.name, c.path⟩)) := by
  induction hchain with
  | outside => exact .outside
  | @unmounted f hnone =>
    have hlookup := lookup_assembled hread f.name fun hname hnests => hfunction hnests (congrArg some hname)
    refine .last ?_
    cases hlast : lastCall? (namedCalls (assembled files)) f.name with
    | none => rw [hlookup, hlast, Option.map_none]
    | some c => exact absurd ((hprevail f List.mem_cons_self).eq hlast) (hnone c (mem_of_lastCall? hlast))
  | @mounted c f chain hc hb hchain ih =>
    subst hb
    have hlookup := lookup_assembled hread c.builder.name fun hname hnests =>
      hfunction hnests (congrArg some hname)
    have hlast := (Chain.mounted hc rfl hchain).lastCall?_eq hnest.once hprevail List.mem_cons_self
    rw [functionsOn_cons] at hprevail
    refine .step (by rw [hlookup, hlast, Option.map_some]) (ih (fun g hg => hprevail g (.tail _ hg)) fun hnests => ?_)
    obtain ⟨a, ha, hcall⟩ := List.mem_flatMap.mp hc
    obtain ⟨_, _, rfl⟩ := List.mem_map.mp hcall
    rw [Assembled.map_owner]
    exact hnew hnests a ha

theorem pathOf_of_chain {function : Option FunctionName} {chain : List NamedCall}
    (hchain : Chain (namedCalls (assembled files)) function chain)
    (hprevail : ∀ g ∈ functionsOn function chain, Prevails (namedCalls (assembled files)) g) {a : Assembled}
    (ha : a ∈ assembled files) (hname : a.around.function = function.map FunctionName.name) :
    (Mounts.ofFiles files).pathOf a.around.function = chainPath chain := by
  have hleads := leads_of_chain hread hnest hnew hchain hprevail fun hnests => hname ▸ hnew hnests a ha
  rw [← hname] at hleads
  cases hf : a.around.function with
  | none =>
    rw [hf] at hname
    obtain rfl := Option.map_eq_none_iff.mp hname.symm
    cases hchain
    rfl
  | some name =>
    rw [hf] at hleads
    rw [Mounts.pathOf, hleads.mountPath_eq, List.foldr_map]
    · rfl
    · rw [List.map_map]
      refine List.Nodup.map_on (fun c hc c' hc' heq => ?_) (hchain.nodup hnest.acyclic)
      have hlast := hchain.lastCall?_eq hnest.once hprevail hc
      have hlast' := hchain.lastCall?_eq hnest.once hprevail hc'
      exact Option.some.inj (hlast.symm.trans ((congrArg _ heq).trans hlast'))

end Prevailing

end Assembled

/-- Every function has one chain of calls around it. Routers built in functions of one name are all extracted under one
path: that of the chain of such a function whose nesting, as those of all functions around it, is the last for its name.
So a function of a name that others share too is extracted under its own chain if its nesting is the last one, and under
that of another function if not. -/
theorem extracted_of_prevailing {files : List SourceFile} (hread : AllAssembled files)
    (hnest : NestedOnce (namedCalls (assembled files)))
    (hnew : NestsNew ((assembled files).map Assembled.plain) → ∀ a ∈ assembled files, a.around.function ≠ some "new") :
    (∀ function, ∃! chain, Chain (namedCalls (assembled files)) function chain) ∧
    ∃ place : Option String → String,
      (∀ e, e ∈ extracted files ↔ ∃ a ∈ assembled files,
        ∃ r ∈ a.assembly.plain.routes (place a.around.function), e ∈ endpointsAt a.file r) ∧
      ∀ function chain, Chain (namedCalls (assembled files)) function chain →
        (∀ g ∈ functionsOn function chain, Prevails (namedCalls (assembled files)) g) →
        ∀ a ∈ assembled files, a.around.function = function.map FunctionName.name →
          place a.around.function = chainPath chain := by
  refine ⟨fun function => ?_, (Mounts.ofFiles files).pathOf, fun e => mem_extracted_assembled hread, ?_⟩
  · obtain ⟨chain, hchain⟩ := Chain.exists_of_acyclic hnest.acyclic function
    exact ⟨chain, hchain, fun _ h => h.unique hnest.once hchain⟩
  · intro function chain hchain hprevail a ha hname
    exact pathOf_of_chain hread hnest hnew hchain hprevail ha hname

/-- Two modules that build their routers in functions of one name. -/
def planner : List SourceFile := filesOf
  [(none, "fn app() -> Router \x7b Router::new().nest(\"/users\", users::routes()).nest(\"/todos\", todos::routes()) \x7d"),
    (some "users", "fn routes() -> Router \x7b Router::new().route(\"/all\", get(all_users)) \x7d"),
    (some "todos", "fn routes() -> Router \x7b Router::new().route(\"/open\", get(open_todos)).nest(\"/old\", archive()) \x7d " ++
      "fn archive() -> Router \x7b Router::new().route(\"/done\", get(done_todos)) \x7d")]

def plannerRouters : List Assembled :=
  [⟨none, ⟨none, some "app", false⟩, .mount (.mount .new "/users" ⟨some "users", "routes"⟩) "/todos" ⟨some "todos", "routes"⟩⟩,
    ⟨some "users", ⟨some "users", some "routes", false⟩, .route .new "/all" [("GET", ⟨none, "all_users"⟩)]⟩,
    ⟨some "todos", ⟨some "todos", some "routes", false⟩,
      .mount (.route .new "/open" [("GET", ⟨none, "open_todos"⟩)]) "/old" ⟨some "todos", "archive"⟩⟩,
    ⟨some "todos", ⟨some "todos", some "archive", false⟩, .route .new "/done" [("GET", ⟨none, "done_todos"⟩)]⟩]

def plannerCalls : List NamedCall :=
  [⟨some ⟨none, "app"⟩, ["/users"], ⟨some "users", "routes"⟩⟩, ⟨some ⟨none, "app"⟩, ["/todos"], ⟨some "todos", "routes"⟩⟩,
    ⟨some ⟨some "todos", "routes"⟩, ["/old"], ⟨some "todos", "archive"⟩⟩]

theorem read_planner : AllAssembled planner ∧ assembled planner = plannerRouters ∧ extracted planner =
    [⟨"/todos/all", "GET", some "users", "all_users"⟩, ⟨"/todos/open", "GET", some "todos", "open_todos"⟩,
      ⟨"/todos/old/done", "GET", some "todos", "done_todos"⟩] := by decide +kernel

theorem namedCalls_planner : namedCalls (assembled planner) = plannerCalls := by
  rw [read_planner.2.1]
  decide

theorem nestedOnce_planner : NestedOnce plannerCalls :=
  ⟨by decide, acyclic_of_rank (·.name.length) (by decide)⟩

theorem chain_routes_planner (module : Option String) (path : String)
    (h : ⟨some ⟨none, "app"⟩, [path], ⟨module, "routes"⟩⟩ ∈ plannerCalls) :
    Chain plannerCalls (some ⟨module, "routes"⟩) [⟨some ⟨none, "app"⟩, [path], ⟨module, "routes"⟩⟩] :=
  .mounted h rfl (.unmounted (by decide))

theorem routes_under_last_path : AllAssembled planner ∧ NestedOnce (namedCalls (assembled planner)) ∧
    ∃ place : Option String → String,
    (∀ e, e ∈ extracted planner ↔ ∃ a ∈ assembled planner,
      ∃ r ∈ a.assembly.plain.routes (place a.around.function), e ∈ endpointsAt a.file r) ∧
    place (some "routes") = "/todos" ∧ place (some "archive") = "/todos/old" := by
  have hnest : NestedOnce (namedCalls (assembled planner)) := namedCalls_planner ▸ nestedOnce_planner
  have hnew : NestsNew ((assembled planner).map Assembled.plain) →
      ∀ a ∈ assembled planner, a.around.function ≠ some "new" := fun _ => by
    rw [read_planner.2.1]
    decide
  obtain ⟨place, hextracted, hplace⟩ :=
    (extracted_of_prevailing read_planner.1 hnest hnew).2
  rw [namedCalls_planner, read_planner.2.1] at hplace
  have hroutes := chain_routes_planner (some "todos") "/todos" (by decide)
  have harchive : Chain plannerCalls (some ⟨some "todos", "archive"⟩) _ :=
    .mounted (.tail _ (.tail _ (.head _))) rfl hroutes
  refine ⟨read_planner.1, hnest, place, hextracted, ?_, ?_⟩
  · exact hplace _ _ hroutes (by decide) _ (.tail _ (.head _)) rfl
  · exact hplace _ _ harchive (by decide) _ (.tail _ (.tail _ (.tail _ (.head _)))) rfl

/-- The routes of one of two functions of the same name are extracted under the path of the other. -/
theorem route_of_namesake_misplaced : AllAssembled planner ∧ NestedOnce (namedCalls (assembled planner)) ∧
    ∃ a ∈ assembled planner, ∃ chain, Chain (namedCalls (assembled planner)) a.owner chain ∧
      ∃ r ∈ a.assembly.plain.routes (chainPath chain), ∃ e ∈ endpointsAt a.file r, e ∉ extracted planner := by
  obtain ⟨hread, hassembled, hextracted⟩ := read_planner
  rw [namedCalls_planner, hassembled, hextracted]
  refine ⟨hread, nestedOnce_planner, _, .tail _ (.head _), _, chain_routes_planner (some "users") "/users" (by decide), ?_⟩
  exact ⟨_, .head _, _, .head _, by decide⟩

end ApiHandbook.Project.Axum
