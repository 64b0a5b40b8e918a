import ApiHandbook.Proofs.Mounting

/-! The registrations extracted from a project are the routes that its routers have, each under the path where its
router is mounted. -/
namespace ApiHandbook.Project.Axum
open Code

/-- The routes of a router mounted under a path, each with the verbs and handlers bound there. -/
def Router.routes (mount : String) : Router String → List (String × List (String × FunctionName))
  | .new => []
  | .route base rule bindings => base.routes mount ++ [(joinRules mount rule, bindings)]
  | .nest base rule inner => base.routes mount ++ inner.routes (joinRules mount rule)
  | .mount base _ _ => base.routes mount

/-- A verb that is bound to a handler at a path. -/
structure Endpoint where
  path : String
  verb : String
  /-- The module that qualifies the handler, or else the module of the file. -/
  module : Option String
  handler : String
  deriving DecidableEq, Repr

def FoundRoute.endpoints (found : FoundRoute) : List Endpoint :=
  match found.target with
  | .function name => found.methods.map fun verb => ⟨found.path, verb, found.module, name⟩
  | .resource _ => []

/-- What is extracted from a project. -/
def extracted (files : List SourceFile) : List Endpoint := (routes files).flatMap FoundRoute.endpoints

def endpointsAt (module : Option String) : String × List (String × FunctionName) → List Endpoint
  | (path, bindings) => bindings.map fun (verb, handler) => ⟨path, verb, handler.module <|> module, handler.name⟩

/-- What the routers of a project mean. -/
def Denotes (built : List Built) (e : Endpoint) : Prop :=
  ∃ b ∈ built, ∃ mount, MountPath (calls built) b.function mount ∧
    ∃ r ∈ b.router.routes mount, e ∈ endpointsAt b.module r

theorem mem_addVerb {handler : FunctionName} {verb : String} {groups : List (FunctionName × List String)}
    {h : FunctionName} {v : String} : (∃ g ∈ addVerb handler verb groups, g.1 = h ∧ v ∈ g.2) ↔
      (∃ g ∈ groups, g.1 = h ∧ v ∈ g.2) ∨ (handler = h ∧ v = verb) := by
  induction groups with
  | nil => simp [addVerb]
  | cons group groups ih =>
    obtain ⟨first, verbs⟩ := group
    rw [addVerb]
    split
    · rename_i hf
      subst hf
      simp only [List.mem_cons, exists_eq_or_imp, List.mem_append, List.not_mem_nil, or_false]
      rw [and_or_left, or_right_comm]
    · simp only [List.mem_cons, exists_eq_or_imp, ih]
      rw [or_assoc]

theorem mem_byHandler {bindings : List (String × FunctionName)} {h : FunctionName} {v : String} :
    (∃ g ∈ byHandler bindings, g.1 = h ∧ v ∈ g.2) ↔ (v, h) ∈ bindings := by
  have hfold (groups : List (FunctionName × List String)) :
      (∃ g ∈ bindings.foldl (fun groups (verb, handler) => addVerb handler verb groups) groups, g.1 = h ∧ v ∈ g.2) ↔
        (∃ g ∈ groups, g.1 = h ∧ v ∈ g.2) ∨ (v, h) ∈ bindings := by
    induction bindings generalizing groups with
    | nil => simp
    | cons binding bindings ih =>
      obtain ⟨verb, handler⟩ := binding
      rw [List.foldl_cons, ih, mem_addVerb, List.mem_cons, Prod.mk.injEq, or_assoc, eq_comm (a := h), and_comm]
  exact (hfold []).trans (by simp)

/-- The registrations that are noted for a route: one for each of its handlers. -/
def registered (module : Option String) : String × List (String × FunctionName) → List FoundRoute
  | (path, bindings) => (byHandler bindings).map fun (handler, verbs) =>
    ⟨path, verbs, .function handler.name, handler.module <|> module⟩

theorem mem_endpoints_registered {module : Option String} {r : String × List (String × FunctionName)} {e : Endpoint} :
    e ∈ (registered module r).flatMap FoundRoute.endpoints ↔ e ∈ endpointsAt module r := by
  obtain ⟨path, bindings⟩ := r
  simp only [registered, endpointsAt, List.mem_flatMap, List.mem_map]
  constructor
  · rintro ⟨_, ⟨⟨handler, verbs⟩, hg, rfl⟩, he⟩
    obtain ⟨verb, hv, rfl⟩ := List.mem_map.mp he
    exact ⟨(verb, handler), mem_byHandler.mp ⟨_, hg, rfl, hv⟩, rfl⟩
  · rintro ⟨⟨verb, handler⟩, hb, rfl⟩
    obtain ⟨⟨_, verbs⟩, hg, rfl, hv⟩ := mem_byHandler.mpr hb
    exact ⟨_, ⟨_, hg, rfl⟩, List.mem_map.mpr ⟨verb, hv, rfl⟩⟩

theorem indifferent_registrations (mounts : Mounts) (module : Option String) :
    Indifferent (registrations mounts module) := by
  intro k receiver method arguments hroute hnest
  simp only [registrations, nesting?_eq_none hnest, if_neg hroute]

theorem expr_registrations (mounts : Mounts) (module : Option String) {e : Expr} {router : Router String}
    (h : Builds Path.last? e router) (mount : String) :
    (registrations mounts module).expr mount e = (router.routes mount).flatMap (registered module) := by
  induction h generalizing mount with
  | new _ => rfl
  | @route base router path argument bindings _ hb ih =>
    have hcall : (registrations mounts module).call mount base "route" [.literal (.text path), argument] =
        { found := registered module (joinRules mount path, methodRouter argument), inside := mount } := rfl
    rw [Survey.expr, hcall, ih, Router.routes, List.flatMap_append, List.flatMap_singleton, methodRouter_eq hb]
    simp [Survey.exprs, Survey.expr, expr_bindings (indifferent_registrations mounts module) hb]
  | @nest base router rule argument inner _ hi ihb ihi =>
    have hcall : (registrations mounts module).call mount base "nest" [.literal (.text rule), argument] =
        { inside := joinRules mount rule, only := some 1 } := rfl
    rw [Survey.expr, hcall, ihb, Router.routes, List.flatMap_append, ← ihi, List.append_nil]
    rfl
  | @mount base router rule argument builder _ hb ih =>
    have hcall : (registrations mounts module).call mount base "nest" [.literal (.text rule), argument] =
        { inside := joinRules mount rule, only := some 1 } := rfl
    rw [Survey.expr, hcall, ih, Router.routes]
    simp [Survey.nth, expr_builder hb]

/-- The path that is known where a router is built. -/
def Mounts.pathOf (mounts : Mounts) : Option String → String
  | none => ""
  | some function => mounts.mountPath function

theorem reads_registrations (mounts : Mounts) (module : Option String) :
    Reads (registrations mounts module) module mounts.pathOf
      fun b => (b.router.routes (mounts.pathOf b.function)).flatMap (registered b.module) where
  struct _ _ := rfl
  implementation _ _ _ _ := rfl
  module_eq _ _ _ := rfl
  imports _ _ := rfl
  function_eq _ _ := rfl
  indifferent := indifferent_registrations mounts module
  router _ _ _ h := expr_registrations mounts module (builds_of_ofExpr? h) _

theorem registrations_files (mounts : Mounts) {files : List SourceFile} {built : List Built}
    (hread : Built.ofFiles? files = some built) :
    (files.flatMap fun f => (registrations mounts f.module).items "" f.items) =
      built.flatMap fun b => (b.router.routes (mounts.pathOf b.function)).flatMap (registered b.module) :=
  Reads.files_eq (reads_registrations mounts) hread

theorem mem_extracted {files : List SourceFile} {built : List Built} (hread : Built.ofFiles? files = some built)
    {e : Endpoint} : e ∈ extracted files ↔
      ∃ b ∈ built, ∃ r ∈ b.router.routes ((Mounts.ofFiles files).pathOf b.function), e ∈ endpointsAt b.module r := by
  rw [extracted, routes, registrations_files (Mounts.ofFiles files) hread]
  simp only [List.flatMap_assoc, List.mem_flatMap (l := built)]
  refine exists_congr fun b => and_congr_right fun _ => ?_
  rw [List.mem_flatMap]
  exact exists_congr fun r => and_congr_right fun _ => mem_endpoints_registered

/-- The items of a file or an inline module in another order, also within their modules. -/
inductive Reordered : List Item → List Item → Prop where
  | refl items : Reordered items items
  | swap i j items : Reordered (i :: j :: items) (j :: i :: items)
  | cons i {items items'} : Reordered items items' → Reordered (i :: items) (i :: items')
  | module name inline items {members members'} : Reordered members members' →
      Reordered (.module name inline members :: items) (.module name inline members' :: items)
  | trans {items items' items''} : Reordered items items' → Reordered items' items'' → Reordered items items''

/-- The files of a project in another order, each with its items in another order. -/
inductive Rearranged : List SourceFile → List SourceFile → Prop where
  | refl files : Rearranged files files
  | swap f g files : Rearranged (f :: g :: files) (g :: f :: files)
  | cons f {files files'} : Rearranged files files' → Rearranged (f :: files) (f :: files')
  | items {f f'} files : f'.module = f.module → Reordered f.items f'.items → Rearranged (f :: files) (f' :: files)
  | trans {files files' files''} : Rearranged files files' → Rearranged files' files'' → Rearranged files files''

/-- Whether the second list is there, in any order, when the first one is. -/
def Permuted (a b : Option (List Built)) : Prop := ∀ l, a = some l → ∃ l', b = some l' ∧ l'.Perm l

namespace Permuted
variable {a a' b b' c : Option (List Built)}

theorem refl (a : Option (List Built)) : Permuted a a := fun l h => ⟨l, h, .refl l⟩

theorem trans (h : Permuted a b) (h' : Permuted b c) : Permuted a c := by
  intro l hl
  obtain ⟨l', hl', hperm⟩ := h l hl
  obtain ⟨l'', hl'', hperm'⟩ := h' l' hl'
  exact ⟨l'', hl'', hperm'.trans hperm⟩

theorem both? (h : Permuted a a') (h' : Permuted b b') : Permuted (Built.both? a b) (Built.both? a' b') := by
  intro l hl
  obtain ⟨x, y, hx, hy, rfl⟩ := Built.both?_eq_some.mp hl
  obtain ⟨x', hx', hperm⟩ := h x hx
  obtain ⟨y', hy', hperm'⟩ := h' y hy
  exact ⟨x' ++ y', Built.both?_eq_some.mpr ⟨x', y', hx', hy', rfl⟩, hperm.append hperm'⟩

theorem swap (a b c : Option (List Built)) :
    Permuted (Built.both? a (Built.both? b c)) (Built.both? b (Built.both? a c)) := by
  intro l hl
  obtain ⟨x, _, hx, hr, rfl⟩ := Built.both?_eq_some.mp hl
  obtain ⟨y, z, hy, hz, rfl⟩ := Built.both?_eq_some.mp hr
  refine ⟨y ++ (x ++ z), Built.both?_eq_some.mpr ⟨y, _, hy, Built.both?_eq_some.mpr ⟨x, z, hx, hz, rfl⟩, rfl⟩, ?_⟩
  rw [← List.append_assoc, ← List.append_assoc]
  exact List.perm_append_comm.append_right z

end Permuted

theorem Reordered.permuted {items items' : List Item} (h : Reordered items items') (module function : Option String) :
    Permuted (Built.items? module function items) (Built.items? module function items') := by
  induction h with
  | refl _ => exact .refl _
  | swap i j items => exact .swap _ _ _
  | cons i _ ih => exact .both? (.refl _) ih
  | module name inline items _ ih => exact .both? ih (.refl _)
  | trans _ _ ih ih' => exact ih.trans ih'

theorem Rearranged.permuted {files files' : List SourceFile} (h : Rearranged files files') :
    Permuted (Built.ofFiles? files) (Built.ofFiles? files') := by
  induction h with
  | refl _ => exact .refl _
  | swap f g files => exact .swap _ _ _
  | cons f _ ih => exact .both? (.refl _) ih
  | items files hmodule hitems =>
    exact .both? (hmodule ▸ hitems.permuted _ none) (.refl _)
  | trans _ _ ih ih' => exact ih.trans ih'

section Perm
variable {built built' : List Built} (hperm : built'.Perm built)
include hperm

theorem calls_perm : (calls built').Perm (calls built) := hperm.flatMap_right _

theorem nestsNew_perm (h : NestsNew built') : NestsNew built := by
  obtain ⟨b, hb, hn⟩ := h
  exact ⟨b, hperm.mem_iff.mp hb, hn⟩

theorem encloses_perm {outer inner : String} (h : Encloses (calls built') outer inner) :
    Encloses (calls built) outer inner := by
  obtain ⟨c, hc, hn⟩ := h
  exact ⟨c, (calls_perm hperm).mem_iff.mp hc, hn⟩

theorem wellNested_perm (h : WellNested built) : WellNested built' where
  solid b hb := h.solid b (hperm.mem_iff.mp hb)
  once := ((calls_perm hperm).map Call.builder).nodup_iff.mpr h.once
  acyclic function hcycle := 
    h.acyclic function (Relation.TransGen.mono (fun _ _ => encloses_perm hperm) _ _ hcycle)

theorem denotes_perm {e : Endpoint} : Denotes built' e ↔ Denotes built e := by
  have hpath {function : Option String} {mount : String} :
      MountPath (calls built') function mount ↔ MountPath (calls built) function mount :=
    ⟨.of_mem_iff fun _ => (calls_perm hperm).mem_iff, .of_mem_iff fun _ => (calls_perm hperm).mem_iff.symm⟩
  simp only [Denotes, hpath, hperm.mem_iff]

end Perm

section Denoted
variable {files : List SourceFile} {built : List Built}

theorem mountPath_pathOf (hread : Built.ofFiles? files = some built) (hnest : WellNested built)
    (hnew : NestsNew built → ∀ b ∈ built, b.function ≠ some "new") {b : Built} (hb : b ∈ built) :
    MountPath (calls built) b.function ((Mounts.ofFiles files).pathOf b.function) := by
  cases hf : b.function with
  | none => exact .outside
  | some function =>
    refine mountPath_mountPath hread hnest hnew ?_
    rintro hnests rfl
    exact hnew hnests b hb hf

theorem mem_extracted_iff (hread : Built.ofFiles? files = some built) (hnest : WellNested built)
    (hnew : NestsNew built → ∀ b ∈ built, b.function ≠ some "new") (e : Endpoint) :
    e ∈ extracted files ↔ Denotes built e := by
  rw [mem_extracted hread]
  refine exists_congr fun b => and_congr_right fun hb => ?_
  have hpath := mountPath_pathOf hread hnest hnew hb
  constructor
  · intro h
    exact ⟨_, hpath, h⟩
  · rintro ⟨mount, hmount, h⟩
    rwa [← hmount.unique hnest.once hpath]

/-- The endpoints that are extracted from a project are those that its routers denote, each router having one mount
path, in whatever order files and functions stand; unless an empty router is nested as it stands while a function that
builds a router is named `new`. If no call nests such a function, its routes are extracted under another path than that
of its mount. -/
theorem extracted_of_wellNested (hread : Built.ofFiles? files = some built) (hnest : WellNested built) :
    ((NestsNew built → ∀ b ∈ built, b.function ≠ some "new") →
      (∀ b ∈ built, ∃! mount, MountPath (calls built) b.function mount) ∧
      (∀ e, e ∈ extracted files ↔ Denotes built e) ∧
      ∀ files', Rearranged files files' → ∀ e, e ∈ extracted files' ↔ e ∈ extracted files) ∧
    (NestsNew built → (∀ c ∈ calls built, c.builder ≠ "new") → ∃ mount, mount ≠ "" ∧
      MountPath (calls built) (some "new") "" ∧ ∀ b ∈ built, b.function = some "new" →
        ∀ r ∈ b.router.routes mount, ∀ e ∈ endpointsAt b.module r, e ∈ extracted files) := by
  constructor
  · intro hnew
    refine ⟨fun b hb => ?_, mem_extracted_iff hread hnest hnew, fun files' hfiles e => ?_⟩
    · have hpath := mountPath_pathOf hread hnest hnew hb
      exact ⟨_, hpath, fun _ hmount => hmount.unique hnest.once hpath⟩
    · obtain ⟨built', hread', hperm⟩ := hfiles.permuted built hread
      have hnew' : NestsNew built' → ∀ b ∈ built', b.function ≠ some "new" := fun hnests b hb =>
        hnew (nestsNew_perm hperm hnests) b (hperm.mem_iff.mp hb)
      rw [mem_extracted_iff hread' (wellNested_perm hperm hnest) hnew', mem_extracted_iff hread hnest hnew,
        denotes_perm hperm]
  · intro hnests hnone
    have hsolid := solid_mountPath_new hread hnest hnests
    refine ⟨(Mounts.ofFiles files).mountPath "new", ?_, .unmounted hnone, ?_⟩
    · intro hempty
      obtain ⟨c, hc, _⟩ := hempty ▸ hsolid
      cases hc
    · intro b hb hf r hr e he
      refine (mem_extracted hread).mpr ⟨b, hb, r, ?_, he⟩
      rw [hf]
      exact hr

end Denoted

/-- The files of the given modules and texts. -/
def filesOf (texts : List (Option String × String)) : List SourceFile :=
  texts.filterMap fun (module, text) => (SourceFile.ofText "" module text).toOption

def shop : List SourceFile := filesOf
  [(none, "fn app() -> Router \x7b Router::new().route(\"/\", get(index)).nest(\"/api\", Router::new()" ++
      ".nest(\"/v1/\", goods::router()).nest(\"/later\", Router::new())) \x7d"),
    (some "goods", "fn router() -> Router \x7b Router::new().route(\"/goods\", get(list).post(create)) \x7d")]

def shopRouters : List Built :=
  [⟨none, some "app", .nest (.route .new "/" [("GET", ⟨none, "index"⟩)]) "/api"
      (.nest (.mount .new "/v1/" "router") "/later" .new)⟩,
    ⟨some "goods", some "router", .route .new "/goods" [("GET", ⟨none, "list"⟩), ("POST", ⟨none, "create"⟩)]⟩]

theorem shop_extracted : Built.ofFiles? shop = some shopRouters ∧ WellNested shopRouters ∧
    ∀ e, e ∈ extracted shop ↔ Denotes shopRouters e := by
  have hread : Built.ofFiles? shop = some shopRouters := by decide +kernel
  have hnest : WellNested shopRouters :=
    ⟨by decide +kernel, by decide +kernel, acyclic_of_rank String.length (by decide +kernel)⟩
  exact ⟨hread, hnest, ((extracted_of_wellNested hread hnest).1 fun _ => by decide +kernel).2.1⟩

def mistakable : List SourceFile := filesOf
  [(none, "fn app() -> Router \x7b Router::new().nest(\"/v1\", Router::new()) \x7d " ++
      "fn new() -> Router \x7b Router::new().route(\"/a\", get(a)) \x7d")]

def mistakableRouters : List Built :=
  [⟨none, some "app", .nest .new "/v1" .new⟩, ⟨none, some "new", .route .new "/a" [("GET", ⟨none, "a"⟩)]⟩]

/-- The route of a function named `new`, which is nested nowhere, is extracted under the path of an empty router. -/
theorem route_of_new_misplaced : Built.ofFiles? mistakable = some mistakableRouters ∧ WellNested mistakableRouters ∧
    Denotes mistakableRouters ⟨"/a", "GET", none, "a"⟩ ∧
    extracted mistakable = [⟨"/v1/a", "GET", none, "a"⟩] := by
  refine ⟨by decide +kernel, ⟨by decide +kernel, by decide +kernel, ?_⟩, ?_, by decide +kernel⟩
  · exact acyclic_of_rank String.length (by decide +kernel)
  · exact ⟨_, .tail _ (.head _), "", .unmounted (by decide +kernel), _, .head _, .head _⟩

end ApiHandbook.Project.Axum
