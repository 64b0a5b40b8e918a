import ApiHandbook.Project.Registry
import ApiHandbook.Proofs.Case
import ApiHandbook.Proofs.Naming.Word

/-! What surveys find in items whose names have a property. The routes that frameworks register point at functions by
such names and have their methods in capitals; the other registrations point at resources. -/
namespace ApiHandbook.Code.Survey
variable {κ α : Type} {v : Survey κ α} {p : String → Prop} {Q : α → Prop}

/-- Whether a survey finds only what has a property where the names around have one. -/
structure Finds (v : Survey κ α) (p : String → Prop) (Q : α → Prop) : Prop where
  function : ∀ k heading, p heading.name → ∀ a ∈ (v.function k heading).1, Q a
  struct : ∀ k heading, ∀ a ∈ v.struct k heading, Q a
  implementation : ∀ k traitName selfName members found, v.implementation k traitName selfName members = some found →
    ∀ a ∈ found, Q a
  imports : ∀ k roots, ∀ a ∈ v.imports k roots, Q a
  call : ∀ k receiver method arguments, receiver.Named p → Expr.AllNamed p arguments →
    ∀ a ∈ (v.call k receiver method arguments).found, Q a

namespace Finds

mutual

theorem expr (h : v.Finds p Q) (k : κ) (e : Expr) (he : e.Named p) : ∀ a ∈ v.expr k e, Q a := by
  cases e with
  | literal _ => exact nofun
  | path _ _ inner => exact h.exprs k inner he.2
  | negation operand => exact h.expr k operand he
  | assignment target value =>
    rw [Survey.expr, List.forall_mem_append]
    exact ⟨h.expr k target he.1, h.expr k value he.2⟩
  | array items => exact h.exprs k items he
  | tuple items => exact h.exprs k items he
  | parenthesized inner => exact h.expr k inner he
  | reference inner => exact h.expr k inner he
  | call function arguments =>
    rw [Survey.expr, List.forall_mem_append]
    exact ⟨h.expr k function he.1, h.exprs k arguments he.2⟩
  | methodCall receiver method arguments =>
    rw [Survey.expr, List.forall_mem_append, List.forall_mem_append]
    refine ⟨⟨h.expr k receiver he.1, h.call k receiver method arguments he.1 he.2⟩, ?_⟩
    split
    · exact h.exprs _ arguments he.2
    · exact h.nth _ _ arguments he.2
  | construction _ fields => exact h.exprs k fields he
  | vector _ _ => exact nofun
  | item i => exact h.item k i he
  | other inner => exact h.exprs k inner he

theorem exprs (h : v.Finds p Q) (k : κ) (es : List Expr) (hes : Expr.AllNamed p es) : ∀ a ∈ v.exprs k es, Q a := by
  cases es with
  | nil => exact nofun
  | cons e rest =>
    rw [Survey.exprs, List.forall_mem_append]
    exact ⟨h.expr k e hes.1, h.exprs k rest hes.2⟩

theorem nth (h : v.Finds p Q) (k : κ) (n : Nat) (es : List Expr) (hes : Expr.AllNamed p es) : ∀ a ∈ v.nth k n es, Q a := by
  cases es with
  | nil =>
    rw [Survey.nth]
    exact nofun
  | cons e rest =>
    cases n with
    | zero => exact h.expr k e hes.1
    | succ n => exact h.nth k n rest hes.2

theorem item (h : v.Finds p Q) (k : κ) (i : Item) (hi : i.Named p) : ∀ a ∈ v.item k i, Q a := by
  cases i with
  | function heading body =>
    rw [Survey.item, List.forall_mem_append]
    exact ⟨h.function k heading hi.1, h.exprs _ body hi.2⟩
  | method _ body => exact h.exprs k body hi
  | struct heading inner =>
    rw [Survey.item, List.forall_mem_append]
    exact ⟨h.struct k heading, h.exprs k inner hi⟩
  | implementation traitName selfName inner members =>
    rw [Survey.item]
    split
    · rename_i found hfound
      exact h.implementation k traitName selfName members found hfound
    · rw [List.forall_mem_append]
      exact ⟨h.exprs k inner hi.1, h.items k members hi.2⟩
  | module name inline members => exact h.items _ members hi
  | imports roots => exact h.imports k roots
  | other inner => exact h.exprs k inner hi

theorem items (h : v.Finds p Q) (k : κ) (is : List Item) (his : Item.AllNamed p is) : ∀ a ∈ v.items k is, Q a := by
  cases is with
  | nil => exact nofun
  | cons i rest =>
    rw [Survey.items, List.forall_mem_append]
    exact ⟨h.item k i his.1, h.items k rest his.2⟩

end

end Finds
end ApiHandbook.Code.Survey

namespace ApiHandbook.Project
open Code

/-- The name of what a registration points at. -/
def Target.name : Target → String
  | .function name => name
  | .resource name => name

/-- Whether a route points at a function by a name with a property, and has its methods in capitals. -/
structure FoundRoute.ToFunction (p : String → Prop) (r : FoundRoute) : Prop where
  target : r.target = .function r.target.name
  name : p r.target.name
  methods : ∀ method ∈ r.methods, upperMethod method = method

section
variable {p : String → Prop}

theorem upperMethod_of_verb? {name verb : String} (h : verb? name = some verb) : upperMethod verb = verb := by
  rw [verb?, Option.ite_none_right_eq_some] at h
  obtain ⟨-, heq⟩ := h
  rw [← Option.some.inj heq]
  exact Text.upperMethod_upperMethod name

theorem name_of_ofPath? {q : Path} (hq : q.Named p) {f : FunctionName} (h : FunctionName.ofPath? q = some f) :
    p f.name := by
  obtain ⟨name, hname, rfl⟩ := Option.map_eq_some_iff.mp h
  obtain ⟨s, hs, rfl⟩ := List.mem_map.mp (List.mem_of_getLast? hname)
  exact hq s hs

namespace Axum

theorem name_of_handlerName? {e : Expr} (he : e.Named p) {f : FunctionName} (h : handlerName? e = some f) :
    p f.name := by
  induction e using handlerName?.induct with
  | case1 qualified q inner => exact name_of_ofPath? he.1 h
  | case2 inner ih => exact ih he h
  | case3 e hpath hreference =>
    rw [handlerName?] at h
    · cases h
    · exact hpath
    · exact hreference

/-- Whether a binding is to a function whose name has a property, under a verb in capitals. -/
def Bound (p : String → Prop) (binding : String × FunctionName) : Prop :=
  upperMethod binding.1 = binding.1 ∧ p binding.2.name

theorem bound_of_binding? {function : String} {arguments : List Expr} (harguments : Expr.AllNamed p arguments)
    {binding : String × FunctionName} (h : binding? function arguments = some binding) : Bound p binding := by
  obtain ⟨verb, hverb, h⟩ := Option.bind_eq_some_iff.mp h
  obtain ⟨handler, hhandler, h⟩ := Option.bind_eq_some_iff.mp h
  obtain rfl := Option.some.inj h
  obtain ⟨e, he, hname⟩ := Option.bind_eq_some_iff.mp hhandler
  have hnamed := Expr.allNamed_iff.mp harguments e (List.mem_of_mem_head? he)
  exact ⟨upperMethod_of_verb? hverb, name_of_handlerName? hnamed hname⟩

theorem bound_of_mem_methodRouter {e : Expr} (he : e.Named p) : ∀ binding ∈ methodRouter e, Bound p binding := by
  induction e using methodRouter.induct with
  | case1 receiver method arguments ih =>
    rw [methodRouter, List.forall_mem_append]
    exact ⟨ih he.1, fun binding hb => bound_of_binding? he.2 (Option.mem_toList.mp hb)⟩
  | case2 qualified q inner arguments =>
    intro binding hb
    obtain ⟨function, -, hb⟩ := Option.bind_eq_some_iff.mp (Option.mem_toList.mp hb)
    exact bound_of_binding? he.2 hb
  | case3 inner ih => exact ih he
  | case4 e hmethod hcall hparenthesized =>
    rw [methodRouter]
    · exact nofun
    · exact hmethod
    · exact hcall
    · exact hparenthesized

/-- Whether a group of verbs belongs to a function whose name has a property, all of them in capitals. -/
def Grouped (p : String → Prop) (group : FunctionName × List String) : Prop :=
  p group.1.name ∧ ∀ verb ∈ group.2, upperMethod verb = verb

theorem grouped_addVerb {handler : FunctionName} {verb : String} (hbound : Bound p (verb, handler))
    {groups : List (FunctionName × List String)} (h : ∀ group ∈ groups, Grouped p group) :
    ∀ group ∈ addVerb handler verb groups, Grouped p group := by
  induction groups with
  | nil =>
    rintro group hgroup
    obtain rfl := List.mem_singleton.mp hgroup
    exact ⟨hbound.2, fun v hv => List.mem_singleton.mp hv ▸ hbound.1⟩
  | cons first rest ih =>
    obtain ⟨⟨hname, hverbs⟩, hrest⟩ := List.forall_mem_cons.mp h
    rw [addVerb]
    split
    · refine List.forall_mem_cons.mpr ⟨⟨hname, List.forall_mem_append.mpr ⟨hverbs, ?_⟩⟩, hrest⟩
      exact fun v hv => List.mem_singleton.mp hv ▸ hbound.1
    · exact List.forall_mem_cons.mpr ⟨⟨hname, hverbs⟩, ih hrest⟩

theorem grouped_byHandler {bindings : List (String × FunctionName)} (h : ∀ binding ∈ bindings, Bound p binding) :
    ∀ group ∈ byHandler bindings, Grouped p group := by
  have run (groups : List (FunctionName × List String)) (hgroups : ∀ group ∈ groups, Grouped p group) :
      ∀ group ∈ bindings.foldl (fun groups binding => addVerb binding.2 binding.1 groups) groups, Grouped p group := by
    induction bindings generalizing groups with
    | nil => exact hgroups
    | cons binding bindings ih =>
      obtain ⟨hbinding, hbindings⟩ := List.forall_mem_cons.mp h
      exact ih hbindings _ (grouped_addVerb hbinding hgroups)
  exact run [] nofun

theorem toFunction_of_mem_routesOfCall {module : Option String} {mount : String} {arguments : List Expr}
    (harguments : Expr.AllNamed p arguments) : ∀ r ∈ routesOfCall module mount arguments, r.ToFunction p := by
  fun_cases routesOfCall module mount arguments with
  | case1 path router rest text htext =>
    intro r hr
    obtain ⟨⟨handler, verbs⟩, hgroup, rfl⟩ := List.mem_map.mp hr
    have hgrouped := grouped_byHandler (bound_of_mem_methodRouter harguments.2.1) _ hgroup
    exact ⟨rfl, hgrouped.1, hgrouped.2⟩
  | case2 => exact nofun
  | case3 => exact nofun

theorem finds_registrations (mounts : Mounts) (module : Option String) :
    (registrations mounts module).Finds p (FoundRoute.ToFunction p) where
  function _ _ _ := nofun
  struct _ _ := nofun
  implementation _ _ _ _ _ h := nomatch h
  imports _ _ := nofun
  call mount receiver method arguments _ harguments := by
    rw [registrations]
    dsimp only
    split
    · exact nofun
    · split
      · exact toFunction_of_mem_routesOfCall harguments
      · exact nofun

end Axum

namespace Actix

theorem named_of_routeTarget? {e : Expr} (he : e.Named p) {verb : String} {handler : FunctionName}
    (h : routeTarget? e = some (verb, handler)) : upperMethod verb = verb ∧ p handler.name := by
  revert h
  fun_cases routeTarget? e with
  | case1 qualified function inner arguments qualified' path inner' rest =>
    intro h
    obtain ⟨verb', hverb, h⟩ := Option.bind_eq_some_iff.mp h
    obtain ⟨handler', hhandler, h⟩ := Option.bind_eq_some_iff.mp h
    obtain ⟨rfl, rfl⟩ := Prod.mk.inj (Option.some.inj h)
    obtain ⟨name, -, hname⟩ := Option.bind_eq_some_iff.mp hverb
    exact ⟨upperMethod_of_verb? hname, name_of_ofPath? he.2.1.1 hhandler⟩
  | case2 => exact nofun
  | case3 => exact nofun

/-- The route of a call of `route` is made of the verb and the handler of its last argument. -/
theorem exists_last_of_routeOfCall? {module : Option String} {scope : String} {receiver : Expr} {arguments : List Expr}
    {r : FoundRoute} (h : routeOfCall? module scope receiver arguments = some r) :
    ∃ route, arguments.getLast? = some route ∧ ∃ verb handler, routeTarget? route = some (verb, handler) ∧
      r.methods = [verb] ∧ r.target = .function handler.name ∧ r.module = handler.module.or module := by
  rw [routeOfCall?.eq_def] at h
  split at h
  · obtain ⟨⟨_, route⟩, hpath, h⟩ := Option.bind_eq_some_iff.mp h
    obtain ⟨_, -, heq⟩ := Option.map_eq_some_iff.mp hpath
    obtain ⟨-, rfl⟩ := Prod.mk.inj heq
    obtain ⟨⟨verb, handler⟩, htarget, h⟩ := Option.bind_eq_some_iff.mp h
    obtain rfl := Option.some.inj h
    exact ⟨_, rfl, verb, handler, htarget, rfl, rfl, Option.or_eq_orElse.symm⟩
  · obtain ⟨⟨_, route⟩, hpath, h⟩ := Option.bind_eq_some_iff.mp h
    obtain ⟨_, -, heq⟩ := Option.map_eq_some_iff.mp hpath
    obtain ⟨-, rfl⟩ := Prod.mk.inj heq
    obtain ⟨⟨verb, handler⟩, htarget, h⟩ := Option.bind_eq_some_iff.mp h
    obtain rfl := Option.some.inj h
    exact ⟨_, rfl, verb, handler, htarget, rfl, rfl, Option.or_eq_orElse.symm⟩
  · cases h

theorem toFunction_of_routeOfCall? {module : Option String} {scope : String} {receiver : Expr} {arguments : List Expr}
    (harguments : Expr.AllNamed p arguments) {r : FoundRoute} (h : routeOfCall? module scope receiver arguments = some r) :
    r.ToFunction p := by
  obtain ⟨route, hlast, verb, handler, htarget, hmethods, hfunction, -⟩ := exists_last_of_routeOfCall? h
  have hroute : route ∈ arguments := List.mem_of_getLast? hlast
  obtain ⟨hverb, hname⟩ := named_of_routeTarget? (Expr.allNamed_iff.mp harguments route hroute) htarget
  refine ⟨?_, ?_, ?_⟩
  · rw [hfunction, Target.name]
  · rwa [hfunction]
  · rw [hmethods]
    exact fun method hm => List.mem_singleton.mp hm ▸ hverb

theorem upperMethod_of_mem_namedVerbs (arguments : List Expr) : ∀ verb ∈ namedVerbs arguments, upperMethod verb = verb := by
  intro verb hverb
  obtain ⟨a, -, ha⟩ := List.mem_filterMap.mp hverb
  split at ha
  · rw [Option.ite_none_right_eq_some] at ha
    obtain ⟨text, -, rfl⟩ := Option.map_eq_some_iff.mp ha.2
    exact Text.upperMethod_upperMethod text
  · cases ha

theorem upperMethod_of_declaration? {a : Attribute} {verbs : List String} {path : String}
    (h : declaration? a = some (verbs, path)) : ∀ verb ∈ verbs, upperMethod verb = verb := by
  obtain ⟨name, -, h⟩ := Option.bind_eq_some_iff.mp h
  dsimp only at h
  split at h
  · cases h
  · obtain ⟨arguments, -, h⟩ := Option.bind_eq_some_iff.mp h
    obtain ⟨text, -, h⟩ := Option.bind_eq_some_iff.mp h
    split at h
    · rename_i verb hverb
      obtain ⟨rfl, -⟩ := Prod.mk.inj (Option.some.inj h)
      exact fun v hv => List.mem_singleton.mp hv ▸ upperMethod_of_verb? hverb
    · obtain ⟨rfl, -⟩ := Prod.mk.inj (Option.some.inj h)
      exact upperMethod_of_mem_namedVerbs _

/-- Whether the route of a finding, if it has one, points at a function by a name with a property. -/
def Finding.ToFunction (p : String → Prop) : Finding → Prop
  | .declared _ route => route.ToFunction p
  | .called route => route.ToFunction p
  | .service _ _ => True

theorem finds_findings (module : Option String) : (findings module).Finds p (Finding.ToFunction p) where
  function scope heading hname f hf := by
    obtain ⟨⟨verbs, path⟩, hdeclared, rfl⟩ := List.mem_map.mp hf
    obtain ⟨a, -, ha⟩ := List.mem_filterMap.mp hdeclared
    exact ⟨rfl, hname, upperMethod_of_declaration? ha⟩
  struct _ _ := nofun
  implementation _ _ _ _ _ h := nomatch h
  imports _ _ := nofun
  call scope receiver method arguments _ harguments := by
    change ∀ f ∈ findingsOfCall module scope receiver method arguments, f.ToFunction p
    fun_cases findingsOfCall module scope receiver method arguments with
    | case1 =>
      intro f hf
      obtain ⟨r, hr, rfl⟩ := Option.map_eq_some_iff.mp (Option.mem_toList.mp hf)
      exact toFunction_of_routeOfCall? harguments hr
    | case2 => exact nofun
    | case3 => exact fun f hf => List.mem_singleton.mp hf ▸ trivial
    | case4 => exact nofun
    | case5 => exact nofun

theorem toFunction_of_routeOf? {scopes : List (String × String)} {f : Finding} (hf : f.ToFunction p) {r : FoundRoute}
    (h : routeOf? scopes f = some r) : r.ToFunction p := by
  revert h
  fun_cases routeOf? scopes f with
  | case1 handler route scope =>
    intro h
    exact Option.some.inj h ▸ ⟨hf.target, hf.name, hf.methods⟩
  | case2 => exact fun h => Option.some.inj h ▸ hf
  | case3 => exact fun h => Option.some.inj h ▸ hf
  | case4 => exact nofun

end Actix

/-- The routes that a framework registers in items whose names have a property point at functions by such names. -/
theorem Framework.toFunction_of_mem_routes {files : List SourceFile} (hfiles : ∀ f ∈ files, Item.AllNamed p f.items)
    (framework : Framework) : ∀ r ∈ framework.routes files, r.ToFunction p := by
  intro r hr
  cases framework with
  | axum =>
    obtain ⟨f, hf, hr⟩ := List.mem_flatMap.mp hr
    exact (Axum.finds_registrations _ f.module).items "" f.items (hfiles f hf) r hr
  | actixWeb =>
    obtain ⟨finding, hfinding, hr⟩ := List.mem_filterMap.mp hr
    obtain ⟨f, hf, hfinding⟩ := List.mem_flatMap.mp hfinding
    exact Actix.toFunction_of_routeOf? ((Actix.finds_findings f.module).items "" f.items (hfiles f hf) finding hfinding) hr

theorem target_of_mem_resourceRoutes {method : String} {arguments : List Expr} {r : FoundRoute}
    (hr : r ∈ resourceRoutes method arguments) : r.target = .resource r.target.name := by
  revert hr
  fun_cases resourceRoutes method arguments with
  | case1 resource urls hmethod name hname =>
    intro hr
    obtain ⟨url, -, rfl⟩ := List.mem_map.mp hr
    rfl
  | case2 => exact nofun
  | case3 => exact nofun
  | case4 => exact nofun

/-- The registrations of resources point at resources. -/
theorem target_of_mem_resourceRegistrations {files : List SourceFile} (hfiles : ∀ f ∈ files, Item.AllNamed p f.items) :
    ∀ r ∈ resourceRegistrations files, r.target = .resource r.target.name := by
  intro r hr
  obtain ⟨f, hf, hr⟩ := List.mem_flatMap.mp hr
  have hfinds : ({ call := fun _ _ method arguments => { found := resourceRoutes method arguments, inside := () } } :
      Survey Unit FoundRoute).Finds p fun r => r.target = .resource r.target.name :=
    { function := fun _ _ _ => nofun
      struct := fun _ _ => nofun
      implementation := fun _ _ _ _ _ h => nomatch h
      imports := fun _ _ => nofun
      call := fun _ _ _ _ _ _ _ => target_of_mem_resourceRoutes }
  exact hfinds.items () f.items (hfiles f hf) r hr

end
end ApiHandbook.Project
