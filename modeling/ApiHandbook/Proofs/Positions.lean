import ApiHandbook.Proofs.Namesakes

/-! The calls of `route` and `nest` in a project, wherever they stand, each with the function and the nestings around it;
the mounts and the registrations of a project are made out from them. -/
namespace ApiHandbook.Code

namespace Survey
variable {κ κ' α β : Type}

/-- A survey that finds, at each place, what the findings of another one stand for. -/
structure Follows (v : Survey κ α) (w : Survey κ' β) (known : κ' → κ) (found : β → List α) : Prop where
  function k h : v.function (known k) h = ((w.function k h).1.flatMap found, known (w.function k h).2)
  struct k h : v.struct (known k) h = (w.struct k h).flatMap found
  implementation k t s members :
    v.implementation (known k) t s members = (w.implementation k t s members).map (·.flatMap found)
  module k name inline : v.module (known k) name inline = known (w.module k name inline)
  imports k roots : v.imports (known k) roots = (w.imports k roots).flatMap found
  call k receiver method arguments : v.call (known k) receiver method arguments =
    { found := (w.call k receiver method arguments).found.flatMap found
      inside := known (w.call k receiver method arguments).inside
      only := (w.call k receiver method arguments).only }

namespace Follows
variable {v : Survey κ α} {w : Survey κ' β} {known : κ' → κ} {found : β → List α}

mutual

theorem expr_eq (h : Follows v w known found) (k : κ') (e : Expr) :
    v.expr (known k) e = (w.expr k e).flatMap found := by
  cases e with
  | literal _ => rfl
  | path _ _ inner => exact h.exprs_eq k inner
  | negation operand => exact h.expr_eq k operand
  | assignment target value =>
    rw [Survey.expr, Survey.expr, h.expr_eq k target, h.expr_eq k value, List.flatMap_append]
  | array items => exact h.exprs_eq k items
  | tuple items => exact h.exprs_eq k items
  | parenthesized inner => exact h.expr_eq k inner
  | reference inner => exact h.expr_eq k inner
  | call called arguments =>
    rw [Survey.expr, Survey.expr, h.expr_eq k called, h.exprs_eq k arguments, List.flatMap_append]
  | methodCall receiver method arguments =>
    rw [Survey.expr, Survey.expr, h.call, h.expr_eq k receiver, List.flatMap_append, List.flatMap_append]
    refine congrArg _ ?_
    cases (w.call k receiver method arguments).only with
    | none => exact h.exprs_eq _ arguments
    | some n => exact h.nth_eq _ n arguments
  | construction _ fields => exact h.exprs_eq k fields
  | vector _ _ => rfl
  | item i => exact h.item_eq k i
  | other inner => exact h.exprs_eq k inner

theorem exprs_eq (h : Follows v w known found) (k : κ') (es : List Expr) :
    v.exprs (known k) es = (w.exprs k es).flatMap found := by
  cases es with
  | nil => rfl
  | cons e rest => rw [Survey.exprs, Survey.exprs, h.expr_eq k e, h.exprs_eq k rest, List.flatMap_append]

theorem nth_eq (h : Follows v w known found) (k : κ') (n : Nat) (es : List Expr) :
    v.nth (known k) n es = (w.nth k n es).flatMap found := by
  cases es with
  | nil => cases n <;> rfl
  | cons e rest =>
    cases n with
    | zero => exact h.expr_eq k e
    | succ n => exact h.nth_eq k n rest

theorem item_eq (h : Follows v w known found) (k : κ') (i : Item) :
    v.item (known k) i = (w.item k i).flatMap found := by
  cases i with
  | function heading body =>
    rw [Survey.item, Survey.item, h.function, List.flatMap_append]
    exact congrArg _ (h.exprs_eq _ body)
  | method _ body => exact h.exprs_eq k body
  | struct heading inner => rw [Survey.item, Survey.item, h.struct, h.exprs_eq k inner, List.flatMap_append]
  | implementation traitName selfName inner members =>
    rw [Survey.item, Survey.item, h.implementation]
    cases w.implementation k traitName selfName members with
    | some _ => rfl
    | none => exact (congrArg₂ _ (h.exprs_eq k inner) (h.items_eq k members)).trans List.flatMap_append.symm
  | module name inline members =>
    rw [Survey.item, Survey.item, h.module]
    exact h.items_eq _ members
  | imports roots => exact h.imports k roots
  | other inner => exact h.exprs_eq k inner

theorem items_eq (h : Follows v w known found) (k : κ') (is : List Item) :
    v.items (known k) is = (w.items k is).flatMap found := by
  cases is with
  | nil => rfl
  | cons i rest => rw [Survey.items, Survey.items, h.item_eq k i, h.items_eq k rest, List.flatMap_append]

end

end Follows
end Survey
end ApiHandbook.Code

namespace ApiHandbook.Project.Axum
open Code

/-- What stands around a call: the innermost function, and the rules of the nestings, from the outermost inwards. -/
structure Around where
  function : Option String := none
  rules : List String := []

def Around.nested (around : Around) (rule : String) : Around := { around with rules := around.rules ++ [rule] }

/-- A call of `nest`. -/
structure Nesting where
  function : Option String
  /-- The rules of the nestings around the call, and its own. -/
  rules : List String
  router : Expr

/-- The calls of `nest` that give a rule and a router. Their routers are gone through for further calls. -/
def nestingSites : Survey Around Nesting :=
  { function := fun around h => ([], { around with function := some h.name })
    call := fun around _ method arguments =>
      match nesting? method arguments with
      | some (rule, router) =>
        { found := [⟨around.function, (around.nested rule).rules, router⟩]
          inside := around.nested rule
          only := some 1 }
      | none => { inside := around } }

/-- A call of `route`. -/
structure RouteCall where
  /-- The module of the file. -/
  module : Option String
  function : Option String
  /-- The rules of the nestings around the call, within the function. -/
  rules : List String
  arguments : List Expr

/-- What a call registers when the routers of its function are mounted under a path. -/
def RouteCall.registered (r : RouteCall) (mount : String) : List FoundRoute :=
  routesOfCall r.module (r.rules.foldl joinRules mount) r.arguments

def routeSites (module : Option String) : Survey Around RouteCall :=
  { function := fun _ h => ([], { function := some h.name })
    call := fun around _ method arguments =>
      match nesting? method arguments with
      | some (rule, _) => { inside := around.nested rule, only := some 1 }
      | none =>
        { found := if method = "route" then [⟨module, around.function, around.rules, arguments⟩] else []
          inside := around } }

def nestingsOf (files : List SourceFile) : List Nesting := files.flatMap fun f => nestingSites.items {} f.items

def routeCalls (files : List SourceFile) : List RouteCall :=
  files.flatMap fun f => (routeSites f.module).items {} f.items

/-- The mount that is noted for a nesting. -/
def Nesting.noted (n : Nesting) : List (String × Mount) :=
  ((calledFunction? n.router).map fun builder => (builder, ⟨n.function, n.rules.foldl joinRules ""⟩)).toList

theorem nestings_follows :
    nestings.Follows nestingSites (fun around => ⟨around.function, around.rules.foldl joinRules ""⟩) Nesting.noted where
  function _ _ := rfl
  struct _ _ := rfl
  implementation _ _ _ _ := rfl
  module _ _ _ := rfl
  imports _ _ := rfl
  call around receiver method arguments := by
    simp only [nestings, nestingSites]
    cases nesting? method arguments with
    | none => rfl
    | some found =>
      simp only [Around.nested, Nesting.noted, List.foldl_concat, List.flatMap_singleton]

theorem registrations_follows (mounts : Mounts) (module : Option String) :
    (registrations mounts module).Follows (routeSites module)
      (fun around => around.rules.foldl joinRules (mounts.pathOf around.function))
      fun r => r.registered (mounts.pathOf r.function) where
  function _ _ := rfl
  struct _ _ := rfl
  implementation _ _ _ _ := rfl
  module _ _ _ := rfl
  imports _ _ := rfl
  call around receiver method arguments := by
    simp only [registrations, routeSites]
    cases nesting? method arguments with
    | none =>
      by_cases h : method = "route"
      · simp only [if_pos h, List.flatMap_singleton, RouteCall.registered]
      · simp only [if_neg h, List.flatMap_nil]
    | some found => simp only [Around.nested, List.foldl_concat, List.flatMap_nil]

/-- The mounts of a project are those noted for its nestings, the last one of each function. -/
theorem lookup_nestingsOf (files : List SourceFile) (function : String) :
    (Mounts.ofFiles files).lookup function = ((nestingsOf files).flatMap Nesting.noted).reverse.lookup function := by
  have hfiles : (files.flatMap fun f => nestings.items {} f.items) = (nestingsOf files).flatMap Nesting.noted := by
    rw [nestingsOf, List.flatMap_assoc]
    exact List.flatMap_congr fun f _ => nestings_follows.items_eq {} f.items
  rw [Mounts.ofFiles, hfiles, lookup_foldl_put, List.lookup_nil, Option.or_none]

/-- The routes of a project are those that its calls register, each under the mount path of the function around. -/
theorem routes_eq (files : List SourceFile) :
    routes files = (routeCalls files).flatMap fun r => r.registered ((Mounts.ofFiles files).pathOf r.function) := by
  rw [routes, routeCalls, List.flatMap_assoc]
  exact List.flatMap_congr fun f _ => (registrations_follows (Mounts.ofFiles files) f.module).items_eq {} f.items

end ApiHandbook.Project.Axum
