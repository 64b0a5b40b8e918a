import ApiHandbook.Project.Axum

/-! Routers as they are built: what a chain of calls starting from `Router::new()` means by itself, and the routers that
the functions of a project build. -/
namespace ApiHandbook.Project.Axum
open Code

/-- A router with all that is called on it; the functions whose routers are nested in it go by names of some type. -/
inductive Router (ν : Type) where
  | new
  | route (base : Router ν) (path : String) (bindings : List (String × FunctionName))
  | nest (base : Router ν) (path : String) (inner : Router ν)
  /-- The nesting of a router that another function builds. -/
  | mount (base : Router ν) (path : String) (builder : ν)
  deriving DecidableEq, Repr

/-- The router with its functions under other names. -/
def Router.map {ν μ : Type} (f : ν → μ) : Router ν → Router μ
  | .new => .new
  | .route base path bindings => .route (base.map f) path bindings
  | .nest base path inner => .nest (base.map f) path (inner.map f)
  | .mount base path builder => .mount (base.map f) path (f builder)

/-- The handler that a plain path names. -/
def handler? : Expr → Option FunctionName
  | .path _ p [] => FunctionName.ofPath? p
  | _ => none

/-- The verbs and handlers of `get(list).post(create)`, where nothing else is called. -/
def bindings? : Expr → Option (List (String × FunctionName))
  | .call (.path _ p []) [handler] => do return [(← p.last?.bind verb?, ← handler? handler)]
  | .methodCall chain method [handler] => do return (← bindings? chain) ++ [(← verb? method, ← handler? handler)]
  | _ => none

/-- Whether a path names the function that makes an empty router. -/
def isNew (p : Path) : Bool := ["new", "Router"].isPrefixOf p.names.reverse

section Reading
variable {ν : Type} (name? : Path → Option ν)

/-- The function that a call without arguments names. -/
def builder? : Expr → Option ν
  | .call (.path _ p []) [] => if isNew p then none else name? p
  | _ => none

/-- Reads a router that is built in place, from nothing but `Router::new()`, `route` and `nest`. -/
def Router.ofExpr? : Expr → Option (Router ν)
  | .call (.path _ p []) [] => if isNew p then some .new else none
  | .methodCall base method [.literal (.text path), argument] =>
    if method = "route" then do return .route (← ofExpr? base) path (← bindings? argument)
    else if method = "nest" then
      match builder? name? argument with
      | some builder => do return .mount (← ofExpr? base) path builder
      | none => do return .nest (← ofExpr? base) path (← ofExpr? argument)
    else none
  | _ => none
termination_by structural e => e

end Reading

/-- The expressions that are read as verbs and handlers. -/
inductive Binds : Expr → List (String × FunctionName) → Prop where
  | call {qualified p function verb handler name} : p.last? = some function → verb? function = some verb →
      handler? handler = some name → Binds (.call (.path qualified p []) [handler]) [(verb, name)]
  | method {chain first method verb handler name} : Binds chain first → verb? method = some verb →
      handler? handler = some name → Binds (.methodCall chain method [handler]) (first ++ [(verb, name)])

theorem binds_of_bindings? {e : Expr} {bindings : List (String × FunctionName)} (h : bindings? e = some bindings) :
    Binds e bindings := by
  induction e using bindings?.induct generalizing bindings with
  | case1 qualified p handler =>
    obtain ⟨verb, hv, h⟩ := Option.bind_eq_some_iff.mp h
    obtain ⟨name, hn, h⟩ := Option.bind_eq_some_iff.mp h
    obtain rfl := Option.some.inj h
    obtain ⟨function, hp, hv⟩ := Option.bind_eq_some_iff.mp hv
    exact .call hp hv hn
  | case2 chain method handler ih =>
    obtain ⟨first, hf, h⟩ := Option.bind_eq_some_iff.mp h
    obtain ⟨verb, hv, h⟩ := Option.bind_eq_some_iff.mp h
    obtain ⟨name, hn, h⟩ := Option.bind_eq_some_iff.mp h
    obtain rfl := Option.some.inj h
    exact .method (ih hf) hv hn
  | case3 e hcall hmethod =>
    rw [bindings?] at h
    · cases h
    · exact hcall
    · exact hmethod

/-- The expressions that are read as a router, one rule for each way to build one. -/
inductive Builds {ν : Type} (name? : Path → Option ν) : Expr → Router ν → Prop where
  | new {qualified p} : isNew p = true → Builds name? (.call (.path qualified p []) []) .new
  | route {base router path argument bindings} : Builds name? base router → Binds argument bindings →
      Builds name? (.methodCall base "route" [.literal (.text path), argument]) (.route router path bindings)
  | nest {base router path argument inner} : Builds name? base router → Builds name? argument inner →
      Builds name? (.methodCall base "nest" [.literal (.text path), argument]) (.nest router path inner)
  | mount {base router path argument builder} : Builds name? base router → builder? name? argument = some builder →
      Builds name? (.methodCall base "nest" [.literal (.text path), argument]) (.mount router path builder)

section Builds
variable {ν μ : Type} {name? : Path → Option ν} {e : Expr}

theorem builds_of_ofExpr? {router : Router ν} (h : Router.ofExpr? name? e = some router) : Builds name? e router := by
  induction e using Router.ofExpr?.induct name? generalizing router with
  | case1 qualified p hp =>
    rw [Router.ofExpr?, if_pos hp] at h
    obtain rfl := Option.some.inj h
    exact .new hp
  | case2 qualified p hp =>
    rw [Router.ofExpr?, if_neg hp] at h
    cases h
  | case3 base path argument ih =>
    rw [Router.ofExpr?, if_pos rfl] at h
    obtain ⟨r, hr, h⟩ := Option.bind_eq_some_iff.mp h
    obtain ⟨bindings, hb, h⟩ := Option.bind_eq_some_iff.mp h
    obtain rfl := Option.some.inj h
    exact .route (ih hr) (binds_of_bindings? hb)
  | case4 base path argument builder hb hne ih =>
    rw [Router.ofExpr?, if_neg hne, if_pos rfl, hb] at h
    obtain ⟨r, hr, h⟩ := Option.bind_eq_some_iff.mp h
    obtain rfl := Option.some.inj h
    exact .mount (ih hr) hb
  | case5 base path argument hb hne ihb iha =>
    rw [Router.ofExpr?, if_neg hne, if_pos rfl, hb] at h
    obtain ⟨r, hr, h⟩ := Option.bind_eq_some_iff.mp h
    obtain ⟨inner, hi, h⟩ := Option.bind_eq_some_iff.mp h
    obtain rfl := Option.some.inj h
    exact .nest (ihb hr) (iha hi)
  | case6 base method path argument hroute hnest =>
    rw [Router.ofExpr?, if_neg hroute, if_neg hnest] at h
    cases h
  | case7 e hcall hmethod =>
    rw [Router.ofExpr?] at h
    · cases h
    · exact hcall
    · exact hmethod

theorem builder?_map {other? : Path → Option μ} {f : ν → μ}
    (hname : ∀ p name, name? p = some name → other? p = some (f name)) {builder : ν}
    (h : builder? name? e = some builder) : builder? other? e = some (f builder) := by
  unfold builder? at h
  split at h
  · split at h
    · cases h
    · rename_i hnew
      rw [builder?, if_neg hnew, hname _ _ h]
  · cases h

/-- A router that is built under names of one kind is built under the names that stand for them, too. -/
theorem Builds.map {other? : Path → Option μ} {f : ν → μ}
    (hname : ∀ p name, name? p = some name → other? p = some (f name)) {router : Router ν}
    (h : Builds name? e router) : Builds other? e (router.map f) := by
  induction h with
  | new hp => exact .new hp
  | route _ hb ih => exact .route ih hb
  | nest _ _ ihb ihi => exact .nest ihb ihi
  | mount _ hb ih => exact .mount ih (builder?_map hname hb)

end Builds

theorem verb?_route : verb? "route" = none := by decide

theorem verb?_nest : verb? "nest" = none := by decide

theorem eq_path_of_handler? {e : Expr} {name : FunctionName} (h : handler? e = some name) :
    ∃ qualified p, e = .path qualified p [] ∧ FunctionName.ofPath? p = some name := by
  unfold handler? at h
  split at h
  · exact ⟨_, _, rfl, h⟩
  · cases h

theorem binding?_eq {function verb : String} {handler : Expr} {name : FunctionName} (hv : verb? function = some verb)
    (hn : handler? handler = some name) : binding? function [handler] = some (verb, name) := by
  obtain ⟨qualified, p, rfl, hp⟩ := eq_path_of_handler? hn
  simp [binding?, hv, handlerName?, hp]

theorem methodRouter_eq {e : Expr} {bindings : List (String × FunctionName)} (h : Binds e bindings) :
    methodRouter e = bindings := by
  induction h with
  | call hp hv hn => rw [methodRouter, hp, Option.bind_some, binding?_eq hv hn, Option.toList_some]
  | method _ hv hn ih => rw [methodRouter, ih, binding?_eq hv hn, Option.toList_some]

theorem nesting?_eq_none {method : String} (h : method ≠ "nest") (arguments : List Expr) :
    nesting? method arguments = none := by
  unfold nesting?
  split
  · rw [if_neg h]
  · rfl

/-- A survey of which only the calls of `route` and `nest` are of interest. -/
def Indifferent {κ α : Type} (v : Survey κ α) : Prop :=
  ∀ k receiver method arguments, method ≠ "route" → method ≠ "nest" →
    v.call k receiver method arguments = { inside := k }

section Survey
variable {κ α : Type} {v : Survey κ α}

theorem expr_handler {e : Expr} {name : FunctionName} (h : handler? e = some name) (k : κ) : v.expr k e = [] := by
  obtain ⟨_, _, rfl, _⟩ := eq_path_of_handler? h
  rfl

theorem expr_bindings (hv : Indifferent v) {e : Expr} {bindings : List (String × FunctionName)}
    (h : Binds e bindings) (k : κ) : v.expr k e = [] := by
  induction h with
  | call _ _ hn => simp [Survey.expr, Survey.exprs, expr_handler hn]
  | @method chain first method verb handler name _ hverb hn ih =>
    have hroute : method ≠ "route" := by
      rintro rfl
      rw [verb?_route] at hverb
      cases hverb
    have hnest : method ≠ "nest" := by
      rintro rfl
      rw [verb?_nest] at hverb
      cases hverb
    rw [Survey.expr, hv k chain method [handler] hroute hnest, ih]
    simp [Survey.exprs, expr_handler hn]

theorem expr_builder {ν : Type} {name? : Path → Option ν} {e : Expr} {builder : ν} (h : builder? name? e = some builder)
    (k : κ) : v.expr k e = [] := by
  unfold builder? at h
  split at h
  · rfl
  · cases h

end Survey

/-- A router and where it is built. -/
structure Built where
  /-- The module of the file. -/
  module : Option String
  /-- The function around; none outside of functions. -/
  function : Option String
  router : Router String
  deriving DecidableEq, Repr

namespace Built

/-- The members of both lists, when there are both. -/
def both? {α : Type} (a b : Option (List α)) : Option (List α) := do return (← a) ++ (← b)

variable (module : Option String)

mutual

/-- The routers built inside an expression; no list if one of them is built in another way. -/
def expr? (function : Option String) : Expr → Option (List Built)
  | .literal _ => some []
  | .path _ _ inner => exprs? function inner
  | .negation operand => expr? function operand
  | .assignment target value => both? (expr? function target) (expr? function value)
  | .array items => exprs? function items
  | .tuple items => exprs? function items
  | .parenthesized inner => expr? function inner
  | .reference inner => expr? function inner
  | .call called arguments => both? (expr? function called) (exprs? function arguments)
  | .methodCall receiver method arguments =>
    if method = "route" ∨ method = "nest" then
      (Router.ofExpr? Path.last? (.methodCall receiver method arguments)).map fun router => [⟨module, function, router⟩]
    else both? (expr? function receiver) (exprs? function arguments)
  | .construction _ fields => exprs? function fields
  | .vector _ items => (exprs? function items).filter List.isEmpty
  | .item i => item? function i
  | .other inner => exprs? function inner

def exprs? (function : Option String) : List Expr → Option (List Built)
  | [] => some []
  | e :: rest => both? (expr? function e) (exprs? function rest)

/-- The routers built inside an item; methods and macros build none. -/
def item? (function : Option String) : Item → Option (List Built)
  | .function heading body => exprs? (some heading.name) body
  | .method _ body => (exprs? function body).filter List.isEmpty
  | .struct _ inner => exprs? function inner
  | .implementation _ _ inner members => both? (exprs? function inner) (items? function members)
  | .module _ _ members => items? function members
  | .imports _ => some []
  | .other inner => exprs? function inner

def items? (function : Option String) : List Item → Option (List Built)
  | [] => some []
  | i :: rest => both? (item? function i) (items? function rest)

end

/-- The routers that are built in the files of a project. -/
def ofFiles? : List SourceFile → Option (List Built)
  | [] => some []
  | f :: files => both? (items? f.module none f.items) (ofFiles? files)

theorem both?_eq_some {α : Type} {a b : Option (List α)} {l : List α} :
    both? a b = some l ↔ ∃ x y, a = some x ∧ b = some y ∧ l = x ++ y := by
  cases a <;> cases b <;> simp [both?, eq_comm]

end Built

/-- A survey that finds something at no other calls than those of `route` and `nest`, where it finds what `found` says
of the router. -/
structure Reads {κ α : Type} (v : Survey κ α) (module : Option String) (known : Option String → κ)
    (found : Built → List α) : Prop where
  struct k h : v.struct k h = []
  implementation k t s members : v.implementation k t s members = none
  module_eq k name inline : v.module k name inline = k
  imports k roots : v.imports k roots = []
  function_eq function h : v.function (known function) h = ([], known (some h.name))
  indifferent : Indifferent v
  router function e router : Router.ofExpr? Path.last? e = some router →
    v.expr (known function) e = found ⟨module, function, router⟩

namespace Reads
variable {κ α : Type} {v : Survey κ α} {module : Option String} {known : Option String → κ} {found : Built → List α}

mutual

theorem expr_eq (R : Reads v module known found) (function : Option String) (e : Expr) {built : List Built}
    (h : Built.expr? module function e = some built) : v.expr (known function) e = built.flatMap found := by
  cases e with
  | literal value =>
    obtain rfl := Option.some.inj h
    rfl
  | path _ _ inner => exact R.exprs_eq function inner h
  | negation operand => exact R.expr_eq function operand h
  | assignment target value =>
    obtain ⟨x, y, hx, hy, rfl⟩ := Built.both?_eq_some.mp h
    rw [Survey.expr, R.expr_eq function target hx, R.expr_eq function value hy, List.flatMap_append]
  | array items => exact R.exprs_eq function items h
  | tuple items => exact R.exprs_eq function items h
  | parenthesized inner => exact R.expr_eq function inner h
  | reference inner => exact R.expr_eq function inner h
  | call called arguments =>
    obtain ⟨x, y, hx, hy, rfl⟩ := Built.both?_eq_some.mp h
    rw [Survey.expr, R.expr_eq function called hx, R.exprs_eq function arguments hy, List.flatMap_append]
  | methodCall receiver method arguments =>
    rw [Built.expr?] at h
    split at h
    · obtain ⟨router, hrouter, rfl⟩ := Option.map_eq_some_iff.mp h
      rw [R.router function _ router hrouter, List.flatMap_singleton]
    · rename_i hmethod
      obtain ⟨x, y, hx, hy, rfl⟩ := Built.both?_eq_some.mp h
      rw [Survey.expr, R.indifferent _ _ _ _ (fun h => hmethod (.inl h)) (fun h => hmethod (.inr h)),
        R.expr_eq function receiver hx, List.append_nil, List.flatMap_append]
      exact congrArg (_ ++ ·) (R.exprs_eq function arguments hy)
  | construction _ fields => exact R.exprs_eq function fields h
  | vector _ items =>
    obtain ⟨_, hempty⟩ := Option.filter_eq_some_iff.mp h
    rw [List.isEmpty_iff.mp hempty]
    rfl
  | item i => exact R.item_eq function i h
  | other inner => exact R.exprs_eq function inner h

theorem exprs_eq (R : Reads v module known found) (function : Option String) (es : List Expr) {built : List Built}
    (h : Built.exprs? module function es = some built) : v.exprs (known function) es = built.flatMap found := by
  cases es with
  | nil =>
    obtain rfl := Option.some.inj h
    rfl
  | cons e rest =>
    obtain ⟨x, y, hx, hy, rfl⟩ := Built.both?_eq_some.mp h
    rw [Survey.exprs, R.expr_eq function e hx, R.exprs_eq function rest hy, List.flatMap_append]

theorem item_eq (R : Reads v module known found) (function : Option String) (i : Item) {built : List Built}
    (h : Built.item? module function i = some built) : v.item (known function) i = built.flatMap found := by
  cases i with
  | function heading body =>
    rw [Survey.item, R.function_eq]
    exact R.exprs_eq (some heading.name) body h
  | method _ body =>
    obtain ⟨hbody, hempty⟩ := Option.filter_eq_some_iff.mp h
    exact R.exprs_eq function body hbody
  | struct _ inner =>
    rw [Survey.item, R.struct, List.nil_append]
    exact R.exprs_eq function inner h
  | implementation _ _ inner members =>
    obtain ⟨x, y, hx, hy, rfl⟩ := Built.both?_eq_some.mp h
    rw [Survey.item, R.implementation, List.flatMap_append, ← R.exprs_eq function inner hx,
      ← R.items_eq function members hy]
  | module _ _ members =>
    rw [Survey.item, R.module_eq]
    exact R.items_eq function members h
  | imports _ =>
    obtain rfl := Option.some.inj h
    rw [Survey.item, R.imports]
    rfl
  | other inner => exact R.exprs_eq function inner h

theorem items_eq (R : Reads v module known found) (function : Option String) (is : List Item) {built : List Built}
    (h : Built.items? module function is = some built) : v.items (known function) is = built.flatMap found := by
  cases is with
  | nil =>
    obtain rfl := Option.some.inj h
    rfl
  | cons i rest =>
    obtain ⟨x, y, hx, hy, rfl⟩ := Built.both?_eq_some.mp h
    rw [Survey.items, R.item_eq function i hx, R.items_eq function rest hy, List.flatMap_append]

end

/-- What is found in the files of a project is what is found in their routers. -/
theorem files_eq {v : Option String → Survey κ α} (R : ∀ module, Reads (v module) module known found)
    {files : List SourceFile} {built : List Built} (hread : Built.ofFiles? files = some built) :
    (files.flatMap fun f => (v f.module).items (known none) f.items) = built.flatMap found := by
  induction files generalizing built with
  | nil =>
    obtain rfl := Option.some.inj hread
    rfl
  | cons f files ih =>
    obtain ⟨x, y, hx, hy, rfl⟩ := Built.both?_eq_some.mp hread
    rw [List.flatMap_cons, (R f.module).items_eq none f.items hx, ih hy, List.flatMap_append]

end Reads

end ApiHandbook.Project.Axum
