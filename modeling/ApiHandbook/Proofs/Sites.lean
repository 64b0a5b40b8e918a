import ApiHandbook.Code.Survey

/-! The sites of a text: its functions, and the method calls that are selected. A survey that passes over all other
constructs finds just what it finds at these sites, in the order of the text. -/
namespace ApiHandbook.Code

/-- What stands around a place in a text. -/
structure Surroundings where
  /-- The innermost module. -/
  module : Option String
  /-- The innermost function; none outside of functions. -/
  function : Option String := none
  /-- Whether the place is in a method of an implementation, within that function. -/
  inMethod : Bool := false
  deriving DecidableEq, Repr

def Surroundings.inFunction (around : Surroundings) (name : String) : Surroundings :=
  { around with function := some name, inMethod := false }

inductive Site where
  | function (around : Surroundings) (heading : Heading)
  /-- A selected call that is no part of another one. -/
  | call (around : Surroundings) (e : Expr)
  /-- The sites inside the macro call `vec!`, which nothing reads. -/
  | hidden

namespace Site
variable (selects : Expr → String → Bool)

mutual

/-- The sites inside an expression; calls are selected by receiver and method. -/
def ofExpr (around : Surroundings) : Expr → List Site
  | .literal _ => []
  | .path _ _ inner => ofExprs around inner
  | .negation operand => ofExpr around operand
  | .assignment target value => ofExpr around target ++ ofExpr around value
  | .array items => ofExprs around items
  | .tuple items => ofExprs around items
  | .parenthesized inner => ofExpr around inner
  | .reference inner => ofExpr around inner
  | .call called arguments => ofExpr around called ++ ofExprs around arguments
  | .methodCall receiver method arguments =>
    if selects receiver method then [.call around (.methodCall receiver method arguments)]
    else ofExpr around receiver ++ ofExprs around arguments
  | .construction _ fields => ofExprs around fields
  | .vector _ items => if (ofExprs around items).isEmpty then [] else [.hidden]
  | .item i => ofItem around i
  | .other inner => ofExprs around inner

def ofExprs (around : Surroundings) : List Expr → List Site
  | [] => []
  | e :: rest => ofExpr around e ++ ofExprs around rest

/-- The sites at and inside an item. -/
def ofItem (around : Surroundings) : Item → List Site
  | .function heading body => .function around heading :: ofExprs (around.inFunction heading.name) body
  | .method _ body => ofExprs { around with inMethod := true } body
  | .struct _ inner => ofExprs around inner
  | .implementation _ _ inner members => ofExprs around inner ++ ofItems around members
  | .module name _ members => ofItems { around with module := some name } members
  | .imports _ => []
  | .other inner => ofExprs around inner

def ofItems (around : Surroundings) : List Item → List Site
  | [] => []
  | i :: rest => ofItem around i ++ ofItems around rest

end

end Site

namespace Survey
variable {κ α : Type}

/-- A survey that finds nothing outside of sites, and knows at each place no more than what stands around. -/
structure LooksAt (v : Survey κ α) (selects : Expr → String → Bool) (known : Surroundings → κ) : Prop where
  struct k h : v.struct k h = []
  implementation k t s members : v.implementation k t s members = none
  imports k roots : v.imports k roots = []
  function around h : (v.function (known around) h).2 = known (around.inFunction h.name)
  method around : known { around with inMethod := true } = known around
  module around name inline : v.module (known around) name inline = known { around with module := some name }
  unselected k receiver method arguments : selects receiver method = false →
    v.call k receiver method arguments = { inside := k }

/-- The findings at a site. -/
def atSite (v : Survey κ α) (known : Surroundings → κ) : Site → List α
  | .function around heading => (v.function (known around) heading).1
  | .call around e => v.expr (known around) e
  | .hidden => []

namespace LooksAt
variable {v : Survey κ α} {selects : Expr → String → Bool} {known : Surroundings → κ}

mutual

theorem expr_eq (h : LooksAt v selects known) (around : Surroundings) (e : Expr) :
    v.expr (known around) e = (Site.ofExpr selects around e).flatMap (v.atSite known) := by
  cases e with
  | literal _ => rfl
  | path _ _ inner => exact h.exprs_eq around inner
  | negation operand => exact h.expr_eq around operand
  | assignment target value =>
    rw [Survey.expr, Site.ofExpr, h.expr_eq around target, h.expr_eq around value, List.flatMap_append]
  | array items => exact h.exprs_eq around items
  | tuple items => exact h.exprs_eq around items
  | parenthesized inner => exact h.expr_eq around inner
  | reference inner => exact h.expr_eq around inner
  | call called arguments =>
    rw [Survey.expr, Site.ofExpr, h.expr_eq around called, h.exprs_eq around arguments, List.flatMap_append]
  | methodCall receiver method arguments =>
    rw [Site.ofExpr]
    split
    · rw [List.flatMap_singleton]
      rfl
    · rename_i hmethod
      rw [Survey.expr, h.unselected _ _ _ _ (Bool.not_eq_true _ ▸ hmethod), List.flatMap_append, List.append_nil,
        ← h.expr_eq around receiver, ← h.exprs_eq around arguments]
  | construction _ fields => exact h.exprs_eq around fields
  | vector _ items =>
    rw [Survey.expr, Site.ofExpr]
    split <;> rfl
  | item i => exact h.item_eq around i
  | other inner => exact h.exprs_eq around inner

theorem exprs_eq (h : LooksAt v selects known) (around : Surroundings) (es : List Expr) :
    v.exprs (known around) es = (Site.ofExprs selects around es).flatMap (v.atSite known) := by
  cases es with
  | nil => rfl
  | cons e rest =>
    rw [Survey.exprs, Site.ofExprs, h.expr_eq around e, h.exprs_eq around rest, List.flatMap_append]

theorem item_eq (h : LooksAt v selects known) (around : Surroundings) (i : Item) :
    v.item (known around) i = (Site.ofItem selects around i).flatMap (v.atSite known) := by
  cases i with
  | function heading body =>
    have hbody := h.exprs_eq (around.inFunction heading.name) body
    rw [← h.function around heading] at hbody
    exact congrArg ((v.function (known around) heading).1 ++ ·) hbody
  | method _ body =>
    rw [Survey.item, Site.ofItem, ← h.method around]
    exact h.exprs_eq { around with inMethod := true } body
  | struct _ inner =>
    rw [Survey.item, h.struct, List.nil_append]
    exact h.exprs_eq around inner
  | implementation _ _ inner members =>
    rw [Survey.item, h.implementation, Site.ofItem, List.flatMap_append, ← h.exprs_eq around inner,
      ← h.items_eq around members]
  | module name inline members =>
    rw [Survey.item, h.module]
    exact h.items_eq { around with module := some name } members
  | imports _ =>
    rw [Survey.item, h.imports]
    rfl
  | other inner => exact h.exprs_eq around inner

theorem items_eq (h : LooksAt v selects known) (around : Surroundings) (is : List Item) :
    v.items (known around) is = (Site.ofItems selects around is).flatMap (v.atSite known) := by
  cases is with
  | nil => rfl
  | cons i rest =>
    rw [Survey.items, Site.ofItems, h.item_eq around i, h.items_eq around rest, List.flatMap_append]

end

end LooksAt
end Survey
end ApiHandbook.Code
