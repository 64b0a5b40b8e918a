import ApiHandbook.Code.Survey
import ApiHandbook.Proofs.Numbering.Tree

/-! Surveys of items whose tokens are numbered in another way. -/
namespace ApiHandbook.Code.Survey
variable {κ α : Type}

/-- The survey that finds, at each construct, what another one finds there once the tokens are numbered in another way. -/
def renumbered (v : Survey κ α) (f : Nat → Nat) : Survey κ α :=
  { function := fun known h => v.function known (renumber f h)
    struct := fun known h => v.struct known (renumber f h)
    implementation := fun known traitName selfName members => v.implementation known traitName selfName (renumber f members)
    module := v.module
    imports := v.imports
    call := fun known receiver method arguments => v.call known (renumber f receiver) method (renumber f arguments) }

variable (v : Survey κ α) (f : Nat → Nat)

mutual

theorem expr_renumber (k : κ) (e : Expr) : v.expr k (renumber f e) = (v.renumbered f).expr k e := by
  cases e with
  | literal _ => rfl
  | path _ _ inner =>
    rw [renumber_pathExpr]
    exact exprs_renumber k inner
  | negation operand => exact expr_renumber k operand
  | assignment target value =>
    rw [renumber_assignment, Survey.expr, Survey.expr, expr_renumber k target, expr_renumber k value]
  | array items =>
    rw [renumber_array]
    exact exprs_renumber k items
  | tuple items =>
    rw [renumber_tuple]
    exact exprs_renumber k items
  | parenthesized inner => exact expr_renumber k inner
  | reference inner => exact expr_renumber k inner
  | call called arguments =>
    rw [renumber_call, Survey.expr, Survey.expr, expr_renumber k called, exprs_renumber k arguments]
  | methodCall receiver method arguments =>
    rw [renumber_methodCall, Survey.expr, Survey.expr, expr_renumber k receiver]
    have hcall : (v.renumbered f).call k receiver method arguments =
      v.call k (renumber f receiver) method (renumber f arguments) := rfl
    rw [hcall]
    cases (v.call k (renumber f receiver) method (renumber f arguments)).only with
    | none => exact congrArg _ (exprs_renumber _ arguments)
    | some n => exact congrArg _ (nth_renumber _ n arguments)
  | construction _ fields =>
    rw [renumber_construction]
    exact exprs_renumber k fields
  | vector _ _ =>
    rw [renumber_vector]
    rfl
  | item i => exact item_renumber k i
  | other inner =>
    rw [renumber_otherExpr]
    exact exprs_renumber k inner

theorem exprs_renumber (k : κ) (es : List Expr) : v.exprs k (renumber f es) = (v.renumbered f).exprs k es := by
  cases es with
  | nil => rfl
  | cons e rest => rw [renumber_cons, Survey.exprs, Survey.exprs, expr_renumber k e, exprs_renumber k rest]

theorem nth_renumber (k : κ) (n : Nat) (es : List Expr) : v.nth k n (renumber f es) = (v.renumbered f).nth k n es := by
  cases es with
  | nil => cases n <;> rfl
  | cons e rest =>
    cases n with
    | zero => exact expr_renumber k e
    | succ n => exact nth_renumber k n rest

theorem item_renumber (k : κ) (i : Item) : v.item k (renumber f i) = (v.renumbered f).item k i := by
  cases i with
  | function heading body =>
    rw [renumber_function, Survey.item, Survey.item]
    exact congrArg _ (exprs_renumber _ body)
  | method heading body =>
    rw [renumber_method]
    exact exprs_renumber k body
  | struct heading inner =>
    rw [renumber_struct, Survey.item, Survey.item, exprs_renumber k inner]
    rfl
  | implementation traitName selfName inner members =>
    rw [renumber_implementation, Survey.item, Survey.item, exprs_renumber k inner, items_renumber k members]
    rfl
  | module name inline members =>
    rw [renumber_module]
    exact items_renumber _ members
  | imports _ => rfl
  | other inner =>
    rw [renumber_otherItem]
    exact exprs_renumber k inner

theorem items_renumber (k : κ) (is : List Item) : v.items k (renumber f is) = (v.renumbered f).items k is := by
  cases is with
  | nil => rfl
  | cons i rest => rw [renumber_cons, Survey.items, Survey.items, item_renumber k i, items_renumber k rest]

end

end ApiHandbook.Code.Survey
