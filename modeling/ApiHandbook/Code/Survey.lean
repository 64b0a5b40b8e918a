import ApiHandbook.Code.Syntax

/-! Going through the items and expressions of a file in the order of its text. What is looked for, and what is known at
each place from the constructs around it, is up to a survey. -/
namespace ApiHandbook.Code

/-- What a survey does at a method call. -/
structure Visit (κ α : Type) where
  found : List α := []
  /-- What is known among the arguments. -/
  inside : κ
  /-- The one argument to go through; without it all are. -/
  only : Option Nat := none

/-- What to find at each construct, given what is known there. -/
structure Survey (κ α : Type) where
  /-- At a function: the findings, and what is known inside it. -/
  function : κ → Heading → List α × κ := fun known _ => ([], known)
  struct : κ → Heading → List α := fun _ _ => []
  /-- At an implementation: its findings, or nothing to go through its members instead. -/
  implementation : κ → Option String → Option String → List Item → Option (List α) := fun _ _ _ _ => none
  /-- What is known inside a module. -/
  module : κ → String → Bool → κ := fun known _ _ => known
  imports : κ → List String → List α := fun _ _ => []
  /-- At a method call, after its receiver has been gone through. -/
  call : κ → Expr → String → List Expr → Visit κ α := fun known _ _ _ => { inside := known }

namespace Survey
variable {κ α : Type} (v : Survey κ α)

mutual

/-- The findings inside an expression. -/
def expr (known : κ) : Expr → List α
  | .literal _ => []
  | .path _ _ inner => exprs known inner
  | .negation operand => expr known operand
  | .assignment target value => expr known target ++ expr known value
  | .array items => exprs known items
  | .tuple items => exprs known items
  | .parenthesized inner => expr known inner
  | .reference inner => expr known inner
  | .call function arguments => expr known function ++ exprs known arguments
  | .methodCall receiver method arguments =>
    let visit := v.call known receiver method arguments
    expr known receiver ++ visit.found ++
      match visit.only with
      | none => exprs visit.inside arguments
      | some n => nth visit.inside n arguments
  | .construction _ fields => exprs known fields
  | .vector _ _ => []
  | .item i => item known i
  | .other inner => exprs known inner

def exprs (known : κ) : List Expr → List α
  | [] => []
  | e :: rest => expr known e ++ exprs known rest

/-- The findings inside the expression at a place. -/
def nth (known : κ) : Nat → List Expr → List α
  | _, [] => []
  | 0, e :: _ => expr known e
  | n + 1, _ :: rest => nth known n rest

/-- The findings at and inside an item. -/
def item (known : κ) : Item → List α
  | .function heading body =>
    let (found, inside) := v.function known heading
    found ++ exprs inside body
  | .method _ body => exprs known body
  | .struct heading inner => v.struct known heading ++ exprs known inner
  | .implementation traitName selfName inner members =>
    match v.implementation known traitName selfName members with
    | some found => found
    | none => exprs known inner ++ items known members
  | .module name inline members => items (v.module known name inline) members
  | .imports roots => v.imports known roots
  | .other inner => exprs known inner

/-- The findings in a list of items. -/
def items (known : κ) : List Item → List α
  | [] => []
  | i :: rest => item known i ++ items known rest

end

end Survey
end ApiHandbook.Code
