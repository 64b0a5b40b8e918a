import ApiHandbook.Proofs.Naming.Type
import Mathlib

/-! The readers of expressions keep a property of names: it holds of all names in the expressions that they make and in
those met on the way. -/
namespace ApiHandbook.Code
open Std.Do Reader

set_option mvcgen.warning false

section
variable {p : String → Prop} {g : Grammar}

/-! Operators -/

@[spec] theorem extend_yields (hg : g.Keeps p) (structs : Bool) (precedence : Precedence) (fuel : Nat) {right : Operand}
    (hright : right.expr.Named p) : Yields p (extend g structs precedence fuel right) fun o => o.expr.Named p := by
  induction fuel generalizing right with
  | zero => mvcgen [extend]
  | succ fuel ih => mvcgen [extend, ih] <;> grind

@[spec] theorem rightOperand_yields (hg : g.Keeps p) (structs : Bool) (precedence : Precedence) :
    Yields p (rightOperand g structs precedence) (Expr.Named p) := by
  mvcgen [rightOperand] with grind

@[spec] theorem range_yields (hg : g.Keeps p) (structs : Bool) {start : List Expr} (hstart : Expr.AllNamed p start) :
    Yields p (range g structs start) fun o => o.expr.Named p := by
  mvcgen [range] with grind

@[spec] theorem climb_yields (hg : g.Keeps p) {left : Operand} (structs : Bool) (base : Precedence)
    (hleft : left.expr.Named p) : Yields p (climb g left structs base) fun o => o.expr.Named p := by
  mvcgen [climb] with grind

@[spec] theorem expr_yields (hg : g.Keeps p) (structs : Bool) : Yields p (expr g structs) fun o => o.expr.Named p := by
  mvcgen [expr] with grind

/-! What follows an atom -/

@[spec] theorem member_yields (hg : g.Keeps p) {e : Expr} (he : e.Named p) :
    Yields p (member g e) fun o => o.expr.Named p := by
  mvcgen [member] with grind

@[spec] theorem afterDot_yields (hg : g.Keeps p) {e : Expr} (he : e.Named p) :
    Yields p (afterDot g e) fun o => o.expr.Named p := by
  mvcgen [afterDot] with grind

@[spec] theorem trailer_yields (hg : g.Keeps p) {e : Operand} (he : e.expr.Named p) :
    Yields p (trailer g e) fun o => o.expr.Named p := by
  mvcgen [trailer] with grind

/-! Control structures, closures and jumps -/

@[spec] theorem conditional_keeps (hg : g.Keeps p) (fuel : Nat) : Keeps p (conditional g fuel) := by
  induction fuel with
  | zero => mvcgen [conditional]
  | succ fuel ih => mvcgen [conditional, ih] <;> grind

@[spec] theorem matchArm_keeps (hg : g.Keeps p) : Keeps p (matchArm g) := by
  mvcgen [matchArm] with grind

@[spec] theorem labelled_keeps (hg : g.Keeps p) : Keeps p (labelled g) := by
  mvcgen [labelled] with grind

@[spec] theorem controlInside_keeps (hg : g.Keeps p) : Keeps p (controlInside g) := by
  mvcgen [controlInside] with grind

@[spec] theorem control_yields (hg : g.Keeps p) : Yields p (control g) fun o => o.expr.Named p := by
  mvcgen [control] with grind

@[spec] theorem closureParameter_keeps (hg : g.Keeps p) : Keeps p (closureParameter g) := by
  mvcgen [closureParameter] with grind

@[spec] theorem closure_keeps (hg : g.Keeps p) (structs : Bool) : Keeps p (closure g structs) := by
  mvcgen [closure] with grind

@[spec] theorem breakLoop_keeps (hg : g.Keeps p) (structs : Bool) : Keeps p (breakLoop g structs) := by
  mvcgen [breakLoop] with grind

/-! Atoms -/

@[spec] theorem parenthesized_yields (hg : g.Keeps p) : Yields p (parenthesized g) (Expr.Named p) := by
  mvcgen [parenthesized] with grind

@[spec] theorem array_yields (hg : g.Keeps p) : Yields p (array g) (Expr.Named p) := by
  mvcgen [array] with grind

@[spec] theorem fieldValues_keeps (hg : g.Keeps p) : Keeps p (fieldValues g) := by
  have go (fuel : Nat) : Keeps p (fieldValues.go g fuel) := by
    induction fuel with
    | zero => mvcgen [fieldValues.go]
    | succ fuel ih => mvcgen [fieldValues.go, ih] <;> grind
  mvcgen [fieldValues, go] with grind

@[spec] theorem pathExpr_yields (hg : g.Keeps p) (structs : Bool) :
    Yields p (pathExpr g structs) fun o => o.expr.Named p := by
  have hitems {ts : List Tree} {items : List Expr} (hts : Tree.AllNamed p ts) (h : (arguments g).whole? ts = some items) :
      Expr.AllNamed p items := of_whole? (arguments_yields hg) hts h
  mvcgen [pathExpr] with grind

@[spec] theorem keywordExpr_keeps (hg : g.Keeps p) (structs : Bool) : Keeps p (keywordExpr g structs) := by
  mvcgen [keywordExpr] with grind

@[spec] theorem atom_yields (hg : g.Keeps p) (structs : Bool) : Yields p (atom g structs) fun o => o.expr.Named p := by
  mvcgen [atom] with grind

@[spec] theorem unary_yields (hg : g.Keeps p) (structs : Bool) : Yields p (unary g structs) fun o => o.expr.Named p := by
  mvcgen [unary] with grind

@[spec] theorem early_yields (hg : g.Keeps p) : Yields p (early g) fun o => o.expr.Named p := by
  mvcgen [early] with grind

end

end ApiHandbook.Code
