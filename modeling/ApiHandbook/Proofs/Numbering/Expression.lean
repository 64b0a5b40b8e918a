import ApiHandbook.Proofs.Numbering.Type

/-! The readers of patterns and expressions, from tokens that are numbered in another way. -/
namespace ApiHandbook.Code

section
variable {f : Nat → Nat} {g : Grammar}

/-! Patterns -/

@[simp] theorem atAlternative_renumber (ts : List Tree) : atAlternative (renumber f ts) = atAlternative ts := by
  simp [atAlternative]

theorem alternatives_go_renumber (hg : g.Renumbers f) (fuel : Nat) (s : Reading) :
    alternatives.go g fuel (renumber f s) = renumber f (alternatives.go g fuel s) := by
  induction fuel generalizing s with
  | zero => simp [alternatives.go]
  | succ fuel ih => simp [alternatives.go, ih, hg]

@[simp] theorem alternatives_renumber (hg : g.Renumbers f) (s : Reading) :
    alternatives g (renumber f s) = renumber f (alternatives g s) := by
  simp [alternatives, hg, alternatives_go_renumber]

@[simp] theorem block_renumber (hg : g.Renumbers f) (s : Reading) : block g (renumber f s) = renumber f (block g s) := by
  simp [block, hg]

@[simp] theorem attributedBlock_renumber (hg : g.Renumbers f) (s : Reading) :
    attributedBlock g (renumber f s) = renumber f (attributedBlock g s) := by
  simp [attributedBlock, hg]

@[simp] theorem rangeBound_renumber (hg : g.Renumbers f) (s : Reading) :
    rangeBound g (renumber f s) = renumber f (rangeBound g s) := by
  simp [rangeBound, hg]

@[simp] theorem rangeDots_renumber (old : Bool) (s : Reading) :
    rangeDots old (renumber f s) = renumber f (rangeDots old s) := by
  simp [rangeDots]

@[simp] theorem rangeEnd_renumber (hg : g.Renumbers f) (s : Reading) :
    rangeEnd g (renumber f s) = renumber f (rangeEnd g s) := by
  simp [rangeEnd, hg]

@[simp] theorem fieldName_renumber (s : Reading) : fieldName (renumber f s) = renumber f (fieldName s) := by
  obtain ⟨_ | ⟨⟨name, _⟩ | _ | ⟨_ | _ | ⟨_, _ | _⟩ | _ | _ | _, _, _⟩ | _, rest⟩, found⟩ := s
  case cons.word => by_cases hname : name ∈ keywords <;> simp [fieldName, anyTree, renumber_reading, hname]
  all_goals simp [fieldName, anyTree, renumber_reading]

@[simp] theorem fieldPattern_renumber (hg : g.Renumbers f) (s : Reading) :
    fieldPattern g (renumber f s) = renumber f (fieldPattern g s) := by
  simp [fieldPattern, hg]

theorem fieldPatterns_go_renumber (hg : g.Renumbers f) (fuel : Nat) (s : Reading) :
    fieldPatterns.go g fuel (renumber f s) = renumber f (fieldPatterns.go g fuel s) := by
  induction fuel generalizing s with
  | zero => simp [fieldPatterns.go]
  | succ fuel ih => simp [fieldPatterns.go, ih, hg]

@[simp] theorem fieldPatterns_renumber (hg : g.Renumbers f) (s : Reading) :
    fieldPatterns g (renumber f s) = renumber f (fieldPatterns g s) := by
  simp [fieldPatterns, hg, fieldPatterns_go_renumber]

@[simp] theorem pathPattern_renumber (hg : g.Renumbers f) (s : Reading) :
    pathPattern g (renumber f s) = renumber f (pathPattern g s) := by
  simp [pathPattern, hg, group_renumber _ (commaSeparated_renumber (alternatives_renumber hg)),
    group_renumber _ (fieldPatterns_renumber hg)]

@[simp] theorem atPathPattern_renumber (ts : List Tree) : atPathPattern (renumber f ts) = atPathPattern ts := by
  simp [atPathPattern]

@[simp] theorem namePattern_renumber (hg : g.Renumbers f) (s : Reading) :
    namePattern g (renumber f s) = renumber f (namePattern g s) := by
  simp [namePattern, hg]

@[simp] theorem pattern_renumber (hg : g.Renumbers f) (s : Reading) : pattern g (renumber f s) = renumber f (pattern g s) := by
  have hclosed (s : Reading) : (do ensure !(← alternatives g) : Reader Unit) (renumber f s) =
      renumber f ((do ensure !(← alternatives g) : Reader Unit) s) := by
    simp [alternatives_renumber hg]
  simp [pattern, hg, group_renumber _ (commaSeparated_renumber (alternatives_renumber hg)),
    group_renumber _ (commaSeparated_renumber hclosed)]

/-! Operators -/

@[simp] theorem operator?_renumber (ts : List Tree) : operator? (renumber f ts) = operator? ts := by
  simp [operator?]

@[simp] theorem atAssignment_renumber (ts : List Tree) : atAssignment (renumber f ts) = atAssignment ts := by
  simp [atAssignment]

@[simp] theorem precedenceAhead_renumber (ts : List Tree) : precedenceAhead (renumber f ts) = precedenceAhead ts := by
  simp [precedenceAhead]

theorem extend_renumber (hg : g.Renumbers f) (structs : Bool) (p : Precedence) (fuel : Nat) (right : Operand) (s : Reading) :
    extend g structs p fuel (renumber f right) (renumber f s) = renumber f (extend g structs p fuel right s) := by
  induction fuel generalizing right s with
  | zero => simp [extend]
  | succ fuel ih => simp [extend, ih, consumed_renumber (hg.climb right structs _)]

@[simp] theorem rightOperand_renumber (hg : g.Renumbers f) (structs : Bool) (p : Precedence) (s : Reading) :
    rightOperand g structs p (renumber f s) = renumber f (rightOperand g structs p s) := by
  simp [rightOperand, hg, extend_renumber]

@[simp] theorem atRangeStop_renumber (structs : Bool) (ts : List Tree) :
    atRangeStop structs (renumber f ts) = atRangeStop structs ts := by
  simp [atRangeStop]

@[simp] theorem range_renumber (hg : g.Renumbers f) (structs : Bool) (start : List Expr) (s : Reading) :
    range g structs (renumber f start) (renumber f s) = renumber f (range g structs start s) := by
  simp [range, hg]

@[simp] theorem atCastTrailer_renumber (ts : List Tree) : atCastTrailer (renumber f ts) = atCastTrailer ts := by
  simp [atCastTrailer]

@[simp] theorem climb_renumber (hg : g.Renumbers f) (left : Operand) (structs : Bool) (base : Precedence) (s : Reading) :
    climb g (renumber f left) structs base (renumber f s) = renumber f (climb g left structs base s) := by
  have hoperator (right : Expr) (form : Form) (s : Reading) := hg.climb ⟨.other [left.expr, right], form⟩ structs base s
  have hassignment (right : Expr) (s : Reading) := hg.climb ⟨.assignment left.expr right, .plain⟩ structs base s
  have hcast (inner : List Expr) (s : Reading) := hg.climb ⟨.other (left.expr :: inner), .plain⟩ structs base s
  have hrange (s : Reading) := range_renumber hg structs [left.expr] s
  simp only [renumber_operand, renumber_otherExpr, renumber_assignment, renumber_cons, renumber_nil] at *
  simp only [climb, Reader.ite_apply, Operand.form_renumber, Reader.bind_apply, ahead_apply, Option.bind_some, rest_renumber,
    operator?_renumber]
  cases operator? s.rest with
  | none => simp [hg, hassignment, hcast, hrange]
  | some found => simp [hg, hoperator]

@[simp] theorem expr_renumber (hg : g.Renumbers f) (structs : Bool) (s : Reading) :
    expr g structs (renumber f s) = renumber f (expr g structs s) := by
  simp [expr, hg]

/-! What follows an atom -/

theorem Grammar.Renumbers.trailer_one (hg : g.Renumbers f) (e : Expr) (s : Reading) :
    g.trailer ⟨.other [renumber f e], .plain⟩ (renumber f s) = renumber f (g.trailer ⟨.other [e], .plain⟩ s) := by
  simpa using hg.trailer ⟨.other [e], .plain⟩ s

@[simp] theorem member_renumber (hg : g.Renumbers f) (e : Expr) (s : Reading) :
    member g (renumber f e) (renumber f s) = renumber f (member g e s) := by
  have hcall (name : String) (given : List Expr) (s : Reading) := hg.trailer ⟨.methodCall e name given, .plain⟩ s
  simp only [renumber_operand, renumber_methodCall] at hcall
  have hturbofish : ∀ s, (do marks [':', ':']; angleArguments g : Reader Unit) (renumber f s) =
      renumber f ((do marks [':', ':']; angleArguments g : Reader Unit) s) := by simp [hg]
  simp [member, hg, hg.trailer_one, hcall, collect_renumber hturbofish]

@[simp] theorem afterDot_renumber (hg : g.Renumbers f) (e : Expr) (s : Reading) :
    afterDot g (renumber f e) (renumber f s) = renumber f (afterDot g e s) := by
  have hmember (s : Reading) := member_renumber hg (.other [e]) s
  simp only [renumber_otherExpr, renumber_cons, renumber_nil] at hmember
  have hname := member_renumber hg e s
  have hindex := skip_renumber (f := f) 1 s
  obtain ⟨_ | ⟨_ | _ | ⟨_ | _ | _ | _ | _, _, _⟩ | _, _⟩, _⟩ := s
  case cons.literal.float =>
    simp only [renumber_reading, renumber_cons, renumber_literalTree] at hindex
    simp [afterDot, hindex, hg.trailer_one, hmember, renumber_reading]
  all_goals
    simp only [renumber_reading, renumber_nil, renumber_cons, renumber_word, renumber_mark, renumber_literalTree,
      renumber_group] at hname
    simpa [afterDot, renumber_reading] using hname

@[simp] theorem trailer_renumber (hg : g.Renumbers f) (e : Operand) (s : Reading) :
    trailer g (renumber f e) (renumber f s) = renumber f (trailer g e s) := by
  have hcall (given : List Expr) (s : Reading) := hg.trailer ⟨.call e.expr given, .plain⟩ s
  have hindex (index : Expr) (s : Reading) := hg.trailer ⟨.other [e.expr, index], .plain⟩ s
  simp only [renumber_operand, renumber_call, renumber_otherExpr, renumber_cons, renumber_nil] at hcall hindex
  simp [trailer, hg, hg.trailer_one, hcall, hindex, group_renumber _ (arguments_renumber hg)]

/-! Control structures -/

theorem conditional_renumber (hg : g.Renumbers f) (fuel : Nat) (s : Reading) :
    conditional g fuel (renumber f s) = renumber f (conditional g fuel s) := by
  induction fuel generalizing s with
  | zero => simp [conditional]
  | succ fuel ih => simp [conditional, ih, hg, noted_renumber (hg.expr false)]

@[simp] theorem matchArm_renumber (hg : g.Renumbers f) (s : Reading) :
    matchArm g (renumber f s) = renumber f (matchArm g s) := by
  simp [matchArm, hg, noted_renumber (hg.expr true)]

@[simp] theorem labelled_renumber (hg : g.Renumbers f) (s : Reading) :
    labelled g (renumber f s) = renumber f (labelled g s) := by
  simp [labelled, hg, noted_renumber (hg.expr false)]

@[simp] theorem atBinder_renumber (ts : List Tree) : atBinder (renumber f ts) = atBinder ts := by
  simp [atBinder]

@[simp] theorem atControl_renumber (ts : List Tree) : atControl (renumber f ts) = atControl ts := by
  simp [atControl]

@[simp] theorem controlInside_renumber (hg : g.Renumbers f) (s : Reading) :
    controlInside g (renumber f s) = renumber f (controlInside g s) := by
  have harms : ∀ s, (do let _ ← innerAttributes g; let _ ← untilEnd (matchArm g) : Reader Unit) (renumber f s) =
      renumber f ((do let _ ← innerAttributes g; let _ ← untilEnd (matchArm g) : Reader Unit) s) := by
    simp [hg, untilEnd_renumber (matchArm_renumber hg)]
  simp [controlInside, hg, conditional_renumber, noted_renumber (hg.expr false), group_renumber _ harms, -bind_pure_comp]

@[simp] theorem control_renumber (hg : g.Renumbers f) (s : Reading) : control g (renumber f s) = renumber f (control g s) := by
  simp [control, parts_renumber (controlInside_renumber hg)]

/-! Closures and jumps -/

@[simp] theorem atClosure_renumber (ts : List Tree) : atClosure (renumber f ts) = atClosure ts := by
  simp [atClosure]

@[simp] theorem closureParameter_renumber (hg : g.Renumbers f) (s : Reading) :
    closureParameter g (renumber f s) = renumber f (closureParameter g s) := by
  simp [closureParameter, hg]

@[simp] theorem closure_renumber (hg : g.Renumbers f) (structs : Bool) (s : Reading) :
    closure g structs (renumber f s) = renumber f (closure g structs s) := by
  simp [closure, hg, noted_renumber (hg.expr structs)]

@[simp] theorem atExpression_renumber (ts : List Tree) : atExpression (renumber f ts) = atExpression ts := by
  simp [atExpression]

@[simp] theorem breakLoop_renumber (hg : g.Renumbers f) (structs : Bool) (s : Reading) :
    breakLoop g structs (renumber f s) = renumber f (breakLoop g structs s) := by
  simp [breakLoop, noted_renumber (hg.expr structs)]

/-! Atoms -/

@[simp] theorem parenthesized_renumber (hg : g.Renumbers f) (s : Reading) :
    parenthesized g (renumber f s) = renumber f (parenthesized g s) := by
  have hinside (s : Reading) := hg.expr true s
  rw [parenthesized]
  refine group_renumber _ (fun s => ?_) s
  simp [hg]

@[simp] theorem array_renumber (hg : g.Renumbers f) (s : Reading) : array g (renumber f s) = renumber f (array g s) := by
  rw [array]
  refine group_renumber _ (fun s => ?_) s
  simp [hg]

theorem fieldValues_go_renumber (hg : g.Renumbers f) (fuel : Nat) (s : Reading) :
    fieldValues.go g fuel (renumber f s) = renumber f (fieldValues.go g fuel s) := by
  induction fuel generalizing s with
  | zero => simp [fieldValues.go]
  | succ fuel ih => simp [fieldValues.go, ih, hg, noted_renumber (hg.expr true)]

@[simp] theorem fieldValues_renumber (hg : g.Renumbers f) (s : Reading) :
    fieldValues g (renumber f s) = renumber f (fieldValues g s) := by
  simp [fieldValues, hg, fieldValues_go_renumber]

@[simp] theorem atPathExpr_renumber (ts : List Tree) : atPathExpr (renumber f ts) = atPathExpr ts := by
  simp [atPathExpr]

@[simp] theorem pathExpr_renumber (hg : g.Renumbers f) (structs : Bool) (s : Reading) :
    pathExpr g structs (renumber f s) = renumber f (pathExpr g structs s) := by
  have hitems (ts : List Tree) := whole?_renumber (arguments_renumber hg) (f := f) ts
  simp [pathExpr, hg, parts_renumber (group_renumber _ (fieldValues_renumber hg)), hitems]
  -- What is left is the match on the items of a vector.
  refine Option.bind_congr fun p _ => if_congr Iff.rfl ?_ rfl
  refine Option.bind_congr fun q _ => Option.bind_congr fun call _ => if_congr Iff.rfl ?_ rfl
  cases (arguments g).whole? call.1.2 <;> simp

@[simp] theorem keywordExpr_renumber (hg : g.Renumbers f) (structs : Bool) (s : Reading) :
    keywordExpr g structs (renumber f s) = renumber f (keywordExpr g structs s) := by
  have hlet (left : Operand) (s : Reading) : noted (g.climb (renumber f left) structs .compare) (renumber f s) =
      renumber f (noted (g.climb left structs .compare) s) := by
    simp [noted, hg]
  simp [keywordExpr, hg, noted_renumber (hg.expr true), hlet]

@[simp] theorem atom_renumber (hg : g.Renumbers f) (structs : Bool) (s : Reading) :
    atom g structs (renumber f s) = renumber f (atom g structs s) := by
  have hrange := range_renumber hg structs [] s
  rw [renumber_nil] at hrange
  simp [atom, hg, hrange, parts_renumber (block_renumber hg), parts_renumber (closure_renumber hg structs)]

@[simp] theorem unary_renumber (hg : g.Renumbers f) (structs : Bool) (s : Reading) :
    unary g structs (renumber f s) = renumber f (unary g structs s) := by
  simp [unary, hg]

@[simp] theorem early_renumber (hg : g.Renumbers f) (s : Reading) : early g (renumber f s) = renumber f (early g s) := by
  simp [early, hg]

end
end ApiHandbook.Code
