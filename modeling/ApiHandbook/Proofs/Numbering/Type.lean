import ApiHandbook.Proofs.Numbering.Reader

/-! The readers of paths, types and patterns, from tokens that are numbered in another way. -/
namespace ApiHandbook.Code

attribute [simp] Grammar.Renumbers.expr Grammar.Renumbers.unary Grammar.Renumbers.climb Grammar.Renumbers.trailer
  Grammar.Renumbers.early Grammar.Renumbers.statements Grammar.Renumbers.type Grammar.Renumbers.bound
  Grammar.Renumbers.pattern Grammar.Renumbers.item

section
variable {f : Nat → Nat} {g : Grammar}

@[simp] theorem noted_renumber {reader : Reader Operand} (h : ∀ s, reader (renumber f s) = renumber f (reader s))
    (s : Reading) : noted reader (renumber f s) = renumber f (noted reader s) := by
  simp [noted, h]

/-! Paths -/

@[simp] theorem arguments_renumber (hg : g.Renumbers f) (s : Reading) :
    arguments g (renumber f s) = renumber f (arguments g s) := by
  simp [arguments, hg]

@[simp] theorem someType_renumber (hg : g.Renumbers f) (s : Reading) :
    someType g (renumber f s) = renumber f (someType g s) := by
  simp [someType, hg]

@[simp] theorem literal_renumber (s : Reading) : literal (renumber f s) = renumber f (literal s) := by
  rcases s with ⟨_ | ⟨_ | ⟨c, _, _⟩ | _ | _, _ | ⟨_ | _ | _ | _, _⟩⟩, _⟩ <;>
    simp [literal, mark?, marks?, atMarks, atMark, anyTree, skip, renumber_reading]

theorem namePath_go_renumber (fuel : Nat) (s : Reading) :
    namePath.go fuel (renumber f s) = renumber f (namePath.go fuel s) := by
  induction fuel generalizing s with
  | zero => simp [namePath.go]
  | succ fuel ih => simp [namePath.go, ih]

@[simp] theorem namePath_renumber (s : Reading) : namePath (renumber f s) = renumber f (namePath s) := by
  simp [namePath, namePath_go_renumber]

@[simp] theorem constantArgument_renumber (hg : g.Renumbers f) (s : Reading) :
    constantArgument g (renumber f s) = renumber f (constantArgument g s) := by
  simp [constantArgument, hg]

@[simp] theorem boundsUntil_renumber (hg : g.Renumbers f) {stop : List Tree → Bool}
    (hstop : ∀ ts, stop (renumber f ts) = stop ts) (s : Reading) :
    boundsUntil g stop (renumber f s) = renumber f (boundsUntil g stop s) := by
  simp [boundsUntil, hg, hstop]

@[simp] theorem genericArgument_renumber (hg : g.Renumbers f) (s : Reading) :
    genericArgument g (renumber f s) = renumber f (genericArgument g s) := by
  simp [genericArgument, hg]

@[simp] theorem angleArguments_renumber (hg : g.Renumbers f) (s : Reading) :
    angleArguments g (renumber f s) = renumber f (angleArguments g s) := by
  simp [angleArguments, hg]

@[simp] theorem returnType_renumber (hg : g.Renumbers f) (plus : Bool) (s : Reading) :
    returnType g plus (renumber f s) = renumber f (returnType g plus s) := by
  simp [returnType, hg]

@[simp] theorem parenthesizedArguments_renumber (hg : g.Renumbers f) (s : Reading) :
    parenthesizedArguments g (renumber f s) = renumber f (parenthesizedArguments g s) := by
  simp [parenthesizedArguments, hg, group_renumber _ (commaSeparated_renumber (hg.type true))]

@[simp] theorem atParenthesized_renumber (ts : List Tree) : atParenthesized (renumber f ts) = atParenthesized ts := by
  simp [atParenthesized]

@[simp] theorem atBound_renumber (constant : Bool) (ts : List Tree) : atBound constant (renumber f ts) = atBound constant ts := by
  simp [atBound]

@[simp] theorem segment_renumber (hg : g.Renumbers f) (inExpr : Bool) (s : Reading) :
    segment g inExpr (renumber f s) = renumber f (segment g inExpr s) := by
  simp [segment, hg]

theorem moreSegments_go_renumber (hg : g.Renumbers f) (inExpr : Bool) (fuel : Nat) (s : Reading) :
    moreSegments.go g inExpr fuel (renumber f s) = renumber f (moreSegments.go g inExpr fuel s) := by
  induction fuel generalizing s with
  | zero => simp [moreSegments.go]
  | succ fuel ih => simp [moreSegments.go, ih, hg]

@[simp] theorem moreSegments_renumber (hg : g.Renumbers f) (inExpr : Bool) (s : Reading) :
    moreSegments g inExpr (renumber f s) = renumber f (moreSegments g inExpr s) := by
  simp [moreSegments, hg, moreSegments_go_renumber]

@[simp] theorem path_renumber (hg : g.Renumbers f) (inExpr : Bool) (s : Reading) :
    path g inExpr (renumber f s) = renumber f (path g inExpr s) := by
  simp [path, hg]

theorem segments_go_renumber (hg : g.Renumbers f) (inExpr : Bool) (fuel : Nat) (s : Reading) :
    segments.go g inExpr fuel (renumber f s) = renumber f (segments.go g inExpr fuel s) := by
  induction fuel generalizing s with
  | zero => simp [segments.go]
  | succ fuel ih => simp [segments.go, ih, hg]

@[simp] theorem segments_renumber (hg : g.Renumbers f) (inExpr : Bool) (s : Reading) :
    segments g inExpr (renumber f s) = renumber f (segments g inExpr s) := by
  simp [segments, hg, segments_go_renumber]

@[simp] theorem qualifiedPath_renumber (hg : g.Renumbers f) (inExpr : Bool) (s : Reading) :
    qualifiedPath g inExpr (renumber f s) = renumber f (qualifiedPath g inExpr s) := by
  simp [qualifiedPath, hg]

/-! Attributes -/

@[simp] theorem attributeValue_renumber (hg : g.Renumbers f) (s : Reading) :
    attributeValue g (renumber f s) = renumber f (attributeValue g s) := by
  have hother (ts : List Tree) (s : Reading) : (do
      ensure !(atMark '#' (renumber f ts) && atGroup .bracket (beyond (renumber f ts)))
      noted (g.expr true)
      return AttributeValue.value : Reader AttributeValue) (renumber f s) = renumber f ((do
      ensure !(atMark '#' ts && atGroup .bracket (beyond ts))
      noted (g.expr true)
      return AttributeValue.value : Reader AttributeValue) s) := by
    simp [noted_renumber (hg.expr true)]
  simp only [attributeValue, Reader.bind_apply, ahead_apply, Option.bind_some, rest_renumber, atAnyGroup_renumber,
    Reader.ite_apply, renumber_ite, mark?_renumber, bind_renumber, renumber_bind]
  refine if_congr Iff.rfl (by simp) (Option.bind_congr fun ⟨isValue, ⟨ts, found⟩⟩ _ => if_congr Iff.rfl ?_ rfl)
  -- Only a text that is all of the value is kept.
  rcases ts with _ | ⟨_ | _ | ⟨_ | _ | _ | _ | _, _, _⟩ | _, _ | _⟩
  case cons.literal.text.nil => rfl
  all_goals exact hother _ ⟨_, found⟩

@[simp] theorem attributeInside_renumber (hg : g.Renumbers f) (s : Reading) :
    attributeInside g (renumber f s) = renumber f (attributeInside g s) := by
  simp [attributeInside, hg]

theorem outerAttributes_go_renumber (hg : g.Renumbers f) (fuel : Nat) (s : Reading) :
    outerAttributes.go g fuel (renumber f s) = renumber f (outerAttributes.go g fuel s) := by
  induction fuel generalizing s with
  | zero => simp [outerAttributes.go]
  | succ fuel ih => simp [outerAttributes.go, ih, hg]

@[simp] theorem outerAttributes_renumber (hg : g.Renumbers f) (s : Reading) :
    outerAttributes g (renumber f s) = renumber f (outerAttributes g s) := by
  simp [outerAttributes, hg, outerAttributes_go_renumber]

theorem innerAttributes_go_renumber (hg : g.Renumbers f) (fuel : Nat) (s : Reading) :
    innerAttributes.go g fuel (renumber f s) = renumber f (innerAttributes.go g fuel s) := by
  induction fuel generalizing s with
  | zero => simp [innerAttributes.go]
  | succ fuel ih => simp [innerAttributes.go, ih, hg]

@[simp] theorem innerAttributes_renumber (hg : g.Renumbers f) (s : Reading) :
    innerAttributes g (renumber f s) = renumber f (innerAttributes g s) := by
  simp [innerAttributes, hg, innerAttributes_go_renumber]

@[simp] theorem attributes_renumber (hg : g.Renumbers f) (s : Reading) :
    attributes g (renumber f s) = renumber f (attributes g s) := by
  simp [attributes, hg]

/-! Parameters -/

@[simp] theorem lifetimesUntil_renumber {stop : List Tree → Bool} (hstop : ∀ ts, stop (renumber f ts) = stop ts) (s : Reading) :
    lifetimesUntil stop (renumber f s) = renumber f (lifetimesUntil stop s) := by
  simp [lifetimesUntil, hstop]

@[simp] theorem genericParameter_renumber (hg : g.Renumbers f) (s : Reading) :
    genericParameter g (renumber f s) = renumber f (genericParameter g s) := by
  simp [genericParameter, hg]

@[simp] theorem genericList_renumber (hg : g.Renumbers f) (s : Reading) :
    genericList g (renumber f s) = renumber f (genericList g s) := by
  simp [genericList, hg]

@[simp] theorem generics_renumber (hg : g.Renumbers f) (s : Reading) :
    generics g (renumber f s) = renumber f (generics g s) := by
  simp [generics, hg]

@[simp] theorem binder_renumber (hg : g.Renumbers f) (s : Reading) : binder g (renumber f s) = renumber f (binder g s) := by
  simp [binder, hg]

@[simp] theorem atConditionsEnd_renumber (ts : List Tree) : atConditionsEnd (renumber f ts) = atConditionsEnd ts := by
  simp [atConditionsEnd]

@[simp] theorem condition_renumber (hg : g.Renumbers f) (s : Reading) :
    condition g (renumber f s) = renumber f (condition g s) := by
  simp [condition, hg]

@[simp] theorem conditions_renumber (hg : g.Renumbers f) (s : Reading) :
    conditions g (renumber f s) = renumber f (conditions g s) := by
  simp [conditions, hg]

/-! Bounds -/

@[simp] theorem captures_renumber (s : Reading) : captures (renumber f s) = renumber f (captures s) := by
  simp [captures]

@[simp] theorem traitBound_renumber (hg : g.Renumbers f) (constant : Bool) (s : Reading) :
    traitBound g constant (renumber f s) = renumber f (traitBound g constant s) := by
  simp [traitBound, hg]

@[simp] theorem bound_renumber (hg : g.Renumbers f) (capture constant : Bool) (s : Reading) :
    bound g capture constant (renumber f s) = renumber f (bound g capture constant s) := by
  simp [bound, hg]

theorem bounds_go_renumber (hg : g.Renumbers f) (plus capture constant : Bool) (fuel : Nat) (s : Reading) :
    bounds.go g plus capture constant fuel (renumber f s) = renumber f (bounds.go g plus capture constant fuel s) := by
  induction fuel generalizing s with
  | zero => simp [bounds.go]
  | succ fuel ih => simp [bounds.go, ih, hg]

@[simp] theorem bounds_renumber (hg : g.Renumbers f) (plus capture constant : Bool) (s : Reading) :
    bounds g plus capture constant (renumber f s) = renumber f (bounds g plus capture constant s) := by
  simp [bounds, hg, bounds_go_renumber]

theorem moreBounds_go_renumber (hg : g.Renumbers f) (fuel : Nat) (s : Reading) :
    moreBounds.go g fuel (renumber f s) = renumber f (moreBounds.go g fuel s) := by
  induction fuel generalizing s with
  | zero => simp [moreBounds.go]
  | succ fuel ih => simp [moreBounds.go, ih, hg]

@[simp] theorem moreBounds_renumber (hg : g.Renumbers f) (s : Reading) :
    moreBounds g (renumber f s) = renumber f (moreBounds g s) := by
  simp [moreBounds, hg, moreBounds_go_renumber]

theorem trailingBounds_go_renumber (hg : g.Renumbers f) (fuel : Nat) (s : Reading) :
    trailingBounds.go g fuel (renumber f s) = renumber f (trailingBounds.go g fuel s) := by
  induction fuel generalizing s with
  | zero => simp [trailingBounds.go]
  | succ fuel ih => simp [trailingBounds.go, ih, hg]

@[simp] theorem trailingBounds_renumber (hg : g.Renumbers f) (s : Reading) :
    trailingBounds g (renumber f s) = renumber f (trailingBounds g s) := by
  simp [trailingBounds, hg, trailingBounds_go_renumber]

/-! Types -/

theorem typePath_go_renumber (hg : g.Renumbers f) (fuel : Nat) (segments : List Segment) (s : Reading) :
    typePath.go g fuel segments (renumber f s) = renumber f (typePath.go g fuel segments s) := by
  induction fuel generalizing segments s with
  | zero => simp [typePath.go]
  | succ fuel ih => simp [typePath.go, ih, hg]

@[simp] theorem typePath_renumber (hg : g.Renumbers f) (s : Reading) :
    typePath g (renumber f s) = renumber f (typePath g s) := by
  simp [typePath, hg, typePath_go_renumber]

@[simp] theorem functionTypeParameters_parameter_renumber (hg : g.Renumbers f) (isFirst : Bool) (s : Reading) :
    functionTypeParameters.parameter g isFirst (renumber f s) = renumber f (functionTypeParameters.parameter g isFirst s) := by
  simp [functionTypeParameters.parameter, hg]

@[simp] theorem functionTypeParameters_named_renumber (ts : List Tree) :
    functionTypeParameters.named (renumber f ts) = functionTypeParameters.named ts := by
  simp [functionTypeParameters.named]

theorem functionTypeParameters_go_renumber (hg : g.Renumbers f) (isFirst : Bool) (fuel : Nat) (s : Reading) :
    functionTypeParameters.go g isFirst fuel (renumber f s) = renumber f (functionTypeParameters.go g isFirst fuel s) := by
  induction fuel generalizing isFirst s with
  | zero => simp [functionTypeParameters.go]
  | succ fuel ih => simp [functionTypeParameters.go, ih, hg]

@[simp] theorem functionTypeParameters_renumber (hg : g.Renumbers f) (s : Reading) :
    functionTypeParameters g (renumber f s) = renumber f (functionTypeParameters g s) := by
  simp [functionTypeParameters, hg, functionTypeParameters_go_renumber]

@[simp] theorem functionType_renumber (hg : g.Renumbers f) (s : Reading) :
    functionType g (renumber f s) = renumber f (functionType g s) := by
  simp [functionType, hg]

instance : Numbered Enclosed := ⟨fun _ => id⟩

@[simp] theorem renumber_enclosed (x : Enclosed) : renumber f x = x := rfl

@[simp] theorem enclosedTypes_renumber (hg : g.Renumbers f) (s : Reading) :
    enclosedTypes g (renumber f s) = renumber f (enclosedTypes g s) := by
  simp [enclosedTypes, hg]

@[simp] theorem parenthesizedType_renumber (hg : g.Renumbers f) (plus : Bool) (s : Reading) :
    parenthesizedType g plus (renumber f s) = renumber f (parenthesizedType g plus s) := by
  rw [parenthesizedType, Reader.bind_apply, Reader.bind_apply, group_renumber _ (enclosedTypes_renumber hg),
    bind_renumber, renumber_bind]
  refine Option.bind_congr fun ⟨x, s⟩ _ => ?_
  cases x with
  | nothing | lifetimes | several => simp
  | maybe => simp [hg]
  | one type => cases type <;> simp [hg]

@[simp] theorem pathType_renumber (hg : g.Renumbers f) (bound plus : Bool) (s : Reading) :
    pathType g bound plus (renumber f s) = renumber f (pathType g bound plus s) := by
  simp [pathType, hg]

@[simp] theorem atBinderBody_renumber (ts : List Tree) : atBinderBody (renumber f ts) = atBinderBody ts := by
  simp [atBinderBody]

@[simp] theorem type_renumber (hg : g.Renumbers f) (plus : Bool) (s : Reading) :
    type g plus (renumber f s) = renumber f (type g plus s) := by
  simp [type, hg, noted_renumber (hg.expr true)]

end
end ApiHandbook.Code
