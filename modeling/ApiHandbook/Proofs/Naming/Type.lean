import ApiHandbook.Proofs.Naming.Reader
import Mathlib

/-! The readers of paths, types and patterns keep a property of names. Of what they make only paths hold names. -/
namespace ApiHandbook.Code
open Std.Do Reader

set_option mvcgen.warning false

section
variable {p : String → Prop} {g : Grammar}

/-! Paths -/

@[spec] theorem arguments_yields (hg : g.Keeps p) : Yields p (arguments g) (Expr.AllNamed p) := by
  have h : Yields p (do return (← g.expr true).expr : Reader Expr) (Expr.Named p) := by
    mvcgen
  exact (commaSeparated_yields h).imp fun _ => Expr.allNamed_iff.mpr

@[spec] theorem someType_keeps (hg : g.Keeps p) : Keeps p (someType g) := by
  mvcgen [someType]

@[spec] theorem literal_keeps : Keeps p literal := by
  mvcgen [literal] with grind

@[spec] theorem namePath_keeps : Keeps p namePath := by
  have go (fuel : Nat) : Keeps p (namePath.go fuel) := by
    induction fuel with
    | zero => mvcgen [namePath.go]
    | succ fuel ih => mvcgen [namePath.go, ih] <;> grind
  mvcgen [namePath, go] with grind

@[spec] theorem constantArgument_keeps (hg : g.Keeps p) : Keeps p (constantArgument g) := by
  mvcgen [constantArgument] with grind

@[spec] theorem boundsUntil_keeps (hg : g.Keeps p) (stop : List Tree → Bool) : Keeps p (boundsUntil g stop) := by
  mvcgen [boundsUntil]

@[spec] theorem genericArgument_keeps (hg : g.Keeps p) : Keeps p (genericArgument g) := by
  mvcgen [genericArgument] with grind

@[spec] theorem angleArguments_keeps (hg : g.Keeps p) : Keeps p (angleArguments g) := by
  mvcgen [angleArguments] with grind

@[spec] theorem returnType_keeps (hg : g.Keeps p) (plus : Bool) : Keeps p (returnType g plus) := by
  mvcgen [returnType]

@[spec] theorem parenthesizedArguments_keeps (hg : g.Keeps p) : Keeps p (parenthesizedArguments g) := by
  mvcgen [parenthesizedArguments] with grind

@[spec] theorem segment_yields (hg : g.Keeps p) (inExpr : Bool) : Yields p (segment g inExpr) fun s => p s.name := by
  mvcgen [segment] with grind

@[spec] theorem moreSegments_yields (hg : g.Keeps p) (inExpr : Bool) :
    Yields p (moreSegments g inExpr) fun segments => ∀ s ∈ segments, p s.name := by
  have go (fuel : Nat) : Yields p (moreSegments.go g inExpr fuel) fun segments => ∀ s ∈ segments, p s.name := by
    induction fuel with
    | zero => mvcgen [moreSegments.go]
    | succ fuel ih => mvcgen [moreSegments.go, ih] <;> grind
  mvcgen [moreSegments, go] with grind

@[spec] theorem path_yields (hg : g.Keeps p) (inExpr : Bool) : Yields p (path g inExpr) (Path.Named p) := by
  mvcgen [path] with grind [Path.Named]

@[spec] theorem segments_yields (hg : g.Keeps p) (inExpr : Bool) :
    Yields p (segments g inExpr) fun segments => ∀ s ∈ segments, p s.name := by
  have go (fuel : Nat) : Yields p (segments.go g inExpr fuel) fun segments => ∀ s ∈ segments, p s.name := by
    induction fuel with
    | zero => mvcgen [segments.go]
    | succ fuel ih => mvcgen [segments.go, ih] <;> grind
  mvcgen [segments, go] with grind

@[spec] theorem qualifiedPath_yields (hg : g.Keeps p) (inExpr : Bool) :
    Yields p (qualifiedPath g inExpr) fun x => x.2.Named p := by
  mvcgen [qualifiedPath] with grind [Path.Named]

/-! Attributes -/

@[spec] theorem attributeValue_keeps (hg : g.Keeps p) : Keeps p (attributeValue g) := by
  mvcgen [attributeValue] with grind

@[spec] theorem attributeInside_keeps (hg : g.Keeps p) : Keeps p (attributeInside g) := by
  mvcgen [attributeInside]

@[spec] theorem outerAttributes_keeps (hg : g.Keeps p) : Keeps p (outerAttributes g) := by
  have go (fuel : Nat) : Keeps p (outerAttributes.go g fuel) := by
    induction fuel with
    | zero => mvcgen [outerAttributes.go]
    | succ fuel ih => mvcgen [outerAttributes.go, ih] <;> grind
  mvcgen [outerAttributes, go] with grind

@[spec] theorem innerAttributes_keeps (hg : g.Keeps p) : Keeps p (innerAttributes g) := by
  have go (fuel : Nat) : Keeps p (innerAttributes.go g fuel) := by
    induction fuel with
    | zero => mvcgen [innerAttributes.go]
    | succ fuel ih => mvcgen [innerAttributes.go, ih] <;> grind
  mvcgen [innerAttributes, go] with grind

@[spec] theorem attributes_keeps (hg : g.Keeps p) : Keeps p (attributes g) := by
  mvcgen [attributes]

/-! Parameters and bounds -/

@[spec] theorem lifetimesUntil_keeps (stop : List Tree → Bool) : Keeps p (lifetimesUntil stop) := by
  mvcgen [lifetimesUntil]

@[spec] theorem genericParameter_keeps (hg : g.Keeps p) : Keeps p (genericParameter g) := by
  mvcgen [genericParameter] with grind

@[spec] theorem genericList_keeps (hg : g.Keeps p) : Keeps p (genericList g) := by
  mvcgen [genericList] with grind

@[spec] theorem generics_keeps (hg : g.Keeps p) : Keeps p (generics g) := by
  mvcgen [generics]

@[spec] theorem binder_keeps (hg : g.Keeps p) : Keeps p (binder g) := by
  mvcgen [binder]

@[spec] theorem condition_keeps (hg : g.Keeps p) : Keeps p (condition g) := by
  mvcgen [condition] with grind

-- In front of a match the property must be known beforehand: there this lemma is given for the one at hand.
@[spec low] theorem conditions_keeps (hg : g.Keeps p) : Keeps p (conditions g) := by
  mvcgen [conditions] with grind

@[spec] theorem captures_keeps : Keeps p captures := by
  mvcgen [captures] with grind

@[spec] theorem traitBound_keeps (hg : g.Keeps p) (constant : Bool) : Keeps p (traitBound g constant) := by
  mvcgen [traitBound] with grind

@[spec] theorem bound_keeps (hg : g.Keeps p) (capture constant : Bool) : Keeps p (bound g capture constant) := by
  mvcgen [bound] with grind

@[spec] theorem bounds_keeps (hg : g.Keeps p) (plus capture constant : Bool) :
    Keeps p (bounds g plus capture constant) := by
  have go (fuel : Nat) : Keeps p (bounds.go g plus capture constant fuel) := by
    induction fuel with
    | zero => mvcgen [bounds.go]
    | succ fuel ih => mvcgen [bounds.go, ih]
  mvcgen [bounds, go] with grind

@[spec] theorem moreBounds_keeps (hg : g.Keeps p) : Keeps p (moreBounds g) := by
  have go (fuel : Nat) : Keeps p (moreBounds.go g fuel) := by
    induction fuel with
    | zero => mvcgen [moreBounds.go]
    | succ fuel ih => mvcgen [moreBounds.go, ih]
  mvcgen [moreBounds, go] with grind

@[spec] theorem trailingBounds_keeps (hg : g.Keeps p) : Keeps p (trailingBounds g) := by
  have go (fuel : Nat) : Keeps p (trailingBounds.go g fuel) := by
    induction fuel with
    | zero => mvcgen [trailingBounds.go]
    | succ fuel ih => mvcgen [trailingBounds.go, ih]
  mvcgen [trailingBounds, go] with grind

/-! Types -/

@[spec] theorem typePath_keeps (hg : g.Keeps p) : Keeps p (typePath g) := by
  have go (fuel : Nat) (segments : List Segment) : Keeps p (typePath.go g fuel segments) := by
    induction fuel generalizing segments with
    | zero => mvcgen [typePath.go]
    | succ fuel ih => mvcgen [typePath.go, ih] <;> grind
  mvcgen [typePath, go] with grind

@[spec] theorem functionTypeParameters_keeps (hg : g.Keeps p) : Keeps p (functionTypeParameters g) := by
  have parameter (isFirst : Bool) : Keeps p (functionTypeParameters.parameter g isFirst) := by
    mvcgen [functionTypeParameters.parameter] with grind
  have go (isFirst : Bool) (fuel : Nat) : Keeps p (functionTypeParameters.go g isFirst fuel) := by
    induction fuel generalizing isFirst with
    | zero => mvcgen [functionTypeParameters.go]
    | succ fuel ih => mvcgen [functionTypeParameters.go, parameter, ih] <;> grind
  mvcgen [functionTypeParameters, go] with grind

@[spec] theorem functionType_keeps (hg : g.Keeps p) : Keeps p (functionType g) := by
  mvcgen [functionType] with grind

@[spec] theorem enclosedTypes_keeps (hg : g.Keeps p) : Keeps p (enclosedTypes g) := by
  mvcgen [enclosedTypes] with grind

@[spec] theorem parenthesizedType_keeps (hg : g.Keeps p) (plus : Bool) : Keeps p (parenthesizedType g plus) := by
  mvcgen [parenthesizedType] with grind

@[spec] theorem pathType_keeps (hg : g.Keeps p) (bound plus : Bool) : Keeps p (pathType g bound plus) := by
  mvcgen [pathType] with grind

@[spec] theorem type_keeps (hg : g.Keeps p) (plus : Bool) : Keeps p (type g plus) := by
  mvcgen [type] with grind

/-! Patterns -/

@[spec] theorem alternatives_keeps (hg : g.Keeps p) : Keeps p (alternatives g) := by
  have go (fuel : Nat) : Keeps p (alternatives.go g fuel) := by
    induction fuel with
    | zero => mvcgen [alternatives.go]
    | succ fuel ih => mvcgen [alternatives.go, ih]
  mvcgen [alternatives, go] with grind

@[spec] theorem block_keeps (hg : g.Keeps p) : Keeps p (block g) := by
  mvcgen [block] with grind

@[spec] theorem attributedBlock_keeps (hg : g.Keeps p) : Keeps p (attributedBlock g) := by
  mvcgen [attributedBlock] with grind

@[spec] theorem rangeBound_keeps (hg : g.Keeps p) : Keeps p (rangeBound g) := by
  mvcgen [rangeBound] with grind

@[spec] theorem rangeDots_keeps (old : Bool) : Keeps p (rangeDots old) := by
  mvcgen [rangeDots]

@[spec] theorem rangeEnd_keeps (hg : g.Keeps p) : Keeps p (rangeEnd g) := by
  mvcgen [rangeEnd]

@[spec] theorem fieldName_keeps : Keeps p fieldName := by
  mvcgen [fieldName] with grind

@[spec] theorem fieldPattern_keeps (hg : g.Keeps p) : Keeps p (fieldPattern g) := by
  mvcgen [fieldPattern] with grind

@[spec] theorem fieldPatterns_keeps (hg : g.Keeps p) : Keeps p (fieldPatterns g) := by
  have go (fuel : Nat) : Keeps p (fieldPatterns.go g fuel) := by
    induction fuel with
    | zero => mvcgen [fieldPatterns.go]
    | succ fuel ih => mvcgen [fieldPatterns.go, ih]
  mvcgen [fieldPatterns, go] with grind

@[spec] theorem pathPattern_keeps (hg : g.Keeps p) : Keeps p (pathPattern g) := by
  mvcgen [pathPattern] with grind

@[spec] theorem namePattern_keeps (hg : g.Keeps p) : Keeps p (namePattern g) := by
  mvcgen [namePattern] with grind

@[spec] theorem pattern_keeps (hg : g.Keeps p) : Keeps p (pattern g) := by
  mvcgen [pattern] with grind

end

end ApiHandbook.Code
