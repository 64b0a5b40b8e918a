import ApiHandbook.Proofs.Numbering.Reader

/-! Readers take trees from the front: what they leave is no longer than what they were given, and shorter behind a keyword. Thus
an item has a first and a last tree. -/
namespace ApiHandbook.Code

/-- A reader that leaves no more trees than it was given. -/
class Shrinks {α : Type} (reader : Reader α) : Prop where
  length_le : ∀ {s s' : Reading} {a : α}, reader s = some (a, s') → s'.rest.length ≤ s.rest.length

/-- A reader that takes a tree at least. -/
class Takes {α : Type} (reader : Reader α) : Prop where
  length_lt : ∀ {s s' : Reading} {a : α}, reader s = some (a, s') → s'.rest.length < s.rest.length

section
variable {α β : Type}

theorem Shrinks.of_le {reader : Reader α} (h : ∀ s, ∀ p ∈ reader s, p.2.rest.length ≤ s.rest.length) : Shrinks reader :=
  ⟨fun hread => h _ _ hread⟩

instance (a : α) : Shrinks (pure a : Reader α) := .of_le fun s p hp => by
  obtain rfl := Option.some.inj hp
  exact Nat.le_refl _

instance : Shrinks (refuse : Reader α) := ⟨nofun⟩

theorem Shrinks.bind {reader : Reader α} {next : α → Reader β} [hreader : Shrinks reader] (hnext : ∀ a, Shrinks (next a)) :
    Shrinks (reader >>= next) where
  length_le h := by
    obtain ⟨⟨a, s'⟩, hread, hrest⟩ := Option.bind_eq_some_iff.mp h
    exact ((hnext a).length_le hrest).trans (hreader.length_le hread)

instance (reader : Reader α) (next : α → Reader β) [Shrinks reader] [hnext : ∀ a, Shrinks (next a)] : Shrinks (reader >>= next) :=
  .bind hnext

instance shrinks_map (f : α → β) (reader : Reader α) [Shrinks reader] : Shrinks (f <$> reader) :=
  inferInstanceAs (Shrinks (reader >>= fun a => pure (f a)))

instance shrinks_ite (c : Prop) [Decidable c] (x y : Reader α) [hx : Shrinks x] [hy : Shrinks y] :
    Shrinks (if c then x else y) := by
  split
  · exact hx
  · exact hy

instance takes_bind_left (reader : Reader α) (next : α → Reader β) [hreader : Takes reader] [hnext : ∀ a, Shrinks (next a)] :
    Takes (reader >>= next) where
  length_lt h := by
    obtain ⟨⟨a, s'⟩, hread, hrest⟩ := Option.bind_eq_some_iff.mp h
    exact ((hnext a).length_le hrest).trans_lt (hreader.length_lt hread)

instance takes_bind_right (reader : Reader α) (next : α → Reader β) [hreader : Shrinks reader] [hnext : ∀ a, Takes (next a)] :
    Takes (reader >>= next) where
  length_lt h := by
    obtain ⟨⟨a, s'⟩, hread, hrest⟩ := Option.bind_eq_some_iff.mp h
    exact ((hnext a).length_lt hrest).trans_le (hreader.length_le hread)

instance takes_ite (c : Prop) [Decidable c] (x y : Reader α) [hx : Takes x] [hy : Takes y] : Takes (if c then x else y) := by
  split
  · exact hx
  · exact hy

end

/-! Taking trees -/

instance : Shrinks ahead := .of_le fun s p hp => by
  obtain rfl := Option.some.inj hp
  exact Nat.le_refl _

instance (condition : Bool) : Shrinks (ensure condition) := by
  unfold ensure
  infer_instance

instance (condition : List Tree → Bool) : Shrinks (sees condition) := by
  unfold sees
  infer_instance

instance (n : Nat) : Shrinks (skip n) := .of_le fun s p hp => by
  obtain rfl := Option.some.inj hp
  exact (List.length_drop ..).trans_le (Nat.sub_le _ n)

instance : Shrinks anyTree := .of_le fun s p hp => by
  obtain ⟨_ | ⟨t, rest⟩, found⟩ := s
  · cases hp
  · obtain rfl := Option.some.inj hp
    exact Nat.le_succ _

instance takes_word (name : String) : Takes (word name) where
  length_lt {s s' a} h := by
    obtain ⟨_ | ⟨t, rest⟩, found⟩ := s
    · cases h
    · obtain ⟨-, -, rfl⟩ := by simpa [word, skip] using h
      exact Nat.lt_succ_self _

instance shrinks_word (name : String) : Shrinks (word name) := by
  unfold word
  infer_instance

instance (c : Char) : Shrinks (mark c) := by
  unfold mark
  infer_instance

instance (cs : List Char) : Shrinks (marks cs) := by
  unfold marks
  infer_instance

instance : Shrinks anyWord := by
  unfold anyWord
  refine .bind fun t => ?_
  split <;> infer_instance

instance : Shrinks identifier := by
  unfold identifier
  infer_instance

instance : Shrinks lifetime := by
  unfold lifetime
  infer_instance

instance (name : String) : Shrinks (word? name) := by
  unfold word?
  infer_instance

instance (cs : List Char) : Shrinks (marks? cs) := by
  unfold marks?
  infer_instance

instance (c : Char) : Shrinks (mark? c) := by
  unfold mark?
  infer_instance

instance : Shrinks anyGroup := by
  unfold anyGroup
  refine .bind fun t => ?_
  split <;> infer_instance

/-! Readers made of others -/

section
variable {α : Type}

/-- What is read inside a group does not matter for what is left behind it. -/
instance shrinks_group (delimiter : Delimiter) (inside : Reader α) : Shrinks (group delimiter inside) where
  length_le {s s' a} h := by
    obtain ⟨_ | ⟨_ | _ | _ | ⟨d, inner, first, last⟩, rest⟩, found⟩ := s
    case cons.group =>
      simp only [group, anyTree, Reader.bind_apply, Option.bind_some, ensure_apply, ite_bind, ahead_apply, Reader.modify_apply,
        Option.bind_none, Option.ite_none_right_eq_some] at h
      obtain ⟨-, h⟩ := h
      obtain ⟨⟨value, inside'⟩, -, h⟩ := Option.bind_eq_some_iff.mp h
      obtain ⟨-, -, rfl⟩ := by simpa using h
      exact Nat.le_succ _
    all_goals cases h

instance (condition : List Tree → Bool) (reader : Reader Unit) [Shrinks reader] : Shrinks (when? condition reader) := by
  unfold when?
  infer_instance

instance shrinks_separatedUntil_go (stop : List Tree → Bool) (separator : Reader Unit) (reader : Reader α) [Shrinks separator]
    [Shrinks reader] (fuel : Nat) : Shrinks (separatedUntil.go stop separator reader fuel) := by
  induction fuel with
  | zero =>
    unfold separatedUntil.go
    infer_instance
  | succ fuel ih =>
    unfold separatedUntil.go
    infer_instance

instance (stop : List Tree → Bool) (separator : Reader Unit) (reader : Reader α) [Shrinks separator] [Shrinks reader] :
    Shrinks (separatedUntil stop separator reader) := by
  unfold separatedUntil
  infer_instance

instance shrinks_joined_go (separator : Char) (goesOn : List Tree → Bool) (reader : Reader Unit) [Shrinks reader] (fuel : Nat) :
    Shrinks (joined.go separator goesOn reader fuel) := by
  induction fuel with
  | zero =>
    unfold joined.go
    infer_instance
  | succ fuel ih =>
    unfold joined.go
    infer_instance

instance (separator : Char) (goesOn : List Tree → Bool) (reader : Reader Unit) [Shrinks reader] :
    Shrinks (joined separator goesOn reader) := by
  unfold joined
  infer_instance

/-- The expressions that are met do not matter for what is left. -/
theorem exists_of_collect {reader : Reader α} {s s' : Reading} {p : α × List Expr} (h : collect reader s = some (p, s')) :
    ∃ a s'', reader ⟨s.rest, []⟩ = some (a, s'') ∧ s''.rest = s'.rest := by
  obtain ⟨⟨a, s''⟩, hread, heq⟩ := Option.bind_eq_some_iff.mp h
  exact ⟨a, s'', hread, by rw [← (Prod.mk.inj (Option.some.inj heq)).2]⟩

instance shrinks_collect (reader : Reader α) [hreader : Shrinks reader] : Shrinks (collect reader) where
  length_le h := by
    obtain ⟨a, s'', hread, hrest⟩ := exists_of_collect h
    have hle := hreader.length_le hread
    rwa [hrest] at hle

instance takes_collect (reader : Reader α) [hreader : Takes reader] : Takes (collect reader) where
  length_lt h := by
    obtain ⟨a, s'', hread, hrest⟩ := exists_of_collect h
    have hlt := hreader.length_lt hread
    rwa [hrest] at hlt

end

/-! Attributes -/

section
variable (g : Grammar)

instance shrinks_outerAttributes_go (fuel : Nat) : Shrinks (outerAttributes.go g fuel) := by
  induction fuel with
  | zero =>
    unfold outerAttributes.go
    infer_instance
  | succ fuel ih =>
    unfold outerAttributes.go
    infer_instance

instance : Shrinks (outerAttributes g) := by
  unfold outerAttributes
  infer_instance

instance : Shrinks (attributes g) := by
  unfold attributes
  infer_instance

/-- An item starts with its attributes. -/
theorem length_le_of_preamble {s s' : Reading} {p : Preamble} (h : preamble g s = some (p, s')) :
    s'.rest.length ≤ p.start.length := by
  obtain ⟨⟨⟨attributes, inner⟩, s''⟩, hread, heq⟩ := Option.bind_eq_some_iff.mp h
  obtain ⟨rfl, rfl⟩ := Prod.mk.inj (Option.some.inj heq)
  exact (shrinks_collect (outerAttributes g)).length_le hread

end

/-! Types and bounds -/

/-- The readers of a grammar that may stand in front of the body of a function. -/
class Grammar.Shrinks (g : Grammar) : Prop where
  type : ∀ plus, Code.Shrinks (g.type plus)
  bound : ∀ capture constant, Code.Shrinks (g.bound capture constant)

attribute [instance] Grammar.Shrinks.type Grammar.Shrinks.bound

set_option synthInstance.maxSize 1000

instance : Shrinks literal := by
  unfold literal
  refine .bind fun negative => ?_
  split
  all_goals
    refine .bind fun t => ?_
    split <;> infer_instance

instance (stop : List Tree → Bool) : Shrinks (lifetimesUntil stop) := by
  unfold lifetimesUntil
  infer_instance

section
variable (g : Grammar) [g.Shrinks]

instance : Shrinks (someType g) := by
  unfold someType
  infer_instance

instance : Shrinks (constantArgument g) := by
  unfold constantArgument
  infer_instance

instance (stop : List Tree → Bool) : Shrinks (boundsUntil g stop) := by
  unfold boundsUntil
  infer_instance

instance : Shrinks (genericArgument g) := by
  unfold genericArgument
  infer_instance

instance : Shrinks (angleArguments g) := by
  unfold angleArguments
  infer_instance

instance (plus : Bool) : Shrinks (returnType g plus) := by
  unfold returnType
  infer_instance

instance : Shrinks (parenthesizedArguments g) := by
  unfold parenthesizedArguments
  infer_instance

instance (inExpr : Bool) : Shrinks (segment g inExpr) := by
  unfold segment
  infer_instance

instance shrinks_moreSegments_go (inExpr : Bool) (fuel : Nat) : Shrinks (moreSegments.go g inExpr fuel) := by
  induction fuel with
  | zero =>
    unfold moreSegments.go
    infer_instance
  | succ fuel ih =>
    unfold moreSegments.go
    infer_instance

instance (inExpr : Bool) : Shrinks (moreSegments g inExpr) := by
  unfold moreSegments
  infer_instance

instance (inExpr : Bool) : Shrinks (path g inExpr) := by
  unfold path
  infer_instance

instance shrinks_segments_go (inExpr : Bool) (fuel : Nat) : Shrinks (segments.go g inExpr fuel) := by
  induction fuel with
  | zero =>
    unfold segments.go
    infer_instance
  | succ fuel ih =>
    unfold segments.go
    infer_instance

instance (inExpr : Bool) : Shrinks (segments g inExpr) := by
  unfold segments
  infer_instance

instance (inExpr : Bool) : Shrinks (qualifiedPath g inExpr) := by
  unfold qualifiedPath
  refine .bind fun isQualified => ?_
  split
  · refine .bind fun _ => .bind fun hasTrait => ?_
    have hrest (traitPath : Option Path) : Shrinks (do
        mark '>'
        marks [':', ':']
        let rest ← segments g inExpr
        match traitPath with
        | some p => return (true, ⟨p.leading, p.segments ++ rest⟩)
        | none => return (true, ⟨true, rest⟩) : Reader (Bool × Path)) := by
      refine .bind fun _ => .bind fun _ => .bind fun rest => ?_
      split <;> infer_instance
    infer_instance
  · infer_instance

/-! Parameters -/

instance : Shrinks (genericParameter g) := by
  unfold genericParameter
  refine .bind fun _ => .bind fun ts => ?_
  extract_lets stop defaulted
  have hdefaulted (u : Unit) : Shrinks (defaulted u) := by
    unfold defaulted
    infer_instance
  clear_value defaulted
  infer_instance

instance : Shrinks (genericList g) := by
  unfold genericList
  infer_instance

instance : Shrinks (generics g) := by
  unfold generics
  infer_instance

instance : Shrinks (binder g) := by
  unfold binder
  infer_instance

instance : Shrinks (condition g) := by
  unfold condition
  infer_instance

instance : Shrinks (conditions g) := by
  unfold conditions
  infer_instance

/-! Bounds -/

instance : Shrinks captures := by
  unfold captures
  infer_instance

instance (constant : Bool) : Shrinks (traitBound g constant) := by
  unfold traitBound
  refine .bind fun bound => .bind fun ts => ?_
  -- What follows an option is taken as a whole, since each option doubles what is to be gone through.
  extract_lets named marked
  have hnamed (u : Unit) : Shrinks (named u) := by
    unfold named
    infer_instance
  have hmarked (u : Unit) : Shrinks (marked u) := by
    unfold marked
    clear_value named
    infer_instance
  clear_value marked
  infer_instance

instance (capture constant : Bool) : Shrinks (bound g capture constant) := by
  unfold bound
  infer_instance

instance shrinks_bounds_go (plus capture constant : Bool) (fuel : Nat) : Shrinks (bounds.go g plus capture constant fuel) := by
  induction fuel with
  | zero =>
    unfold bounds.go
    infer_instance
  | succ fuel ih =>
    unfold bounds.go
    infer_instance

instance (plus capture constant : Bool) : Shrinks (bounds g plus capture constant) := by
  unfold bounds
  infer_instance

instance shrinks_moreBounds_go (fuel : Nat) : Shrinks (moreBounds.go g fuel) := by
  induction fuel with
  | zero =>
    unfold moreBounds.go
    infer_instance
  | succ fuel ih =>
    unfold moreBounds.go
    infer_instance

instance : Shrinks (moreBounds g) := by
  unfold moreBounds
  infer_instance

instance shrinks_trailingBounds_go (fuel : Nat) : Shrinks (trailingBounds.go g fuel) := by
  induction fuel with
  | zero =>
    unfold trailingBounds.go
    infer_instance
  | succ fuel ih =>
    unfold trailingBounds.go
    infer_instance

instance : Shrinks (trailingBounds g) := by
  unfold trailingBounds
  infer_instance

/-! Types -/

instance shrinks_typePath_go (fuel : Nat) (segments : List Segment) : Shrinks (typePath.go g fuel segments) := by
  induction fuel generalizing segments with
  | zero =>
    unfold typePath.go
    infer_instance
  | succ fuel ih =>
    unfold typePath.go
    infer_instance

instance : Shrinks (typePath g) := by
  unfold typePath
  infer_instance

instance : Shrinks (functionType g) := by
  unfold functionType
  infer_instance

instance (plus : Bool) : Shrinks (parenthesizedType g plus) := by
  unfold parenthesizedType
  refine .bind fun enclosed => ?_
  split <;> infer_instance

instance (bound plus : Bool) : Shrinks (pathType g bound plus) := by
  unfold pathType
  infer_instance

instance (plus : Bool) : Shrinks (type g plus) := by
  unfold type
  refine .bind fun bound => .bind fun ts => ?_
  extract_lets pointed body
  have hbody (u : Unit) : Shrinks (body u) := by
    unfold body
    infer_instance
  clear_value body
  infer_instance

theorem grammar_shrinks (depth : Nat) : (grammar depth).Shrinks := by
  induction depth with
  | zero => exact ⟨fun _ => inferInstanceAs (Shrinks refuse), fun _ _ => inferInstanceAs (Shrinks refuse)⟩
  | succ depth ih =>
    exact ⟨fun plus => inferInstanceAs (Shrinks (type (grammar depth) plus)),
      fun capture constant => inferInstanceAs (Shrinks (bound (grammar depth) capture constant))⟩

/-! Items -/

instance : Shrinks visibility := by
  unfold visibility
  refine .bind fun isPublic => ?_
  split
  · refine .bind fun ts => ?_
    split <;> infer_instance
  · infer_instance

instance : Shrinks beyondVisibility := by
  unfold beyondVisibility
  refine .bind fun ts => ?_
  split <;> infer_instance

instance (safe : Bool) : Takes (signature g safe) := by
  unfold signature
  extract_lets keyword external
  have hkeyword (u : Unit) : Takes (keyword u) := by
    unfold keyword
    infer_instance
  have hexternal (u : Unit) : Takes (external u) := by
    unfold external
    clear_value keyword
    infer_instance
  clear_value external
  infer_instance

instance : Shrinks (functionBody g) := by
  unfold functionBody
  infer_instance

instance : Shrinks (structBody g) := by
  unfold structBody namedFields unnamedFields
  infer_instance

end
end ApiHandbook.Code
