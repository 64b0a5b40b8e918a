import ApiHandbook.Code.Literal
import ApiHandbook.Proofs.Declarations
import ApiHandbook.Proofs.Settled

/-! What a number is read off: plain characters, on which the search for the end of a declaration has no eye. A number does
not depend on how lines end. -/
namespace ApiHandbook.Code
open Text
open Argument (Nested)

/-- What is left of a text after some of its characters, all of a kind. -/
def Past (p : Char → Prop) (s rest : List Char) : Prop := ∃ text, s = text ++ rest ∧ ∀ c ∈ text, p c

namespace Past
variable {p : Char → Prop} {s t rest : List Char}

theorem refl (s : List Char) : Past p s s := ⟨[], rfl, nofun⟩

theorem cons {c : Char} (hc : p c) (h : Past p s rest) : Past p (c :: s) rest := by
  obtain ⟨text, rfl, htext⟩ := h
  exact ⟨c :: text, rfl, List.forall_mem_cons.mpr ⟨hc, htext⟩⟩

theorem trans (h : Past p s t) (h' : Past p t rest) : Past p s rest := by
  obtain ⟨text, rfl, htext⟩ := h
  obtain ⟨text', rfl, htext'⟩ := h'
  exact ⟨text ++ text', (List.append_assoc _ _ _).symm, List.forall_mem_append.mpr ⟨htext, htext'⟩⟩

theorem length_le (h : Past p s rest) : rest.length ≤ s.length := by
  obtain ⟨text, rfl, -⟩ := h
  rw [List.length_append]
  exact Nat.le_add_left _ _

theorem dropWhile {b : Char → Bool} (h : ∀ c, b c = true → p c) (s : List Char) : Past p s (s.dropWhile b) :=
  ⟨s.takeWhile b, List.takeWhile_append_dropWhile.symm, fun c hc => h c (List.all_eq_true.mp List.all_takeWhile c hc)⟩

end Past

/-- What is made of the value that is read leaves the rest of the text alone. -/
theorem exists_of_map_read {α β : Type} {read : Option (α × List Char)} {f : α → β} {b : β} {rest : List Char}
    (h : read.map (fun (a, rest) => (f a, rest)) = some (b, rest)) : ∃ a, read = some (a, rest) ∧ f a = b := by
  obtain ⟨⟨a, rest'⟩, hread, heq⟩ := Option.map_eq_some_iff.mp h
  obtain ⟨rfl, rfl⟩ := Prod.mk.inj heq
  exact ⟨a, hread, rfl⟩

/-! Plain characters -/

/-- A character that is no quote, no bracket and no carriage return. -/
def Plain (c : Char) : Prop := c ∉ ['"', '\'', '(', '[', '\x7b', ')', ']', '\x7d', '\r']

instance : DecidablePred Plain := fun _ => inferInstanceAs (Decidable (_ ∉ _))

theorem plain_of {p : Char → Bool} (hp : ['"', '\'', '(', '[', '\x7b', ')', ']', '\x7d', '\r'].any p = false) {c : Char}
    (h : p c = true) : Plain c :=
  fun hmem => List.any_eq_false.mp hp c hmem h

theorem plain_of_digitValue? {c : Char} {d : Nat} (h : digitValue? c = some d) : Plain c :=
  @plain_of (fun c => (digitValue? c).isSome) (by decide) c (by rw [h]; rfl)

/-- Plain characters are passed over, whether lines end with carriage returns or not. -/
theorem nested_of_plain {text : List Char} (h : ∀ c ∈ text, Plain c) : Nested text ∧ '\r' ∉ text := by
  refine ⟨?_, fun hmem => h _ hmem (by simp)⟩
  rw [← List.append_nil text]
  refine .plains .nil fun c hc => ?_
  have hne := h c hc
  simp only [Plain, List.mem_cons, not_or] at hne
  simp [Argument.isOpening, Argument.isClosing, hne]

/-- An identifier is its first character with characters behind it that may continue one. -/
theorem exists_of_identifier? {p : Char → Prop} (hp : ∀ c, isIdentifierContinue c = true → p c) {s name rest : List Char}
    (h : identifier? s = some (name, rest)) : ∃ c t, s = c :: t ∧ isIdentifierStart c = true ∧ Past p t rest := by
  cases s with
  | nil => cases h
  | cons c s =>
    obtain ⟨hstart, heq⟩ := Option.ite_none_right_eq_some.mp h
    obtain ⟨-, rfl⟩ := Prod.mk.inj (Option.some.inj heq)
    exact ⟨c, s, rfl, hstart, Past.dropWhile hp s⟩

theorem plain_of_isIdentifierStart {c : Char} (h : isIdentifierStart c = true) : Plain c := plain_of (by decide) h

theorem plain_of_isIdentifierContinue (c : Char) (h : isIdentifierContinue c = true) : Plain c := plain_of (by decide) h

theorem past_afterIdentifier (s : List Char) : Past Plain s (afterIdentifier s) := by
  rw [afterIdentifier]
  split
  · rename_i heq
    obtain ⟨c, t, rfl, hstart, hpast⟩ := exists_of_identifier? plain_of_isIdentifierContinue heq
    exact hpast.cons (plain_of_isIdentifierStart hstart)
  · exact Past.refl s

/-! Numbers and line endings -/

theorem afterExponent_of_atBreak {s : List Char} (h : AtBreak s) (seenSign seenDigit : Bool) :
    afterExponent seenSign seenDigit s = if seenDigit then some s else none := by
  cases h <;> rfl

theorem afterExponent_settled (s : List Char) (seenSign seenDigit : Bool) :
    afterExponent seenSign seenDigit (settled s) = (afterExponent seenSign seenDigit s).map settled := by
  induction s using settled_induction generalizing seenSign seenDigit with
  | stop s hs hsettled =>
    rw [afterExponent_of_atBreak hs, afterExponent_of_atBreak hsettled]
    split <;> rfl
  | char c s hfeed hreturn ih =>
    rw [afterExponent, afterExponent]
    split_ifs
    · exact congrArg some (settled_cons hreturn s).symm
    · rfl
    · exact ih true false
    · exact ih seenSign true
    · exact ih seenSign seenDigit
    · exact congrArg some (settled_cons hreturn s).symm
    · rfl

theorem exponentAt?_settled (s : List Char) : exponentAt? (settled s) = (exponentAt? s).map settled := by
  induction s using settled_induction with
  | stop s hs hsettled =>
    have hnone {t : List Char} (h : AtBreak t) : exponentAt? t = none := by
      cases h <;> rfl
    rw [hnone hs, hnone hsettled]
    rfl
  | char c s hfeed hreturn ih =>
    rw [exponentAt?, exponentAt?]
    split
    · exact afterExponent_settled s false false
    · rfl

/-- What follows a number, from behind its first digits: a point with digits, an exponent, or both. -/
def afterPoint : List Char → Option (List Char)
  | '.' :: rest =>
    if rest.head?.any fun c => c == '.' || isIdentifierStart c then none
    else some ((exponentAt? (rest.dropWhile isDigitOrGap)).getD (rest.dropWhile isDigitOrGap))
  | rest => exponentAt? rest

theorem afterFloatDigits_eq (s : List Char) :
    afterFloatDigits s = if !(s.head?.any Char.isDigit) then none else afterPoint (s.dropWhile isDigitOrGap) := rfl

theorem afterPoint_settled (s : List Char) : afterPoint (settled s) = (afterPoint s).map settled := by
  fun_cases afterPoint s with
  | case1 rest hrest =>
    rw [settled_cons (by decide), afterPoint, any_head?_settled (by decide) (by decide), if_pos hrest]
    rfl
  | case2 rest hrest =>
    rw [settled_cons (by decide), afterPoint, any_head?_settled (by decide) (by decide), if_neg hrest,
      dropWhile_settled (by decide) (by decide), exponentAt?_settled]
    cases exponentAt? (rest.dropWhile isDigitOrGap) <;> rfl
  | case3 s hpoint =>
    rw [afterPoint.eq_2, exponentAt?_settled]
    intro rest hrest
    obtain ⟨rest, rfl, -⟩ := (settled_eq_cons_iff (by decide) (by decide)).mp hrest
    exact hpoint rest rfl

theorem afterFloatDigits_settled (s : List Char) : afterFloatDigits (settled s) = (afterFloatDigits s).map settled := by
  rw [afterFloatDigits_eq, afterFloatDigits_eq, any_head?_settled (by decide) (by decide),
    dropWhile_settled (by decide) (by decide)]
  split
  · rfl
  · exact afterPoint_settled _

theorem afterDigits_of_atBreak {s : List Char} (h : AtBreak s) (base : Nat) (seenDigit : Bool) :
    afterDigits base seenDigit s = if seenDigit then some s else none := by
  cases h <;> rfl

theorem afterDigits_settled (base : Nat) (s : List Char) (seenDigit : Bool) :
    afterDigits base seenDigit (settled s) = (afterDigits base seenDigit s).map settled := by
  induction s using settled_induction generalizing seenDigit with
  | stop s hs hsettled =>
    rw [afterDigits_of_atBreak hs, afterDigits_of_atBreak hsettled]
    split <;> rfl
  | char c s hfeed hreturn ih =>
    have hstop : (if seenDigit then some (c :: settled s) else none) =
        (if seenDigit then some (c :: s) else none).map settled := by
      split
      · exact congrArg some (settled_cons hreturn s).symm
      · rfl
    rw [afterDigits, afterDigits]
    split
    · split
      · rfl
      · exact ih seenDigit
    · split
      · split
        · exact ih true
        · split
          · rfl
          · exact hstop
      · exact hstop

theorem afterSuffix_settled (s : List Char) : afterSuffix (settled s) = (afterSuffix s).map settled := by
  rw [afterSuffix, afterSuffix, afterIdentifier_settled, any_head?_settled (by decide) (by decide)]
  split <;> rfl

theorem baseOf_settled (s : List Char) : baseOf (settled s) = ((baseOf s).1, settled (baseOf s).2) := by
  have hpair {c d : Char} {t : List Char} (hc : c ≠ '\n' ∧ c ≠ '\r') (hd : d ≠ '\n' ∧ d ≠ '\r')
      (h : settled s = c :: d :: t) : ∃ rest, s = c :: d :: rest := by
    obtain ⟨more, rfl, hmore⟩ := (settled_eq_cons_iff hc.1 hc.2).mp h
    obtain ⟨rest, rfl, -⟩ := (settled_eq_cons_iff hd.1 hd.2).mp hmore.symm
    exact ⟨rest, rfl⟩
  fun_cases baseOf s with
  | case1 rest => rw [settled_cons (by decide), settled_cons (by decide)]; rfl
  | case2 rest => rw [settled_cons (by decide), settled_cons (by decide)]; rfl
  | case3 rest => rw [settled_cons (by decide), settled_cons (by decide)]; rfl
  | case4 s hhex hoctal hbinary =>
    rw [baseOf.eq_4]
    · exact fun t ht => (hpair (by decide) (by decide) ht).elim fun rest => hhex rest
    · exact fun t ht => (hpair (by decide) (by decide) ht).elim fun rest => hoctal rest
    · exact fun t ht => (hpair (by decide) (by decide) ht).elim fun rest => hbinary rest

/-- A number with a point or an exponent is tried first. -/
theorem afterNumber_eq (s : List Char) : afterNumber s = ((afterFloatDigits s).bind afterSuffix).or
    ((afterDigits (baseOf s).1 false (baseOf s).2).bind afterSuffix) := by
  rw [afterNumber]
  cases (afterFloatDigits s).bind afterSuffix <;> rfl

theorem afterNumber_settled (s : List Char) : afterNumber (settled s) = (afterNumber s).map settled := by
  have hsuffix (found : Option (List Char)) : (found.map settled).bind afterSuffix = (found.bind afterSuffix).map settled := by
    cases found with
    | none => rfl
    | some rest => exact afterSuffix_settled rest
  rw [afterNumber_eq, afterNumber_eq, afterFloatDigits_settled, baseOf_settled, afterDigits_settled, hsuffix, hsuffix]
  cases (afterFloatDigits s).bind afterSuffix <;> rfl

/-! Characters of numbers -/

theorem past_of_afterExponent {seenSign seenDigit : Bool} {s rest : List Char}
    (h : afterExponent seenSign seenDigit s = some rest) : Past Plain s rest := by
  fun_induction afterExponent seenSign seenDigit s with
  | case1 => exact Option.some.inj h ▸ Past.refl _
  | case2 => cases h
  | case3 => exact Option.some.inj h ▸ Past.refl _
  | case4 => cases h
  | case5 seenSign seenDigit c s hsign hdigit hsigned ih =>
    refine (ih h).cons ?_
    rcases hsign with rfl | rfl <;> decide
  | case6 seenSign seenDigit c s hsign hdigit ih => exact (ih h).cons (plain_of (by decide) hdigit)
  | case7 seenSign seenDigit s hsign hdigit ih => exact (ih h).cons (by decide)
  | case8 => exact Option.some.inj h ▸ Past.refl _
  | case9 => cases h

theorem past_of_exponentAt? {s rest : List Char} (h : exponentAt? s = some rest) : Past Plain s rest := by
  cases s with
  | nil => cases h
  | cons c s =>
    obtain ⟨hmark, h⟩ := Option.ite_none_right_eq_some.mp h
    refine (past_of_afterExponent h).cons ?_
    rcases hmark with rfl | rfl <;> decide

theorem past_of_afterPoint {s rest : List Char} (h : afterPoint s = some rest) : Past Plain s rest := by
  have hdigits (s : List Char) : Past Plain s (s.dropWhile isDigitOrGap) := Past.dropWhile (fun _ => plain_of (by decide)) s
  fun_cases afterPoint s with
  | case1 s hs =>
    rw [afterPoint, if_pos hs] at h
    cases h
  | case2 s hs =>
    rw [afterPoint, if_neg hs] at h
    rw [← Option.some.inj h]
    refine ((hdigits s).trans ?_).cons (by decide)
    cases hexponent : exponentAt? (s.dropWhile isDigitOrGap) with
    | none => exact Past.refl _
    | some rest => exact past_of_exponentAt? hexponent
  | case3 s hs =>
    rw [afterPoint.eq_2 s hs] at h
    exact past_of_exponentAt? h

theorem past_of_afterDigits {base : Nat} {seenDigit : Bool} {s rest : List Char}
    (h : afterDigits base seenDigit s = some rest) : Past Plain s rest := by
  induction s generalizing seenDigit with
  | nil =>
    obtain ⟨-, h⟩ := Option.ite_none_right_eq_some.mp h
    exact Option.some.inj h ▸ Past.refl _
  | cons c s ih =>
    have hstop (h : (if seenDigit then some (c :: s) else none) = some rest) : Past Plain (c :: s) rest := by
      obtain ⟨-, h⟩ := Option.ite_none_right_eq_some.mp h
      exact Option.some.inj h ▸ Past.refl _
    rw [afterDigits] at h
    split at h
    · rename_i hgap
      obtain ⟨-, h⟩ := Option.ite_none_left_eq_some.mp h
      exact (ih h).cons (hgap ▸ by decide)
    · split at h
      · rename_i digit hdigit
        split at h
        · exact (ih h).cons (plain_of_digitValue? hdigit)
        · obtain ⟨-, h⟩ := Option.ite_none_left_eq_some.mp h
          exact hstop h
      · exact hstop h

theorem past_of_afterSuffix {s rest : List Char} (h : afterSuffix s = some rest) : Past Plain s rest := by
  obtain ⟨-, h⟩ := Option.ite_none_left_eq_some.mp h
  exact Option.some.inj h ▸ past_afterIdentifier s

theorem isDigit_of_digitValue? {c : Char} {d : Nat} (h : digitValue? c = some d) (hd : d < 10) : c.isDigit = true := by
  by_contra hdigit
  rw [digitValue?, if_neg hdigit] at h
  split at h
  · have := Option.some.inj h
    omega
  · obtain ⟨-, h⟩ := Option.ite_none_right_eq_some.mp h
    have := Option.some.inj h
    omega

/-- A number is a digit with plain characters behind it. -/
theorem exists_of_afterNumber {s rest : List Char} (h : afterNumber s = some rest) :
    ∃ c t, s = c :: t ∧ c.isDigit = true ∧ Past Plain t rest := by
  rw [afterNumber_eq] at h
  rcases Option.or_eq_some_iff.mp h with h | ⟨-, h⟩
  · obtain ⟨after, hfloat, hsuffix⟩ := Option.bind_eq_some_iff.mp h
    obtain ⟨hdigit, hpoint⟩ := Option.ite_none_left_eq_some.mp hfloat
    cases s with
    | nil => simp at hdigit
    | cons c t =>
      replace hdigit : c.isDigit = true := by simpa using hdigit
      have hgap : isDigitOrGap c = true := by rw [isDigitOrGap, hdigit, Bool.true_or]
      have hdigits : Past Plain t (t.dropWhile isDigitOrGap) := Past.dropWhile (fun _ => plain_of (by decide)) t
      rw [List.dropWhile_cons_of_pos hgap] at hpoint
      exact ⟨c, t, rfl, hdigit, (hdigits.trans (past_of_afterPoint hpoint)).trans (past_of_afterSuffix hsuffix)⟩
  · obtain ⟨after, hdigits, hsuffix⟩ := Option.bind_eq_some_iff.mp h
    fun_cases baseOf s with
    | case4 s hhex hoctal hbinary =>
      rw [baseOf.eq_4 s hhex hoctal hbinary] at hdigits
      cases s with
      | nil => cases hdigits
      | cons c t =>
        rw [afterDigits] at hdigits
        split at hdigits
        · cases hdigits
        · split at hdigits
          · rename_i d hvalue
            split at hdigits
            · rename_i hd
              exact ⟨c, t, rfl, isDigit_of_digitValue? hvalue hd,
                (past_of_afterDigits hdigits).trans (past_of_afterSuffix hsuffix)⟩
            · simp at hdigits
          · simp at hdigits
    | _ s => exact ⟨'0', _, rfl, rfl, ((past_of_afterDigits hdigits).trans (past_of_afterSuffix hsuffix)).cons (by decide)⟩

end ApiHandbook.Code
