import ApiHandbook.Proofs.JsonText
import ApiHandbook.Proofs.Replacement

/-! JSON texts inside a page. A slash after a less-than sign is escaped, so that no closing tag stands in the text; what is
read from it stays the same. -/
namespace ApiHandbook.Json
open Text

/-- The start of a closing tag. -/
def tag : List Char := ['<', '/']

theorem tag_ne_nil : tag ≠ [] := List.cons_ne_nil _ _

/-- A text with its closing tags escaped. -/
def inlined (s : List Char) : List Char := replace tag ['<', '\\', '/'] s

theorem inlined_nil : inlined [] = [] := replace_nil _ tag_ne_nil

theorem inlined_tag (s : List Char) : inlined ('<' :: '/' :: s) = '<' :: '\\' :: '/' :: inlined s :=
  replace_append_left ['<', '\\', '/'] tag_ne_nil s

theorem inlined_cons {c : Char} {s : List Char} (h : ¬ tag <+: c :: s) : inlined (c :: s) = c :: inlined s :=
  replace_cons _ tag_ne_nil h

theorem inlined_of_ne {c : Char} (h : c ≠ '<') (s : List Char) : inlined (c :: s) = c :: inlined s :=
  inlined_cons fun hp => h (List.cons_prefix_cons.mp hp).1.symm

theorem exists_inlined_cons (c : Char) (s : List Char) : ∃ t, inlined (c :: s) = c :: t := by
  by_cases h : tag <+: c :: s
  · obtain ⟨rest, hrest⟩ := h
    obtain ⟨rfl, rfl⟩ : '<' = c ∧ '/' :: rest = s := List.cons.inj hrest
    exact ⟨_, inlined_tag rest⟩
  · exact ⟨_, inlined_cons h⟩

theorem eq_cons_of_inlined {s t : List Char} {d : Char} (hd : d ≠ '<') (h : inlined s = d :: t) :
    ∃ r, s = d :: r ∧ t = inlined r := by
  cases s with
  | nil =>
    rw [inlined_nil] at h
    cases h
  | cons c s =>
    obtain ⟨u, hu⟩ := exists_inlined_cons c s
    obtain ⟨rfl, -⟩ := List.cons.inj (hu.symm.trans h)
    rw [inlined_of_ne hd] at h
    exact ⟨s, rfl, (List.cons.inj h).2.symm⟩

/-- No closing tag stands in an inlined text. -/
theorem not_tag_infix_inlined (s : List Char) : ¬ tag <:+: inlined s := by
  induction s using split_induction tag_ne_nil with
  | nil => simp [inlined_nil, tag]
  | occurrence s ih =>
    change ¬ tag <:+: inlined ('<' :: '/' :: s)
    rw [inlined_tag]
    simp only [List.infix_cons_iff, tag, List.cons_prefix_cons]
    simpa [tag] using ih
  | char c s h ih =>
    rw [inlined_cons h, List.infix_cons_iff]
    rintro (hstart | hlater)
    · refine h ?_
      obtain ⟨rfl, rest, hslash⟩ := List.cons_prefix_cons.mp hstart
      cases s with
      | nil =>
        rw [inlined_nil] at hslash
        cases hslash
      | cons d s =>
        obtain ⟨t, ht⟩ := exists_inlined_cons d s
        rw [ht] at hslash
        obtain rfl : '/' = d := (List.cons.inj hslash).1
        exact ⟨s, rfl⟩
    · exact ih hlater

/-- Whether a reading gives the same from the inlined text, and leaves the inlined rest. -/
def Follows {α : Type} (x y : Option (α × List Char)) : Prop :=
  ∀ a rest, x = some (a, rest) → y = some (a, inlined rest)

namespace Follows
variable {α β : Type} {x y : Option (α × List Char)}

theorem none : Follows (α := α) .none y := fun _ _ h => nomatch h

theorem some (a : α) (s : List Char) : Follows (.some (a, s)) (.some (a, inlined s)) := by
  rintro _ _ ⟨⟩
  rfl

theorem bind (h : Follows x y) {f g : α × List Char → Option (β × List Char)}
    (hfg : ∀ a rest, Follows (f (a, rest)) (g (a, inlined rest))) : Follows (x.bind f) (y.bind g) := by
  intro b rest hb
  obtain ⟨⟨a, between⟩, hx, hf⟩ := Option.bind_eq_some_iff.mp hb
  rw [h a between hx]
  exact hfg a between b rest hf

theorem map (h : Follows x y) (f : α → β) :
    Follows (x.map fun (a, rest) => (f a, rest)) (y.map fun (a, rest) => (f a, rest)) := by
  intro b rest hb
  obtain ⟨⟨a, between⟩, hx, hf⟩ := Option.map_eq_some_iff.mp hb
  rw [h a between hx]
  cases hf
  rfl

end Follows

theorem Follows.emit {x y : Option (Option (List Char) × List Char)} (h : Follows x y) (c : Option Char) :
    Follows (emit c x) (emit c y) :=
  h.map fun text => c.bind fun c => text.map (c :: ·)

theorem ne_of_hexValue? {c : Char} {n : Nat} (h : hexValue? c = some n) : c ≠ '<' := by
  rintro rfl
  cases h

theorem inlined_unit {a b c d : Char} {n : Nat} (h : unit? a b c d = some n) (rest : List Char) :
    inlined ('\\' :: 'u' :: a :: b :: c :: d :: rest) = '\\' :: 'u' :: a :: b :: c :: d :: inlined rest := by
  simp only [unit?, Option.bind_eq_bind, Option.bind_eq_some_iff] at h
  obtain ⟨_, ha, _, hb, _, hc, _, hd, -⟩ := h
  rw [inlined_of_ne (by decide), inlined_of_ne (by decide), inlined_of_ne (ne_of_hexValue? ha),
    inlined_of_ne (ne_of_hexValue? hb), inlined_of_ne (ne_of_hexValue? hc), inlined_of_ne (ne_of_hexValue? hd)]

theorem readText_inlined (pending : Option Nat) (s : List Char) :
    Follows (readText pending s) (readText pending (inlined s)) := by
  fun_induction readText pending s with
  | case1 => exact .none
  | case2 pending rest =>
    rw [inlined_of_ne (by decide), readText]
    exact .some _ _
  | case3 => exact .none
  | case4 a b c d rest n hunit high hlow ih =>
    rw [inlined_unit hunit, readText, hunit]
    simp only [hlow, if_true]
    exact ih.emit _
  | case5 a b c d rest n hunit high hlow ih =>
    rw [inlined_unit hunit, readText, hunit]
    simp only [hlow]
    exact ih.emit _
  | case6 a b c d rest n hunit hhigh ih =>
    rw [inlined_unit hunit, readText, hunit]
    simp only [hhigh, if_true]
    exact ih
  | case7 a b c d rest n hunit hhigh hlow ih =>
    rw [inlined_unit hunit, readText, hunit]
    simp only [hhigh, hlow, if_true]
    exact ih.emit _
  | case8 a b c d rest n hunit hhigh hlow ih =>
    rw [inlined_unit hunit, readText, hunit]
    simp only [hhigh, hlow]
    exact ih.emit _
  | case9 pending e rest _ c hescape ih =>
    have hne : e ≠ '<' := by
      rintro rfl
      cases hescape
    rw [inlined_of_ne (by decide), inlined_of_ne hne, readText_escape hescape]
    exact ih.emit _
  | case10 => exact .none
  | case11 => exact .none
  | case12 pending c rest hquote _ _ hplain ih =>
    obtain ⟨hcontrol, hescape⟩ : ¬ c.toNat < 32 ∧ c ≠ '\\' := by simpa using hplain
    by_cases htag : tag <+: c :: rest
    · -- The escape in front of the slash changes nothing for the reader.
      obtain ⟨after, hafter⟩ := htag
      obtain ⟨rfl, rfl⟩ : '<' = c ∧ '/' :: after = rest := List.cons.inj hafter
      have hless := readText_plain hquote hescape hcontrol pending ('\\' :: '/' :: inlined after)
      have hslash : readText none ('\\' :: '/' :: inlined after) = readText none ('/' :: inlined after) := by
        rw [readText_escape (c := '/') rfl, readText_plain (by decide) (by decide) (by decide)]
      rw [inlined_of_ne (by decide), ← hslash] at ih
      rw [inlined_tag, hless]
      exact ih.emit _
    · rw [inlined_cons htag, readText_plain hquote hescape hcontrol]
      exact ih.emit _

/-! ### Values -/

theorem takeWhile_inlined {p : Char → Bool} (h : p '<' = false) (s : List Char) :
    (inlined s).takeWhile p = s.takeWhile p ∧ (inlined s).dropWhile p = inlined (s.dropWhile p) := by
  induction s with
  | nil => simp [inlined_nil]
  | cons c s ih =>
    by_cases hc : p c = true
    · have hne : c ≠ '<' := by
        rintro rfl
        simp [h] at hc
      simpa [inlined_of_ne hne, hc] using ih
    · obtain ⟨t, ht⟩ := exists_inlined_cons c s
      rw [List.takeWhile_cons_of_neg hc, List.dropWhile_cons_of_neg hc, ht, List.takeWhile_cons_of_neg hc,
        List.dropWhile_cons_of_neg hc]
      exact ⟨rfl, rfl⟩

theorem skipSpace_inlined (s : List Char) : skipSpace (inlined s) = inlined (skipSpace s) :=
  (takeWhile_inlined (by decide) s).2

theorem digits_inlined (s : List Char) : digits (inlined s) = ((digits s).1, inlined (digits s).2) := by
  obtain ⟨htake, hdrop⟩ := takeWhile_inlined (p := Char.isDigit) (by decide) s
  rw [digits, htake, hdrop]
  rfl

theorem readFraction_of_ne {c : Char} (h : c ≠ '.') (s : List Char) : readFraction (c :: s) = some ([], c :: s) := by
  rw [readFraction]
  rintro rest ⟨⟩
  exact h rfl

theorem readFraction_inlined (s : List Char) : Follows (readFraction s) (readFraction (inlined s)) := by
  cases s with
  | nil => simpa only [readFraction, inlined_nil] using Follows.some [] []
  | cons c s =>
    by_cases hpoint : c = '.'
    · subst hpoint
      rw [inlined_of_ne (by decide)]
      simp only [readFraction, digits_inlined]
      split
      · exact .none
      · exact .some _ _
    · obtain ⟨t, ht⟩ := exists_inlined_cons c s
      rw [ht, readFraction_of_ne hpoint, readFraction_of_ne hpoint, ← ht]
      exact .some _ _

/-- The sign of an exponent and what follows it. -/
def splitSign : List Char → List Char × List Char
  | '+' :: rest => (['+'], rest)
  | '-' :: rest => (['-'], rest)
  | rest => ([], rest)

theorem splitSign_inlined (s : List Char) : splitSign (inlined s) = ((splitSign s).1, inlined (splitSign s).2) := by
  cases s with
  | nil => rw [inlined_nil]; exact congrArg (Prod.mk []) inlined_nil.symm
  | cons c s =>
    by_cases hplus : c = '+'
    · subst hplus
      rw [inlined_of_ne (by decide)]
      rfl
    · by_cases hminus : c = '-'
      · subst hminus
        rw [inlined_of_ne (by decide)]
        rfl
      · have hnone (t : List Char) : splitSign (c :: t) = ([], c :: t) := by
          rw [splitSign]
          · rintro rest ⟨⟩
            exact hplus rfl
          · rintro rest ⟨⟩
            exact hminus rfl
        obtain ⟨t, ht⟩ := exists_inlined_cons c s
        rw [hnone, ht, hnone, ← ht]

theorem readExponent_cons (mark : Char) (s : List Char) : readExponent (mark :: s) =
    if mark = 'e' ∨ mark = 'E' then
      let (sign, rest) := splitSign s
      let (exponent, rest) := digits rest
      if exponent.isEmpty then none else some (mark :: sign ++ exponent, rest)
    else some ([], mark :: s) := rfl

theorem readExponent_inlined (s : List Char) : Follows (readExponent s) (readExponent (inlined s)) := by
  cases s with
  | nil => simpa only [readExponent, inlined_nil] using Follows.some [] []
  | cons mark s =>
    by_cases hmark : mark = 'e' ∨ mark = 'E'
    · have hne : mark ≠ '<' := by
        rintro rfl
        revert hmark
        decide
      simp only [inlined_of_ne hne, readExponent_cons, if_pos hmark, splitSign_inlined, digits_inlined]
      split
      · exact .none
      · exact .some _ _
    · obtain ⟨t, ht⟩ := exists_inlined_cons mark s
      rw [ht, readExponent_cons, readExponent_cons, if_neg hmark, if_neg hmark, ← ht]
      exact .some _ _

/-- Reads a number after its sign. -/
def readMagnitude (sign s : List Char) : Option (Json × List Char) := do
  let (whole, s) := digits s
  if whole.isEmpty || (whole.length != 1 && whole.head? == some '0') then none
  let (fraction, s) ← readFraction s
  let (exponent, s) ← readExponent s
  pure (.number (String.ofList (sign ++ whole ++ fraction ++ exponent)), s)

theorem readMagnitude_inlined (sign s : List Char) :
    Follows (readMagnitude sign s) (readMagnitude sign (inlined s)) := by
  simp only [readMagnitude, digits_inlined]
  split
  · exact .none
  · exact (readFraction_inlined _).bind fun fraction s => (readExponent_inlined s).bind fun exponent rest => .some _ rest

theorem readNumber_minus (s : List Char) : readNumber ('-' :: s) = readMagnitude ['-'] s := rfl

theorem readNumber_of_ne {c : Char} (h : c ≠ '-') (s : List Char) : readNumber (c :: s) = readMagnitude [] (c :: s) := by
  rw [readNumber]
  · rfl
  · rintro rest ⟨⟩
    exact h rfl

theorem readNumber_inlined (s : List Char) : Follows (readNumber s) (readNumber (inlined s)) := by
  cases s with
  | nil => exact .none
  | cons c s =>
    by_cases hminus : c = '-'
    · subst hminus
      rw [inlined_of_ne (by decide), readNumber_minus, readNumber_minus]
      exact readMagnitude_inlined _ _
    · obtain ⟨t, ht⟩ := exists_inlined_cons c s
      rw [ht, readNumber_of_ne hminus, readNumber_of_ne hminus, ← ht]
      exact readMagnitude_inlined _ _

/-- The characters that start a number. -/
def startsNumber (c : Char) : Bool := c == '-' || c.isDigit

theorem startsNumber_of_readNumber {s : List Char} {r : Json × List Char} (h : readNumber s = some r) :
    ∃ c t, s = c :: t ∧ startsNumber c = true := by
  cases s with
  | nil => cases h
  | cons c s =>
    refine ⟨c, s, rfl, ?_⟩
    by_cases hminus : c = '-'
    · simp [startsNumber, hminus]
    · by_cases hdigit : c.isDigit = true
      · simp [startsNumber, hdigit]
      · rw [readNumber_of_ne hminus] at h
        simp [readMagnitude, digits, hdigit] at h

theorem readValue_of_startsNumber {c : Char} (h : startsNumber c = true) (fuel : Nat) (s : List Char) :
    readValue (fuel + 1) (c :: s) = readNumber (c :: s) := by
  have hne {d : Char} (hd : startsNumber d = false) : c ≠ d := by
    rintro rfl
    simp [h] at hd
  rw [readValue]
  · rintro rest ⟨⟩
    exact hne (d := 'n') (by decide) rfl
  · rintro rest ⟨⟩
    exact hne (d := 't') (by decide) rfl
  · rintro rest ⟨⟩
    exact hne (d := 'f') (by decide) rfl
  · rintro rest ⟨⟩
    exact hne (d := '"') (by decide) rfl
  · rintro rest ⟨⟩
    exact hne (d := '[') (by decide) rfl
  · rintro rest ⟨⟩
    exact hne (d := '\x7b') (by decide) rfl

/-- The value of a string, which is garbled when no text was read. -/
def ofText : Option (List Char) → Json
  | some text => .string (String.ofList text)
  | none => .garbled

/-- What the readers of a value, of items and of fields do with one amount of fuel, a larger one finds in the inlined text. -/
structure ReadersFollow (fuel more : Nat) : Prop where
  value : ∀ s, Follows (readValue fuel s) (readValue more (inlined s))
  items : ∀ s, Follows (readItems fuel s) (readItems more (inlined s))
  fields : ∀ s, Follows (readFields fuel s) (readFields more (inlined s))

theorem readValue_inlined {fuel more : Nat} (ih : ReadersFollow fuel more) (s : List Char) :
    Follows (readValue (fuel + 1) s) (readValue (more + 1) (inlined s)) := by
  rw [readValue.eq_def]
  split
  · exact .none
  · rename_i rest heq
    rw [inlined_of_ne (by decide), inlined_of_ne (by decide), inlined_of_ne (by decide), inlined_of_ne (by decide), readValue]
    exact .some _ _
  · rw [inlined_of_ne (by decide), inlined_of_ne (by decide), inlined_of_ne (by decide), inlined_of_ne (by decide), readValue]
    exact .some _ _
  · rw [inlined_of_ne (by decide), inlined_of_ne (by decide), inlined_of_ne (by decide), inlined_of_ne (by decide),
      inlined_of_ne (by decide), readValue]
    exact .some _ _
  · rename_i rest _
    rw [inlined_of_ne (by decide), readValue]
    exact (readText_inlined none rest).map ofText
  · rename_i fuel' rest heq
    obtain rfl : fuel = fuel' := Nat.succ.inj heq
    rw [inlined_of_ne (by decide), readValue, skipSpace_inlined]
    split
    · rename_i rest' hclose
      rw [hclose, inlined_of_ne (by decide)]
      exact .some _ _
    · rename_i hopen
      split
      · rename_i hclose
        obtain ⟨r, hr, -⟩ := eq_cons_of_inlined (by decide) hclose
        exact absurd hr (hopen r)
      · exact (ih.items _).map _
  · rename_i fuel' rest heq
    obtain rfl : fuel = fuel' := Nat.succ.inj heq
    rw [inlined_of_ne (by decide), readValue, skipSpace_inlined]
    split
    · rename_i rest' hclose
      rw [hclose, inlined_of_ne (by decide)]
      exact .some _ _
    · rename_i hopen
      split
      · rename_i hclose
        obtain ⟨r, hr, -⟩ := eq_cons_of_inlined (by decide) hclose
        exact absurd hr (hopen r)
      · exact (ih.fields _).map _
  · intro a rest hread
    obtain ⟨c, t, rfl, hnumber⟩ := startsNumber_of_readNumber hread
    obtain ⟨u, hu⟩ := exists_inlined_cons c t
    rw [hu, readValue_of_startsNumber hnumber, ← hu]
    exact readNumber_inlined _ _ _ hread

theorem readItems_inlined {fuel more : Nat} (ih : ReadersFollow fuel more) (s : List Char) :
    Follows (readItems (fuel + 1) s) (readItems (more + 1) (inlined s)) := by
  rw [readItems, readItems]
  refine (ih.value s).bind fun item rest => ?_
  simp only [skipSpace_inlined]
  split
  · rename_i hclose
    rw [hclose, inlined_of_ne (by decide)]
    exact .some _ _
  · rename_i rest hcomma
    rw [hcomma, inlined_of_ne (by decide)]
    simp only [skipSpace_inlined]
    exact (ih.items _).bind fun items rest => .some _ rest
  · exact .none

theorem readFields_inlined {fuel more : Nat} (ih : ReadersFollow fuel more) (s : List Char) :
    Follows (readFields (fuel + 1) s) (readFields (more + 1) (inlined s)) := by
  rw [readFields.eq_def]
  split
  · exact .none
  · rename_i fuel' s heq
    obtain rfl : fuel = fuel' := Nat.succ.inj heq
    rw [inlined_of_ne (by decide), readFields]
    refine (readText_inlined none s).bind fun key rest => ?_
    simp only [skipSpace_inlined]
    split
    · rename_i rest hcolon
      rw [hcolon, inlined_of_ne (by decide)]
      simp only [skipSpace_inlined]
      refine (ih.value _).bind fun value rest => ?_
      simp only [skipSpace_inlined]
      split
      · rename_i hclose
        rw [hclose, inlined_of_ne (by decide)]
        exact .some _ _
      · rename_i rest hcomma
        rw [hcomma, inlined_of_ne (by decide)]
        simp only [skipSpace_inlined]
        exact (ih.fields _).bind fun fields rest => .some _ rest
      · exact .none
    · exact .none
  · exact .none

theorem readersFollow {fuel more : Nat} (h : fuel ≤ more) : ReadersFollow fuel more := by
  induction fuel generalizing more with
  | zero => exact ⟨fun _ => .none, fun _ => .none, fun _ => .none⟩
  | succ fuel ih =>
    obtain ⟨more, rfl⟩ : ∃ less, more = less + 1 := ⟨more - 1, by omega⟩
    have hless : ReadersFollow fuel more := ih (by omega)
    exact ⟨readValue_inlined hless, readItems_inlined hless, readFields_inlined hless⟩

theorem length_le_length_inlined (s : List Char) : s.length ≤ (inlined s).length := by
  induction s using split_induction tag_ne_nil with
  | nil => simp
  | occurrence s ih =>
    change ('<' :: '/' :: s).length ≤ (inlined ('<' :: '/' :: s)).length
    rw [inlined_tag]
    simp only [List.length_cons]
    omega
  | char c s h ih =>
    rw [inlined_cons h]
    simpa using ih

/-- The value that a text writes is read from the inlined text too. -/
theorem read?_inlined {s : List Char} {j : Json} (h : read? s = some j) : read? (inlined s) = some j := by
  have hlength := length_le_length_inlined s
  have hfollow := (readersFollow (Nat.succ_le_succ hlength)).value (skipSpace s)
  rw [read?] at h
  split at h
  · rename_i value rest hread
    split at h
    · rename_i hempty
      cases h
      rw [read?, skipSpace_inlined, hfollow _ _ hread]
      simp only [skipSpace_inlined]
      rw [List.isEmpty_iff] at hempty
      simp [hempty, inlined_nil]
    · cases h
  · cases h

end ApiHandbook.Json
