import ApiHandbook.Code.Token
import ApiHandbook.Proofs.Numerals
import Mathlib

/-! What a quoted literal is read off: between its quotes a backslash stands before any character, unless the literal is raw.
Its line endings do not matter, unless it is raw. -/
namespace ApiHandbook.Code
open Text
open Argument (Quoted Nested)

/-! Escapes -/

/-- A character that neither ends a literal nor escapes another character. -/
def Inside (c : Char) : Prop := c ∉ ['"', '\'', '\\', '\r']

instance : DecidablePred Inside := fun _ => inferInstanceAs (Decidable (_ ∉ _))

theorem inside_of_digitValue? {c : Char} {d : Nat} (h : digitValue? c = some d) : Inside c := by
  intro hmem
  have hnone : ∀ c ∈ ['"', '\'', '\\', '\r'], digitValue? c = none := forall_mem_of_all (by decide)
  rw [hnone c hmem] at h
  cases h

theorem past_of_codePoint? {value count : Nat} {s rest : List Char} {c : Char}
    (h : codePoint? value count s = some (c, rest)) : Past Inside s rest := by
  induction s generalizing value count with
  | nil => cases h
  | cons d s ih =>
    rw [codePoint?] at h
    split at h
    · rename_i hgap
      exact (ih h).cons (hgap.1 ▸ by decide)
    split at h
    · rename_i hclosing
      split at h
      · obtain ⟨-, rfl⟩ := Prod.mk.inj (Option.some.inj h)
        exact (Past.refl s).cons (hclosing.1 ▸ by decide)
      · cases h
    split at h
    · rename_i digit hdigit
      split at h
      · cases h
      · exact (ih h).cons (inside_of_digitValue? hdigit)
    · cases h

theorem exists_of_hexEscape? {a : Alphabet} {s rest : List Char} {c : Char} (h : hexEscape? a s = some (c, rest)) :
    ∃ high low, s = high :: low :: rest ∧ Inside high ∧ Inside low := by
  fun_cases hexEscape? a s with
  | case1 high low rest =>
    simp only [hexEscape?, Option.bind_eq_bind, Option.bind_eq_some_iff] at h
    obtain ⟨x, hx, y, hy, h⟩ := h
    obtain ⟨-, hrest⟩ := Option.ite_none_right_eq_some.mp h
    obtain ⟨-, rfl⟩ := Prod.mk.inj (Option.some.inj hrest)
    exact ⟨high, low, rfl, inside_of_digitValue? hx, inside_of_digitValue? hy⟩
  | case2 s hs =>
    rw [hexEscape?.eq_2 a s hs] at h
    cases h

/-- An escape is one character and others that neither end a literal nor escape anything. -/
theorem exists_of_escape? {a : Alphabet} {s rest : List Char} {c : Char} (h : escape? a s = some (c, rest)) :
    ∃ first more, s = first :: more ∧ first ≠ '\n' ∧ first ≠ '\r' ∧ Past Inside more rest := by
  fun_cases escape? a s with
  | case1 s =>
    obtain ⟨high, low, rfl, hhigh, hlow⟩ := exists_of_hexEscape? h
    exact ⟨'x', _, rfl, by decide, by decide, ((Past.refl rest).cons hlow).cons hhigh⟩
  | case2 s hbytes =>
    rw [escape?, if_pos hbytes] at h
    cases h
  | case3 s hbytes =>
    rw [escape?, if_neg hbytes] at h
    obtain ⟨hread, -⟩ := Option.filter_eq_some_iff.mp h
    exact ⟨'u', _, rfl, by decide, by decide, (past_of_codePoint? hread).cons (by decide)⟩
  | case4 d s hhex hunicode =>
    rw [escape?.eq_3 a d s hhex hunicode] at h
    obtain ⟨value, hvalue, h⟩ := Option.bind_eq_some_iff.mp h
    obtain ⟨-, hrest⟩ := Option.ite_none_left_eq_some.mp h
    obtain ⟨-, rfl⟩ := Prod.mk.inj (Option.some.inj hrest)
    refine ⟨d, s, rfl, ?_, ?_, Past.refl s⟩
    · rintro rfl
      cases hvalue
    · rintro rfl
      cases hvalue
  | case5 => cases h

theorem codePoint?_settled (s : List Char) (value count : Nat) :
    codePoint? value count (settled s) = (codePoint? value count s).map fun (c, rest) => (c, settled rest) := by
  induction s using settled_induction generalizing value count with
  | stop s hs hsettled =>
    have hnone {t : List Char} (h : AtBreak t) : codePoint? value count t = none := by
      cases h <;> simp [codePoint?, show digitValue? '\n' = none by decide, show digitValue? '\r' = none by decide]
    rw [hnone hs, hnone hsettled]
    rfl
  | char d s hfeed hreturn ih =>
    rw [codePoint?, codePoint?]
    split
    · exact ih _ _
    split
    · split <;> rfl
    cases digitValue? d with
    | none => rfl
    | some digit =>
      dsimp only
      split
      · rfl
      · exact ih _ _

theorem hexEscape?_settled {a : Alphabet} {s rest : List Char} {c : Char} (h : hexEscape? a s = some (c, rest)) :
    hexEscape? a (settled s) = some (c, settled rest) := by
  obtain ⟨high, low, rfl, hhigh, hlow⟩ := exists_of_hexEscape? h
  have hne {c : Char} (hc : Inside c) : c ≠ '\r' := fun heq => hc (by simp [heq])
  rw [settled_cons (hne hhigh), settled_cons (hne hlow)]
  simp only [hexEscape?, Option.bind_eq_bind, Option.bind_eq_some_iff] at h ⊢
  obtain ⟨x, hx, y, hy, h⟩ := h
  obtain ⟨hallowed, hrest⟩ := Option.ite_none_right_eq_some.mp h
  obtain ⟨rfl, -⟩ := Prod.mk.inj (Option.some.inj hrest)
  exact ⟨x, hx, y, hy, if_pos hallowed⟩

theorem escape?_settled {a : Alphabet} {s rest : List Char} {c : Char} (h : escape? a s = some (c, rest)) :
    escape? a (settled s) = some (c, settled rest) := by
  fun_cases escape? a s with
  | case1 s =>
    rw [settled_cons (by decide)]
    exact hexEscape?_settled h
  | case2 s hbytes =>
    rw [escape?, if_pos hbytes] at h
    cases h
  | case3 s hbytes =>
    rw [escape?, if_neg hbytes] at h
    obtain ⟨hread, hholds⟩ := Option.filter_eq_some_iff.mp h
    rw [settled_cons (by decide), settled_cons (by decide), escape?, if_neg hbytes, codePoint?_settled, hread]
    exact if_pos hholds
  | case4 d s hhex hunicode =>
    obtain ⟨first, more, heq, hfeed, hreturn, -⟩ := exists_of_escape? h
    obtain ⟨rfl, rfl⟩ := List.cons.inj heq
    have hunicode' : ∀ t, d = 'u' → settled s = '\x7b' :: t → False := by
      intro t hd ht
      obtain ⟨t, rfl, -⟩ := (settled_eq_cons_iff (by decide) (by decide)).mp ht
      exact hunicode t hd rfl
    rw [settled_cons hreturn, escape?.eq_3 a d _ hhex hunicode']
    rw [escape?.eq_3 a d s hhex hunicode] at h
    obtain ⟨value, hvalue, h⟩ := Option.bind_eq_some_iff.mp h
    obtain ⟨hallowed, hrest⟩ := Option.ite_none_left_eq_some.mp h
    obtain ⟨rfl, rfl⟩ := Prod.mk.inj (Option.some.inj hrest)
    exact Option.bind_eq_some_iff.mpr ⟨value, hvalue, if_neg hallowed⟩
  | case5 => cases h

/-! Strings -/

/-- A character that is passed over behind a backslash at the end of a line. -/
def Skipped (c : Char) : Prop := c ∈ [' ', '\t', '\n', '\r']

theorem past_of_skipContinuation {s rest : List Char} (h : skipContinuation s = some rest) : Past Skipped s rest := by
  fun_induction skipContinuation s with
  | case1 => cases h
  | case2 s ih => exact ((ih h).cons (by simp [Skipped])).cons (by simp [Skipped])
  | case3 s hne => cases h
  | case4 c s hne hreturn hblank ih =>
    refine (ih h).cons ?_
    rcases hblank with rfl | rfl | rfl <;> simp [Skipped]
  | case5 c s hne hreturn hblank => exact Option.some.inj h ▸ Past.refl _

/-- Behind a backslash at the end of a line, the line break is passed over first. -/
theorem exists_of_skipContinuation {c : Char} (hbreak : c = '\n' ∨ c = '\r') {s rest : List Char}
    (h : skipContinuation (c :: s) = some rest) :
    ∃ t, (c :: s = '\n' :: t ∨ c :: s = '\r' :: '\n' :: t) ∧ skipContinuation t = some rest := by
  rcases hbreak with rfl | rfl
  · exact ⟨s, .inl rfl, h⟩
  · by_cases hending : ∃ t, s = '\n' :: t
    · obtain ⟨t, rfl⟩ := hending
      exact ⟨t, .inr rfl, h⟩
    · rw [skipContinuation, if_pos rfl] at h
      · cases h
      · exact fun t _ ht => hending ⟨t, ht⟩

theorem skipContinuation_settled {s rest : List Char} (h : skipContinuation s = some rest) :
    skipContinuation (settled s) = some (settled rest) := by
  have hstep {c : Char} (hc : c ≠ '\r') (s : List Char) : skipContinuation (c :: s) =
      if c = ' ' ∨ c = '\t' ∨ c = '\n' then skipContinuation s else some (c :: s) := by
    rw [skipContinuation, if_neg hc]
    exact fun _ heq _ => hc heq
  fun_induction skipContinuation s with
  | case1 => cases h
  | case2 s ih => rw [settled_ending, hstep (by decide), if_pos (by decide), ih h]
  | case3 s hne => cases h
  | case4 c s hne hreturn hblank ih => rw [settled_cons hreturn, hstep hreturn, if_pos hblank, ih h]
  | case5 c s hne hreturn hblank =>
    rw [← Option.some.inj h, settled_cons hreturn, hstep hreturn, if_neg hblank]

/-- The text that a string with escapes spells, from behind its opening quote, and what follows its closing quote. -/
inductive Spells (a : Alphabet) : List Char → List Char → List Char → Prop where
  | closing (rest : List Char) : Spells a ('"' :: rest) [] rest
  | ending {s text rest : List Char} (h : Spells a s text rest) : Spells a ('\r' :: '\n' :: s) ('\n' :: text) rest
  | continued {c : Char} {s more text rest : List Char} (hbreak : c = '\n' ∨ c = '\r')
      (hskip : skipContinuation (c :: s) = some more) (h : Spells a more text rest) : Spells a ('\\' :: c :: s) text rest
  | escaped {c first : Char} {s more text rest : List Char} (hbreak : ¬ (first = '\n' ∨ first = '\r'))
      (hescape : escape? a (first :: s) = some (c, more)) (h : Spells a more text rest) :
      Spells a ('\\' :: first :: s) (c :: text) rest
  | char {c : Char} {s text rest : List Char} (hquote : c ≠ '"') (hreturn : c ≠ '\r') (hescape : c ≠ '\\')
      (hholds : a.holds c = true) (h : Spells a s text rest) : Spells a (c :: s) (c :: text) rest

section Strings
variable {a : Alphabet} {s text rest : List Char}

theorem spells_of_escapedText {fuel : Nat} (h : escapedText a fuel s = some (text, rest)) : Spells a s text rest := by
  induction fuel generalizing s text with
  | zero => cases h
  | succ fuel ih =>
    cases s with
    | nil => cases h
    | cons c s =>
      by_cases hquote : c = '"'
      · subst hquote
        obtain ⟨rfl, rfl⟩ := Prod.mk.inj (Option.some.inj h)
        exact .closing s
      by_cases hreturn : c = '\r'
      · subst hreturn
        by_cases hfeed : ∃ t, s = '\n' :: t
        · obtain ⟨t, rfl⟩ := hfeed
          obtain ⟨more, hmore, rfl⟩ := exists_of_map_read h
          exact .ending (ih hmore)
        · rw [escapedText.eq_5 a fuel s fun t ht => hfeed ⟨t, ht⟩] at h
          cases h
      by_cases hescape : c = '\\'
      · subst hescape
        cases s with
        | nil => cases h
        | cons first s =>
          simp only [escapedText, List.head?_cons, Option.some_inj] at h
          split at h
          · rename_i hbreak
            obtain ⟨more, hskip, hmore⟩ := Option.bind_eq_some_iff.mp h
            exact .continued hbreak hskip (ih hmore)
          · rename_i hbreak
            obtain ⟨⟨c, more⟩, hescape, hmore⟩ := Option.bind_eq_some_iff.mp h
            obtain ⟨⟨text', rest'⟩, hread, heq⟩ := Option.bind_eq_some_iff.mp hmore
            obtain ⟨rfl, rfl⟩ := Prod.mk.inj (Option.some.inj heq)
            exact .escaped hbreak hescape (ih hread)
      · rw [escapedText.eq_7 a fuel c s hquote hreturn hescape] at h
        obtain ⟨hholds, h⟩ := Option.ite_none_right_eq_some.mp h
        obtain ⟨more, hmore, rfl⟩ := exists_of_map_read h
        exact .char hquote hreturn hescape hholds (ih hmore)

theorem Spells.escapedText_eq (h : Spells a s text rest) {fuel : Nat} (hfuel : s.length < fuel) :
    escapedText a fuel s = some (text, rest) := by
  induction h generalizing fuel with
  | closing rest =>
    obtain ⟨fuel, rfl⟩ := Nat.exists_eq_add_one.mpr (Nat.zero_lt_of_lt hfuel)
    rfl
  | ending h ih =>
    obtain ⟨fuel, rfl⟩ := Nat.exists_eq_add_one.mpr (Nat.zero_lt_of_lt hfuel)
    simp only [List.length_cons] at hfuel
    rw [escapedText, ih (by omega)]
    rfl
  | @continued c s more text rest hbreak hskip h ih =>
    obtain ⟨fuel, rfl⟩ := Nat.exists_eq_add_one.mpr (Nat.zero_lt_of_lt hfuel)
    have hlength := (past_of_skipContinuation hskip).length_le
    simp only [List.length_cons] at hfuel hlength
    simp only [escapedText, List.head?_cons, Option.some_inj, if_pos hbreak, hskip, Option.bind_some]
    exact ih (by omega)
  | @escaped c first s more text rest hbreak hescape h ih =>
    obtain ⟨fuel, rfl⟩ := Nat.exists_eq_add_one.mpr (Nat.zero_lt_of_lt hfuel)
    obtain ⟨first, tail, heq, -, -, hpast⟩ := exists_of_escape? hescape
    obtain ⟨rfl, rfl⟩ := List.cons.inj heq
    have hlength := hpast.length_le
    simp only [List.length_cons] at hfuel
    simp only [escapedText, List.head?_cons, Option.some_inj, if_neg hbreak, hescape, Option.bind_eq_bind,
      Option.bind_some, ih (by omega : _ < fuel)]
  | @char c s text rest hquote hreturn hescape hholds h ih =>
    obtain ⟨fuel, rfl⟩ := Nat.exists_eq_add_one.mpr (Nat.zero_lt_of_lt hfuel)
    simp only [List.length_cons] at hfuel
    rw [escapedText.eq_7 a fuel c s hquote hreturn hescape, if_pos hholds, ih (by omega)]
    rfl

theorem Spells.settle (h : Spells a s text rest) : Spells a (settled s) text (settled rest) := by
  induction h with
  | closing rest =>
    rw [settled_cons (by decide)]
    exact .closing _
  | ending h ih =>
    rw [settled_ending]
    exact .char (by decide) (by decide) (by decide) (by cases a <;> decide) ih
  | @continued c s more text rest hbreak hskip h ih =>
    obtain ⟨t, hbreak, hskip⟩ := exists_of_skipContinuation hbreak hskip
    have hsettled : settled (c :: s) = '\n' :: settled t := by
      rcases hbreak with heq | heq
      · rw [heq, settled_cons (by decide)]
      · rw [heq, settled_ending]
    rw [settled_cons (by decide), hsettled]
    exact .continued (.inl rfl) (skipContinuation_settled hskip) ih
  | @escaped c first s more text rest hbreak hescape h ih =>
    have hescape' := escape?_settled hescape
    rw [settled_cons fun heq => hbreak (.inr heq)] at hescape'
    rw [settled_cons (by decide), settled_cons fun heq => hbreak (.inr heq)]
    exact .escaped hbreak hescape' ih
  | char hquote hreturn hescape hholds h ih =>
    rw [settled_cons hreturn]
    exact .char hquote hreturn hescape hholds ih

/-- A backslash stands before any character between the quotes of a string. -/
theorem Spells.quoted (h : Spells a s text rest) : ∃ inside, s = inside ++ '"' :: rest ∧ Quoted '"' inside := by
  induction h with
  | closing rest => exact ⟨[], rfl, .nil⟩
  | ending h ih =>
    obtain ⟨inside, rfl, hinside⟩ := ih
    exact ⟨_, rfl, .plain (by decide) (by decide) (.plain (by decide) (by decide) hinside)⟩
  | @continued c s more text rest hbreak hskip h ih =>
    obtain ⟨inside, rfl, hinside⟩ := ih
    obtain ⟨t, hbreak, hskip⟩ := exists_of_skipContinuation hbreak hskip
    obtain ⟨blanks, rfl, hblanks⟩ := past_of_skipContinuation hskip
    have hskipped : ∀ c ∈ [' ', '\t', '\n', '\r'], c ≠ '\\' ∧ c ≠ '"' := forall_mem_of_all (by decide)
    have hquoted : Quoted '"' (blanks ++ inside) := .append (.plains fun c hc => hskipped c (hblanks c hc)) hinside
    rcases hbreak with heq | heq
    · rw [heq]
      exact ⟨'\\' :: '\n' :: (blanks ++ inside), by simp, .escaped hquoted⟩
    · rw [heq]
      exact ⟨'\\' :: '\r' :: '\n' :: (blanks ++ inside), by simp, .escaped (.plain (by decide) (by decide) hquoted)⟩
  | @escaped c first s more text rest hbreak hescape h ih =>
    obtain ⟨inside, rfl, hinside⟩ := ih
    obtain ⟨first, tail, heq, -, -, letters, rfl, hletters⟩ := exists_of_escape? hescape
    obtain ⟨rfl, rfl⟩ := List.cons.inj heq
    have hplain : ∀ c ∈ letters, c ≠ '\\' ∧ c ≠ '"' := fun c hc =>
      ⟨fun heq => hletters c hc (by simp [heq]), fun heq => hletters c hc (by simp [heq])⟩
    exact ⟨'\\' :: first :: (letters ++ inside), by simp, .escaped (.append (.plains hplain) hinside)⟩
  | char hquote hreturn hescape hholds h ih =>
    obtain ⟨inside, rfl, hinside⟩ := ih
    exact ⟨_, rfl, .plain hescape hquote hinside⟩

end Strings

/-! Raw strings -/

section Raw
variable {a : Alphabet} {s text rest : List Char}

theorem eq_of_rawText {hashes : List Char} (h : rawText a hashes s = some (text, rest)) :
    s = text ++ ('"' :: (hashes ++ rest)) := by
  fun_induction rawText a hashes s generalizing text with
  | case1 => cases h
  | case2 s ih =>
    obtain ⟨more, hmore, rfl⟩ := exists_of_map_read (f := ('\r' :: '\n' :: ·)) h
    rw [ih hmore]
    rfl
  | case3 c s hending hclosing =>
    obtain ⟨rfl, rfl⟩ := Prod.mk.inj (Option.some.inj h)
    obtain ⟨rfl, hprefix⟩ := hclosing
    obtain ⟨rest, rfl⟩ := List.isPrefixOf_iff_prefix.mp hprefix
    rw [List.drop_left, List.nil_append]
  | case4 => cases h
  | case5 c s hending hclosing hplain ih =>
    obtain ⟨more, hmore, rfl⟩ := exists_of_map_read h
    rw [ih hmore]
    rfl

/-- A raw string keeps its line endings, so that they only do not matter where none of them is a carriage return. -/
theorem rawText_settled {hashes : List Char} (hhashes : '\n' ∉ hashes ∧ '\r' ∉ hashes)
    (h : rawText a hashes s = some (text, rest)) (hreturn : '\r' ∉ text) :
    rawText a hashes (settled s) = some (text, settled rest) := by
  have hprefix (s : List Char) : hashes.isPrefixOf (settled s) = hashes.isPrefixOf s := by
    rw [Bool.eq_iff_iff, List.isPrefixOf_iff_prefix, List.isPrefixOf_iff_prefix]
    exact prefix_settled_iff hhashes.1 hhashes.2 s
  have hstep {c : Char} (hc : c ≠ '\r') (s : List Char) : rawText a hashes (settled (c :: s)) =
      if c = '"' ∧ hashes.isPrefixOf s then some ([], (settled s).drop hashes.length)
      else if c = '\r' || !a.holds c then none
      else (rawText a hashes (settled s)).map (Prod.map (c :: ·) id) := by
    rw [settled_cons hc, rawText.eq_3 a hashes c _ fun _ heq _ => hc heq, hprefix]
    rfl
  fun_induction rawText a hashes s generalizing text with
  | case1 => cases h
  | case2 s ih =>
    obtain ⟨more, hmore, rfl⟩ := exists_of_map_read (f := ('\r' :: '\n' :: ·)) h
    exact absurd List.mem_cons_self hreturn
  | case3 c s hending hclosing =>
    obtain ⟨rfl, rfl⟩ := Prod.mk.inj (Option.some.inj h)
    obtain ⟨rest, hrest⟩ := List.isPrefixOf_iff_prefix.mp hclosing.2
    rw [hstep (hclosing.1 ▸ by decide), if_pos hclosing, ← hrest, settled_append hhashes.2, List.drop_left, List.drop_left]
  | case4 => cases h
  | case5 c s hending hclosing hplain ih =>
    obtain ⟨more, hmore, rfl⟩ := exists_of_map_read h
    obtain ⟨hc, hmore'⟩ := List.ne_and_not_mem_of_not_mem_cons hreturn
    rw [hstep hc.symm, if_neg hclosing, if_neg hplain, ih hmore hmore']
    rfl

theorem exists_of_rawQuotation? (h : rawQuotation? a s = some (text, rest)) :
    ∃ hashes, hashes.length ≤ 255 ∧ (∀ c ∈ hashes, c = '#') ∧ s = hashes ++ ('"' :: (text ++ ('"' :: (hashes ++ rest)))) := by
  rw [rawQuotation?] at h
  split at h
  · rename_i body hbody
    obtain ⟨hlength, hread⟩ := Option.ite_none_right_eq_some.mp h
    refine ⟨s.takeWhile (· == '#'), hlength, ?_, ?_⟩
    · intro c hc
      simpa using List.all_eq_true.mp List.all_takeWhile c hc
    · rw [← eq_of_rawText hread, ← hbody, List.takeWhile_append_dropWhile]
  · cases h

theorem rawQuotation?_settled (h : rawQuotation? a s = some (text, rest)) (hreturn : '\r' ∉ text) :
    rawQuotation? a (settled s) = some (text, settled rest) := by
  have hhashes : '\n' ∉ s.takeWhile (· == '#') ∧ '\r' ∉ s.takeWhile (· == '#') := by
    refine ⟨fun hmem => ?_, fun hmem => ?_⟩
    · exact absurd (List.all_eq_true.mp List.all_takeWhile _ hmem) (by decide)
    · exact absurd (List.all_eq_true.mp List.all_takeWhile _ hmem) (by decide)
  rw [rawQuotation?] at h ⊢
  rw [takeWhile_settled (by decide) (by decide), dropWhile_settled (by decide) (by decide)]
  split at h
  · rename_i body hbody
    obtain ⟨hlength, hread⟩ := Option.ite_none_right_eq_some.mp h
    rw [hbody, settled_cons (by decide)]
    exact (if_pos hlength).trans (rawText_settled hhashes hread hreturn)
  · cases h

theorem quotation?_settled (h : quotation? a s = some (text, rest)) : quotation? a (settled s) = some (text, settled rest) :=
  (spells_of_escapedText h).settle.escapedText_eq (Nat.lt_succ_self _)

end Raw

/-! Characters -/

section Chars
variable {a : Alphabet} {s rest : List Char} {c : Char}

theorem closed_eq_some_iff {d : Char} {t : List Char} :
    quotedChar?.closed (d, t) = some (c, rest) ↔ d = c ∧ t = '\'' :: rest := by
  cases t with
  | nil => simp [quotedChar?.closed]
  | cons e t =>
    by_cases hquote : e = '\''
    · subst hquote
      simp [quotedChar?.closed]
    · rw [quotedChar?.closed.eq_2]
      · simp [hquote]
      · exact fun _ _ heq => hquote (List.cons.inj (Prod.mk.inj heq).2).1

/-- A character between quotes is escaped, or any other one. -/
theorem exists_of_quotedChar? (h : quotedChar? a s = some (c, rest)) :
    ∃ inside, s = inside ++ '\'' :: rest ∧ (inside = ['\''] ∨ Quoted '\'' inside) := by
  fun_cases quotedChar? a s with
  | case1 s =>
    obtain ⟨⟨d, t⟩, hescape, h⟩ := Option.bind_eq_some_iff.mp h
    obtain ⟨rfl, rfl⟩ := closed_eq_some_iff.mp h
    obtain ⟨first, tail, rfl, -, -, letters, rfl, hletters⟩ := exists_of_escape? hescape
    have hplain : ∀ c ∈ letters, c ≠ '\\' ∧ c ≠ '\'' := fun c hc =>
      ⟨fun heq => hletters c hc (by simp [heq]), fun heq => hletters c hc (by simp [heq])⟩
    exact ⟨'\\' :: first :: letters, rfl, .inr (.escaped (.plains hplain))⟩
  | case2 d s hescape hholds =>
    rw [quotedChar?.eq_2 a d s hescape, if_pos hholds] at h
    obtain ⟨rfl, rfl⟩ := closed_eq_some_iff.mp h
    refine ⟨[d], rfl, ?_⟩
    by_cases hquote : d = '\''
    · exact .inl (by rw [hquote])
    · exact .inr (.plain hescape hquote .nil)
  | case3 d s hescape hholds =>
    rw [quotedChar?.eq_2 a d s hescape, if_neg hholds] at h
    cases h
  | case4 => cases h

theorem quotedChar?_settled (h : quotedChar? a s = some (c, rest)) :
    quotedChar? a (settled s) = some (c, settled rest) := by
  have hquote (rest : List Char) : settled ('\'' :: rest) = '\'' :: settled rest := settled_cons (by decide) rest
  fun_cases quotedChar? a s with
  | case1 s =>
    obtain ⟨⟨d, t⟩, hescape, h⟩ := Option.bind_eq_some_iff.mp h
    obtain ⟨rfl, rfl⟩ := closed_eq_some_iff.mp h
    rw [settled_cons (by decide), quotedChar?, escape?_settled hescape, Option.bind_some, closed_eq_some_iff]
    exact ⟨rfl, hquote rest⟩
  | case2 d s hescape hholds =>
    rw [quotedChar?.eq_2 a d s hescape, if_pos hholds] at h
    obtain ⟨rfl, rfl⟩ := closed_eq_some_iff.mp h
    rw [settled_cons_cons (by decide), quotedChar?.eq_2 a _ _ hescape, if_pos hholds, closed_eq_some_iff]
    exact ⟨rfl, hquote rest⟩
  | case3 d s hescape hholds =>
    rw [quotedChar?.eq_2 a d s hescape, if_neg hholds] at h
    cases h
  | case4 => cases h

end Chars

/-! Literals -/

/-- The openings of raw literals. -/
def rawStarts : List String := ["r\"", "r#\"", "r##", "br\"", "br#", "cr\"", "cr#"]

/-- Apostrophes between apostrophes. -/
def quotedQuotes : List String := ["'''", "b'''"]

def startsWith (starts : List String) (s : List Char) : Bool := starts.any fun start => start.toList.isPrefixOf s

theorem startsWith_or (starts more : List String) (s : List Char) :
    startsWith (starts ++ more) s = (startsWith starts s || startsWith more s) := List.any_append

theorem startsWith_append {starts : List String} {s : List Char} (h : startsWith starts s = true) (t : List Char) :
    startsWith starts (s ++ t) = true := by
  obtain ⟨start, hmem, hprefix⟩ := List.any_eq_true.mp h
  refine List.any_eq_true.mpr ⟨start, hmem, ?_⟩
  exact List.isPrefixOf_iff_prefix.mpr ((List.isPrefixOf_iff_prefix.mp hprefix).trans (List.prefix_append s t))

/-- A character of another kind than the first ones of the given texts starts none of them. -/
theorem startsWith_cons {starts : List String} {p : Char → Bool}
    (h : starts.all (fun start => start.toList.head?.any (!p ·)) = true) {c : Char} (hc : p c = true) (s : List Char) :
    startsWith starts (c :: s) = false := by
  refine List.any_eq_false.mpr fun start hstart hprefix => ?_
  obtain ⟨d, hd, hother⟩ := (Option.any_eq_true _ _).mp (List.all_eq_true.mp h start hstart)
  obtain ⟨letters, hletters⟩ := List.head?_eq_some_iff.mp hd
  rw [List.isPrefixOf_iff_prefix, hletters] at hprefix
  rw [(List.cons_prefix_cons.mp hprefix).1, hc] at hother
  cases hother

theorem startsWith_settled {starts : List String} (h : ∀ start ∈ starts, '\n' ∉ start.toList ∧ '\r' ∉ start.toList)
    (s : List Char) : startsWith starts (settled s) = startsWith starts s := by
  rw [Bool.eq_iff_iff, startsWith, startsWith, List.any_eq_true, List.any_eq_true]
  refine exists_congr fun start => and_congr_right fun hstart => ?_
  rw [List.isPrefixOf_iff_prefix, List.isPrefixOf_iff_prefix]
  exact prefix_settled_iff (h start hstart).1 (h start hstart).2 s

theorem startsWith_rawStarts {mark hashes : List Char} (hmark : mark ∈ ["r".toList, "br".toList, "cr".toList])
    (hhashes : ∀ c ∈ hashes, c = '#') (s : List Char) : startsWith rawStarts (mark ++ (hashes ++ '"' :: s)) = true := by
  have hstart : ∀ mark ∈ ["r".toList, "br".toList, "cr".toList], startsWith rawStarts (mark ++ '"' :: s) = true ∧
      startsWith rawStarts (mark ++ '#' :: '"' :: s) = true ∧ ∀ t, startsWith rawStarts (mark ++ '#' :: '#' :: t) = true := by
    simp [startsWith, rawStarts]
  obtain ⟨hnone, hone, hmore⟩ := hstart mark hmark
  cases hashes with
  | nil => exact hnone
  | cons c hashes =>
    obtain ⟨rfl, hhashes'⟩ := List.forall_mem_cons.mp hhashes
    cases hashes with
    | nil => exact hone
    | cons d hashes =>
      obtain ⟨rfl, -⟩ := List.forall_mem_cons.mp hhashes'
      exact hmore _

section Quoted
variable {a : Alphabet} {s rest : List Char} {v : Literal}

theorem nested_of_mem_marks {mark : List Char} (h : mark ∈ ["".toList, "b".toList, "c".toList]) : Nested mark := by
  have hplain : ∀ mark ∈ ["".toList, "b".toList, "c".toList], mark.all (fun c => decide (Plain c)) = true := by decide
  exact (nested_of_plain (forall_mem_of_all (hplain mark h))).1

/-- What a reader of literals uses of a text that stands behind a mark: the search for the end of a declaration passes over it,
unless it is raw or a quoted quote, and it does not depend on how lines end, unless it is raw. -/
structure Uses (read : List Char → Option (Literal × List Char)) (mark s : List Char) (v : Literal) (used rest : List Char) :
    Prop where
  eq : mark ++ s = used ++ rest
  ne_nil : used ≠ []
  nested : startsWith (rawStarts ++ quotedQuotes) used = true ∨ Nested used
  settle : (startsWith rawStarts used = true → '\r' ∉ used) → read (settled s) = some (v, settled rest)

/-- The mark may be read together with what stands behind it. -/
theorem Uses.marked {read read' : List Char → Option (Literal × List Char)} {mark used : List Char} (hmark : '\r' ∉ mark)
    (hread : ∀ t, read' (mark ++ t) = read t) (h : Uses read mark s v used rest) : Uses read' [] (mark ++ s) v used rest where
  eq := h.eq
  ne_nil := h.ne_nil
  nested := h.nested
  settle hreturn := by
    rw [settled_append hmark, hread]
    exact h.settle hreturn

theorem string_spec {mark : List Char} {f : List Char → Literal} (hmark : mark ∈ ["".toList, "b".toList, "c".toList])
    (h : (quotation? a s).map (fun (text, rest) => (f text, rest)) = some (v, rest)) :
    ∃ used, Uses (fun s => (quotation? a s).map fun (text, rest) => (f text, rest)) (mark ++ ['"']) s v used rest := by
  obtain ⟨text, hread, rfl⟩ := exists_of_map_read h
  obtain ⟨inside, rfl, hinside⟩ := (spells_of_escapedText hread).quoted
  exact ⟨mark ++ ('"' :: inside ++ ['"']), {
    eq := by simp
    ne_nil := by simp
    nested := .inr ((nested_of_mem_marks hmark).append (.literal (.inl rfl) hinside .nil))
    settle := fun _ => by rw [quotation?_settled hread]; rfl }⟩

theorem raw_spec {mark : List Char} {f : List Char → Literal} (hmark : mark ∈ ["r".toList, "br".toList, "cr".toList])
    (h : (rawQuotation? a s).map (fun (text, rest) => (f text, rest)) = some (v, rest)) :
    ∃ used, startsWith rawStarts used = true ∧
      Uses (fun s => (rawQuotation? a s).map fun (text, rest) => (f text, rest)) mark s v used rest := by
  obtain ⟨text, hread, rfl⟩ := exists_of_map_read h
  obtain ⟨hashes, -, hhashes, hs⟩ := exists_of_rawQuotation? hread
  have hstart := startsWith_rawStarts hmark hhashes (text ++ '"' :: hashes)
  exact ⟨mark ++ (hashes ++ '"' :: (text ++ '"' :: hashes)), hstart, {
    eq := by simp [hs]
    ne_nil := by simp
    nested := .inl (by rw [startsWith_or, hstart, Bool.true_or])
    settle := fun hreturn => by
      rw [rawQuotation?_settled hread fun hmem => hreturn hstart (by simp [hmem])]
      rfl }⟩

theorem char_spec {mark : List Char} {f : Char → Literal} (hmark : mark ∈ ["".toList, "b".toList])
    (h : (quotedChar? a s).map (fun (c, rest) => (f c, rest)) = some (v, rest)) :
    ∃ used, Uses (fun s => (quotedChar? a s).map fun (c, rest) => (f c, rest)) (mark ++ ['\'']) s v used rest := by
  obtain ⟨c, hread, rfl⟩ := exists_of_map_read h
  obtain ⟨inside, rfl, hinside⟩ := exists_of_quotedChar? hread
  have hnested : startsWith (rawStarts ++ quotedQuotes) (mark ++ ('\'' :: inside ++ ['\''])) = true ∨
      Nested (mark ++ ('\'' :: inside ++ ['\''])) := by
    rcases hinside with rfl | hinside
    · have hquote : ∀ mark ∈ ["".toList, "b".toList],
          startsWith (rawStarts ++ quotedQuotes) (mark ++ ['\'', '\'', '\'']) = true := by decide
      exact .inl (hquote mark hmark)
    · have hplain := nested_of_mem_marks (List.mem_append_left ["c".toList] hmark)
      exact .inr (hplain.append (.literal (.inr rfl) hinside .nil))
  exact ⟨mark ++ ('\'' :: inside ++ ['\'']), {
    eq := by simp
    ne_nil := by simp
    nested := hnested
    settle := fun _ => by rw [quotedChar?_settled hread]; rfl }⟩

/-- A quoted literal is read by the reader that its mark selects. -/
theorem quotedLiteral?_spec (h : quotedLiteral? s = some (v, rest)) : ∃ used, Uses quotedLiteral? [] s v used rest := by
  have hread {mark s : List Char} {read : List Char → Option (Literal × List Char)}
      (hspec : ∃ used, Uses read mark s v used rest) (hmark : '\r' ∉ mark)
      (heq : ∀ t, quotedLiteral? (mark ++ t) = read t) : ∃ used, Uses quotedLiteral? [] (mark ++ s) v used rest :=
    hspec.imp fun _ hused => hused.marked hmark heq
  fun_cases quotedLiteral? s with
  | case1 textOf s =>
    exact hread (@string_spec _ s _ _ [] (fun text => .text (String.ofList text)) (by decide) h) (by decide) fun _ => rfl
  | case2 textOf s =>
    obtain ⟨used, -, hused⟩ := @raw_spec _ s _ _ ['r'] (fun text => .text (String.ofList text)) (by decide) h
    exact hread ⟨used, hused⟩ (by decide) fun _ => rfl
  | case3 opaqueOf s => exact hread (@string_spec _ s _ _ ['b'] (fun _ => .other) (by decide) h) (by decide) fun _ => rfl
  | case4 opaqueOf s =>
    obtain ⟨used, -, hused⟩ := @raw_spec _ s _ _ ['b', 'r'] (fun _ => .other) (by decide) h
    exact hread ⟨used, hused⟩ (by decide) fun _ => rfl
  | case5 opaqueOf s => exact hread (@string_spec _ s _ _ ['c'] (fun _ => .other) (by decide) h) (by decide) fun _ => rfl
  | case6 opaqueOf s =>
    obtain ⟨used, -, hused⟩ := @raw_spec _ s _ _ ['c', 'r'] (fun _ => .other) (by decide) h
    exact hread ⟨used, hused⟩ (by decide) fun _ => rfl
  | case7 s => exact hread (@char_spec _ s _ _ ['b'] (fun _ => .other) (by decide) h) (by decide) fun _ => rfl
  | case8 s => exact hread (@char_spec _ s _ _ [] .character (by decide) h) (by decide) fun _ => rfl
  | case9 s hstring hraw hbytes hrawBytes hc hrawC hbyte hchar =>
    rw [quotedLiteral?.eq_9 s hstring hraw hbytes hrawBytes hc hrawC hbyte hchar] at h
    cases h

end Quoted

/-! Literals -/

/-- A quoted literal starts with a quote, or as a quotation does. -/
theorem startsWith_of_quotedLiteral? {s rest : List Char} {v : Literal} (h : quotedLiteral? s = some (v, rest)) :
    startsWith (["\"", "'"] ++ Lexical.quotationStarts) s = true := by
  have hraw {a : Alphabet} {mark t : List Char} {f : List Char → Literal}
      (hmark : mark ∈ ["r".toList, "br".toList, "cr".toList])
      (h : (rawQuotation? a t).map (fun (text, rest) => (f text, rest)) = some (v, rest)) :
      startsWith (["\"", "'"] ++ Lexical.quotationStarts) (mark ++ t) = true := by
    obtain ⟨used, hstart, hused⟩ := raw_spec hmark h
    obtain ⟨start, hmem, hprefix⟩ := List.any_eq_true.mp (hused.eq ▸ startsWith_append hstart rest)
    have hsubset : ∀ start ∈ rawStarts, start ∈ ["\"", "'"] ++ Lexical.quotationStarts := by decide
    exact List.any_eq_true.mpr ⟨start, hsubset start hmem, hprefix⟩
  fun_cases quotedLiteral? s with
  | case2 textOf s => exact @hraw _ ['r'] s (fun text => .text (String.ofList text)) (by decide) h
  | case4 opaqueOf s => exact @hraw _ ['b', 'r'] s (fun _ => .other) (by decide) h
  | case6 opaqueOf s => exact @hraw _ ['c', 'r'] s (fun _ => .other) (by decide) h
  | case9 s hstring hraw hbytes hrawBytes hc hrawC hbyte hchar =>
    rw [quotedLiteral?.eq_9 s hstring hraw hbytes hrawBytes hc hrawC hbyte hchar] at h
    cases h
  | _ s => simp [startsWith, Lexical.quotationStarts]

theorem quotedLiteral?_eq_none {s : List Char} (h : startsWith (["\"", "'"] ++ Lexical.quotationStarts) s = false) :
    quotedLiteral? s = none := by
  by_contra hne
  obtain ⟨⟨v, rest⟩, hread⟩ := Option.ne_none_iff_exists'.mp hne
  rw [startsWith_of_quotedLiteral? hread] at h
  cases h

/-- A literal is a quoted one with its suffix, or a number. -/
theorem literal?_spec {s rest : List Char} {v : Literal} (h : literal? s = some (v, rest)) :
    ∃ used, Uses literal? [] s v used rest := by
  rw [literal?] at h
  split at h
  · rename_i value more hread
    obtain ⟨rfl, rfl⟩ := Prod.mk.inj (Option.some.inj h)
    obtain ⟨used, hused⟩ := quotedLiteral?_spec hread
    obtain ⟨suffix, hmore, hsuffix⟩ := past_afterIdentifier more
    exact ⟨used ++ suffix, {
      eq := by rw [hused.eq, List.append_assoc, ← hmore]
      ne_nil := by simp [hused.ne_nil]
      nested := hused.nested.imp (fun hstart => startsWith_append hstart suffix) fun hnested =>
        hnested.append (nested_of_plain hsuffix).1
      settle := fun hreturn => by
        have hreturn' (hstart : startsWith rawStarts used = true) : '\r' ∉ used := fun hmem =>
          hreturn (startsWith_append hstart suffix) (List.mem_append_left _ hmem)
        rw [literal?, hused.settle hreturn', ← afterIdentifier_settled] }⟩
  · rename_i hquoted
    obtain ⟨more, hnumber, heq⟩ := Option.map_eq_some_iff.mp h
    obtain ⟨rfl, rfl⟩ := Prod.mk.inj heq
    obtain ⟨c, t, rfl, hdigit, used, rfl, hused⟩ := exists_of_afterNumber hnumber
    have hplain : ∀ d ∈ c :: used, Plain d := List.forall_mem_cons.mpr ⟨plain_of (by decide) hdigit, hused⟩
    obtain ⟨hnested, hreturn⟩ := nested_of_plain hplain
    have hnone : quotedLiteral? (settled (c :: (used ++ more))) = none := by
      refine quotedLiteral?_eq_none ((startsWith_settled (by decide) _).trans ?_)
      exact startsWith_cons (by decide) hdigit _
    have hsettled : settled (c :: (used ++ more)) = c :: (used ++ settled more) := settled_append hreturn more
    have htake (t : List Char) : (c :: (used ++ t)).take ((c :: (used ++ t)).length - t.length) = c :: used := by
      have hlength : (c :: (used ++ t)).length - t.length = (c :: used).length := by simp; omega
      rw [hlength]
      exact List.take_left
    exact ⟨c :: used, {
      eq := rfl
      ne_nil := List.cons_ne_nil c used
      nested := .inr hnested
      settle := fun _ => by
        rw [literal?, hnone, afterNumber_settled, hnumber, hsettled]
        simp only [Option.map_some, htake] }⟩

end ApiHandbook.Code
