import ApiHandbook.Code.Token
import ApiHandbook.Proofs.Quotations

/-! What the tokens of a text are read off, as the search for the end of a declaration passes over it: a token is a bracket, or
its quotes and brackets are closed, unless it is a raw literal or has an apostrophe of its own. A token does not depend on how
lines end, unless it is a raw literal. -/
namespace ApiHandbook.Code.Lexical
open Text
open Argument (Nested isOpening isClosing)

/-! Words and punctuation -/

theorem isRaw_settled (s : List Char) : isRaw (settled s) = isRaw s := by
  rw [Bool.eq_iff_iff, isRaw, isRaw, List.isPrefixOf_iff_prefix, List.isPrefixOf_iff_prefix]
  exact prefix_settled_iff (by decide) (by decide) s

theorem word?_settled (s : List Char) : word? (settled s) = (word? s).map fun (name, rest) => (name, settled rest) := by
  rw [word?, word?, isRaw_settled]
  split
  · rename_i hraw
    obtain ⟨t, rfl⟩ := List.isPrefixOf_iff_prefix.mp hraw
    rw [settled_append (by decide)]
    change (identifier? (settled t)).bind _ = ((identifier? t).bind _).map _
    rw [identifier?_settled]
    cases identifier? t with
    | none => rfl
    | some found =>
      simp only [Option.map_some, Option.bind_some]
      split <;> rfl
  · rw [identifier?_settled]
    cases identifier? s <;> rfl

theorem startsMark_settled (s : List Char) : startsMark (settled s) = startsMark s := by
  induction s using settled_induction with
  | stop s hs hsettled =>
    have hfalse {t : List Char} (h : AtBreak t) : startsMark t = false := by
      cases h <;> rfl
    rw [hfalse hs, hfalse hsettled]
  | char c s hfeed hreturn ih =>
    have hhead {d : Char} (hfeed : d ≠ '\n') (hreturn : d ≠ '\r') :
        ((settled s).head? == some d) = (s.head? == some d) := by
      rw [Bool.eq_iff_iff, beq_iff_eq, beq_iff_eq]
      exact head?_settled hfeed hreturn s
    rw [startsMark, startsMark, hhead (by decide) (by decide), hhead (by decide) (by decide)]

theorem mark?_settled (s : List Char) :
    mark? (settled s) = (mark? s).map fun (token, rest) => (token, settled rest) := by
  induction s using settled_induction with
  | stop s hs hsettled =>
    have hnone {t : List Char} (h : AtBreak t) : mark? t = none := by
      cases h <;> rfl
    rw [hnone hs, hnone hsettled]
    rfl
  | char c s hfeed hreturn ih =>
    have hmark : startsMark (c :: settled s) = startsMark (c :: s) := by rw [← settled_cons hreturn, startsMark_settled]
    rw [mark?, mark?, hmark, startsMark_settled, word?_settled, isRaw_settled]
    split
    · rfl
    split
    · cases word? s with
      | none => rfl
      | some found =>
        simp only [Option.map_some, Option.bind_eq_bind, Option.bind_some, head?_settled (by decide : '\'' ≠ '\n') (by decide),
          head?_settled (by decide : '#' ≠ '\n') (by decide)]
        split <;> rfl
    · rfl

/-- A word is a letter or an underscore with characters of identifiers behind it, or the mark of a raw identifier. -/
theorem exists_of_word? {p : Char → Prop} (hstart : ∀ c, isIdentifierStart c = true → p c)
    (hcontinue : ∀ c, isIdentifierContinue c = true → p c) (hraw : p '#') {s rest : List Char} {name : String}
    (h : word? s = some (name, rest)) : ∃ c t, s = c :: t ∧ isIdentifierStart c = true ∧ Past p t rest := by
  rw [word?] at h
  split at h
  · rename_i hfront
    obtain ⟨t, rfl⟩ := List.isPrefixOf_iff_prefix.mp hfront
    obtain ⟨⟨letters, after⟩, hletters, heq⟩ := Option.bind_eq_some_iff.mp h
    obtain ⟨-, heq⟩ := Option.ite_none_left_eq_some.mp heq
    obtain ⟨-, rfl⟩ := Prod.mk.inj (Option.some.inj heq)
    obtain ⟨c, u, hu, hc, hpast⟩ := exists_of_identifier? hcontinue hletters
    replace hu : t = c :: u := hu
    refine ⟨'r', '#' :: t, rfl, by decide, ?_⟩
    rw [hu]
    exact (hpast.cons (hstart c hc)).cons hraw
  · obtain ⟨⟨letters, after⟩, hletters, heq⟩ := Option.map_eq_some_iff.mp h
    obtain ⟨-, rfl⟩ := Prod.mk.inj heq
    exact exists_of_identifier? hcontinue hletters

theorem isDigit_of_isIdentifierStart {c : Char} (h : isIdentifierStart c = true) : c.isDigit = false := by
  by_contra hdigit
  rw [Bool.not_eq_false, Char.isDigit, Bool.and_eq_true, decide_eq_true_eq, decide_eq_true_eq] at hdigit
  have hlow : 48 ≤ c.toNat := hdigit.1
  have hhigh : c.toNat ≤ 57 := hdigit.2
  rw [(Char.ofNat_toNat c).symm] at h
  generalize c.toNat = n at h hlow hhigh
  interval_cases n <;> cases h

/-- A punctuation mark is one character. -/
theorem exists_of_mark? {s rest : List Char} {token : Token} (h : mark? s = some (token, rest)) :
    ∃ c joint, s = c :: rest ∧ marks.contains c = true ∧ token = .mark c joint := by
  cases s with
  | nil => cases h
  | cons c s =>
    rw [mark?] at h
    obtain ⟨hstarts, h⟩ := Option.ite_none_left_eq_some.mp h
    have hmark : marks.contains c = true := by
      rw [Bool.not_eq_true', Bool.not_eq_false, startsMark, Bool.and_eq_true] at hstarts
      exact hstarts.1
    split at h
    · rename_i hquote
      obtain ⟨found, -, h⟩ := Option.bind_eq_some_iff.mp h
      obtain ⟨-, h⟩ := Option.ite_none_left_eq_some.mp h
      obtain ⟨rfl, rfl⟩ := Prod.mk.inj (Option.some.inj h)
      exact ⟨c, true, rfl, hmark, by rw [hquote]⟩
    · obtain ⟨rfl, rfl⟩ := Prod.mk.inj (Option.some.inj h)
      exact ⟨c, _, rfl, hmark, rfl⟩

/-! Tokens -/

theorem literal?_eq_none {s : List Char} (hquoted : startsWith (["\"", "'"] ++ quotationStarts) s = false)
    (hdigit : s.head?.any Char.isDigit = false) : literal? s = none := by
  rw [literal?, quotedLiteral?_eq_none hquoted]
  refine Option.map_eq_none_iff.mpr ?_
  by_contra hne
  obtain ⟨rest, h⟩ := Option.ne_none_iff_exists'.mp hne
  obtain ⟨c, t, rfl, hc, -⟩ := exists_of_afterNumber h
  rw [List.head?_cons, Option.any_some, hc] at hdigit
  cases hdigit

/-- Whether the search for the end of a declaration may go wrong at a token: it is a raw literal, or has an apostrophe of its
own. -/
def Odd (text : List Char) : Prop := startsWith (rawStarts ++ quotedQuotes) text = true ∨ text = ['\'']

instance (text : List Char) : Decidable (Odd text) := inferInstanceAs (Decidable (_ ∨ _))

/-- How the search for the end of a declaration passes over the text of a token. -/
inductive Passes : Token → List Char → Prop where
  | opening (delimiter : Delimiter) {c : Char} (h : isOpening c = true) (hquote : c ≠ '"' ∧ c ≠ '\'') :
    Passes (.opening delimiter) [c]
  | closing (delimiter : Delimiter) {c : Char} (hopening : isOpening c = false) (h : isClosing c = true)
    (hquote : c ≠ '"' ∧ c ≠ '\'') : Passes (.closing delimiter) [c]
  | literal (value : Literal) {text : List Char} (h : Nested text) : Passes (.literal value) text
  | word (name : String) {text : List Char} (h : Nested text) : Passes (.word name) text
  | mark (c : Char) (joint : Bool) {text : List Char} (h : Nested text) : Passes (.mark c joint) text

/-- A token is read off characters that the search for the end of a declaration passes over, and does not depend on how lines
end, unless it is odd. -/
structure Reads (read : List Char → Option (Token × List Char)) (token : Token) (used rest : List Char) : Prop where
  ne_nil : used ≠ []
  passes : (Odd used → Nested used) → Passes token used
  settle : (Odd used → Nested used ∧ '\r' ∉ used) → read (settled (used ++ rest)) = some (token, settled rest)

theorem not_nested_apostrophe : ¬ Nested ['\''] := by
  intro h
  generalize htext : ['\''] = text at h
  cases h with
  | nil => cases htext
  | plain hquote => exact hquote.2 (List.cons.inj htext).1.symm
  | literal => simpa using congrArg List.length htext
  | group => simpa using congrArg List.length htext

section Leaf
variable {s rest : List Char} {token : Token}

theorem reads_of_literal? {v : Literal} (h : literal? s = some (v, rest)) :
    ∃ used, s = used ++ rest ∧ Reads leaf? (.literal v) used rest := by
  obtain ⟨used, hused⟩ := literal?_spec h
  obtain rfl : s = used ++ rest := hused.eq
  refine ⟨used, rfl, hused.ne_nil, fun hodd => ?_, fun hodd => ?_⟩
  · exact .literal v (hused.nested.elim (fun hstart => hodd (.inl hstart)) id)
  · have hreturn (hstart : startsWith rawStarts used = true) : '\r' ∉ used :=
      (hodd (.inl (by rw [startsWith_or, hstart, Bool.true_or]))).2
    rw [leaf?, hused.settle hreturn]

theorem reads_of_mark? (h : mark? s = some (token, rest)) : ∃ used, s = used ++ rest ∧ Reads leaf? token used rest := by
  obtain ⟨c, joint, rfl, hc, rfl⟩ := exists_of_mark? h
  have hmarks : ∀ c ∈ marks, c = '\'' ∨ Plain c ∧ c.isDigit = false := forall_mem_of_all (by decide)
  refine ⟨[c], rfl, List.cons_ne_nil c [], fun hodd => ?_, fun hodd => ?_⟩
  · rcases hmarks c (List.contains_iff_mem.mp hc) with rfl | ⟨hplain, -⟩
    · exact .mark _ _ (hodd (.inr rfl))
    · exact .mark _ _ (nested_of_plain (List.forall_mem_singleton.mpr hplain)).1
  · rcases hmarks c (List.contains_iff_mem.mp hc) with rfl | ⟨hplain, hdigit⟩
    · exact absurd (hodd (.inr rfl)).1 not_nested_apostrophe
    · have hnone : literal? (settled (c :: rest)) = none := by
        have hne : c ≠ '\'' := fun heq => hplain (by simp [heq])
        rw [settled_cons fun heq => hplain (by simp [heq])]
        refine literal?_eq_none ?_ hdigit
        exact @startsWith_cons _ (fun d => d != '\'' && marks.contains d) (by decide) c (by rw [hc, bne_iff_ne.mpr hne]; rfl) _
      change leaf? (settled (c :: rest)) = _
      rw [leaf?, hnone, mark?_settled, h]
      rfl

theorem reads_of_word? {name : String} (hmark : mark? s = none) (hquotation : startsWith quotationStarts s = false)
    (h : word? s = some (name, rest)) : ∃ used, s = used ++ rest ∧ Reads leaf? (.word name) used rest := by
  obtain ⟨c, t, rfl, hstart, used, rfl, hused⟩ :=
    exists_of_word? (fun _ => plain_of_isIdentifierStart) plain_of_isIdentifierContinue (by decide) h
  have hplain : ∀ d ∈ c :: used, Plain d := List.forall_mem_cons.mpr ⟨plain_of_isIdentifierStart hstart, hused⟩
  refine ⟨c :: used, rfl, List.cons_ne_nil c used, fun _ => .word name (nested_of_plain hplain).1, fun _ => ?_⟩
  have hquotes : startsWith ["\"", "'"] (c :: (used ++ rest)) = false := startsWith_cons (by decide) hstart _
  have hnone : literal? (settled (c :: (used ++ rest))) = none := by
    refine literal?_eq_none ?_ ?_
    · rw [startsWith_settled (by decide), startsWith_or, hquotes, hquotation]
      rfl
    · rw [any_head?_settled (by decide) (by decide)]
      exact isDigit_of_isIdentifierStart hstart
  change leaf? (settled (c :: (used ++ rest))) = _
  rw [leaf?, hnone, mark?_settled, hmark, word?_settled, h]
  refine if_neg (Bool.eq_false_iff.mp ?_)
  exact (startsWith_settled (by decide) _).trans hquotation

theorem reads_of_leaf? (h : leaf? s = some (token, rest)) : ∃ used, s = used ++ rest ∧ Reads leaf? token used rest := by
  rw [leaf?] at h
  split at h
  · rename_i value more hliteral
    obtain ⟨rfl, rfl⟩ := Prod.mk.inj (Option.some.inj h)
    exact reads_of_literal? hliteral
  · split at h
    · rename_i found hmark
      exact reads_of_mark? (hmark.trans h)
    · rename_i hmark
      obtain ⟨hquotation, h⟩ := Option.ite_none_left_eq_some.mp h
      obtain ⟨⟨name, after⟩, hword, heq⟩ := Option.map_eq_some_iff.mp h
      obtain ⟨rfl, rfl⟩ := Prod.mk.inj heq
      exact reads_of_word? hmark (Bool.eq_false_iff.mpr hquotation) hword

end Leaf

theorem passes_of_delimiter? {c : Char} {token : Token} (h : delimiter? c = some token) : Passes token [c] := by
  fun_cases delimiter? c with
  | case1 => exact Option.some.inj h ▸ .opening _ (by decide) (by decide)
  | case2 => exact Option.some.inj h ▸ .opening _ (by decide) (by decide)
  | case3 => exact Option.some.inj h ▸ .opening _ (by decide) (by decide)
  | case4 => exact Option.some.inj h ▸ .closing _ (by decide) (by decide) (by decide)
  | case5 => exact Option.some.inj h ▸ .closing _ (by decide) (by decide) (by decide)
  | case6 => exact Option.some.inj h ▸ .closing _ (by decide) (by decide) (by decide)
  | case7 c h1 h2 h3 h4 h5 h6 =>
    rw [delimiter?.eq_7 c h1 h2 h3 h4 h5 h6] at h
    cases h

theorem nested_unshownLiteral : Nested unshownLiteral :=
  .group (by decide) (.plains .nil (forall_mem_of_all (by decide)) : Nested ("/*ERROR*/".toList ++ [])) .nil

/-- A token is a literal that could not be shown, a bracket, or another token. -/
theorem token?_eq (s : List Char) : token? s =
    if unshownLiteral.isPrefixOf s then some (.literal .other, s.drop unshownLiteral.length)
    else match s.head?.bind delimiter? with
      | some token => some (token, s.drop 1)
      | none => leaf? s := by
  cases s with
  | nil => rfl
  | cons c s => rfl

theorem bind_head?_settled {α : Type} {f : Char → Option α} (hfeed : f '\n' = none) (hreturn : f '\r' = none)
    (s : List Char) : (settled s).head?.bind f = s.head?.bind f := by
  induction s using settled_induction with
  | stop s hs hsettled =>
    have hnone {t : List Char} (h : AtBreak t) : t.head?.bind f = none := by
      cases h with
      | nil => rfl
      | feed => exact hfeed
      | carriage => exact hreturn
    rw [hnone hs, hnone hsettled]
  | char c s hfeed' hreturn' ih => rfl

theorem reads_of_token? {s rest : List Char} {token : Token} (h : token? s = some (token, rest)) :
    ∃ used, s = used ++ rest ∧ Reads token? token used rest := by
  have hprefix (s : List Char) : unshownLiteral.isPrefixOf (settled s) = unshownLiteral.isPrefixOf s := by
    rw [Bool.eq_iff_iff, List.isPrefixOf_iff_prefix, List.isPrefixOf_iff_prefix]
    exact prefix_settled_iff (by decide) (by decide) s
  have hsettled (s : List Char) : token? (settled s) =
      if unshownLiteral.isPrefixOf s then some (.literal .other, (settled s).drop unshownLiteral.length)
      else match s.head?.bind delimiter? with
        | some token => some (token, (settled s).drop 1)
        | none => leaf? (settled s) := by
    rw [token?_eq, hprefix, bind_head?_settled rfl rfl]
  rw [token?_eq] at h
  split at h
  · rename_i hunshown
    obtain ⟨rfl, rfl⟩ := Prod.mk.inj (Option.some.inj h)
    obtain ⟨t, rfl⟩ := List.isPrefixOf_iff_prefix.mp hunshown
    rw [List.drop_left]
    refine ⟨unshownLiteral, rfl, by decide, fun _ => .literal _ nested_unshownLiteral, fun _ => ?_⟩
    rw [hsettled, if_pos hunshown, settled_append (by decide), List.drop_left]
  · rename_i hunshown
    split at h
    · rename_i found hdelimiter
      obtain ⟨rfl, rfl⟩ := Prod.mk.inj (Option.some.inj h)
      obtain ⟨c, hc, hfound⟩ := Option.bind_eq_some_iff.mp hdelimiter
      obtain ⟨s, rfl⟩ := List.head?_eq_some_iff.mp hc
      refine ⟨[c], rfl, List.cons_ne_nil c [], fun _ => passes_of_delimiter? hfound, fun _ => ?_⟩
      have hc : c ≠ '\r' := by
        rintro rfl
        cases hfound
      change token? (settled (c :: s)) = _
      rw [hsettled, if_neg hunshown, hdelimiter, settled_cons hc]
      rfl
    · rename_i hdelimiter
      obtain ⟨used, rfl, hreads⟩ := reads_of_leaf? h
      refine ⟨used, rfl, hreads.ne_nil, hreads.passes, fun hodd => ?_⟩
      rw [hsettled, if_neg hunshown, hdelimiter]
      exact hreads.settle hodd

end ApiHandbook.Code.Lexical
