import ApiHandbook.Proofs.Spacing

/-! The tokens of a text, one step after another: separators in front of a token give no tokens, and each token is followed by
those of the rest of the text. -/
namespace ApiHandbook.Code.Lexical
open Text

theorem skipSeparators_self {s : List Char} (hhead : s.head?.any isSeparator = false) (hcomment : comment? s = none)
    (fuel line : Nat) : skipSeparators fuel line s = (line, s) := by
  cases fuel with
  | zero => rfl
  | succ fuel =>
    cases s with
    | nil => rfl
    | cons c s =>
      rw [skipSeparators, hcomment]
      exact if_neg (Bool.eq_false_iff.mp hhead)

/-- What is passed over does not depend on how much fuel is left. -/
theorem skipSeparators_congr {fuel fuel' line : Nat} {s : List Char} (h : s.length ≤ fuel) (h' : s.length ≤ fuel') :
    skipSeparators fuel line s = skipSeparators fuel' line s := by
  induction fuel generalizing fuel' line s with
  | zero =>
    rw [List.length_eq_zero_iff.mp (Nat.le_zero.mp h)]
    cases fuel' <;> rfl
  | succ fuel ih =>
    cases s with
    | nil => cases fuel' <;> rfl
    | cons c s =>
      obtain ⟨fuel', rfl⟩ := Nat.exists_eq_add_one.mpr (Nat.lt_of_lt_of_le (Nat.succ_pos s.length) h')
      rw [skipSeparators, skipSeparators]
      split
      · rename_i content after hcomment
        have hlt := length_lt_of_comment? hcomment
        exact ih (by omega) (by omega)
      · split
        · exact ih (Nat.le_of_succ_le_succ h) (Nat.le_of_succ_le_succ h')
        · rfl

/-- A text has the given tokens when its first character stands on the given line. -/
def Lexes (line : Nat) (s : List Char) (tokens : List Located) : Prop :=
  ∀ fuel, s.length < fuel → tokensFrom fuel line s = some tokens

namespace Lexes
variable {line : Nat} {s rest : List Char} {tokens : List Located}

theorem nil (line : Nat) : Lexes line [] [] := by
  intro fuel hfuel
  obtain ⟨fuel, rfl⟩ := Nat.exists_eq_add_one.mpr hfuel
  rw [tokensFrom, skipSeparators_self rfl rfl]

/-- What is passed over gives no tokens. -/
theorem skip {line' : Nat} (hlength : rest.length < s.length)
    (hskip : ∀ fuel, skipSeparators (fuel + 1) line s = skipSeparators fuel line' rest) (h : Lexes line' rest tokens) :
    Lexes line s tokens := by
  intro fuel hfuel
  obtain ⟨fuel, rfl⟩ := Nat.exists_eq_add_of_le (show 2 ≤ fuel by omega)
  have hcongr : skipSeparators fuel line' rest = skipSeparators (fuel + 1) line' rest :=
    skipSeparators_congr (by omega) (by omega)
  have hrest : tokensFrom (fuel + 2) line' rest = some tokens := h _ (by omega)
  rw [tokensFrom] at hrest
  rw [Nat.add_comm, tokensFrom, hskip, hcongr, hrest]

theorem blank {c : Char} (hc : isSeparator c = true) (h : Lexes (if c = '\n' then line + 1 else line) s tokens) :
    Lexes line (c :: s) tokens := by
  have hne : c ≠ '/' := by
    rintro rfl
    exact absurd hc (by decide)
  refine skip (Nat.lt_succ_self s.length) (fun fuel => ?_) h
  rw [skipSeparators, comment?_eq_none hne]
  exact if_pos hc

theorem comment {content : List Char} (hcomment : comment? s = some (content, rest))
    (h : Lexes (line + lineBreaks content) rest tokens) : Lexes line s tokens := by
  refine skip (length_lt_of_comment? hcomment) (fun fuel => ?_) h
  cases s with
  | nil => cases hcomment
  | cons c s => rw [skipSeparators, hcomment]

theorem documentation {inner : Bool} {content : List Char} (hdoc : docComment? s = some (inner, content, rest))
    (h : Lexes (line + lineBreaks content) rest tokens) :
    Lexes line s ((docTokens inner content).map (⟨·, line, line + lineBreaks content⟩) ++ tokens) := by
  obtain ⟨hhead, hcomment⟩ := starts_of_docComment? hdoc
  have hlt := length_lt_of_docComment? hdoc
  intro fuel hfuel
  obtain ⟨fuel, rfl⟩ := Nat.exists_eq_add_one.mpr (Nat.zero_lt_of_lt hfuel)
  cases s with
  | nil => cases hlt
  | cons c s =>
    rw [tokensFrom, skipSeparators_self hhead hcomment]
    dsimp only
    rw [hdoc]
    dsimp only
    rw [h fuel (by omega), Option.map_some]

theorem token {used : List Char} {token : Token} (htoken : token? (used ++ rest) = some (token, rest)) (hused : used ≠ [])
    (h : Lexes (if token.spansLines then line + lineBreaks used else line) rest tokens) :
    Lexes line (used ++ rest)
      (⟨token, line, if token.spansLines then line + lineBreaks used else line⟩ :: tokens) := by
  obtain ⟨hhead, hcomment, hdoc⟩ := starts_of_token? htoken
  have htake : (used ++ rest).take ((used ++ rest).length - rest.length) = used := by
    rw [List.length_append, Nat.add_sub_cancel, List.take_left]
  have hlt : rest.length < (used ++ rest).length := by
    have := List.length_pos_iff.mpr hused
    rw [List.length_append]
    omega
  intro fuel hfuel
  obtain ⟨fuel, rfl⟩ := Nat.exists_eq_add_one.mpr (Nat.zero_lt_of_lt hfuel)
  rw [tokensFrom, skipSeparators_self hhead hcomment]
  split
  · rename_i heq
    rw [(Prod.mk.inj heq).2] at hlt
    cases hlt
  · rename_i heq
    obtain ⟨rfl, rfl⟩ := Prod.mk.inj heq
    rw [hdoc, htoken]
    dsimp only [Option.bind_eq_bind, Option.bind_some]
    rw [htake, h fuel (by omega), Option.map_some]

end Lexes

/-! Line breaks -/

theorem lineBreaks_append (s t : List Char) : lineBreaks (s ++ t) = lineBreaks s + lineBreaks t := List.count_append

/-- Line breaks are not lost when carriage returns are. -/
theorem lineBreaks_settled (s : List Char) : lineBreaks (settled s) = lineBreaks s + 1 := by
  have hreturns (s : List Char) : lineBreaks (withoutReturns s) = lineBreaks s := by
    induction s with
    | nil => rfl
    | cons c s ih =>
      simp only [lineBreaks] at ih ⊢
      rw [withoutReturns]
      split
      · rename_i hends
        rw [ih, hends.1]
        rfl
      · rw [List.count_cons, List.count_cons, ih]
  rw [settled, hreturns]
  exact lineBreaks_append s ['\n']

end ApiHandbook.Code.Lexical
