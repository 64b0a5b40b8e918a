import ApiHandbook.Proofs.LineEndings
import ApiHandbook.Text.Identifier

/-! A text with its line endings settled: what is read up to a line ending does not depend on its kind, and stops at the end
of a text as in front of a line feed. -/
namespace ApiHandbook.Text

/-- A text with a line feed behind it, and without the carriage returns that stand in front of line feeds. -/
def settled (s : List Char) : List Char := withoutReturns (s ++ ['\n'])

theorem settled_cons {c : Char} (h : c ≠ '\r') (s : List Char) : settled (c :: s) = c :: settled s :=
  withoutReturns_cons fun heq => absurd heq h

theorem settled_cons_cons {c d : Char} (h : d ≠ '\n') (s : List Char) : settled (c :: d :: s) = c :: settled (d :: s) :=
  withoutReturns_cons fun _ => by simp [h]

theorem settled_ending (s : List Char) : settled ('\r' :: '\n' :: s) = '\n' :: settled s := by
  rw [settled, List.cons_append, withoutReturns, if_pos ⟨rfl, rfl⟩]
  exact settled_cons (by decide) s

theorem settled_append {text : List Char} (h : '\r' ∉ text) (s : List Char) : settled (text ++ s) = text ++ settled s := by
  induction text with
  | nil => rfl
  | cons c text ih =>
    obtain ⟨hc, htext⟩ := List.ne_and_not_mem_of_not_mem_cons h
    rw [List.cons_append, settled_cons hc.symm, ih htext, List.cons_append]

/-- A text that starts with the end of a line, or with the first character of it, or is at its end. -/
inductive AtBreak : List Char → Prop where
  | nil : AtBreak []
  | feed (s : List Char) : AtBreak ('\n' :: s)
  | carriage (s : List Char) : AtBreak ('\r' :: s)

theorem AtBreak.settled {s : List Char} (h : AtBreak s) : AtBreak (settled s) := by
  cases h with
  | nil => exact .feed []
  | feed s =>
    rw [settled_cons (by decide)]
    exact .feed _
  | carriage s =>
    rw [Text.settled, List.cons_append, withoutReturns]
    split
    · rename_i hends
      obtain ⟨rest, hrest⟩ := List.head?_eq_some_iff.mp hends.2
      rw [hrest, withoutReturns_cons fun heq => absurd heq (by decide)]
      exact .feed _
    · exact .carriage _

/-- A text is at a break before and after its line endings are settled, or it starts with the same character. -/
@[elab_as_elim]
theorem settled_induction {motive : List Char → List Char → Prop}
    (stop : ∀ s, AtBreak s → AtBreak (settled s) → motive s (settled s))
    (char : ∀ c s, c ≠ '\n' → c ≠ '\r' → motive s (settled s) → motive (c :: s) (c :: settled s)) (s : List Char) :
    motive s (settled s) := by
  induction s with
  | nil => exact stop [] .nil (.feed [])
  | cons c s ih =>
    by_cases hfeed : c = '\n'
    · exact stop (c :: s) (hfeed ▸ .feed s) (AtBreak.settled (hfeed ▸ .feed s))
    by_cases hreturn : c = '\r'
    · exact stop (c :: s) (hreturn ▸ .carriage s) (AtBreak.settled (hreturn ▸ .carriage s))
    exact settled_cons hreturn s ▸ char c s hfeed hreturn ih

theorem settled_eq_cons_iff {c : Char} (hfeed : c ≠ '\n') (hreturn : c ≠ '\r') {s t : List Char} :
    settled s = c :: t ↔ ∃ rest, s = c :: rest ∧ t = settled rest := by
  constructor
  · intro h
    induction s using settled_induction with
    | stop s hs hsettled =>
      rw [h] at hsettled
      cases hsettled with
      | feed t => exact absurd rfl hfeed
      | carriage t => exact absurd rfl hreturn
    | char d s hfeed' hreturn' ih =>
      obtain ⟨rfl, rfl⟩ := List.cons.inj h
      exact ⟨s, rfl, rfl⟩
  · rintro ⟨rest, rfl, rfl⟩
    exact settled_cons hreturn rest

section Scanning
variable {p : Char → Bool} (hfeed : p '\n' = false) (hreturn : p '\r' = false)
include hfeed hreturn

theorem any_head?_of_atBreak {s : List Char} (h : AtBreak s) : s.head?.any p = false := by
  cases h with
  | nil => rfl
  | feed s => exact hfeed
  | carriage s => exact hreturn

theorem any_head?_settled (s : List Char) : (settled s).head?.any p = s.head?.any p := by
  induction s using settled_induction with
  | stop s hs hsettled => rw [any_head?_of_atBreak hfeed hreturn hs, any_head?_of_atBreak hfeed hreturn hsettled]
  | char c s hfeed' hreturn' ih => rfl

theorem takeWhile_of_atBreak {s : List Char} (h : AtBreak s) : s.takeWhile p = [] := by
  cases h with
  | nil => rfl
  | feed s => exact List.takeWhile_cons_of_neg (by simp [hfeed])
  | carriage s => exact List.takeWhile_cons_of_neg (by simp [hreturn])

theorem dropWhile_of_atBreak {s : List Char} (h : AtBreak s) : s.dropWhile p = s := by
  cases h with
  | nil => rfl
  | feed s => exact List.dropWhile_cons_of_neg (by simp [hfeed])
  | carriage s => exact List.dropWhile_cons_of_neg (by simp [hreturn])

theorem takeWhile_settled (s : List Char) : (settled s).takeWhile p = s.takeWhile p := by
  induction s using settled_induction with
  | stop s hs hsettled => rw [takeWhile_of_atBreak hfeed hreturn hs, takeWhile_of_atBreak hfeed hreturn hsettled]
  | char c s hfeed' hreturn' ih => rw [List.takeWhile_cons, List.takeWhile_cons, ih]

theorem dropWhile_settled (s : List Char) : (settled s).dropWhile p = settled (s.dropWhile p) := by
  induction s using settled_induction with
  | stop s hs hsettled => rw [dropWhile_of_atBreak hfeed hreturn hs, dropWhile_of_atBreak hfeed hreturn hsettled]
  | char c s hfeed' hreturn' ih =>
    rw [List.dropWhile_cons, List.dropWhile_cons, ih]
    split
    · rfl
    · exact (settled_cons hreturn' s).symm

end Scanning

theorem head?_settled {c : Char} (hfeed : c ≠ '\n') (hreturn : c ≠ '\r') (s : List Char) :
    (settled s).head? = some c ↔ s.head? = some c := by
  have hany := @any_head?_settled (· == c) (by simpa using hfeed.symm) (by simpa using hreturn.symm) s
  have hhead (t : List Char) : t.head?.any (· == c) = true ↔ t.head? = some c := by cases t.head? <;> simp
  rw [← hhead, ← hhead, hany]

theorem prefix_settled_iff {key : List Char} (hfeed : '\n' ∉ key) (hreturn : '\r' ∉ key) (s : List Char) :
    key <+: settled s ↔ key <+: s := by
  rw [settled]
  constructor
  · intro h
    exact (prefix_append_cons_iff hfeed s []).mp (prefix_of_prefix_withoutReturns hreturn hfeed h)
  · rintro ⟨rest, rfl⟩
    rw [← settled, settled_append hreturn]
    exact List.prefix_append key _

theorem identifier?_settled (s : List Char) :
    identifier? (settled s) = (identifier? s).map fun (name, rest) => (name, settled rest) := by
  induction s using settled_induction with
  | stop s hs hsettled =>
    have hnone {t : List Char} (h : AtBreak t) : identifier? t = none := by
      cases h <;> rfl
    rw [hnone hs, hnone hsettled]
    rfl
  | char c s hfeed hreturn ih =>
    rw [identifier?, identifier?, takeWhile_settled (by decide) (by decide), dropWhile_settled (by decide) (by decide)]
    split <;> rfl

theorem afterIdentifier_settled (s : List Char) : afterIdentifier (settled s) = settled (afterIdentifier s) := by
  rw [afterIdentifier, afterIdentifier, identifier?_settled]
  cases identifier? s <;> rfl

end ApiHandbook.Text
