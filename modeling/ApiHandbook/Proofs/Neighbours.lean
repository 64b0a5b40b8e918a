import ApiHandbook.Proofs.Stretches

/-! Declarations in a stretch of code with other code around it. Where no declaration reaches from one into the other, the records
of the whole are those of the code in front, of the stretch, and of the code behind. -/
namespace ApiHandbook
open Text

/-! The pieces of a text with other text around it -/

namespace Text

theorem splitAtText_skip {k : Char} {key s : List Char} (hs : k ∉ s) (t : List Char) :
    splitAtText (k :: key) (s ++ t) = (splitAtText (k :: key) t).modifyHead (s ++ ·) := by
  induction s with
  | nil =>
    obtain ⟨piece, pieces, hpieces⟩ := List.exists_cons_of_ne_nil (splitAtText_ne_nil (k :: key) t)
    rw [List.nil_append, hpieces]
    rfl
  | cons c s ih =>
    obtain ⟨hc, hs⟩ := List.ne_and_not_mem_of_not_mem_cons hs
    have hstart : ¬ k :: key <+: c :: (s ++ t) := fun hp => hc (List.cons_prefix_cons.mp hp).1
    rw [List.cons_append, splitAtText_cons hstart, ih hs, List.modifyHead_modifyHead]
    rfl

section Split
variable {k : Char} {key : List Char} (hkey : k ∉ key)
include hkey

/-- An occurrence at the front of a text makes one piece more. -/
theorem length_splitAtText_of_occurrence {c : Char} {s : List Char} (h : k :: key <+: c :: s) :
    (splitAtText (k :: key) (c :: s)).length = (splitAtText (k :: key) s).length + 1 := by
  obtain ⟨rest, hrest⟩ := h
  obtain ⟨-, hs⟩ := List.cons.inj hrest
  rw [← hrest, splitAtText_append (List.cons_ne_nil k key), ← hs]
  change _ = (splitAtText (k :: key) (key ++ rest)).length + 1
  rw [splitAtText_skip hkey, List.length_modifyHead, List.length_cons]

/-- Two texts in a row have no fewer pieces than they have apart. -/
theorem length_splitAtText_append_ge (s t : List Char) :
    (splitAtText (k :: key) s).length + (splitAtText (k :: key) t).length ≤ (splitAtText (k :: key) (s ++ t)).length + 1 := by
  have hne : k :: key ≠ [] := List.cons_ne_nil k key
  induction s using split_induction hne with
  | nil => exact (Nat.add_comm 1 _).le
  | occurrence s ih =>
    rw [List.append_assoc, splitAtText_append hne, splitAtText_append hne, List.length_cons, List.length_cons]
    omega
  | char c s hstart ih =>
    rw [splitAtText_cons hstart, List.length_modifyHead, List.cons_append]
    by_cases hstart' : k :: key <+: c :: (s ++ t)
    · rw [length_splitAtText_of_occurrence hkey hstart']
      omega
    · rwa [splitAtText_cons hstart', List.length_modifyHead]

/-- Where two texts in a row have no more pieces than they have apart, the last piece of the first goes on with the first piece of
the second. -/
theorem splitAtText_append_of_length {s t : List Char} (h : (splitAtText (k :: key) (s ++ t)).length + 1 =
      (splitAtText (k :: key) s).length + (splitAtText (k :: key) t).length) :
    ∃ front last head tail, splitAtText (k :: key) s = front ++ [last] ∧ splitAtText (k :: key) t = head :: tail ∧
      splitAtText (k :: key) (s ++ t) = front ++ (last ++ head) :: tail := by
  have hne : k :: key ≠ [] := List.cons_ne_nil k key
  induction s using split_induction hne with
  | nil =>
    obtain ⟨head, tail, ht⟩ := List.exists_cons_of_ne_nil (splitAtText_ne_nil (k :: key) t)
    exact ⟨[], [], head, tail, rfl, ht, ht⟩
  | occurrence s ih =>
    rw [List.append_assoc, splitAtText_append hne, splitAtText_append hne, List.length_cons, List.length_cons] at h
    obtain ⟨front, last, head, tail, hs, ht, hwhole⟩ := ih (by omega)
    refine ⟨[] :: front, last, head, tail, ?_, ht, ?_⟩
    · rw [splitAtText_append hne, hs]
      rfl
    · rw [List.append_assoc, splitAtText_append hne, hwhole]
      rfl
  | char c s hstart ih =>
    rw [splitAtText_cons hstart, List.length_modifyHead, List.cons_append] at h
    have hstart' : ¬ k :: key <+: c :: (s ++ t) := fun hstarts => by
      -- An occurrence across the seam would make one piece more.
      have hmore := length_splitAtText_append_ge hkey s t
      rw [length_splitAtText_of_occurrence hkey hstarts] at h
      omega
    rw [splitAtText_cons hstart', List.length_modifyHead] at h
    obtain ⟨front, last, head, tail, hs, ht, hwhole⟩ := ih h
    rw [splitAtText_cons hstart, List.cons_append, splitAtText_cons hstart', hs, hwhole]
    cases front with
    | nil => exact ⟨[], c :: last, head, tail, rfl, ht, rfl⟩
    | cons piece front => exact ⟨(c :: piece) :: front, last, head, tail, rfl, ht, rfl⟩

end Split
end Text

namespace Argument

/-! Code around code -/

/-- The text of a closed declaration is found, whatever follows it. -/
theorem argumentsFrom_append {s text : List Char} {q : Quoting} {depth : Nat} (h : argumentsFrom q depth s = some text)
    (behind : List Char) : argumentsFrom q depth (s ++ behind) = some text := by
  induction s generalizing q depth text with
  | nil => cases h
  | cons c s ih =>
    have hkept {depth : Nat} (h : (argumentsFrom (q.step c) depth s).map (c :: ·) = some text) :
        (argumentsFrom (q.step c) depth (s ++ behind)).map (c :: ·) = some text := by
      obtain ⟨text, htext, rfl⟩ := Option.map_eq_some_iff.mp h
      rw [ih htext, Option.map_some]
    rw [argumentsFrom.eq_def] at h ⊢
    dsimp only [List.cons_append] at h ⊢
    split
    · rename_i hopening
      rw [if_pos hopening] at h
      exact hkept h
    · rename_i hopening
      rw [if_neg hopening] at h
      split
      · rename_i hclosing
        rw [if_pos hclosing] at h
        cases depth with
        | zero => exact h
        | succ depth => exact hkept h
      · rename_i hclosing
        rw [if_neg hclosing] at h
        exact hkept h

theorem recordAt_append {site : List Char} (h : (argumentsText? site).isSome) (behind : List Char) :
    recordAt (site ++ behind) = recordAt site := by
  obtain ⟨text, htext⟩ := Option.isSome_iff_exists.mp h
  rw [recordAt, recordAt, htext, argumentsText?, argumentsFrom_append htext]

theorem opening_eq : opening = '.' :: "add_argument(".toList := by decide

theorem notMem_declared : '.' ∉ "add_argument(".toList := by decide

/-- The texts that a code goes on with behind its openings. -/
def sitesIn (code : List Char) : List (List Char) := (splitAtText opening code).tail

theorem recordsIn_eq (code : List Char) : recordsIn code = (sitesIn code).filterMap recordAt := by
  rw [recordsIn, sitesIn, List.drop_one]

theorem length_splitAtText_opening (code : List Char) : (splitAtText opening code).length = (sitesIn code).length + 1 := by
  obtain ⟨head, tail, hcode⟩ := List.exists_cons_of_ne_nil (splitAtText_ne_nil opening code)
  rw [sitesIn, hcode]
  rfl

theorem length_sitesIn_append_ge (s t : List Char) : (sitesIn s).length + (sitesIn t).length ≤ (sitesIn (s ++ t)).length := by
  have hmore := length_splitAtText_append_ge notMem_declared s t
  rw [← opening_eq, length_splitAtText_opening, length_splitAtText_opening, length_splitAtText_opening] at hmore
  omega

/-- Whether the last declaration that opens in a code is closed in it. -/
def LastClosed (code : List Char) : Prop := ∀ site ∈ (sitesIn code).getLast?, (argumentsText? site).isSome

instance : DecidablePred LastClosed := fun code =>
  inferInstanceAs (Decidable (∀ site ∈ (sitesIn code).getLast?, (argumentsText? site).isSome))

theorem recordsIn_append {s t : List Char} (h : (sitesIn (s ++ t)).length = (sitesIn s).length + (sitesIn t).length)
    (hclosed : LastClosed s) : recordsIn (s ++ t) = recordsIn s ++ recordsIn t := by
  have hlength : (splitAtText opening (s ++ t)).length + 1 = (splitAtText opening s).length + (splitAtText opening t).length := by
    rw [length_splitAtText_opening, length_splitAtText_opening, length_splitAtText_opening, h]
    omega
  rw [opening_eq] at hlength
  obtain ⟨front, last, head, tail, hs, ht, hwhole⟩ := splitAtText_append_of_length notMem_declared hlength
  rw [← opening_eq] at hs ht hwhole
  rw [LastClosed, sitesIn, hs] at hclosed
  rw [recordsIn_eq, recordsIn_eq, recordsIn_eq, sitesIn, sitesIn, sitesIn, hs, ht, hwhole]
  cases front with
  | nil => rfl
  | cons piece front =>
    have hlast := hclosed last (by simp)
    simp only [List.cons_append, List.tail_cons, List.filterMap_append, List.filterMap_cons, List.filterMap_nil,
      recordAt_append hlast, List.append_assoc]
    cases recordAt last <;> rfl

/-- A code with other code around it: no declaration opens across the two seams, and none of those that open in front of them is
closed behind them. -/
structure Surrounded (whole ahead code behind : List Char) : Prop where
  eq_append : whole = ahead ++ code ++ behind
  length_sitesIn : (sitesIn whole).length = (sitesIn ahead).length + (sitesIn code).length + (sitesIn behind).length
  lastClosed_ahead : LastClosed ahead
  lastClosed : LastClosed code

theorem Surrounded.recordsIn_eq {whole ahead code behind : List Char} (h : Surrounded whole ahead code behind) :
    recordsIn whole = recordsIn ahead ++ recordsIn code ++ recordsIn behind := by
  have hlength := h.length_sitesIn
  rw [h.eq_append] at hlength ⊢
  rw [List.append_assoc] at hlength ⊢
  have hahead := length_sitesIn_append_ge ahead (code ++ behind)
  have hcode := length_sitesIn_append_ge code behind
  rw [recordsIn_append (by omega) h.lastClosed_ahead, recordsIn_append (by omega) h.lastClosed, List.append_assoc]

end Argument
end ApiHandbook
