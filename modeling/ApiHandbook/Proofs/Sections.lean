import ApiHandbook.Proofs.Docstrings

/-! The sections of a docstring and what is shown of them. Tabs are expanded before the docstring is split, which finds the
same sections as splitting it first. -/
namespace ApiHandbook.Docstring
open Text

section Tabs
variable {key : List Char}

theorem expandTabs_cons {c : Char} (h : c ≠ '\t') (s : List Char) : expandTabs (c :: s) = c :: expandTabs s := by
  have hc : (c == '\t') = false := beq_eq_false_iff_ne.mpr h
  rw [expandTabs, List.flatMap_cons, hc, ← expandTabs]
  rfl

theorem expandTabs_tab (s : List Char) : expandTabs ('\t' :: s) = indented 4 (expandTabs s) := rfl

theorem mem_expandTabs {c : Char} {s : List Char} (h : c ∈ expandTabs s) : c = ' ' ∨ c ∈ s ∧ c ≠ '\t' := by
  obtain ⟨d, hd, hmem⟩ := List.mem_flatMap.mp h
  split at hmem
  · simp only [List.mem_cons, List.not_mem_nil, or_false, or_self] at hmem
    exact .inl hmem
  · rename_i htab
    obtain rfl := List.mem_singleton.mp hmem
    exact .inr ⟨hd, fun heq => htab (beq_iff_eq.mpr heq)⟩

theorem isBlankText_expandTabs (s : List Char) : isBlankText (expandTabs s) = isBlankText s := by
  induction s with
  | nil => rfl
  | cons c s ih =>
    by_cases h : c = '\t'
    · subst h
      rw [expandTabs_tab, isBlankText_indented, ih]
      rfl
    · rw [expandTabs_cons h, isBlankText, List.all_cons, ← isBlankText, ih]
      rfl

theorem prefix_of_prefix_expandTabs (hspace : ' ' ∉ key) {s : List Char} (h : key <+: expandTabs s) : key <+: s := by
  induction key generalizing s with
  | nil => exact List.nil_prefix
  | cons d key ih =>
    obtain ⟨hd, hspace⟩ := List.ne_and_not_mem_of_not_mem_cons hspace
    cases s with
    | nil => exact absurd (List.prefix_nil.mp h) (List.cons_ne_nil d key)
    | cons c s =>
      by_cases hc : c = '\t'
      · subst hc
        exact absurd (List.cons_prefix_cons.mp h).1 hd.symm
      · rw [expandTabs_cons hc, List.cons_prefix_cons] at h
        exact List.cons_prefix_cons.mpr ⟨h.1, ih hspace h.2⟩

theorem splitAtText_indented (hkey : key ≠ []) (hspace : ' ' ∉ key) (n : Nat) (s : List Char) :
    splitAtText key (indented n s) = (splitAtText key s).modifyHead (indented n) := by
  obtain ⟨d, key, rfl⟩ := List.exists_cons_of_ne_nil hkey
  obtain ⟨piece, pieces, hpieces⟩ := List.exists_cons_of_ne_nil (splitAtText_ne_nil (d :: key) s)
  induction n with
  | zero => rw [hpieces]; exact hpieces
  | succ n ih =>
    have hstart : ¬ d :: key <+: ' ' :: indented n s := fun h =>
      (List.ne_and_not_mem_of_not_mem_cons hspace).1 (List.cons_prefix_cons.mp h).1.symm
    have hindented (t : List Char) : indented (n + 1) t = ' ' :: indented n t := rfl
    rw [hindented, splitAtText_cons hstart, ih, hpieces]
    rfl

/-- A text is split at what holds neither a tab nor a space before or after its tabs are expanded. -/
theorem splitAtText_expandTabs (hkey : key ≠ []) (htab : '\t' ∉ key) (hspace : ' ' ∉ key) (s : List Char) :
    splitAtText key (expandTabs s) = (splitAtText key s).map expandTabs := by
  induction s using split_induction hkey with
  | nil => rfl
  | occurrence s ih =>
    rw [expandTabs_append, expandTabs_eq_self htab, splitAtText_append hkey, splitAtText_append hkey, ih]
    rfl
  | char c s hstart ih =>
    obtain ⟨piece, pieces, hpieces⟩ := List.exists_cons_of_ne_nil (splitAtText_ne_nil key s)
    rw [hpieces] at ih
    rw [splitAtText_cons hstart, hpieces]
    by_cases hc : c = '\t'
    · subst hc
      rw [expandTabs_tab, splitAtText_indented hkey hspace, ih]
      rfl
    · have hstart' : ¬ key <+: c :: expandTabs s := fun h =>
        hstart (prefix_of_prefix_expandTabs hspace (expandTabs_cons hc s ▸ h))
      rw [expandTabs_cons hc, splitAtText_cons hstart', ih, List.map_cons, List.modifyHead_cons, List.modifyHead_cons,
        List.map_cons, expandTabs_cons hc]

theorem mem_of_mem_headD (hkey : key ≠ []) {s : List Char} {c : Char} (h : c ∈ (splitAtText key s).headD []) : c ∈ s := by
  obtain ⟨piece, pieces, hpieces⟩ := List.exists_cons_of_ne_nil (splitAtText_ne_nil key s)
  have hjoin := intercalate_splitAtText hkey s
  rw [hpieces] at h hjoin
  rw [← hjoin]
  cases pieces with
  | nil => rwa [List.intercalate_singleton]
  | cons next pieces =>
    rw [List.intercalate_cons_cons]
    exact List.mem_append_left _ (List.mem_append_left _ h)

end Tabs

/-- The text before the first delimiter, with its tabs expanded. -/
def proseOf (raw : String) : List Char := expandTabs ((splitAtText delimiter raw.toList).headD [])

theorem sections_eq (raw : String) : splitAtText delimiter (expandTabs raw.toList) =
    proseOf raw :: ((splitAtText delimiter raw.toList).tail.map expandTabs) := by
  obtain ⟨piece, pieces, hpieces⟩ := List.exists_cons_of_ne_nil (splitAtText_ne_nil delimiter raw.toList)
  rw [splitAtText_expandTabs (by decide) (by decide) (by decide), proseOf, hpieces]
  rfl

/-- Without markdown in place of the body, delimiters do not count for the summary, the body and the prose. -/
theorem split_prose (fallback raw : String) :
    (split fallback false raw).summary = String.ofList (summaryOf (proseOf raw)) ∧
    (split fallback false raw).body = orText fallback (withoutSummary (proseOf raw) (summaryOf (proseOf raw))) ∧
    (split fallback false raw).prose = orText fallback (trim (dedent (proseOf raw))) := by
  have hsections := sections_eq raw
  cases hmore : (splitAtText delimiter raw.toList).tail.map expandTabs with
  | nil =>
    rw [hmore] at hsections
    simp only [split_of_undelimited hsections, Bool.false_and, Bool.false_eq_true, if_false, and_self]
  | cons block more =>
    rw [hmore] at hsections
    simp only [split_of_block hsections, and_self]

end ApiHandbook.Docstring
