import ApiHandbook.Proofs.Indentation
import Mathlib.Data.List.DropRight

/-! Dedented texts. Where spaces are the only blanks, dedenting takes the common indentation off each line, and an
indentation that was taken off all lines beforehand, blank lines around them and blanks at their end make no difference to
the trimmed text. -/
namespace ApiHandbook.Docstring
open Text

/-! Lines whose only blanks are spaces -/

/-- Whether spaces are the only blanks of a line. -/
def Spaced (line : List Char) : Prop := ∀ c ∈ line, isBlank c = true → c = ' '

theorem Spaced.mono {line part : List Char} (h : Spaced line) (hsub : part ⊆ line) : Spaced part :=
  fun c hc => h c (hsub hc)

theorem Spaced.breaks {line : List Char} (h : Spaced line) : '\n' ∉ line ∧ '\r' ∉ line :=
  ⟨fun hmem => absurd (h _ hmem rfl) (by decide), fun hmem => absurd (h _ hmem rfl) (by decide)⟩

theorem indented_drop {n : Nat} {line : List Char} (h : n ≤ leadingSpaces line) : indented n (line.drop n) = line := by
  induction n generalizing line with
  | zero => rfl
  | succ n ih =>
    cases line with
    | nil => exact absurd h (Nat.not_succ_le_zero n)
    | cons c line =>
      rw [leadingSpaces, List.takeWhile_cons] at h
      split at h
      · rename_i hc
        obtain rfl := eq_of_beq hc
        rw [List.drop_succ_cons]
        exact congrArg (' ' :: ·) (ih (Nat.le_of_succ_le_succ h))
      · exact absurd h (Nat.not_succ_le_zero n)

section Drop
variable {n : Nat} {line : List Char}

theorem isBlankText_drop (h : n ≤ leadingSpaces line) : isBlankText (line.drop n) = isBlankText line := by
  have hindented := isBlankText_indented n (line.drop n)
  rw [indented_drop h] at hindented
  exact hindented.symm

theorem leadingSpaces_drop (h : n ≤ leadingSpaces line) : leadingSpaces (line.drop n) = leadingSpaces line - n := by
  have hindented := leadingSpaces_indented n (line.drop n)
  rw [indented_drop h] at hindented
  omega

theorem isBlankText_drop_of_blank (h : isBlankText line = true) : isBlankText (line.drop n) = true :=
  isBlankText_iff.mpr fun c hc => isBlankText_iff.mp h c (List.mem_of_mem_drop hc)

theorem dropBytes?_eq_drop (h : n ≤ leadingSpaces line) : dropBytes? n line = some (line.drop n) := by
  have hindented := dropBytes?_indented n (line.drop n)
  rwa [indented_drop h] at hindented

/-- A line of spaces that is shorter than what is removed leaves nothing. -/
theorem dropBytes?_of_blank (hspaced : Spaced line) (hblank : isBlankText line = true) :
    (dropBytes? n line).getD (trimStart line) = line.drop n := by
  induction line generalizing n with
  | nil => cases n <;> rfl
  | cons c line ih =>
    cases n with
    | zero => rfl
    | succ n =>
      rw [isBlankText, List.all_cons, Bool.and_eq_true] at hblank
      obtain ⟨hc, hblank⟩ := hblank
      obtain rfl := hspaced c List.mem_cons_self hc
      have hdrop : dropBytes? (n + 1) (' ' :: line) = dropBytes? n line := if_pos (Nat.le_add_left 1 n)
      rw [hdrop, List.drop_succ_cons, ← ih (hspaced.mono (List.subset_cons_self _ _)) hblank]
      rfl

end Drop

/-! Lines without their common indentation -/

/-- Lines without the indentation that is common to those that are not blank. -/
def flush (ls : List (List Char)) : List (List Char) := ls.map (List.drop (commonIndent ls))

theorem dedent_eq {s : List Char} (h : ∀ line ∈ lines s, Spaced line) : dedent s = joinLines (flush (lines s)) := by
  apply congrArg joinLines
  apply List.map_congr_left
  intro line hline
  cases hblank : isBlankText line with
  | true => exact dropBytes?_of_blank (h line hline) hblank
  | false => rw [dropBytes?_eq_drop (commonIndent_le hline hblank), Option.getD_some]

theorem commonIndent_of_blank {ls : List (List Char)} (h : ∀ line ∈ ls, isBlankText line = true) : commonIndent ls = 0 := by
  have hnone : (ls.filter fun line => !isBlankText line) = [] :=
    List.filter_eq_nil_iff.mpr fun line hline => by simp [h line hline]
  rw [commonIndent, hnone]
  rfl

theorem commonIndent_append_append {before after : List (List Char)} (hbefore : ∀ line ∈ before, isBlankText line = true)
    (hafter : ∀ line ∈ after, isBlankText line = true) (ls : List (List Char)) :
    commonIndent (before ++ ls ++ after) = commonIndent ls := by
  have hnone {more : List (List Char)} (h : ∀ line ∈ more, isBlankText line = true) :
      (more.filter fun line => !isBlankText line) = [] :=
    List.filter_eq_nil_iff.mpr fun line hline => by simp [h line hline]
  rw [commonIndent, List.filter_append, List.filter_append, hnone hbefore, hnone hafter, List.nil_append, List.append_nil,
    ← commonIndent]

/-- Blank lines around a text do not count. -/
theorem trim_flush_append_append {before after : List (List Char)} (hbefore : ∀ line ∈ before, isBlankText line = true)
    (hafter : ∀ line ∈ after, isBlankText line = true) {ls : List (List Char)} (hls : ls ≠ []) :
    trim (joinLines (flush (before ++ ls ++ after))) = trim (joinLines (flush ls)) := by
  have hblank {more : List (List Char)} (h : ∀ line ∈ more, isBlankText line = true) (n : Nat) :
      ∀ line ∈ more.map (List.drop n), isBlankText line = true := by
    intro line hline
    obtain ⟨own, hown, rfl⟩ := List.mem_map.mp hline
    exact isBlankText_drop_of_blank (h own hown)
  rw [flush, commonIndent_append_append hbefore hafter, List.map_append, List.map_append,
    trim_joinLines (hblank hbefore _) (hblank hafter _) (by simpa using hls), flush]

/-- An indentation that all lines share may be taken off them beforehand. -/
theorem flush_map_drop {n : Nat} {ls : List (List Char)} (h : n ≤ commonIndent ls) :
    flush (ls.map (List.drop n)) = flush ls := by
  by_cases hblank : ∀ line ∈ ls, isBlankText line = true
  · have hzero : n = 0 := Nat.le_zero.mp (commonIndent_of_blank hblank ▸ h)
    have hdrop : (List.drop 0 : List Char → List Char) = id := rfl
    rw [hzero, hdrop, List.map_id]
  · obtain ⟨line, hline, hnonblank⟩ : ∃ line ∈ ls, isBlankText line = false := by simpa using hblank
    obtain ⟨least, hleast, hnonblank, heq⟩ := exists_commonIndent hline hnonblank
    have hle : n ≤ leadingSpaces least := heq ▸ h
    have hindent : commonIndent (ls.map (List.drop n)) = commonIndent ls - n := by
      rw [commonIndent_eq (List.mem_map_of_mem hleast) ((isBlankText_drop hle).trans hnonblank), leadingSpaces_drop hle,
        heq]
      intro other hother hother'
      obtain ⟨own, hown, rfl⟩ := List.mem_map.mp hother
      cases hb : isBlankText own with
      | true => exact absurd (isBlankText_drop_of_blank hb) (Bool.eq_false_iff.mp hother')
      | false =>
        have hown' := commonIndent_le hown hb
        rw [leadingSpaces_drop hle, leadingSpaces_drop (h.trans hown')]
        omega
    rw [flush, hindent, flush, List.map_map]
    apply List.map_congr_left
    intro own _
    rw [Function.comp_apply, List.drop_drop, Nat.add_sub_cancel' h]

/-! The ends of a text -/

theorem exists_last_nonblank (ls : List (List Char)) : (∀ line ∈ ls, isBlankText line = true) ∨
    ∃ front last back, ls = front ++ last :: back ∧ ls.rdropWhile isBlankText = front ++ [last] ∧
      isBlankText last = false ∧ ∀ line ∈ back, isBlankText line = true := by
  by_cases hempty : ls.rdropWhile isBlankText = []
  · exact .inl (List.rdropWhile_eq_nil_iff.mp hempty)
  · have hfront := List.dropLast_concat_getLast hempty
    refine .inr ⟨_, _, ls.rtakeWhile isBlankText, ?_, hfront.symm,
      Bool.eq_false_iff.mpr (List.rdropWhile_last_not _ _ hempty), fun line h => List.mem_rtakeWhile_imp h⟩
    rw [List.append_cons, hfront, List.rdropWhile_append_rtakeWhile]

/-- What is trimmed off the end of a text may be trimmed off its last part beforehand. -/
theorem trim_append_trimEnd (s t : List Char) : trim (s ++ trimEnd t) = trim (s ++ t) := by
  have ht : trimEnd t ++ t.rtakeWhile isBlank = t := List.rdropWhile_append_rtakeWhile
  have hblank : isBlankText (t.rtakeWhile isBlank) = true :=
    isBlankText_iff.mpr fun c hc => List.mem_rtakeWhile_imp hc
  have htrim := @trim_append_append [] _ rfl hblank (s ++ trimEnd t)
  rw [List.nil_append, List.append_assoc, ht] at htrim
  exact htrim.symm

theorem trim_trimStart (s : List Char) : trim (trimStart s) = trim s := by
  rw [trim, trim, trimStart, trimStart, List.dropWhile_idempotent]

theorem trim_trim (s : List Char) : trim (trim s) = trim s := (trim_append_trimEnd [] (trimStart s)).trans (trim_trimStart s)

/-- Trimming a text of several lines trims the first and the last of them. -/
theorem trim_joinLines_ends {first last : List Char} (hfirst : isBlankText first = false) (hlast : isBlankText last = false)
    (front : List (List Char)) :
    trim (joinLines (first :: front ++ [last])) = joinLines (trimStart first :: front ++ [trimEnd last]) := by
  have hstart : (first.dropWhile isBlank).isEmpty = false := by
    rw [List.isEmpty_eq_false_iff, ne_eq, List.dropWhile_eq_nil_iff, ← isBlankText_iff, hfirst]
    exact Bool.false_ne_true
  rw [joinLines_concat, joinLines_concat, unlines_cons, unlines_cons, trim, trimStart, List.append_assoc,
    List.dropWhile_append, hstart, if_neg Bool.false_ne_true, ← trimStart, ← List.append_assoc, trimEnd_append (trimEnd_ne_nil hlast)]

theorem lines_joinLines_concat {ls : List (List Char)} (h : ∀ line ∈ ls, Spaced line) {last : List Char}
    (hlast : Spaced last) (hne : last ≠ []) : lines (joinLines (ls ++ [last])) = ls ++ [last] := by
  rw [lines_joinLines (fun line hline => (h line hline).breaks), lines_of_notMem hlast.breaks.1,
    if_neg (by simpa using hne)]

theorem trim_drop {n : Nat} {line : List Char} (h : n ≤ leadingSpaces line) : trim (line.drop n) = trim line := by
  have hpad : isBlankText (List.replicate n ' ') = true :=
    isBlankText_iff.mpr fun c hc => List.eq_of_mem_replicate hc ▸ rfl
  have htrim := @trim_append_append _ [] hpad rfl (line.drop n)
  rw [List.append_nil, ← indented, indented_drop h] at htrim
  exact htrim.symm

theorem trim_infix_self (s : List Char) : trim s <:+: s :=
  (trimEnd_prefix_self _).isInfix.trans (List.dropWhile_suffix isBlank).isInfix

/-! Dedented texts without the blanks around them -/

theorem isBlankText_of_mem_lines {s line : List Char} (h : isBlankText s = true) (hline : line ∈ lines s) :
    isBlankText line = true :=
  isBlankText_iff.mpr fun c hc => isBlankText_iff.mp h c (mem_of_mem_lines hline hc)

theorem trim_dedent_of_blank {s : List Char} (h : isBlankText s = true) : trim (dedent s) = [] := by
  apply trim_eq_nil
  apply isBlankText_joinLines
  intro line hline
  obtain ⟨own, hown, rfl⟩ := List.mem_map.mp hline
  exact isBlankText_dropBytes? (isBlankText_of_mem_lines h hown) _

/-- Lines that are joined to a text lose their common indentation, whatever blank lines stand around them. -/
theorem trim_dedent_joinLines {before front back : List (List Char)} {last : List Char}
    (hspaced : ∀ line ∈ before ++ (front ++ [last]) ++ back, Spaced line) (hbefore : ∀ line ∈ before, isBlankText line = true)
    (hback : ∀ line ∈ back, isBlankText line = true) (hlast : isBlankText last = false) :
    trim (dedent (joinLines (before ++ (front ++ [last]) ++ back))) = trim (joinLines (flush (front ++ [last]))) := by
  have hlines : ∃ back', lines (joinLines (before ++ (front ++ [last]) ++ back)) = before ++ (front ++ [last]) ++ back' ∧
      ∀ line ∈ back', isBlankText line = true ∧ Spaced line := by
    rcases List.eq_nil_or_concat back with rfl | ⟨more, final, rfl⟩
    · have hne : last ≠ [] := by
        rintro rfl
        exact Bool.noConfusion hlast
      refine ⟨[], ?_, List.forall_mem_nil _⟩
      rw [List.append_nil, ← List.append_assoc] at hspaced ⊢
      rw [lines_joinLines_concat (fun line hline => hspaced line (List.mem_append_left _ hline))
        (hspaced last (List.mem_append_right _ List.mem_cons_self)) hne]
    · -- Joining drops an empty line at the end.
      refine ⟨more ++ lines final, ?_, fun line hline => ?_⟩
      · rw [List.concat_eq_append, ← List.append_assoc] at hspaced ⊢
        rw [lines_joinLines fun line hline => (hspaced line (List.mem_append_left _ hline)).breaks, List.append_assoc]
      · rw [List.concat_eq_append] at hback hspaced
        rcases List.mem_append.mp hline with hline | hline
        · exact ⟨hback line (List.mem_append_left _ hline),
            hspaced line (List.mem_append_right _ (List.mem_append_left _ hline))⟩
        · have hmem : final ∈ more ++ [final] := List.mem_append_right _ List.mem_cons_self
          exact ⟨isBlankText_of_mem_lines (hback final hmem) hline,
            (hspaced final (List.mem_append_right _ hmem)).mono fun c hc => mem_of_mem_lines hline hc⟩
  obtain ⟨back', hlines, hback'⟩ := hlines
  have hspaced' : ∀ line ∈ lines (joinLines (before ++ (front ++ [last]) ++ back)), Spaced line := by
    intro line hline
    rw [hlines] at hline
    rcases List.mem_append.mp hline with hline | hline
    · exact hspaced line (List.mem_append_left _ hline)
    · exact (hback' line hline).2
  rw [dedent_eq hspaced', hlines, trim_flush_append_append hbefore (fun line hline => (hback' line hline).1) (by simp)]

section Last
variable {last : List Char} (hlast : isBlankText last = false)
include hlast

theorem isBlankText_trimEnd : isBlankText (trimEnd last) = false := by
  apply Bool.eq_false_iff.mpr
  intro hblank
  apply trimEnd_ne_nil hlast
  rw [← trimEnd_of_tidy (tidy_trimEnd last), trimEnd_eq_nil_iff.mpr hblank]

theorem leadingSpaces_trimEnd : leadingSpaces (trimEnd last) = leadingSpaces last := by
  obtain ⟨cut, hcut⟩ := trimEnd_prefix_self last
  have hne : ((trimEnd last).takeWhile (· == ' ')).length ≠ (trimEnd last).length := by
    intro hlength
    have hall := (List.takeWhile_prefix (l := trimEnd last) (· == ' ')).eq_of_length hlength
    have hspaces : ∀ c ∈ trimEnd last, (c == ' ') = true := List.takeWhile_eq_self_iff.mp hall
    have hblank : isBlankText (trimEnd last) = true :=
      isBlankText_iff.mpr fun c hc => eq_of_beq (hspaces c hc) ▸ rfl
    rw [isBlankText_trimEnd hlast] at hblank
    exact Bool.false_ne_true hblank
  have htake := @List.takeWhile_append _ (· == ' ') (trimEnd last) cut
  rw [hcut, if_neg hne] at htake
  rw [leadingSpaces, leadingSpaces, htake]

theorem drop_trimEnd {n : Nat} (h : n ≤ leadingSpaces last) : (trimEnd last).drop n = trimEnd (last.drop n) := by
  have hne : trimEnd (last.drop n) ≠ [] := trimEnd_ne_nil ((isBlankText_drop h).trans hlast)
  have htrim := trimEnd_append hne (List.replicate n ' ')
  rw [← indented, indented_drop h] at htrim
  rw [htrim, List.drop_left' (List.length_replicate ..)]

/-- The end of the last line does not count for the common indentation. -/
theorem trim_flush_trimEnd (ls : List (List Char)) :
    trim (joinLines (flush (ls ++ [trimEnd last]))) = trim (joinLines (flush (ls ++ [last]))) := by
  have hindent : commonIndent (ls ++ [trimEnd last]) = commonIndent (ls ++ [last]) := by
    simp only [commonIndent, List.filter_append, List.filter_singleton, isBlankText_trimEnd hlast, hlast, Bool.not_false,
      cond_true, List.map_append, List.map_singleton, leadingSpaces_trimEnd hlast]
  have hle : commonIndent (ls ++ [last]) ≤ leadingSpaces last := commonIndent_le (by simp) hlast
  rw [flush, flush, hindent, List.map_append, List.map_append, List.map_singleton, List.map_singleton,
    drop_trimEnd hlast hle, joinLines_concat, joinLines_concat, trim_append_trimEnd]

end Last

/-- A text of several lines, dedented and trimmed: the first line is trimmed, and the others lose the indentation. -/
theorem lines_trim_flush {first last : List Char} {front : List (List Char)}
    (hspaced : ∀ line ∈ first :: front ++ [last], Spaced line) (hfirst : isBlankText first = false)
    (hlast : isBlankText last = false) {n : Nat} (hn : n = commonIndent (first :: front ++ [last])) :
    lines (trim (joinLines (flush (first :: front ++ [last])))) =
      trimStart (first.drop n) :: (front.map (List.drop n) ++ [trimEnd (last.drop n)]) := by
  have hmem : last ∈ first :: front ++ [last] := by simp
  have hfirst' : isBlankText (first.drop n) = false := by
    rw [isBlankText_drop (hn ▸ commonIndent_le (by simp) hfirst), hfirst]
  have hlast' : isBlankText (last.drop n) = false := by
    rw [isBlankText_drop (hn ▸ commonIndent_le hmem hlast), hlast]
  rw [flush, ← hn, List.map_append, List.map_cons, List.map_singleton, trim_joinLines_ends hfirst' hlast',
    lines_joinLines_concat ?_ ?_ (trimEnd_ne_nil hlast')]
  · rfl
  · refine List.forall_mem_cons.mpr ⟨?_, fun line hline => ?_⟩
    · exact (hspaced first (by simp)).mono fun c hc => List.mem_of_mem_drop ((List.dropWhile_suffix _).subset hc)
    · obtain ⟨own, hown, rfl⟩ := List.mem_map.mp hline
      exact (hspaced own (by simp [hown])).mono fun c hc => List.mem_of_mem_drop hc
  · exact (hspaced last hmem).mono fun c hc => List.mem_of_mem_drop ((trimEnd_prefix_self _).subset hc)

/-- Lines that have lost an indentation, and the blanks at their end, give the same text as before. -/
theorem trim_dedent_map_drop {front : List (List Char)} {last : List Char} (hspaced : ∀ line ∈ front ++ [last], Spaced line)
    (hlast : isBlankText last = false) {n : Nat} (hn : n ≤ commonIndent (front ++ [last])) :
    trim (dedent (joinLines (front.map (List.drop n) ++ [trimEnd (last.drop n)]))) =
      trim (joinLines (flush (front ++ [last]))) := by
  have hlast' : isBlankText (last.drop n) = false := by
    rw [isBlankText_drop (hn.trans (commonIndent_le (by simp) hlast)), hlast]
  have hjoined := @trim_dedent_joinLines [] (front.map (List.drop n)) [] (trimEnd (last.drop n)) ?_
    (List.forall_mem_nil _) (List.forall_mem_nil _) (isBlankText_trimEnd hlast')
  · rw [List.nil_append, List.append_nil] at hjoined
    rw [hjoined, trim_flush_trimEnd hlast', ← flush_map_drop hn, List.map_append, List.map_singleton]
  · intro line hline
    rw [List.nil_append, List.append_nil, List.mem_append, List.mem_singleton, List.mem_map] at hline
    rcases hline with ⟨own, hown, rfl⟩ | rfl
    · exact (hspaced own (List.mem_append_left _ hown)).mono fun c hc => List.mem_of_mem_drop hc
    · exact (hspaced last (by simp)).mono fun c hc => List.mem_of_mem_drop ((trimEnd_prefix_self _).subset hc)

end ApiHandbook.Docstring
