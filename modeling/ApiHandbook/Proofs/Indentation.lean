import ApiHandbook.Docstring
import ApiHandbook.Proofs.Lines
import Mathlib.Data.List.TakeWhile

/-! Indented lines: dedenting a text and taking a block out of it give back the lines that were indented, whatever blank
lines stand around them. -/
namespace ApiHandbook
open Text

namespace Text

theorem isBlankText_iff {s : List Char} : isBlankText s = true ↔ ∀ c ∈ s, isBlank c = true := List.all_eq_true

theorem isBlankText_append (s t : List Char) : isBlankText (s ++ t) = (isBlankText s && isBlankText t) :=
  List.all_append

theorem trim_eq_nil {s : List Char} (h : isBlankText s = true) : trim s = [] := by
  rw [trim, trimStart, List.dropWhile_eq_nil_iff.mpr (isBlankText_iff.mp h)]
  rfl

theorem trimEnd_sublist (s : List Char) : (trimEnd s).Sublist s := by
  have hdrop := (List.dropWhile_sublist (l := s.reverse) isBlank).reverse
  rwa [List.reverse_reverse] at hdrop

theorem trimEnd_prefix_self (s : List Char) : trimEnd s <+: s :=
  List.reverse_suffix.mp (by rw [trimEnd, dropEndWhile, List.reverse_reverse]; exact List.dropWhile_suffix _)

theorem trimEnd_eq_nil_iff {s : List Char} : trimEnd s = [] ↔ isBlankText s = true := by
  rw [trimEnd, dropEndWhile, List.reverse_eq_nil_iff, List.dropWhile_eq_nil_iff, isBlankText_iff]
  simp

theorem trimEnd_ne_nil {s : List Char} (h : isBlankText s = false) : trimEnd s ≠ [] :=
  fun hnil => Bool.eq_false_iff.mp h (trimEnd_eq_nil_iff.mp hnil)

theorem trim_ne_nil {s : List Char} (h : isBlankText s = false) : trim s ≠ [] := by
  have hstart : isBlankText (trimStart s) = false := by
    have hrun : isBlankText (s.takeWhile isBlank) = true :=
      isBlankText_iff.mpr fun _ hc => List.mem_takeWhile_imp (p := isBlank) hc
    rwa [← List.takeWhile_append_dropWhile (p := isBlank) (l := s), isBlankText_append, hrun, Bool.true_and] at h
  exact trimEnd_ne_nil hstart

/-- A trimmed text does not start with a blank. -/
theorem trimStart_of_trim {s : List Char} (h : trim s = s) : trimStart s = s := by
  have hdrop : (trimStart s).Sublist s := List.dropWhile_sublist isBlank
  have htrim : (trim s).Sublist (trimStart s) := trimEnd_sublist _
  exact hdrop.eq_of_length_le (h ▸ htrim).length_le

/-- What is stripped may stand around a text. -/
theorem stripWhile_append_append {p : Char → Bool} {before after : List Char} (hbefore : ∀ c ∈ before, p c = true)
    (hafter : ∀ c ∈ after, p c = true) (s : List Char) : stripWhile p (before ++ s ++ after) = stripWhile p s := by
  rw [stripWhile, stripWhile, List.append_assoc, List.dropWhile_append_of_pos hbefore, List.dropWhile_append]
  split
  · rename_i hs
    rw [List.isEmpty_iff.mp hs, List.dropWhile_eq_nil_iff.mpr hafter]
  · rw [dropEndWhile, List.reverse_append,
      List.dropWhile_append_of_pos fun c hc => hafter c (List.mem_reverse.mp hc), ← dropEndWhile]

theorem stripWhile_eq_self {p : Char → Bool} {s : List Char} (hstart : ∀ c ∈ s.head?, p c = false)
    (hend : ∀ c ∈ s.getLast?, p c = false) : stripWhile p s = s := by
  have hkeep {t : List Char} (h : ∀ c ∈ t.head?, p c = false) : t.dropWhile p = t := by
    cases t with
    | nil => rfl
    | cons c t => exact List.dropWhile_cons_of_neg (by rw [h c rfl]; exact Bool.false_ne_true)
  rw [stripWhile, hkeep hstart, dropEndWhile, hkeep, List.reverse_reverse]
  rwa [← List.getLast?_eq_head?_reverse]

/-- Trimming takes away what is blank around a text. -/
theorem trim_append_append {before after : List Char} (hbefore : isBlankText before = true)
    (hafter : isBlankText after = true) (s : List Char) : trim (before ++ s ++ after) = trim s :=
  stripWhile_append_append (isBlankText_iff.mp hbefore) (isBlankText_iff.mp hafter) s

/-- A joined text goes on behind a line feed for each further line. -/
theorem joinLines_cons (line : List Char) (ls : List (List Char)) :
    joinLines (line :: ls) = line ++ ls.flatMap fun line => '\n' :: line := by
  induction ls generalizing line with
  | nil => simp [joinLines]
  | cons next ls ih =>
    rw [joinLines, List.intercalate_cons_cons, ← joinLines, ih, List.flatMap_cons]
    simp

theorem joinLines_append_of_ne_nil {ls : List (List Char)} (h : ls ≠ []) (more : List (List Char)) :
    joinLines (ls ++ more) = joinLines ls ++ more.flatMap fun line => '\n' :: line := by
  obtain ⟨line, ls, rfl⟩ := List.exists_cons_of_ne_nil h
  rw [List.cons_append, joinLines_cons, joinLines_cons, List.flatMap_append, List.append_assoc]

theorem joinLines_unlines_append {ls : List (List Char)} (h : ls ≠ []) (before : List (List Char)) :
    joinLines (before ++ ls) = unlines before ++ joinLines ls := by
  induction before with
  | nil => rfl
  | cons line before ih =>
    obtain ⟨next, rest, hrest⟩ := List.exists_cons_of_ne_nil (List.append_ne_nil_of_right_ne_nil before h)
    rw [unlines_cons, List.cons_append, hrest, joinLines, List.intercalate_cons_cons, ← joinLines, ← hrest, ih]
    simp

theorem joinLines_cons_of_ne_nil {ls : List (List Char)} (h : ls ≠ []) (line : List Char) :
    joinLines (line :: ls) = line ++ '\n' :: joinLines ls := by
  rw [← List.singleton_append, joinLines_unlines_append h, unlines_cons, unlines_nil, List.append_assoc]
  rfl

theorem eq_nil_of_joinLines_eq_nil {ls : List (List Char)} (h : joinLines ls = []) {line : List Char} (hline : line ∈ ls) :
    line = [] :=
  List.infix_nil.mp (h ▸ infix_joinLines hline)

theorem isBlankText_joinLines {ls : List (List Char)} (h : ∀ line ∈ ls, isBlankText line = true) :
    isBlankText (joinLines ls) = true := by
  cases ls with
  | nil => rfl
  | cons line ls =>
    obtain ⟨hline, hrest⟩ := List.forall_mem_cons.mp h
    rw [joinLines_cons, isBlankText_append, hline, Bool.true_and, isBlankText, List.all_flatMap, List.all_eq_true]
    exact fun next hnext => hrest next hnext

/-- Blank lines around a text do not count for trimming. -/
theorem trim_joinLines {before ls after : List (List Char)} (hbefore : ∀ line ∈ before, isBlankText line = true)
    (hafter : ∀ line ∈ after, isBlankText line = true) (hls : ls ≠ []) :
    trim (joinLines (before ++ ls ++ after)) = trim (joinLines ls) := by
  have hblank : isBlankText (unlines before) = true := by
    rw [unlines, isBlankText, List.all_flatMap, List.all_eq_true]
    intro line hline
    rw [← isBlankText, isBlankText_append, hbefore line hline]
    decide
  have hblank' : isBlankText (after.flatMap fun line => '\n' :: line) = true := by
    rw [isBlankText, List.all_flatMap, List.all_eq_true]
    exact fun line hline => hafter line hline
  rw [joinLines_append_of_ne_nil (List.append_ne_nil_of_right_ne_nil before hls), joinLines_unlines_append hls,
    trim_append_append hblank hblank']

theorem splitOn_joinLines {ls : List (List Char)} (h : ∀ line ∈ ls, '\n' ∉ line) (hne : ls ≠ []) :
    (joinLines ls).splitOn '\n' = ls :=
  List.splitOn_intercalate '\n' h hne

theorem lines_of_notMem {line : List Char} (h : '\n' ∉ line) : lines line = if line.isEmpty then [] else [line] := by
  have hsplit : line.splitOn '\n' = [line] := by
    have hjoin := splitOn_joinLines (List.forall_mem_singleton.mpr h) (List.cons_ne_nil line [])
    rwa [joinLines, List.intercalate_singleton] at hjoin
  rw [lines, hsplit, linesOfPieces]

/-- The lines of a joined text are those that were joined, but for an empty line at the end. -/
theorem lines_joinLines {ls : List (List Char)} (h : ∀ line ∈ ls, '\n' ∉ line ∧ '\r' ∉ line) (last : List Char) :
    lines (joinLines (ls ++ [last])) = ls ++ lines last := by
  have hmap : ls.map dropReturn = ls := by
    refine (List.map_congr_left fun line hline => ?_).trans (List.map_id ls)
    exact dropReturn_eq_self fun hreturn => (h line hline).2 (List.mem_of_getLast? hreturn)
  rw [joinLines_concat, lines_unlines_append fun line hline => (h line hline).1, hmap]

end Text

namespace Docstring

/-- A line behind an indentation. -/
def indented (n : Nat) (line : List Char) : List Char := List.replicate n ' ' ++ line

section Indented
variable (n : Nat) (line : List Char)

theorem leadingSpaces_indented : leadingSpaces (indented n line) = n + leadingSpaces line := by
  have hspaces : ∀ c ∈ List.replicate n ' ', (c == ' ') = true := fun c hc => beq_iff_eq.mpr (List.eq_of_mem_replicate hc)
  rw [leadingSpaces, indented, List.takeWhile_append_of_pos hspaces, List.length_append, List.length_replicate,
    leadingSpaces]

theorem dropBytes?_indented : dropBytes? n (indented n line) = some line := by
  induction n with
  | zero => rw [dropBytes?, indented, List.replicate_zero, List.nil_append]
  | succ n ih =>
    have hsize : (' ' : Char).utf8Size = 1 := by decide
    rw [indented, List.replicate_succ, List.cons_append, dropBytes?, hsize, if_pos (Nat.le_add_left 1 n),
      Nat.add_sub_cancel]
    exact ih

theorem isBlankText_indented : isBlankText (indented n line) = isBlankText line := by
  have hpad : isBlankText (List.replicate n ' ') = true :=
    isBlankText_iff.mpr fun c hc => List.eq_of_mem_replicate hc ▸ by decide
  rw [indented, isBlankText_append, hpad, Bool.true_and]

theorem after?_indented : after? (List.replicate n ' ') (indented n line) = some line := by
  rw [indented, after?, if_pos (List.isPrefixOf_iff_prefix.mpr (List.prefix_append _ _)), List.drop_left' rfl]

end Indented

theorem suffix_of_dropBytes? {n : Nat} {s t : List Char} (h : dropBytes? n s = some t) : t <:+ s := by
  induction s generalizing n with
  | nil =>
    cases n with
    | zero => exact Option.some.inj h ▸ List.suffix_refl _
    | succ n => cases h
  | cons c s ih =>
    cases n with
    | zero => exact Option.some.inj h ▸ List.suffix_refl _
    | succ n =>
      rw [dropBytes?] at h
      split at h
      · exact (ih h).trans (List.suffix_cons c s)
      · cases h

/-- What is removed from a blank line leaves a blank line. -/
theorem isBlankText_dropBytes? {line : List Char} (h : isBlankText line = true) (n : Nat) :
    isBlankText ((dropBytes? n line).getD (trimStart line)) = true := by
  have hblank {t : List Char} (ht : t <:+ line) : isBlankText t = true :=
    isBlankText_iff.mpr fun c hc => isBlankText_iff.mp h c (ht.subset hc)
  cases hdrop : dropBytes? n line with
  | none => exact hblank (List.dropWhile_suffix _)
  | some t => exact hblank (suffix_of_dropBytes? hdrop)

section CommonIndent
variable {ls : List (List Char)} {line : List Char} (hline : line ∈ ls) (hnonblank : isBlankText line = false)
include hline hnonblank

theorem min?_indents :
    ((ls.filter fun line => !isBlankText line).map leadingSpaces).min? = some (commonIndent ls) := by
  have hmem : leadingSpaces line ∈ (ls.filter fun line => !isBlankText line).map leadingSpaces :=
    List.mem_map_of_mem (List.mem_filter.mpr ⟨hline, by rw [hnonblank]; rfl⟩)
  rw [commonIndent]
  cases hmin : ((ls.filter fun line => !isBlankText line).map leadingSpaces).min? with
  | none => exact absurd hmem (List.min?_eq_none_iff.mp hmin ▸ List.not_mem_nil)
  | some m => rfl

theorem commonIndent_le : commonIndent ls ≤ leadingSpaces line := by
  apply (List.min?_eq_some_iff.mp (min?_indents hline hnonblank)).2
  exact List.mem_map_of_mem (List.mem_filter.mpr ⟨hline, by rw [hnonblank]; rfl⟩)

/-- The common indentation is that of some line. -/
theorem exists_commonIndent : ∃ flush ∈ ls, isBlankText flush = false ∧ leadingSpaces flush = commonIndent ls := by
  obtain ⟨flush, hflush, heq⟩ := List.mem_map.mp (List.min?_eq_some_iff.mp (min?_indents hline hnonblank)).1
  obtain ⟨hflush, hblank⟩ := List.mem_filter.mp hflush
  exact ⟨flush, hflush, by simpa using hblank, heq⟩

theorem commonIndent_eq (hmin : ∀ other ∈ ls, isBlankText other = false → leadingSpaces line ≤ leadingSpaces other) :
    commonIndent ls = leadingSpaces line := by
  obtain ⟨flush, hflush, hblank, heq⟩ := exists_commonIndent hline hnonblank
  exact Nat.le_antisymm (commonIndent_le hline hnonblank) (heq ▸ hmin flush hflush hblank)

end CommonIndent

section Dedent
variable {n : Nat} {before body after : List (List Char)} (hbefore : ∀ line ∈ before, isBlankText line = true)
  (hafter : ∀ line ∈ after, isBlankText line = true)
include hbefore hafter

/-- The common indentation of indented lines among blank ones, where some line has no spaces of its own. -/
theorem commonIndent_indented {flush : List Char} (hflush : flush ∈ body) (hblank : isBlankText flush = false)
    (hspaces : leadingSpaces flush = 0) : commonIndent (before ++ body.map (indented n) ++ after) = n := by
  have hmem : indented n flush ∈ before ++ body.map (indented n) ++ after :=
    List.mem_append_left _ (List.mem_append_right _ (List.mem_map_of_mem hflush))
  have hindent : leadingSpaces (indented n flush) = n := by rw [leadingSpaces_indented, hspaces, Nat.add_zero]
  rw [commonIndent_eq hmem (by rw [isBlankText_indented, hblank]), hindent]
  intro other hother hnonblank
  rw [hindent]
  rw [List.append_assoc, List.mem_append, List.mem_append] at hother
  rcases hother with hother | hother | hother
  · exact absurd (hbefore other hother) (Bool.eq_false_iff.mp hnonblank)
  · obtain ⟨own, -, rfl⟩ := List.mem_map.mp hother
    rw [leadingSpaces_indented]
    exact Nat.le_add_right n _
  · exact absurd (hafter other hother) (Bool.eq_false_iff.mp hnonblank)

omit hbefore hafter in
/-- A trimmed text that is not empty starts with a line that is neither blank nor indented. -/
theorem exists_flush (htrim : trim (joinLines body) = joinLines body) (hne : joinLines body ≠ []) :
    ∃ flush ∈ body, isBlankText flush = false ∧ leadingSpaces flush = 0 := by
  have hstart := List.head?_dropWhile_not isBlank (joinLines body)
  rw [← trimStart, trimStart_of_trim htrim] at hstart
  cases body with
  | nil => exact absurd rfl hne
  | cons flush body =>
    refine ⟨flush, List.mem_cons_self, ?_⟩
    rw [joinLines_cons] at hstart hne
    cases flush with
    | nil =>
      cases body with
      | nil => exact absurd rfl hne
      | cons next body =>
        have hfeed : isBlank '\n' = false := hstart
        exact absurd hfeed (by decide)
    | cons c flush =>
      have hc : isBlank c = false := hstart
      refine ⟨by rw [isBlankText, List.all_cons, hc, Bool.false_and], ?_⟩
      have hspace : (c == ' ') = false := beq_eq_false_iff_ne.mpr fun h => by rw [h] at hc; exact absurd hc (by decide)
      rw [leadingSpaces, List.takeWhile_cons, hspace]
      rfl

/-- Dedenting a text gives back the trimmed text whose lines were indented in it, between blank lines. -/
theorem trim_dedent {s : List Char} (hlines : lines s = before ++ body.map (indented n) ++ after)
    (htrim : trim (joinLines body) = joinLines body) : trim (dedent s) = joinLines body := by
  let unindent (line : List Char) : List Char := (dropBytes? (commonIndent (lines s)) line).getD (trimStart line)
  have hblank {ls : List (List Char)} (h : ∀ line ∈ ls, isBlankText line = true) :
      ∀ line ∈ ls.map unindent, isBlankText line = true := by
    intro line hline
    obtain ⟨own, hown, rfl⟩ := List.mem_map.mp hline
    exact isBlankText_dropBytes? (h own hown) _
  have hdedent : dedent s = joinLines ((lines s).map unindent) := rfl
  rw [hdedent]
  by_cases hempty : joinLines body = []
  · rw [hempty, trim_eq_nil]
    refine isBlankText_joinLines (hblank fun line hline => ?_)
    rw [hlines, List.append_assoc, List.mem_append, List.mem_append] at hline
    rcases hline with hline | hline | hline
    · exact hbefore line hline
    · obtain ⟨own, hown, rfl⟩ := List.mem_map.mp hline
      rw [isBlankText_indented, eq_nil_of_joinLines_eq_nil hempty hown]
      rfl
    · exact hafter line hline
  · obtain ⟨flush, hflush, hnonblank, hspaces⟩ := exists_flush htrim hempty
    have hindent : commonIndent (lines s) = n := hlines ▸ commonIndent_indented hbefore hafter hflush hnonblank hspaces
    have hbody : (body.map (indented n)).map unindent = body := by
      rw [List.map_map]
      refine (List.map_congr_left fun line _ => ?_).trans (List.map_id body)
      simp only [Function.comp_apply, unindent, hindent, dropBytes?_indented, Option.getD_some, id_eq]
    rw [hlines, List.map_append, List.map_append, hbody,
      trim_joinLines (hblank hbefore) (hblank hafter) (List.ne_nil_of_mem hflush), htrim]

end Dedent

theorem isBlank_of_isLineBreak {c : Char} (h : isLineBreak c = true) : isBlank c = true := by
  rw [isLineBreak, Bool.or_eq_true, beq_iff_eq, beq_iff_eq] at h
  rcases h with rfl | rfl <;> rfl

theorem isLineBreak_of_isBlank {c : Char} (h : isBlank c = false) : isLineBreak c = false :=
  Bool.eq_false_iff.mpr fun hbreak => Bool.eq_false_iff.mp h (isBlank_of_isLineBreak hbreak)

theorem feed_notMem_indented {n : Nat} {line : List Char} (h : '\n' ∉ line) : '\n' ∉ indented n line := by
  intro hmem
  rcases List.mem_append.mp hmem with hmem | hmem
  · exact absurd (List.eq_of_mem_replicate hmem) (by decide)
  · exact h hmem

/-- Between two empty lines, a text stands between line breaks. -/
theorem exists_joinLines_between (block : List (List Char)) : ∃ feeds : List Char, (∀ c ∈ feeds, isLineBreak c = true) ∧
    joinLines ([] :: block ++ [[]]) = ['\n'] ++ joinLines block ++ feeds := by
  rw [joinLines_concat, List.append_nil, unlines_cons]
  cases block with
  | nil => exact ⟨[], nofun, rfl⟩
  | cons line block =>
    refine ⟨['\n'], List.forall_mem_singleton.mpr rfl, ?_⟩
    rw [List.append_assoc, joinLines_append (List.cons_ne_nil line block)]
    rfl

/-- A block is taken out of the indented lines between its delimiters. -/
theorem unindentBlock_indented {n : Nat} {block : List (List Char)} (hfeed : ∀ line ∈ block, '\n' ∉ line)
    (hstart : ∀ c ∈ (joinLines block).head?, isLineBreak c = false) (htidy : Tidy (joinLines block)) :
    unindentBlock n (joinLines ([] :: block.map (indented n) ++ [indented n []])) = joinLines block := by
  have hsplit : (joinLines ([] :: block.map (indented n) ++ [indented n []])).splitOn '\n' =
      [] :: block.map (indented n) ++ [indented n []] := by
    refine splitOn_joinLines ?_ (by simp)
    simp only [List.cons_append, List.mem_cons, List.mem_append, List.mem_map, List.not_mem_nil, or_false]
    rintro line (rfl | ⟨own, hown, rfl⟩ | rfl)
    · exact List.not_mem_nil
    · exact feed_notMem_indented (hfeed own hown)
    · exact feed_notMem_indented List.not_mem_nil
  have hempty : (after? (List.replicate n ' ') []).getD [] = ([] : List Char) := by
    cases n <;> rfl
  have hbody : (block.map (indented n)).map (fun line => (after? (List.replicate n ' ') line).getD line) = block := by
    rw [List.map_map]
    refine (List.map_congr_left fun line _ => ?_).trans (List.map_id block)
    simp only [Function.comp_apply, after?_indented, Option.getD_some, id_eq]
  obtain ⟨feeds, hfeeds, hjoin⟩ := exists_joinLines_between block
  have hend : ∀ c ∈ (joinLines block).getLast?, isLineBreak c = false := fun c hc => isLineBreak_of_isBlank (htidy c hc)
  simp only [unindentBlock, hsplit, List.map_append, List.map_cons, List.map_nil, hempty, hbody, after?_indented,
    Option.getD_some]
  rw [hjoin, stripWhile_append_append (List.forall_mem_singleton.mpr rfl) hfeeds, stripWhile_eq_self hstart hend,
    trimEnd_of_tidy htidy]

end Docstring
end ApiHandbook
