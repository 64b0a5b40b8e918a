import ApiHandbook.Proofs.Dedenting
import ApiHandbook.Proofs.Docstrings

/-! The indentation that the lines of a block lose. It is measured as all spaces on the line of the opening delimiter, also
those between and behind the words in front of it; when this makes a difference is read off the lines of the block. -/
namespace ApiHandbook.Docstring
open Text

/-- How many spaces a line loses to an indentation: all of it, or nothing when the line is not indented that far. -/
def outdent (i : Nat) (line : List Char) : Nat := if i ≤ leadingSpaces line then i else 0

/-- A line without an indentation, if it is indented that far. -/
def outdented (i : Nat) (line : List Char) : List Char := line.drop (outdent i line)

/-- A block whose lines lose an indentation, without the line breaks around it and the blanks at its end. -/
def outdentedBlock (i : Nat) (block : List Char) : List Char :=
  trimEnd (stripWhile isLineBreak (joinLines ((block.splitOn '\n').map (outdented i))))

/-- The line on which stands what follows a text. -/
def lastLine (s : List Char) : List Char := (s.splitOn '\n').getLastD []

/-- The lines of a block up to the last that is not blank. -/
def contentLines (block : List Char) : List (List Char) := (block.splitOn '\n').rdropWhile isBlankText

/-! Lines that lose an indentation -/

section Outdent
variable (i : Nat) (line : List Char)

theorem outdent_le : outdent i line ≤ leadingSpaces line := by
  rw [outdent]
  split
  · assumption
  · exact Nat.zero_le _

theorem after?_getD_eq : (after? (List.replicate i ' ') line).getD line = outdented i line := by
  by_cases h : i ≤ leadingSpaces line
  · have hafter := after?_indented i (line.drop i)
    rw [indented_drop h] at hafter
    rw [hafter, outdented, outdent, if_pos h, Option.getD_some]
  · have hprefix : ¬ List.replicate i ' ' <+: line := by
      rintro ⟨rest, rfl⟩
      have hindent := leadingSpaces_indented i rest
      rw [indented] at hindent
      omega
    rw [after?, if_neg (mt List.isPrefixOf_iff_prefix.mp hprefix), outdented, outdent, if_neg h]
    rfl

theorem unindentBlock_eq (block : List Char) : unindentBlock i block = outdentedBlock i block := by
  rw [unindentBlock, outdentedBlock]
  simp only [after?_getD_eq]

theorem count_outdented : (outdented i line).count ' ' + outdent i line = line.count ' ' := by
  have hcount := congrArg (List.count ' ') (indented_drop (outdent_le i line))
  rw [indented, List.count_append, List.count_replicate_self] at hcount
  rw [outdented]
  omega

theorem isBlankText_outdented : isBlankText (outdented i line) = isBlankText line := isBlankText_drop (outdent_le i line)

/-- Two indentations take the same from a line if it is not indented as far as the one, or as the other in place of none. -/
theorem outdent_eq_iff {n i : Nat} (h : i ≤ n) :
    outdent n line = outdent i line ↔ n = i ∨ leadingSpaces line < if i = 0 then n else i := by
  rw [outdent, outdent]
  split_ifs <;> omega

end Outdent

/-! Blocks that lose an indentation -/

theorem trimEnd_stripWhile (s : List Char) : trimEnd (stripWhile isLineBreak s) = trimEnd (s.dropWhile isLineBreak) := by
  have hsplit := List.rdropWhile_append_rtakeWhile (p := isLineBreak) (l := s.dropWhile isLineBreak)
  have hblank : isBlankText ((s.dropWhile isLineBreak).rtakeWhile isLineBreak) = true :=
    isBlankText_iff.mpr fun c hc => isBlank_of_isLineBreak (List.mem_rtakeWhile_imp hc)
  have htrim := trimEnd_append_of_blank hblank ((s.dropWhile isLineBreak).rdropWhile isLineBreak)
  rw [hsplit] at htrim
  exact htrim.symm

/-- Line breaks in front of a text and blanks at its end are taken away in either order. -/
theorem trimEnd_dropWhile_break (s : List Char) :
    trimEnd (s.dropWhile isLineBreak) = (trimEnd s).dropWhile isLineBreak := by
  induction s with
  | nil => rfl
  | cons c s ih =>
    cases hc : isLineBreak c with
    | true =>
      rw [List.dropWhile_cons_of_pos hc, ih]
      by_cases hnil : trimEnd s = []
      · have hblank : isBlankText (c :: s) = true := by
          rw [isBlankText, List.all_cons, isBlank_of_isLineBreak hc, ← isBlankText, trimEnd_eq_nil_iff.mp hnil]
          rfl
        rw [hnil, trimEnd_eq_nil_iff.mpr hblank]
      · rw [← List.singleton_append, trimEnd_append hnil, List.singleton_append, List.dropWhile_cons_of_pos hc]
    | false =>
      rw [List.dropWhile_cons_of_neg (by rw [hc]; exact Bool.false_ne_true)]
      cases htrim : trimEnd (c :: s) with
      | nil => rfl
      | cons d t =>
        obtain rfl := (List.cons_prefix_cons.mp (htrim ▸ trimEnd_prefix_self (c :: s))).1
        rw [List.dropWhile_cons_of_neg (by rw [hc]; exact Bool.false_ne_true)]

/-- What is left of lines up to the last that is not blank: the line breaks in front of them and the blanks behind them go. -/
theorem trim_block {front back : List (List Char)} {last : List Char} (hlast : isBlankText last = false)
    (hback : ∀ line ∈ back, isBlankText line = true) :
    trimEnd (stripWhile isLineBreak (joinLines (front ++ last :: back))) =
      (joinLines (front ++ [trimEnd last])).dropWhile isLineBreak := by
  have hblank : isBlankText (back.flatMap fun line => '\n' :: line) = true := by
    rw [isBlankText, List.all_flatMap, List.all_eq_true]
    exact fun line hline => hback line hline
  rw [trimEnd_stripWhile, trimEnd_dropWhile_break, List.append_cons, joinLines_append_of_ne_nil (by simp),
    trimEnd_append_of_blank hblank, joinLines_concat, joinLines_concat,
    trimEnd_append (trimEnd_ne_nil hlast)]

theorem outdentedBlock_of_blank (i : Nat) {block : List Char} (h : ∀ line ∈ block.splitOn '\n', isBlankText line = true) :
    outdentedBlock i block = [] := by
  have hblank : isBlankText (joinLines ((block.splitOn '\n').map (outdented i))) = true := by
    apply isBlankText_joinLines
    intro line hline
    obtain ⟨own, hown, rfl⟩ := List.mem_map.mp hline
    rw [isBlankText_outdented, h own hown]
  rw [outdentedBlock, trimEnd_stripWhile, trimEnd_dropWhile_break, trimEnd_eq_nil_iff.mpr hblank]
  rfl

theorem outdentedBlock_eq (i : Nat) {block last : List Char} {front back : List (List Char)}
    (hblock : block.splitOn '\n' = front ++ last :: back) (hlast : isBlankText last = false)
    (hback : ∀ line ∈ back, isBlankText line = true) :
    outdentedBlock i block = (joinLines ((front ++ [trimEnd last]).map (outdented i))).dropWhile isLineBreak := by
  have hlast' : isBlankText (outdented i last) = false := (isBlankText_outdented i last).trans hlast
  have hback' : ∀ line ∈ back.map (outdented i), isBlankText line = true := by
    intro line hline
    obtain ⟨own, hown, rfl⟩ := List.mem_map.mp hline
    rw [isBlankText_outdented, hback own hown]
  have hend : outdented i (trimEnd last) = trimEnd (outdented i last) := by
    have hsame : outdent i (trimEnd last) = outdent i last := by rw [outdent, leadingSpaces_trimEnd hlast, ← outdent]
    rw [outdented, outdented, hsame, drop_trimEnd hlast (outdent_le i last)]
  rw [outdentedBlock, hblock, List.map_append, List.map_cons, trim_block hlast' hback', List.map_append,
    List.map_singleton, hend]

/-! How many spaces the lines of a text hold -/

def spaceCounts (s : List Char) : List Nat := (s.splitOn '\n').map (List.count ' ')

theorem spaceCounts_joinLines {ls : List (List Char)} (h : ∀ line ∈ ls, '\n' ∉ line) (hne : ls ≠ []) :
    spaceCounts (joinLines ls) = ls.map (List.count ' ') := by
  rw [spaceCounts, splitOn_joinLines h hne]

theorem spaceCounts_feed (s : List Char) : spaceCounts ('\n' :: s) = 0 :: spaceCounts s := by
  have hsplit : ('\n' :: s).splitOn '\n' = [] :: s.splitOn '\n' :=
    List.splitOnP_append_cons_of_forall_mem (List.forall_mem_nil _) '\n' rfl s
  rw [spaceCounts, hsplit]
  rfl

theorem spaceCounts_return (s : List Char) : spaceCounts ('\r' :: s) = spaceCounts s := by
  have hsplit : ('\r' :: s).splitOn '\n' = (s.splitOn '\n').modifyHead ('\r' :: ·) :=
    (List.splitOnP_cons_eq_if_modifyHead ..).trans (if_neg (by decide))
  obtain ⟨piece, pieces, hpieces⟩ := List.exists_cons_of_ne_nil (List.splitOn_ne_nil '\n' s)
  have hcount : ('\r' :: piece).count ' ' = piece.count ' ' := List.count_cons_of_ne (by decide)
  rw [spaceCounts, hsplit, spaceCounts, hpieces, List.modifyHead_cons, List.map_cons, hcount, List.map_cons]

/-- Line breaks in front of a text are lines without spaces. -/
theorem spaceCounts_append {breaks : List Char} (h : ∀ c ∈ breaks, isLineBreak c = true) (s : List Char) :
    ∃ n, spaceCounts (breaks ++ s) = List.replicate n 0 ++ spaceCounts s := by
  induction breaks with
  | nil => exact ⟨0, rfl⟩
  | cons c breaks ih =>
    obtain ⟨hc, hbreaks⟩ := List.forall_mem_cons.mp h
    obtain ⟨n, hn⟩ := ih hbreaks
    rw [isLineBreak, Bool.or_eq_true, beq_iff_eq, beq_iff_eq] at hc
    rcases hc with rfl | rfl
    · exact ⟨n + 1, by rw [List.cons_append, spaceCounts_feed, hn]; rfl⟩
    · exact ⟨n, by rw [List.cons_append, spaceCounts_return, hn]⟩

/-- Texts of as many lines that differ in line breaks in front hold as many spaces in each line. -/
theorem spaceCounts_eq {s t : List Char} (h : s.dropWhile isLineBreak = t.dropWhile isLineBreak)
    (hlength : (spaceCounts s).length = (spaceCounts t).length) : spaceCounts s = spaceCounts t := by
  have hbreaks (s : List Char) : ∀ c ∈ s.takeWhile isLineBreak, isLineBreak c = true :=
    fun c hc => List.mem_takeWhile_imp (p := isLineBreak) hc
  obtain ⟨m, hm⟩ := spaceCounts_append (hbreaks s) (s.dropWhile isLineBreak)
  obtain ⟨n, hn⟩ := spaceCounts_append (hbreaks t) (t.dropWhile isLineBreak)
  rw [List.takeWhile_append_dropWhile] at hm hn
  rw [hm, hn, h, List.length_append, List.length_append, List.length_replicate, List.length_replicate] at hlength
  rw [hm, hn, h, Nat.add_right_cancel hlength]

/-! When two indentations leave the same -/

theorem spaceCounts_outdented (i : Nat) {ls : List (List Char)} (h : ∀ line ∈ ls, '\n' ∉ line) (hne : ls ≠ []) :
    spaceCounts (joinLines (ls.map (outdented i))) = ls.map fun line => line.count ' ' - outdent i line := by
  rw [spaceCounts_joinLines ?_ (by simpa using hne), List.map_map]
  · apply List.map_congr_left
    intro line _
    have hcount := count_outdented i line
    rw [Function.comp_apply]
    omega
  · intro line hline
    obtain ⟨own, hown, rfl⟩ := List.mem_map.mp hline
    exact fun hmem => h own hown (List.mem_of_mem_drop hmem)

/-- From the text that two indentations leave, one reads how many spaces each took. -/
theorem dropWhile_outdented_iff (n i : Nat) {ls : List (List Char)} (h : ∀ line ∈ ls, '\n' ∉ line) (hne : ls ≠ []) :
    (joinLines (ls.map (outdented n))).dropWhile isLineBreak = (joinLines (ls.map (outdented i))).dropWhile isLineBreak ↔
      ∀ line ∈ ls, outdent n line = outdent i line := by
  constructor
  · intro heq
    have hsame := spaceCounts_eq heq (by
      rw [spaceCounts_outdented n h hne, spaceCounts_outdented i h hne, List.length_map, List.length_map])
    rw [spaceCounts_outdented n h hne, spaceCounts_outdented i h hne, List.map_inj_left] at hsame
    intro line hline
    have hcount := hsame line hline
    have hn := count_outdented n line
    have hi := count_outdented i line
    omega
  · intro hsame
    have hlines : ls.map (outdented n) = ls.map (outdented i) := by
      apply List.map_congr_left
      intro line hline
      rw [outdented, outdented, hsame line hline]
    rw [hlines]

/-- Two indentations leave the same of a block exactly when they take the same from each line of its content. -/
theorem outdentedBlock_eq_iff (n i : Nat) (block : List Char) :
    outdentedBlock n block = outdentedBlock i block ↔ ∀ line ∈ contentLines block, outdent n line = outdent i line := by
  rw [contentLines]
  rcases exists_last_nonblank (block.splitOn '\n') with hblank | ⟨front, last, back, hblock, hcontent, hlast, hback⟩
  · rw [outdentedBlock_of_blank n hblank, outdentedBlock_of_blank i hblank, List.rdropWhile_eq_nil_iff.mpr hblank]
    exact ⟨fun _ => List.forall_mem_nil _, fun _ => rfl⟩
  · have hfeed : ∀ line ∈ front ++ [trimEnd last], '\n' ∉ line := by
      have hmem {line : List Char} (hline : line ∈ front ++ last :: back) : '\n' ∉ line :=
        notMem_of_mem_splitOn (hblock ▸ hline)
      refine List.forall_mem_append.mpr ⟨fun line hline => hmem (List.mem_append_left _ hline), ?_⟩
      rw [List.forall_mem_singleton]
      exact fun hc => hmem (by simp) ((trimEnd_prefix_self last).subset hc)
    have hend (i : Nat) : outdent i (trimEnd last) = outdent i last := by rw [outdent, leadingSpaces_trimEnd hlast, ← outdent]
    rw [hcontent, outdentedBlock_eq n hblock hlast hback, outdentedBlock_eq i hblock hlast hback,
      dropWhile_outdented_iff n i hfeed (by simp), List.forall_mem_append, List.forall_mem_append,
      List.forall_mem_singleton, List.forall_mem_singleton, hend, hend]

/-! The block of a docstring -/

theorem delimiterIndent_eq (before : List Char) : delimiterIndent before = (lastLine before).count ' ' := rfl

theorem leadingSpaces_le_count (line : List Char) : leadingSpaces line ≤ line.count ' ' := by
  have hcount := congrArg (List.count ' ') (indented_drop (Nat.le_refl (leadingSpaces line)))
  rw [indented, List.count_append, List.count_replicate_self] at hcount
  omega

/-- The lines of a block lose as many spaces as the line of the opening delimiter holds. This is the block without the
indentation of that line exactly when the line holds no other spaces, or else no line of the block's content is indented
as far as that line is, or, when that is not indented at all, as far as it holds spaces. -/
theorem markdown_outdented {raw : String} {before rest : List Char} (hraw : raw.toList = before ++ (delimiter ++ rest))
    (hfirst : ¬ delimiter <:+: before ++ delimiter.dropLast) (htab : '\t' ∉ raw.toList) (fallback : String)
    (allMarkdown : Bool) :
    let line := lastLine before
    let block := (splitAtText delimiter rest).headD []
    (split fallback allMarkdown raw).markdown = String.ofList (outdentedBlock (line.count ' ') block) ∧
    ((split fallback allMarkdown raw).markdown = String.ofList (outdentedBlock (leadingSpaces line) block) ↔
      line.count ' ' = leadingSpaces line ∨ ∀ l ∈ contentLines block,
        leadingSpaces l < if leadingSpaces line = 0 then line.count ' ' else leadingSpaces line) := by
  intro line block
  obtain ⟨piece, pieces, hpieces⟩ := List.exists_cons_of_ne_nil (splitAtText_ne_nil delimiter rest)
  have hsections : splitAtText delimiter (expandTabs raw.toList) = before :: piece :: pieces := by
    rw [expandTabs_eq_self htab, hraw, splitAtText_append_append (by decide) hfirst, hpieces]
  have hblock : block = piece := by
    have hhead : block = (splitAtText delimiter rest).headD [] := rfl
    rw [hhead, hpieces, List.headD_cons]
  have hmarkdown : (split fallback allMarkdown raw).markdown = String.ofList (outdentedBlock (line.count ' ') block) := by
    rw [split_of_block hsections, unindentBlock_eq, delimiterIndent_eq, hblock]
  refine ⟨hmarkdown, ?_⟩
  rw [hmarkdown, String.ofList_inj, outdentedBlock_eq_iff]
  constructor
  · intro hsame
    by_cases heq : line.count ' ' = leadingSpaces line
    · exact .inl heq
    · exact .inr fun l hl => ((outdent_eq_iff l (leadingSpaces_le_count line)).mp (hsame l hl)).resolve_left heq
  · intro hcases l hl
    apply (outdent_eq_iff l (leadingSpaces_le_count line)).mpr
    exact hcases.imp_right fun hless => hless l hl

theorem title_block_outdented :
    "Title\n  @@@\n      ### md\n x\n  @@@ tail".toList =
      "Title\n  ".toList ++ (delimiter ++ "\n      ### md\n x\n  @@@ tail".toList) ∧
    (¬ delimiter <:+: "Title\n  ".toList ++ delimiter.dropLast) ∧
    '\t' ∉ "Title\n  @@@\n      ### md\n x\n  @@@ tail".toList ∧
    (lastLine "Title\n  ".toList).count ' ' = 2 ∧ leadingSpaces (lastLine "Title\n  ".toList) = 2 ∧
    (split "none" false "Title\n  @@@\n      ### md\n x\n  @@@ tail").markdown = "    ### md\n x" := by
  have hraw : "Title\n  @@@\n      ### md\n x\n  @@@ tail".toList =
      "Title\n  ".toList ++ (delimiter ++ "\n      ### md\n x\n  @@@ tail".toList) := by decide +kernel
  have hfirst : ¬ delimiter <:+: "Title\n  ".toList ++ delimiter.dropLast := by decide +kernel
  have htab : '\t' ∉ "Title\n  @@@\n      ### md\n x\n  @@@ tail".toList := by decide +kernel
  have hindent : (lastLine "Title\n  ".toList).count ' ' = leadingSpaces (lastLine "Title\n  ".toList) := by decide +kernel
  have hmarkdown := (markdown_outdented hraw hfirst htab "none" false).2.mpr (.inl hindent)
  exact ⟨hraw, hfirst, htab, by decide +kernel, by decide +kernel, hmarkdown.trans (by decide +kernel)⟩

/-- Behind the words `List all`, a block loses two spaces although its delimiter is not indented. -/
theorem words_taken_for_indentation :
    "List all @@@\n  - id\n@@@".toList = "List all ".toList ++ (delimiter ++ "\n  - id\n@@@".toList) ∧
    (¬ delimiter <:+: "List all ".toList ++ delimiter.dropLast) ∧ '\t' ∉ "List all @@@\n  - id\n@@@".toList ∧
    leadingSpaces (lastLine "List all ".toList) = 0 ∧
    outdentedBlock 0 ((splitAtText delimiter "\n  - id\n@@@".toList).headD []) = "  - id".toList ∧
    (split "none" false "List all @@@\n  - id\n@@@").markdown = "- id" ∧
    (split "none" false "List all @@@\n  - id\n@@@").markdown ≠ String.ofList
      (outdentedBlock (leadingSpaces (lastLine "List all ".toList)) ((splitAtText delimiter "\n  - id\n@@@".toList).headD [])) := by
  decide +kernel

end ApiHandbook.Docstring
