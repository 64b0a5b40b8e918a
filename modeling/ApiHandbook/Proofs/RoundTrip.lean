import ApiHandbook.Proofs.Outline

/-! The documentation as one text, read back: its outline is that of the aggregate unless a markdown block holds a stray
line. -/
namespace ApiHandbook.Markdown
open Text

theorem unlines_itemLines (ws : List (List Char)) : unlines (ws.map itemLine) = ws.flatMap codeItem := by
  rw [unlines, List.flatMap_map]
  apply List.flatMap_congr
  intro word _
  simp [itemLine, codeItem, tick]

theorem unlines_labelledLines (label text : String) :
    unlines (labelledLines ("**".toList ++ label.toList ++ "**".toList) text) = labelledWords label text := by
  have hend : "**\n\n".toList = "**".toList ++ ['\n', '\n'] := rfl
  rw [labelledLines, unlines_append, unlines_cons, unlines_cons, unlines_itemLines, labelledWords, hend]
  simp [unlines]

theorem unlines_headLines (e : Entry) :
    unlines (headLines e) = "### ".toList ++ e.name.toList ++ "\n\n".toList ++ labelledWords "URL" e.url ++
      match e.kind with
      | .api => labelledWords "Method" (e.method.getD "")
      | .restfulApi => [] := by
  have hu := unlines_labelledLines "URL" e.url
  have hm := unlines_labelledLines "Method" (e.method.getD "")
  have hs : "### ".toList = List.replicate entryLevel '#' ++ [' '] := rfl
  rw [show "**".toList ++ "URL".toList ++ "**".toList = "**URL**".toList from rfl] at hu
  rw [show "**".toList ++ "Method".toList ++ "**".toList = "**Method**".toList from rfl] at hm
  unfold headLines
  rw [unlines_append, unlines_cons, unlines_cons, hu, headingLine, hs]
  cases e.kind with
  | api =>
    dsimp only
    rw [hm]
    simp
  | restfulApi => simp

theorem unlines_docLines (e : Entry) :
    unlines (docLines e) = fenceAround e.doc.toList ++ "doc\n".toList ++ e.doc.toList ++
      '\n' :: fenceAround e.doc.toList ++ "\n\n".toList := by
  rw [docLines, unlines_append, unlines_cons, unlines_splitOn, text_docFence]
  simp [unlines]

theorem unlines_blockLines (e : Entry) :
    unlines (blockLines e) = if isBlankText e.docMd.toList then []
      else demoteHeadings entryLevel e.docMd.toList ++ "\n\n".toList := by
  rw [blockLines]
  split
  · rfl
  · rename_i h
    have hne : demotedLines entryLevel none (lines e.docMd.toList) ≠ [] := by
      have hs : e.docMd.toList ≠ [] := fun hn => h (by rw [hn]; rfl)
      obtain ⟨line, rest, hl⟩ := List.exists_cons_of_ne_nil (lines_ne_nil hs)
      rw [hl, demotedLines_cons]
      simp
    rw [unlines_append, ← joinLines_append hne, demoteHeadings]
    simp [unlines]

theorem entryText_eq (e : Entry) : entryText e = unlines (entryLines e) := by
  rw [entryLines, unlines_append, unlines_append, unlines_headLines, unlines_docLines, unlines_blockLines]
  unfold entryText
  cases e.kind with
  | api => simp only [List.append_assoc]
  | restfulApi => simp only [List.append_assoc]

theorem groupText_eq (g : Group) : groupText g = unlines (groupLines g) := by
  have hc : g.children.flatMap entryText = unlines (g.children.flatMap entryLines) := by
    rw [unlines_flatMap]
    exact List.flatMap_congr fun e _ => entryText_eq e
  rw [groupText, hc, groupLines, unlines_cons, unlines_cons, headingLine]
  simp [List.replicate_succ]

theorem notMem_demotedLines {ls : List (List Char)} (h : ∀ line ∈ ls, '\n' ∉ line) (levels : Nat)
    (opened : Option Fence) (hv : ∀ o ∈ opened, o.Valid) : ∀ line ∈ demotedLines levels opened ls, '\n' ∉ line := by
  induction ls generalizing opened with
  | nil =>
    cases opened with
    | none => simp [demotedLines]
    | some o =>
      intro line hline hn
      obtain rfl := List.mem_singleton.mp hline
      have hc := List.eq_of_mem_replicate hn
      rcases (hv o rfl).char_eq with ht | ht <;> rw [ht] at hc <;> exact absurd hc (by decide)
  | cons first ls ih =>
    rw [demotedLines_cons]
    intro line hline
    rcases List.mem_cons.mp hline with rfl | hline
    · have hf := h first (by simp)
      rcases demotedLine_cases levels opened first with ⟨level, -, -, -, hd⟩ | ⟨hd, -⟩
      · rw [hd, demotedHeading]
        intro hn
        rcases List.mem_append.mp hn with hn | hn
        · exact absurd (List.eq_of_mem_replicate hn) (by decide)
        · exact hf ((List.dropWhile_suffix _).subset (List.mem_of_mem_drop hn))
      · rwa [hd]
    · exact ih (fun l hl => h l (by simp [hl])) _ (fun o ho => valid_of_fenceAfter hv ho) line hline

theorem notMem_of_mem_words {s word : List Char} (h : word ∈ words s) : '\n' ∉ word :=
  fun hn => absurd ((isWord_of_mem_words h).2 '\n' hn) (by decide)

theorem notMem_labelledLines {label : List Char} (h : '\n' ∉ label) (text : String) :
    ∀ line ∈ labelledLines label text, '\n' ∉ line := by
  intro line hline
  simp only [labelledLines, List.cons_append, List.mem_cons, List.mem_append, List.mem_map, List.not_mem_nil,
    or_false] at hline
  rcases hline with rfl | rfl | ⟨word, hw, rfl⟩ | rfl
  · exact h
  · exact List.not_mem_nil
  · have := notMem_of_mem_words hw
    simp [itemLine, tick, this]
  · exact List.not_mem_nil

theorem notMem_headingLine {text : List Char} (h : '\n' ∉ text) (level : Nat) : '\n' ∉ headingLine level text := by
  intro hn
  rcases List.mem_append.mp hn with hn | hn
  · exact absurd (List.eq_of_mem_replicate hn) (by decide)
  · exact h (by simpa using hn)

theorem notMem_headLines {e : Entry} (h : '\n' ∉ e.name.toList) : ∀ line ∈ headLines e, '\n' ∉ line := by
  have hu := @notMem_labelledLines "**URL**".toList (by decide) e.url
  have hm := @notMem_labelledLines "**Method**".toList (by decide) (e.method.getD "")
  intro line hline
  unfold headLines at hline
  rcases List.mem_append.mp hline with hline | hline
  · rcases List.mem_cons.mp hline with rfl | hline
    · exact notMem_headingLine h entryLevel
    · rcases List.mem_cons.mp hline with rfl | hline
      · exact List.not_mem_nil
      · exact hu line hline
  · cases hk : e.kind with
    | api =>
      rw [hk] at hline
      exact hm line hline
    | restfulApi =>
      rw [hk] at hline
      cases hline

theorem notMem_docLines (e : Entry) : ∀ line ∈ docLines e, '\n' ∉ line := by
  have hf : '\n' ∉ (docFence e.doc.toList).text := fun hn =>
    absurd (List.eq_of_mem_replicate hn) (by simp [docFence, tick])
  intro line hline
  simp only [docLines, List.cons_append, List.mem_cons, List.mem_append, List.not_mem_nil, or_false] at hline
  rcases hline with rfl | hline | rfl | rfl
  · simpa using hf
  · exact notMem_of_mem_splitOn hline
  · exact hf
  · exact List.not_mem_nil

theorem notMem_blockLines (e : Entry) : ∀ line ∈ blockLines e, '\n' ∉ line := by
  intro line hline
  rw [blockLines] at hline
  split at hline
  · cases hline
  · rcases List.mem_append.mp hline with hline | hline
    · exact notMem_demotedLines (fun _ h => notMem_of_mem_lines h) _ none (by simp) line hline
    · obtain rfl := List.mem_singleton.mp hline
      exact List.not_mem_nil

theorem notMem_entryLines {e : Entry} (h : '\n' ∉ e.name.toList) : ∀ line ∈ entryLines e, '\n' ∉ line := by
  intro line hline
  rcases List.mem_append.mp hline with hline | hline
  · exact notMem_headLines h line hline
  · rcases List.mem_append.mp hline with hline | hline
    · exact notMem_docLines e line hline
    · exact notMem_blockLines e line hline

theorem notMem_groupLines {g : Group} (h : OneLineNames g) : ∀ line ∈ groupLines g, '\n' ∉ line := by
  intro line hline
  rw [groupLines] at hline
  rcases List.mem_cons.mp hline with rfl | hline
  · exact notMem_headingLine h.heading.1 2
  · rcases List.mem_cons.mp hline with rfl | hline
    · exact List.not_mem_nil
    · obtain ⟨e, he, hline⟩ := List.mem_flatMap.mp hline
      exact notMem_entryLines (h.entries e he).1 line hline

/-- Lines of which the last but one ends with no blank and the last is empty. -/
def EndsTidy (ls : List (List Char)) : Prop := ∃ front last, ls = front ++ [last, []] ∧ Tidy last ∧ last ≠ []

theorem EndsTidy.append {ls : List (List Char)} (h : EndsTidy ls) (before : List (List Char)) :
    EndsTidy (before ++ ls) := by
  obtain ⟨front, last, rfl, ht, hn⟩ := h
  exact ⟨before ++ front, last, by simp, ht, hn⟩

theorem endsTidy_flatMap {α : Type} {items : List α} {f : α → List (List Char)} (hne : items ≠ [])
    (h : ∀ a ∈ items, EndsTidy (f a)) : EndsTidy (items.flatMap f) := by
  obtain ⟨front, last, rfl⟩ : ∃ front last, items = front ++ [last] :=
    ⟨items.dropLast, items.getLast hne, (List.dropLast_concat_getLast hne).symm⟩
  rw [List.flatMap_append, List.flatMap_singleton]
  exact (h last (by simp)).append _

theorem tidy_text {f : Fence} (hf : f.Valid) : Tidy f.text ∧ f.text ≠ [] := by
  obtain ⟨n, hn⟩ : ∃ n, f.length = n + 1 := ⟨f.length - 1, by have := hf.three_le; omega⟩
  refine ⟨fun c hc => ?_, by simp [Fence.text, hn]⟩
  have := List.eq_of_mem_replicate (List.mem_of_getLast? hc)
  rcases hf.char_eq with h | h <;> rw [this, h] <;> decide

theorem endsTidy_docLines (e : Entry) : EndsTidy (docLines e) := by
  obtain ⟨ht, hn⟩ := tidy_text (docFence_valid e.doc.toList)
  exact ⟨((docFence e.doc.toList).text ++ "doc".toList) :: e.doc.toList.splitOn '\n', _, rfl, ht, hn⟩

theorem tidy_demotedLine {line : List Char} (ht : Tidy line) (hn : line ≠ []) (levels : Nat) (opened : Option Fence) :
    Tidy (demotedLine levels opened line) ∧ demotedLine levels opened line ≠ [] := by
  rcases demotedLine_cases levels opened line with ⟨level, -, -, hl, hd⟩ | ⟨hd, -⟩
  · obtain ⟨⟨h1, -⟩, -⟩ := (headingLevel?_eq_some_iff _ level).mp hl
    obtain ⟨k, hk⟩ : ∃ k, min (level + levels) 6 = k + 1 := ⟨min (level + levels) 6 - 1, by omega⟩
    rw [hd, demotedHeading, hk]
    refine ⟨?_, by simp [List.replicate_succ]⟩
    have hs : Tidy ((trimStart line).drop level) :=
      ht.of_suffix ((List.drop_suffix _ _).trans (List.dropWhile_suffix _))
    cases hr : (trimStart line).drop level with
    | nil =>
      rw [List.append_nil]
      intro c hc
      rw [List.eq_of_mem_replicate (List.mem_of_getLast? hc)]
      decide
    | cons c rest => exact (hr ▸ hs).append (by simp)
  · rw [hd]
    exact ⟨ht, hn⟩

theorem demotedLines_of_tidy (front : List (List Char)) {last : List Char} (ht : Tidy last) (hn : last ≠ [])
    (levels : Nat) (opened : Option Fence) (hv : ∀ o ∈ opened, o.Valid) :
    ∃ before final, demotedLines levels opened (front ++ [last]) = before ++ [final] ∧ Tidy final ∧ final ≠ [] := by
  induction front generalizing opened with
  | nil =>
    rw [List.nil_append, demotedLines_cons]
    cases ha : fenceAfter opened last with
    | none =>
      exact ⟨[], _, rfl, tidy_demotedLine ht hn levels opened⟩
    | some f =>
      exact ⟨[demotedLine levels opened last], f.text, rfl, tidy_text (valid_of_fenceAfter hv ha)⟩
  | cons first front ih =>
    obtain ⟨before, final, he, hf⟩ := ih (fenceAfter opened first) fun o ho => valid_of_fenceAfter hv ho
    rw [List.cons_append, demotedLines_cons, he]
    exact ⟨demotedLine levels opened first :: before, final, rfl, hf⟩

theorem endsTidy_entryLines {e : Entry} (h : Tidy e.docMd.toList) : EndsTidy (entryLines e) := by
  refine EndsTidy.append ?_ (headLines e)
  by_cases hb : isBlankText e.docMd.toList = true
  · rw [blockLines, if_pos hb, List.append_nil]
    exact endsTidy_docLines e
  · refine EndsTidy.append ?_ (docLines e)
    obtain ⟨front, last, hl, ht, hn⟩ := lines_of_tidy h fun hn => hb (by rw [hn]; rfl)
    obtain ⟨before, final, hd, hf⟩ := demotedLines_of_tidy front ht hn entryLevel none (by simp)
    rw [blockLines, if_neg hb, hl, hd]
    exact ⟨before, final, by simp, hf⟩

/-- An aggregate as it is written down: groups have entries, and markdown blocks do not end with a blank. -/
structure Writable (g : Group) : Prop extends OneLineNames g where
  children_ne_nil : g.children ≠ []
  tidy : ∀ e ∈ g.children, Tidy e.docMd.toList

theorem endsTidy_groupLines {g : Group} (h : Writable g) : EndsTidy (groupLines g) :=
  (endsTidy_flatMap h.children_ne_nil fun e he => endsTidy_entryLines (h.tidy e he)).append
    [headingLine 2 (groupHeading g), []]

theorem groupsText_eq (groups : List Group) : groups.flatMap groupText = unlines (groups.flatMap groupLines) := by
  rw [unlines_flatMap]
  exact List.flatMap_congr fun g _ => groupText_eq g

/-- The document is its preamble and the lines of the groups without the empty one at the end. -/
theorem document_eq (settings : Settings) {aggregate : Aggregate} (h : ∀ g ∈ aggregate, Writable g)
    (hne : aggregate ≠ []) :
    ∃ front, aggregate.flatMap groupLines = front ++ [[]] ∧
      (document settings aggregate).toList = preamble settings ++ unlines front := by
  obtain ⟨front, last, hl, ht, hn⟩ := endsTidy_flatMap hne fun g hg => endsTidy_groupLines (h g hg)
  refine ⟨front ++ [last], by rw [hl]; simp, ?_⟩
  have hu : preamble settings ++ unlines (front ++ [last, []]) =
      (preamble settings ++ unlines front ++ last) ++ ['\n', '\n'] := by
    simp [unlines_append, unlines_cons]
  rw [document, String.toList_ofList, groupsText_eq, hl, hu, trimEnd_append_of_blank (by decide),
    trimEnd_of_tidy (ht.append hn), unlines_append, unlines_cons, unlines_nil, List.append_assoc, List.append_assoc]

theorem exists_preamble_eq (settings : Settings) : ∃ front, preamble settings = front ++ ['\n', '\n'] := by
  have hend : "\n\n".toList = ['\n', '\n'] := rfl
  rw [← hend, preamble]
  split
  · exact ⟨_, List.append_nil _⟩
  · exact ⟨_, (List.append_assoc _ _ _).symm⟩

theorem length_trimEnd_le (s : List Char) : (trimEnd s).length ≤ s.length := by
  have := (List.dropWhile_sublist (l := s.reverse) isBlank).length_le
  rw [trimEnd, dropEndWhile, List.length_reverse]
  simpa using this

/-- What is written after the preamble. -/
def written (settings : Settings) (aggregate : Aggregate) : List Char :=
  (document settings aggregate).toList.drop (preamble settings).length

theorem written_nil (settings : Settings) : written settings [] = [] := by
  obtain ⟨front, hf⟩ := exists_preamble_eq settings
  have hl := length_trimEnd_le front
  rw [written, List.drop_eq_nil_iff, document, String.toList_ofList, List.flatMap_nil, List.append_nil, hf,
    trimEnd_append_of_blank (by decide), List.length_append, List.length_append]
  simp only [List.length_cons, List.length_nil]
  omega

theorem written_eq (settings : Settings) {aggregate : Aggregate} (h : ∀ g ∈ aggregate, Writable g)
    (hne : aggregate ≠ []) :
    ∃ front, aggregate.flatMap groupLines = front ++ [[]] ∧ written settings aggregate = unlines front := by
  obtain ⟨front, hl, hd⟩ := document_eq settings h hne
  exact ⟨front, hl, by rw [written, hd, List.drop_left]⟩

/-- The outline that is read back is the aggregate's just when no markdown block holds a stray line. -/
theorem readOutline_written_iff (settings : Settings) {aggregate : Aggregate} (h : ∀ g ∈ aggregate, Writable g) :
    readOutline (written settings aggregate) = aggregate.flatMap groupOutline ↔
      ∀ g ∈ aggregate, ∀ e ∈ g.children, entryStrays e = [] := by
  by_cases hne : aggregate = []
  · subst hne
    rw [written_nil]
    simp [readOutline, outline, marks, show lines [] = [] from rfl]
  · obtain ⟨front, hl, hw⟩ := written_eq settings h hne
    have hn : ∀ line ∈ front ++ [[]], '\n' ∉ line := by
      intro line hline
      rw [← hl] at hline
      obtain ⟨g, hg, hline⟩ := List.mem_flatMap.mp hline
      exact notMem_groupLines (h g hg).toOneLineNames line hline
    obtain ⟨hm, ho⟩ := marks_flatMap_lines fun g hg => marks_groupLines (h g hg).toOneLineNames
    rw [hl, List.map_append, marks_append] at hm
    rw [hl, List.map_append, openAfter_append] at ho
    have hof : openAfter none (front.map dropReturn) = none := ho
    rw [← outline_marks_iff, ← hm, hof, readOutline, hw, lines_unlines fun line hline => hn line (by simp [hline])]
    have hlast : marks none (List.map dropReturn [[]]) = [.other] := rfl
    rw [hlast, outline_concat_other]

theorem prefix_of_concat_eq {s t u : List Char} {c : Char} (h : s ++ [c] = t ++ u) (hu : u ≠ []) : t <+: s := by
  have hd := congrArg List.dropLast h
  rw [List.dropLast_concat, List.dropLast_append_of_ne_nil hu] at hd
  exact ⟨u.dropLast, hd.symm⟩

/-- What stands before something else in the text of all groups stands at the front of what is written. -/
theorem prefix_written (settings : Settings) {aggregate : Aggregate} (h : ∀ g ∈ aggregate, Writable g)
    (hne : aggregate ≠ []) {before rest : List Char} (hrest : rest ≠ [])
    (hw : aggregate.flatMap groupText = before ++ rest) : before <+: written settings aggregate := by
  obtain ⟨front, hl, he⟩ := written_eq settings h hne
  rw [he]
  refine @prefix_of_concat_eq _ _ rest '\n' ?_ hrest
  rw [← hw, groupsText_eq, hl, unlines_append]
  rfl

/-- The text before the heading of a group. -/
def beforeGroup (groups : List Group) : List Char := groups.flatMap groupText

/-- The text before the heading of an entry. -/
def beforeEntry (groups : List Group) (g : Group) (entries : List Entry) : List Char :=
  beforeGroup groups ++ "## ".toList ++ groupHeading g ++ "\n\n".toList ++ entries.flatMap entryText

theorem beforeEntry_eq (groups : List Group) (g : Group) (entries : List Entry) :
    beforeEntry groups g entries =
      unlines (groups.flatMap groupLines ++ headingLine 2 (groupHeading g) :: [] :: entries.flatMap entryLines) := by
  have hc : entries.flatMap entryText = unlines (entries.flatMap entryLines) := by
    rw [unlines_flatMap]
    exact List.flatMap_congr fun e _ => entryText_eq e
  rw [beforeEntry, beforeGroup, groupsText_eq, hc, unlines_append, unlines_cons, unlines_cons, headingLine]
  simp [List.replicate_succ]

theorem openAfter_beforeGroup {groups : List Group} (h : ∀ g ∈ groups, OneLineNames g) :
    openAfter none (lines (beforeGroup groups)) = none := by
  rw [beforeGroup, groupsText_eq, lines_unlines fun line hline => ?_]
  · exact (marks_flatMap_lines fun g hg => marks_groupLines (h g hg)).2
  · obtain ⟨g, hg, hline⟩ := List.mem_flatMap.mp hline
    exact notMem_groupLines (h g hg) line hline

theorem openAfter_beforeEntry {groups : List Group} {g : Group} {entries : List Entry}
    (h : ∀ k ∈ groups, OneLineNames k) (hg : OneLine (groupHeading g)) (he : ∀ e ∈ entries, OneLine e.name.toList) :
    openAfter none (lines (beforeEntry groups g entries)) = none := by
  rw [beforeEntry_eq, lines_unlines fun line hline => ?_]
  · rw [List.map_append, openAfter_append, (marks_flatMap_lines fun k hk => marks_groupLines (h k hk)).2, List.map_cons,
      dropReturn_headingLine hg, openAfter, List.foldl_cons, (lineMarks_headingLine (by decide) (by decide) _).2]
    exact (marks_flatMap_lines fun e hm => marks_entryLines (he e hm)).2
  · rcases List.mem_append.mp hline with hline | hline
    · obtain ⟨k, hk, hline⟩ := List.mem_flatMap.mp hline
      exact notMem_groupLines (h k hk) line hline
    · rcases List.mem_cons.mp hline with rfl | hline
      · exact notMem_headingLine hg.1 2
      · rcases List.mem_cons.mp hline with rfl | hline
        · exact List.not_mem_nil
        · obtain ⟨e, hm, hline⟩ := List.mem_flatMap.mp hline
          exact notMem_entryLines (he e hm).1 line hline

/-- A heading stands in what is written, on a line before which no block is open. -/
structure HeadingAt (text before heading : List Char) : Prop where
  stands : before ++ heading ++ ['\n'] <+: text
  closed : openAfter none (lines before) = none

theorem groupHeading_at (settings : Settings) {aggregate : Aggregate} (h : ∀ g ∈ aggregate, Writable g)
    {groups : List Group} {g : Group} {more : List Group} (ha : aggregate = groups ++ g :: more) :
    HeadingAt (written settings aggregate) (beforeGroup groups) ("## ".toList ++ groupHeading g) where
  stands := by
    have hw : aggregate.flatMap groupText = beforeGroup groups ++ ("## ".toList ++ groupHeading g) ++ ['\n'] ++
        '\n' :: (g.children.flatMap entryText ++ more.flatMap groupText) := by
      rw [ha, List.flatMap_append, List.flatMap_cons, groupText, beforeGroup]
      simp
    exact prefix_written settings h (by simp [ha]) (by simp) hw
  closed := openAfter_beforeGroup fun k hk => (h k (by simp [ha, hk])).toOneLineNames

theorem entryText_opening (e : Entry) : ∃ tail, entryText e = "### ".toList ++ e.name.toList ++ "\n\n".toList ++ tail := by
  unfold entryText
  simp only [List.append_assoc]
  exact ⟨_, rfl⟩

theorem entryHeading_at (settings : Settings) {aggregate : Aggregate} (h : ∀ g ∈ aggregate, Writable g)
    {groups : List Group} {g : Group} {more : List Group} (ha : aggregate = groups ++ g :: more) {entries : List Entry}
    {e : Entry} {others : List Entry} (he : g.children = entries ++ e :: others) :
    HeadingAt (written settings aggregate) (beforeEntry groups g entries) ("### ".toList ++ e.name.toList) where
  stands := by
    obtain ⟨tail, ht⟩ := entryText_opening e
    have hw : aggregate.flatMap groupText =
        beforeEntry groups g entries ++ ("### ".toList ++ e.name.toList) ++ ['\n'] ++
          '\n' :: (tail ++ others.flatMap entryText ++ more.flatMap groupText) := by
      rw [ha, List.flatMap_append, List.flatMap_cons, groupText, he, List.flatMap_append, List.flatMap_cons, ht,
        beforeEntry, beforeGroup]
      simp
    exact prefix_written settings h (by simp [ha]) (by simp) hw
  closed := by
    have hg := (h g (by simp [ha])).toOneLineNames
    exact openAfter_beforeEntry (fun k hk => (h k (by simp [ha, hk])).toOneLineNames) hg.heading
      fun d hd => hg.entries d (by simp [he, hd])

theorem tidy_nil : Tidy [] := by
  intro c hc
  cases hc

theorem tidy_tableLines (records : List Argument.Record) :
    ∀ line ∈ Argument.tableLines records, Tidy line ∧ line ≠ [] := by
  have hrow (cells : List (List Char)) : Tidy (Argument.tableRow cells) ∧ Argument.tableRow cells ≠ [] := by
    have ht : Tidy [' ', '|'] := by
      intro c hc
      obtain rfl := Option.some.inj hc
      decide
    rw [Argument.tableRow]
    exact ⟨ht.append (by simp), by simp⟩
  intro line hline
  simp only [Argument.tableLines, List.mem_cons, List.mem_map] at hline
  rcases hline with rfl | rfl | ⟨r, _, rfl⟩ <;> exact hrow _

theorem tidy_table {records : List Argument.Record} {table : String} (h : Argument.table? records = some table) :
    Tidy table.toList := by
  rw [Argument.table?] at h
  split at h
  · cases h
  · obtain rfl := Option.some.inj h
    rw [String.toList_ofList]
    have hne : Argument.tableLines records ≠ [] := by simp [Argument.tableLines]
    obtain ⟨ht, hn⟩ := tidy_tableLines records _ (List.getLast_mem hne)
    rw [← List.dropLast_concat_getLast hne, joinLines_concat]
    exact ht.append hn

theorem tidy_markdown (fallback : String) (allMarkdown : Bool) (raw : String) :
    Tidy (Docstring.split fallback allMarkdown raw).markdown.toList := by
  rw [Docstring.split]
  split
  · rw [String.toList_ofList]
    exact tidy_trimEnd _
  · split
    · rw [String.toList_ofList]
      exact tidy_trimEnd _
    · exact tidy_nil

theorem tidy_markdownBlock (settings : Settings) (handler : Handler) {block : String} (h : Tidy block.toList) :
    Tidy (settings.markdownBlock handler block).toList := by
  rw [Settings.markdownBlock]
  split
  · split
    · rename_i table ht
      split
      · exact tidy_table ht
      · rename_i hb
        rw [String.toList_append]
        refine h.append ?_
        simpa using hb
    · exact h
  · exact h

/-- The markdown blocks of an aggregate do not end with a blank. -/
theorem writable_of_mem_build {settings : Settings} {source : RouteSource} {g : Group}
    (hg : g ∈ Aggregate.build settings source) (h : OneLineNames g) : Writable g := by
  obtain ⟨hc, hne⟩ := Aggregate.children_of_mem_build settings source hg
  have hp : g.children.Perm (Aggregate.gathered settings source g.name) := hc ▸ List.mergeSort_perm _ _
  refine { h with children_ne_nil := fun hn => hne ?_, tidy := fun e he => ?_ }
  · rw [hn] at hp
    exact hp.symm.eq_nil
  · obtain ⟨first, handler, later, -, rfl⟩ := exists_opens_of_mem settings (hp.mem_iff.mp he)
    exact tidy_markdownBlock settings handler (tidy_markdown _ _ _)

instance (s : List Char) : Decidable (OneLine s) := inferInstanceAs (Decidable (_ ∧ _))

def shopSettings : Settings := { member := ["shop"] }

/-- The aggregate of an application with one function. -/
def shopAggregate (doc : String) : Aggregate :=
  Aggregate.build shopSettings (Application.ofRegistrations
    [.routeWithEndpoint "/goods" ["GET"] "shop.list_all" { name := "list_all", doc := some doc }]).source

def shopGroup (docMd : String) : Group :=
  ⟨"Shop", "", .api, [⟨"List All", "", "/goods", some "GET", "List", docMd, "Shop", .api⟩]⟩

theorem shopAggregate_eq_of_add {doc docMd : String} {c : ClassifiedRoute}
    (hc : (Application.ofRegistrations
      [.routeWithEndpoint "/goods" ["GET"] "shop.list_all" { name := "list_all", doc := some doc }]).source.classify
        shopSettings = [c])
    (ha : Aggregate.add shopSettings c [] = [shopGroup docMd]) : shopAggregate doc = [shopGroup docMd] := by
  rw [shopAggregate, Aggregate.build, hc, List.foldl_cons, ha]
  simp [shopGroup, Aggregate.sortEntries]

theorem oneLineNames_shopGroup (docMd : String) : OneLineNames (shopGroup docMd) where
  name := show OneLine "Shop".toList by decide
  nameExtra := show OneLine "".toList by decide
  entries e he := by
    obtain rfl := List.mem_singleton.mp he
    exact show OneLine "List All".toList by decide

/-- The documentation of an application is read back with the outline of its aggregate just when no markdown block
holds, outside its fences, a line of one to three hashes and a carriage return; and no block is ever open where the
heading of a group or an entry stands. -/
theorem outline_of_document (settings : Settings) (source : RouteSource)
    (h : ∀ g ∈ Aggregate.build settings source, OneLineNames g) :
    let aggregate := Aggregate.build settings source
    (readOutline (written settings aggregate) = aggregate.flatMap groupOutline ↔
      ∀ g ∈ aggregate, ∀ e ∈ g.children, strays none (lines e.docMd.toList) = []) ∧
    ∀ groups g more, aggregate = groups ++ g :: more →
      HeadingAt (written settings aggregate) (beforeGroup groups) ("## ".toList ++ groupHeading g) ∧
      ∀ entries e others, g.children = entries ++ e :: others →
        HeadingAt (written settings aggregate) (beforeEntry groups g entries) ("### ".toList ++ e.name.toList) := by
  intro aggregate
  have hw : ∀ g ∈ aggregate, Writable g := fun g hg => writable_of_mem_build hg (h g hg)
  refine ⟨readOutline_written_iff settings hw, fun groups g more ha => ⟨groupHeading_at settings hw ha, ?_⟩⟩
  exact fun entries e others he => entryHeading_at settings hw ha he

/-- A demoted block with headings and an open fence is read back without them. -/
theorem outline_of_shop_document :
    readOutline (written shopSettings (shopAggregate "List\n@@@\n# a\n~~~\n## b\n@@@")) =
      [.group "Shop".toList, .entry "List All".toList ["/goods".toList] ["GET".toList]] := by
  have hs : shopAggregate "List\n@@@\n# a\n~~~\n## b\n@@@" = [shopGroup "# a\n~~~\n## b"] :=
    shopAggregate_eq_of_add (c := ⟨.api, "Shop", none, "List All", "/goods", ["GET"], some
      { name := "list_all", doc := some "List\n@@@\n# a\n~~~\n## b\n@@@" }⟩) (by decide) (by decide)
  have h := outline_of_document shopSettings _ fun g hg => by
    rw [← shopAggregate, hs] at hg
    obtain rfl := List.mem_singleton.mp hg
    exact oneLineNames_shopGroup _
  rw [← shopAggregate] at h
  rw [h.1.mpr (by rw [hs]; decide), hs]
  decide

/-- One to three hashes before a carriage return are read back as a heading of the document. -/
theorem stray_read_as_title :
    (∀ g ∈ shopAggregate "List\n@@@\n#\r\r\nx\n@@@", OneLineNames g) ∧
    readOutline (written shopSettings (shopAggregate "List\n@@@\n#\r\r\nx\n@@@")) =
      [.group "Shop".toList, .entry "List All".toList ["/goods".toList] ["GET".toList], .title []] ∧
    (shopAggregate "List\n@@@\n#\r\r\nx\n@@@").flatMap groupOutline =
      [.group "Shop".toList, .entry "List All".toList ["/goods".toList] ["GET".toList]] := by
  have hs : shopAggregate "List\n@@@\n#\r\r\nx\n@@@" = [shopGroup "#\r\r\nx"] :=
    shopAggregate_eq_of_add (c := ⟨.api, "Shop", none, "List All", "/goods", ["GET"], some
      { name := "list_all", doc := some "List\n@@@\n#\r\r\nx\n@@@" }⟩) (by decide) (by decide)
  rw [hs]
  refine ⟨fun g hg => ?_, by decide +kernel, by decide⟩
  obtain rfl := List.mem_singleton.mp hg
  exact oneLineNames_shopGroup _

end ApiHandbook.Markdown
