import ApiHandbook.Proofs.Indentation
import ApiHandbook.Proofs.RoundTrip

/-! What the description in the settings does to the headings of groups and entries. It is written as it stands, so that
its own headings are read with them, and a block that it leaves open swallows them. -/
namespace ApiHandbook.Markdown
open Text

/-- Whether a mark is a heading of the level of groups or of entries. -/
def Mark.inOutline : Mark → Bool
  | .heading level _ => level = 2 || level = entryLevel
  | _ => false

/-- The headings of groups and entries that are read from lines when the given block is open before them. -/
def headingsFrom (opened : Option Fence) (ls : List (List Char)) : List Mark :=
  (marks opened ls).filter Mark.inOutline

def headings (s : String) : List Mark := headingsFrom none (lines s.toList)

/-- The title and the version. -/
def front (settings : Settings) : List Char :=
  "# ".toList ++ settings.title.toList ++ "\n\n".toList ++ "> version: ".toList ++ settings.version.toList ++ "\n\n".toList

/-- The headings that are read from a description behind the title and the version, and the block that it leaves open. -/
def described (settings : Settings) (description : String) : List Mark × Option Fence :=
  let opened := openAfter none (lines (front settings))
  let ls := lines (trim description.toList)
  (headingsFrom opened ls, openAfter opened ls)

theorem headingsFrom_append (opened : Option Fence) (ls more : List (List Char)) :
    headingsFrom opened (ls ++ more) = headingsFrom opened ls ++ headingsFrom (openAfter opened ls) more := by
  rw [headingsFrom, marks_append, List.filter_append]
  rfl

theorem headingsFrom_cons (opened : Option Fence) (line : List Char) (ls : List (List Char)) :
    headingsFrom opened (line :: ls) =
      (lineMarks opened line).filter Mark.inOutline ++ headingsFrom (fenceAfter opened line) ls := by
  rw [headingsFrom, marks, List.filter_append]
  rfl

theorem headingsFrom_nil_cons (opened : Option Fence) (ls : List (List Char)) :
    headingsFrom opened ([] :: ls) = headingsFrom opened ls := by
  rw [headingsFrom_cons]
  cases opened <;> rfl

theorem inOutline_lineMark {line : List Char} (h : headingLevel? (trimStart line) = none) :
    (lineMark line).inOutline = false := by
  rw [lineMark, h]
  dsimp only
  split
  · rfl
  · split <;> rfl

/-- The line of the version is no heading, with or without the blanks at its end. -/
theorem headingsFrom_quote {line : List Char} (h : line.head? = some '>') (opened : Option Fence) :
    headingsFrom opened [line] = [] := by
  obtain ⟨rest, rfl⟩ : ∃ rest, line = '>' :: rest := List.head?_eq_some_iff.mp h
  have hstart : trimStart ('>' :: rest) = '>' :: rest := trimStart_of_head fun _ hc => by
    cases hc
    decide
  have hfence : Fence.ofLine? (trimStart ('>' :: rest)) = none := by
    rw [hstart]
    exact ofLine?_of_notMem fun _ hc => by
      cases hc
      decide
  have hlevel : headingLevel? (trimStart ('>' :: rest)) = none := by
    rw [hstart]
    rfl
  rw [headingsFrom_cons]
  cases opened with
  | some f => rfl
  | none =>
    unfold lineMarks
    rw [hfence, List.filter_singleton, inOutline_lineMark hlevel]
    rfl

theorem head?_dropReturn {c : Char} (hc : c ≠ '\r') {line : List Char} (h : line.head? = some c) :
    (dropReturn line).head? = some c := by
  obtain ⟨rest, rfl⟩ : ∃ rest, line = c :: rest := List.head?_eq_some_iff.mp h
  cases rest with
  | nil => rw [dropReturn_eq_self (by simpa using hc), h]
  | cons d rest => rw [show c :: d :: rest = [c] ++ d :: rest from rfl, dropReturn_append (List.cons_ne_nil d rest)]; rfl

section Document
variable (settings : Settings)

theorem exists_front_eq : ∃ before, front settings = before ++ ['\n'] :=
  ⟨"# ".toList ++ settings.title.toList ++ "\n\n".toList ++ "> version: ".toList ++ settings.version.toList ++ ['\n'],
    (List.append_assoc _ ['\n'] ['\n']).symm⟩

theorem preamble_eq : preamble settings =
    front settings ++ if isBlankText settings.description.toList then []
      else trim settings.description.toList ++ "\n\n".toList := rfl

/-- The title, the version and the description are read before what follows them. -/
theorem headingsFrom_preamble (body : List Char) : headingsFrom none (lines (preamble settings ++ body)) =
    headingsFrom none (lines (front settings)) ++ (described settings settings.description).1 ++
      headingsFrom (described settings settings.description).2 (lines body) := by
  obtain ⟨before, hfront⟩ := exists_front_eq settings
  have hlines (rest : List Char) : lines (front settings ++ rest) = lines (front settings) ++ lines rest := by
    rw [hfront, List.append_assoc, List.singleton_append, lines_concat_append]
  rw [preamble_eq, List.append_assoc, hlines, headingsFrom_append, described]
  by_cases hblank : isBlankText settings.description.toList = true
  · rw [if_pos hblank, trim_eq_nil hblank, List.append_assoc]
    rfl
  · have htidy : Tidy (trim settings.description.toList) := tidy_trimEnd _
    have hne := trim_ne_nil (Bool.eq_false_iff.mpr hblank)
    have hdescription : lines (trim settings.description.toList ++ "\n\n".toList ++ body) =
        lines (trim settings.description.toList) ++ [] :: lines body := by
      rw [show "\n\n".toList = ['\n', '\n'] from rfl, List.append_assoc, List.cons_append, List.cons_append,
        List.nil_append, lines_concat_append, lines_concat_of_tidy htidy hne]
      exact congrArg _ (lines_append_cons List.not_mem_nil body)
    rw [if_neg hblank, hdescription, headingsFrom_append, headingsFrom_nil_cons, List.append_assoc]

/-- The text of groups, without what is cut off at the end of the document. -/
def body (aggregate : Aggregate) : List Char := trimEnd (aggregate.flatMap groupText) ++ ['\n']

theorem document_eq_append {aggregate : Aggregate} (hne : aggregate ≠ []) :
    (document settings aggregate).toList = preamble settings ++ body aggregate := by
  obtain ⟨g, groups, rfl⟩ := List.exists_cons_of_ne_nil hne
  have hbody : trimEnd ((g :: groups).flatMap groupText) ≠ [] := fun hnil =>
    absurd (isBlankText_iff.mp (trimEnd_eq_nil_iff.mp hnil) '#' (by simp [groupText])) (by decide)
  rw [document, String.toList_ofList, trimEnd_append hbody, List.append_assoc]
  rfl

theorem headings_document {aggregate : Aggregate} (hne : aggregate ≠ []) : headings (document settings aggregate) =
    headingsFrom none (lines (front settings)) ++ (described settings settings.description).1 ++
      headingsFrom (described settings settings.description).2 (lines (body aggregate)) := by
  rw [headings, document_eq_append settings hne, headingsFrom_preamble]

/-- The line of the version, behind which blanks may be cut off, is no heading. -/
theorem headingsFrom_front (hversion : '\n' ∉ settings.version.toList) :
    headingsFrom none (lines (trimEnd (front settings) ++ ['\n'])) = headingsFrom none (lines (front settings)) := by
  generalize htitle : "# ".toList ++ settings.title.toList = title
  generalize hline : "> version: ".toList ++ settings.version.toList = version
  have hsplit : front settings = title ++ '\n' :: '\n' :: (version ++ ['\n', '\n']) := by
    rw [← htitle, ← hline]
    simp [front]
  have hlines (rest : List Char) : lines (title ++ '\n' :: '\n' :: rest) = lines (title ++ ['\n']) ++ [] :: lines rest := by
    rw [lines_concat_append]
    exact congrArg _ (lines_append_cons List.not_mem_nil rest)
  have hmark : version.head? = some '>' := by
    rw [← hline]
    rfl
  have hnone : '\n' ∉ version := by
    rw [← hline]
    simpa using hversion
  obtain ⟨cut, hcut⟩ := trimEnd_prefix_self version
  have hne : trimEnd version ≠ [] := fun hnil =>
    absurd (isBlankText_iff.mp (trimEnd_eq_nil_iff.mp hnil) '>' (List.mem_of_mem_head? hmark)) (by decide)
  have hkept : (trimEnd version).head? = some '>' := by
    rw [← hmark]
    conv_rhs => rw [← hcut]
    exact (List.head?_append_of_ne_nil _ hne).symm
  have htrimmed : trimEnd (front settings) ++ ['\n'] = title ++ '\n' :: '\n' :: (trimEnd version ++ ['\n']) := by
    have hcutEnd : trimEnd (version ++ ['\n', '\n']) = trimEnd version := trimEnd_append_of_blank rfl version
    have happend := trimEnd_append (hcutEnd ▸ hne) (title ++ ['\n', '\n'])
    rw [hcutEnd, List.append_assoc, List.append_assoc] at happend
    rw [hsplit, show trimEnd (title ++ '\n' :: '\n' :: (version ++ ['\n', '\n'])) = _ from happend]
    simp
  have hcutLine : lines (trimEnd version ++ ['\n']) = [dropReturn (trimEnd version)] :=
    lines_append_cons (fun hmem => hnone ((trimEnd_prefix_self version).subset hmem)) []
  have hline : lines (version ++ ['\n', '\n']) = [dropReturn version] ++ [[]] := lines_append_cons hnone ['\n']
  rw [htrimmed, hsplit, hlines, hlines, hcutLine, hline, headingsFrom_append, headingsFrom_append, headingsFrom_nil_cons,
    headingsFrom_nil_cons, headingsFrom_append, headingsFrom_quote (head?_dropReturn (by decide) hkept),
    headingsFrom_quote (head?_dropReturn (by decide) hmark), headingsFrom_nil_cons]
  rfl

/-- Where there are no groups, the blanks at the end of the text before them are cut off, too. -/
theorem headings_document_nil (hversion : '\n' ∉ settings.version.toList) : headings (document settings []) =
    headingsFrom none (lines (front settings)) ++ (described settings settings.description).1 := by
  rw [headings, document, String.toList_ofList, List.flatMap_nil, List.append_nil, preamble_eq]
  by_cases hblank : isBlankText settings.description.toList = true
  · rw [if_pos hblank, described, trim_eq_nil hblank, List.append_nil, headingsFrom_front settings hversion]
    exact (List.append_nil _).symm
  · obtain ⟨before, hfront⟩ := exists_front_eq settings
    have htidy : Tidy (trim settings.description.toList) := tidy_trimEnd _
    have hne := trim_ne_nil (Bool.eq_false_iff.mpr hblank)
    rw [if_neg hblank, ← List.append_assoc, trimEnd_append_of_blank (by decide), trimEnd_of_tidy (htidy.append hne), hfront,
      List.append_assoc, List.append_assoc, List.singleton_append, lines_concat_append, lines_concat_of_tidy htidy hne,
      headingsFrom_append, described, hfront]

end Document

/-- Blocks that end each other begin alike. -/
theorem Fence.eq_of_closes {f g : Fence} (h : f.closes g = true) (h' : g.closes f = true) : f = g := by
  rw [Fence.closes, Bool.and_eq_true, beq_iff_eq, decide_eq_true_eq] at h h'
  cases f
  cases g
  simp only [Fence.mk.injEq]
  exact ⟨h.1, Nat.le_antisymm h'.2 h.2⟩

section Probes

/-- A group whose name takes three lines, of which the last one is a heading. -/
def probe (line heading : List Char) : Group :=
  { name := String.ofList ('\n' :: line ++ '\n' :: headingLine 2 heading), nameExtra := "", kind := .api, children := [] }

theorem groupText_probe (line heading : List Char) : groupText (probe line heading) =
    unlines [headingLine 2 [], line] ++ headingLine 2 heading ++ ['\n', '\n'] := by
  have hheading : groupHeading (probe line heading) = '\n' :: line ++ '\n' :: headingLine 2 heading :=
    String.toList_ofList
  rw [groupText, hheading, probe]
  simp [unlines, headingLine, List.replicate_succ]

variable {line : List Char} (hline : '\n' ∉ line)
include hline

theorem lines_probe {c : Char} (hc : isBlank c = false) :
    lines (body [probe line [c]]) = [headingLine 2 [], dropReturn line] ++ [headingLine 2 [c]] := by
  have htidy : Tidy (headingLine 2 [c]) := fun d hd => by
    obtain rfl : c = d := by simpa [headingLine] using hd
    exact hc
  have hne : headingLine 2 [c] ≠ [] := List.append_ne_nil_of_right_ne_nil _ (List.cons_ne_nil _ _)
  have hone : '\n' ∉ headingLine 2 [c] := notMem_headingLine (by
    rw [List.mem_singleton]
    rintro rfl
    exact absurd hc (by decide)) 2
  have hbody : body [probe line [c]] = unlines [headingLine 2 [], line] ++ (headingLine 2 [c] ++ ['\n']) := by
    rw [body, List.flatMap_singleton, groupText_probe, trimEnd_append_of_blank (by decide),
      trimEnd_of_tidy (htidy.append hne), List.append_assoc]
  rw [hbody, lines_unlines_append, lines_concat_of_tidy htidy hne]
  · rw [lines, List.splitOn_eq_singleton hone]
    rfl
  · intro l hl
    rcases List.mem_cons.mp hl with rfl | hl
    · exact notMem_headingLine List.not_mem_nil 2
    · rwa [List.mem_singleton.mp hl]

/-- The last line of a probe shows whether a block is open there. -/
theorem headingsFrom_probe {c : Char} (hc : isBlank c = false) (opened : Option Fence) :
    headingsFrom opened (lines (body [probe line [c]])) =
      headingsFrom opened [headingLine 2 [], dropReturn line] ++
        if (fenceAfter opened line).isNone then [.heading 2 [c]] else [] := by
  have hopen : openAfter opened [headingLine 2 [], dropReturn line] = fenceAfter opened line := by
    rw [openAfter, List.foldl_cons, List.foldl_cons, List.foldl_nil, fenceAfter_dropReturn,
      @fenceAfter_of_head (headingLine 2 []) rfl]
  rw [lines_probe hline hc, headingsFrom_append, hopen]
  cases fenceAfter opened line with
  | some f => rfl
  | none =>
    have hmark : lineMarks none (headingLine 2 [c]) = [.heading 2 [c]] :=
      (lineMarks_headingLine (by decide) (by decide) [c]).1
    rw [headingsFrom_cons none, hmark]
    rfl

end Probes

/-- Of two blocks that are not the same, or a block and none, some line leaves just one open. -/
theorem exists_separating {opened other : Option Fence} (h : ∀ f ∈ opened, f.Valid) (h' : ∀ f ∈ other, f.Valid)
    (hne : opened ≠ other) :
    ∃ line, '\n' ∉ line ∧ (fenceAfter opened line).isNone ≠ (fenceAfter other line).isNone := by
  have htext {f : Fence} (hf : f.Valid) : '\n' ∉ f.text := fun hn => by
    have hc := List.eq_of_mem_replicate hn
    rcases hf.char_eq with h | h <;> rw [h] at hc <;> exact absurd hc (by decide)
  have hafter {f : Fence} (hf : f.Valid) (g : Fence) :
      fenceAfter (some g) f.text = if f.closes g then none else some g := by
    have := @fenceAfter_text_append f hf (some g) [] nofun
    rwa [List.append_nil] at this
  cases opened with
  | none =>
    cases other with
    | none => exact absurd rfl hne
    | some g => exact ⟨[], List.not_mem_nil, Bool.true_eq_false.mp⟩
  | some f =>
    cases other with
    | none => exact ⟨[], List.not_mem_nil, nofun⟩
    | some g =>
      by_cases hclose : g.closes f = true
      · refine ⟨f.text, htext (h f rfl), ?_⟩
        have hnot : ¬ f.closes g = true := fun hclose' => hne (congrArg some (Fence.eq_of_closes hclose hclose').symm)
        rw [fenceAfter_text (h f rfl), hafter (h f rfl), if_neg hnot]
        nofun
      · refine ⟨g.text, htext (h' g rfl), ?_⟩
        rw [hafter (h' g rfl), fenceAfter_text (h' g rfl), if_neg hclose]
        nofun

/-- Two readings are not the same if just one of them ends with a heading, whatever that heading is. -/
theorem not_shown_once (before before' : List Mark) {shown shown' : Bool} (hdiffer : shown ≠ shown') (h : ∀ c,
    isBlank c = false → before ++ (if shown then [.heading 2 [c]] else []) =
      before' ++ if shown' then [.heading 2 [c]] else []) : False := by
  have ha := h 'a' (by decide)
  have hb := h 'b' (by decide)
  cases shown <;> cases shown' <;> simp at hdiffer ha hb
  · exact absurd (List.append_cancel_left (ha.symm.trans hb)) (by decide)
  · exact absurd (List.append_cancel_left (ha.trans hb.symm)) (by decide)

theorem valid_of_described {settings : Settings} {description : String} :
    ∀ f ∈ (described settings description).2, f.Valid :=
  valid_of_openAfter (valid_of_openAfter nofun)

/-- Descriptions behind which all groups are read alike have the same headings and leave the same block open. -/
theorem described_eq {settings : Settings} {d d' : String}
    (h : ∀ aggregate : Aggregate, aggregate ≠ [] →
      headings (document { settings with description := d } aggregate) =
        headings (document { settings with description := d' } aggregate)) :
    described settings d = described settings d' := by
  have hread (aggregate : Aggregate) (hne : aggregate ≠ []) :
      (described settings d).1 ++ headingsFrom (described settings d).2 (lines (body aggregate)) =
        (described settings d').1 ++ headingsFrom (described settings d').2 (lines (body aggregate)) := by
    have := h aggregate hne
    rw [headings_document _ hne, headings_document _ hne, List.append_assoc, List.append_assoc] at this
    exact List.append_cancel_left this
  by_cases hopen : (described settings d).2 = (described settings d').2
  · refine Prod.ext ?_ hopen
    have := hread [probe [] []] (List.cons_ne_nil _ _)
    rw [hopen] at this
    exact List.append_cancel_right this
  · obtain ⟨line, hline, hdiffer⟩ := exists_separating valid_of_described valid_of_described hopen
    let before (d : String) := (described settings d).1 ++
      headingsFrom (described settings d).2 [headingLine 2 [], dropReturn line]
    refine (not_shown_once (before d) (before d') hdiffer fun c hc => ?_).elim
    have := hread [probe line [c]] (List.cons_ne_nil _ _)
    rwa [headingsFrom_probe hline hc, headingsFrom_probe hline hc, ← List.append_assoc, ← List.append_assoc] at this

/-- The headings of a group and its entries. -/
def groupHeadings (g : Group) : List Mark :=
  .heading 2 (groupHeading g) :: g.children.map fun e => .heading entryLevel e.name.toList

theorem Mark.shallow_of_inOutline {m : Mark} (h : m.inOutline = true) : m.shallow = true := by
  cases m with
  | heading level text =>
    rw [Mark.inOutline, Bool.or_eq_true, decide_eq_true_eq, decide_eq_true_eq] at h
    rcases h with rfl | rfl <;> rfl
  | _ => cases h

theorem filter_entryMarks {e : Entry} (h : entryStrays e = []) :
    (entryMarks e).filter Mark.inOutline = [.heading entryLevel e.name.toList] := by
  have hlists : (listMarks e).filter Mark.inOutline = [] := by
    unfold listMarks urlMarks methodMarks
    cases e.kind <;> simp [Mark.inOutline]
  have hblock : (blockMarks e).filter Mark.inOutline = [] := by
    have hcount : (blockMarks e).countP Mark.shallow = 0 := by
      rw [(marks_blockLines e).2, ← entryStrays, h]
      rfl
    exact List.filter_eq_nil_iff.mpr fun m hm hin => List.countP_eq_zero.mp hcount m hm (Mark.shallow_of_inOutline hin)
  have hentry : Mark.inOutline (.heading entryLevel e.name.toList) = true := rfl
  rw [entryMarks, List.cons_append, List.filter_cons_of_pos hentry, List.filter_append, hlists, List.nil_append,
    List.filter_cons_of_neg (by decide), List.filter_cons_of_neg (by decide), hblock]

theorem filter_groupMarks {g : Group} (h : ∀ e ∈ g.children, entryStrays e = []) :
    (groupMarks g).filter Mark.inOutline = groupHeadings g := by
  have hgroup : Mark.inOutline (.heading 2 (groupHeading g)) = true := rfl
  rw [groupMarks, List.filter_cons_of_pos hgroup, List.filter_cons_of_neg (by decide), List.filter_flatMap, groupHeadings]
  refine congrArg _ ?_
  rw [List.map_eq_flatMap]
  exact List.flatMap_congr fun e he => filter_entryMarks (h e he)

/-- The groups of a document that can be written line by line show their own headings. -/
theorem headingsFrom_body {aggregate : Aggregate} (h : ∀ g ∈ aggregate, Writable g) (hne : aggregate ≠ [])
    (hstrays : ∀ g ∈ aggregate, ∀ e ∈ g.children, entryStrays e = []) :
    headingsFrom none (lines (body aggregate)) = aggregate.flatMap groupHeadings := by
  obtain ⟨written, hlines, hdocument⟩ := document_eq {} h hne
  rw [document_eq_append {} hne] at hdocument
  have hnone : ∀ line ∈ written, '\n' ∉ line := fun line hline => by
    have hmem : line ∈ aggregate.flatMap groupLines := hlines ▸ List.mem_append_left _ hline
    obtain ⟨g, hg, hline⟩ := List.mem_flatMap.mp hmem
    exact notMem_groupLines (h g hg).toOneLineNames line hline
  calc
    headingsFrom none (lines (body aggregate)) = headingsFrom none (written.map dropReturn) := by
      rw [List.append_cancel_left hdocument, lines_unlines hnone]
    _ = headingsFrom none ((aggregate.flatMap groupLines).map dropReturn) := by
      rw [hlines, List.map_append, headingsFrom_append, show [[]].map dropReturn = [[]] from rfl, headingsFrom_nil_cons,
        show headingsFrom _ [] = [] from rfl, List.append_nil]
    _ = aggregate.flatMap fun g => (groupMarks g).filter Mark.inOutline := by
      rw [headingsFrom, (marks_flatMap_lines fun g hg => marks_groupLines (h g hg).toOneLineNames).1, List.filter_flatMap]
    _ = aggregate.flatMap groupHeadings := List.flatMap_congr fun g hg => filter_groupMarks (hstrays g hg)

/-- A title and a version of one line each show no such heading. -/
theorem headingsFrom_front_of_oneLine {settings : Settings} (htitle : OneLine settings.title.toList)
    (hversion : '\n' ∉ settings.version.toList) : headingsFrom none (lines (front settings)) = [] := by
  have hfront : front settings = unlines [headingLine 1 settings.title.toList, [],
      "> version: ".toList ++ settings.version.toList, []] := by
    simp [front, unlines, headingLine]
  have hnone : ∀ line ∈ [headingLine 1 settings.title.toList, [], "> version: ".toList ++ settings.version.toList, []],
      '\n' ∉ line := by
    simpa using ⟨notMem_headingLine htitle.1 1, hversion⟩
  obtain ⟨hmark, hopen⟩ := @lineMarks_headingLine 1 (by decide) (by decide) settings.title.toList
  have hquote : (dropReturn ("> version: ".toList ++ settings.version.toList)).head? = some '>' :=
    head?_dropReturn (c := '>') (by decide) rfl
  have htitleMark : [Mark.heading 1 settings.title.toList].filter Mark.inOutline = [] := rfl
  have hempty : dropReturn [] = [] := rfl
  rw [hfront, lines_unlines hnone, List.map_cons, dropReturn_headingLine htitle, headingsFrom_cons, hmark, hopen,
    htitleMark, List.nil_append, List.map_cons, hempty, headingsFrom_nil_cons, List.map_cons, ← List.singleton_append,
    headingsFrom_append, headingsFrom_quote hquote, List.nil_append, List.map_singleton, hempty, headingsFrom_nil_cons]
  rfl

/-- Two descriptions leave the headings of all groups and entries alike just when they have the same such headings
themselves and leave the same block open. If one has none and leaves no block open, these headings are those of the
groups and entries. -/
theorem headings_described_iff (settings : Settings) :
    (∀ d d' : String,
      (∀ aggregate : Aggregate, aggregate ≠ [] ∨ '\n' ∉ settings.version.toList →
        headings (document { settings with description := d } aggregate) =
          headings (document { settings with description := d' } aggregate)) ↔
      described settings d = described settings d') ∧
    (OneLine settings.title.toList → '\n' ∉ settings.version.toList →
      described settings settings.description = ([], none) →
      ∀ aggregate : Aggregate, (∀ g ∈ aggregate, Writable g) →
        (∀ g ∈ aggregate, ∀ e ∈ g.children, entryStrays e = []) →
        headings (document settings aggregate) = aggregate.flatMap groupHeadings) := by
  refine ⟨fun d d' => ⟨fun h => described_eq fun aggregate hne => h aggregate (.inl hne), fun h aggregate hwhole => ?_⟩, ?_⟩
  · have hfront (d : String) : front { settings with description := d } = front settings := rfl
    have hdescribed (d : String) : described { settings with description := d } d = described settings d := rfl
    by_cases hne : aggregate = []
    · have hversion := hwhole.resolve_left (not_not.mpr hne)
      rw [hne, headings_document_nil { settings with description := d } hversion,
        headings_document_nil { settings with description := d' } hversion, hfront d, hfront d', hdescribed d,
        hdescribed d', h]
    · rw [headings_document { settings with description := d } hne,
        headings_document { settings with description := d' } hne, hfront d, hfront d', hdescribed d,
        hdescribed d', h]
  · intro htitle hversion hquiet aggregate hwritable hstrays
    by_cases hne : aggregate = []
    · rw [hne, headings_document_nil _ hversion, hquiet, headingsFrom_front_of_oneLine htitle hversion]
      rfl
    · rw [headings_document _ hne, hquiet, headingsFrom_front_of_oneLine htitle hversion,
        headingsFrom_body hwritable hne hstrays]
      rfl

/-- A quiet description before one group. -/
theorem headings_of_shop_document :
    headings (document { shopSettings with description := "All goods.\n- in stock" } [shopGroup ""]) =
      [.heading 2 "Shop".toList, .heading 3 "List All".toList] := by
  have hwritable : Writable (shopGroup "") :=
    { oneLineNames_shopGroup "" with
      children_ne_nil := List.cons_ne_nil _ _
      tidy := fun e he => by
        obtain rfl := List.mem_singleton.mp he
        exact tidy_nil }
  exact (headings_described_iff { shopSettings with description := "All goods.\n- in stock" }).2 (by decide) (by decide)
    (by decide +kernel) [shopGroup ""] (List.forall_mem_singleton.mpr hwritable) (by decide +kernel)

/-- A heading in the description is read as one of a group, and behind a fence in it no group is read. -/
theorem description_disturbs :
    headings (document { shopSettings with description := "" } [shopGroup ""]) =
      [.heading 2 "Shop".toList, .heading 3 "List All".toList] ∧
    headings (document { shopSettings with description := "## Intro" } [shopGroup ""]) =
      [.heading 2 "Intro".toList, .heading 2 "Shop".toList, .heading 3 "List All".toList] ∧
    headings (document { shopSettings with description := "~~~" } [shopGroup ""]) = [] := by decide +kernel

end ApiHandbook.Markdown
