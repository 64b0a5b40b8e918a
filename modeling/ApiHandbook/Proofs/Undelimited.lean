import ApiHandbook.Proofs.Prose

/-! Docstrings without delimiters, where everything behind the summary may be read as markdown. Such a docstring has the
parts of one that holds the same summary and the body between delimiters, at any indentation. -/
namespace ApiHandbook.Docstring
open Text

/-- A docstring that holds a summary and, behind an indentation, a text between delimiters. -/
def delimited (indent : Nat) (summary text : List Char) : List Char :=
  joinLines ([summary, []] ++ (delimiter :: text.splitOn '\n' ++ [delimiter]).map (indented indent))

/-- Whether a text neither starts nor ends with a blank, and holds neither a tab nor a delimiter. -/
structure Clean (s : List Char) : Prop where
  trim_eq : trim s = s
  tab : '\t' ∉ s
  delimiter : ¬ delimiter <:+: s

/-! What is found in a docstring -/

section Infix
variable {key : List Char} (hkey : key ≠ []) (hfeed : '\n' ∉ key)
include hkey hfeed

theorem exists_infix_of_infix_joinLines {ls : List (List Char)} (h : key <:+: joinLines ls) :
    ∃ line ∈ ls, key <:+: line := by
  rcases List.eq_nil_or_concat ls with rfl | ⟨front, last, rfl⟩
  · exact absurd (List.infix_nil.mp h) hkey
  · apply exists_infix_of_infix_unlines hkey hfeed
    rw [← joinLines_append (by simp)]
    exact h.trans (List.prefix_append _ _).isInfix

theorem infix_of_infix_dedent {s : List Char} (h : key <:+: dedent s) : key <:+: s := by
  obtain ⟨line, hline, hk⟩ := exists_infix_of_infix_joinLines hkey hfeed h
  obtain ⟨own, hown, rfl⟩ := List.mem_map.mp hline
  apply hk.trans
  apply List.IsInfix.trans _ (infix_of_mem_lines hown)
  cases hdrop : dropBytes? (commonIndent (lines s)) own with
  | none => exact (List.dropWhile_suffix _).isInfix
  | some t => exact (suffix_of_dropBytes? hdrop).isInfix

/-- What a body holds within a line stands in the prose. -/
theorem infix_of_infix_withoutSummary {prose summary : List Char} (h : key <:+: withoutSummary prose summary) :
    key <:+: prose := by
  obtain ⟨kept, hkept, heq⟩ := exists_kept prose summary
  rw [heq] at h
  have hinside := infix_of_infix_dedent hkey hfeed (h.trans (trim_infix_self _))
  obtain ⟨line, hline, hk⟩ := exists_infix_of_infix_joinLines hkey hfeed hinside
  exact hk.trans (infix_of_mem_lines (hkept.subset hline))

end Infix

theorem summaryOf_spec {prose : List Char} (h : isBlankText prose = false) :
    summaryOf prose ≠ [] ∧ '\n' ∉ summaryOf prose := by
  obtain ⟨before, line, after, hlines, -, hline, hsummary, -⟩ := exists_summary_line h
  have hmem : line ∈ lines prose := by rw [hlines]; simp
  rw [hsummary]
  exact ⟨trim_ne_nil hline, fun hc => notMem_of_mem_lines hmem ((trim_infix_self line).subset hc)⟩

section Found
variable {prose : List Char} (htab : '\t' ∉ prose) (hdelimiter : ¬ delimiter <:+: prose)
include htab hdelimiter

theorem clean_summaryOf (h : isBlankText prose = false) : Clean (summaryOf prose) := by
  obtain ⟨before, line, after, hlines, -, -, hsummary, -⟩ := exists_summary_line h
  have hmem : line ∈ lines prose := by rw [hlines]; simp
  have hinside : trim line <:+: prose := (trim_infix_self line).trans (infix_of_mem_lines hmem)
  rw [hsummary]
  exact ⟨trim_trim line, fun hc => htab (hinside.subset hc), fun hk => hdelimiter (hk.trans hinside)⟩

theorem clean_withoutSummary (summary : List Char) : Clean (withoutSummary prose summary) where
  trim_eq := trim_trim _
  tab hmem := by
    have hinside : ['\t'] <:+: withoutSummary prose summary := by
      obtain ⟨before, after, heq⟩ := List.append_of_mem hmem
      exact ⟨before, after, by rw [heq]; simp⟩
    exact htab ((infix_of_infix_withoutSummary (by decide) (by decide) hinside).subset List.mem_cons_self)
  delimiter h := hdelimiter (infix_of_infix_withoutSummary (by decide) (by decide) h)

end Found

/-! The delimited spelling -/

section Delimited
variable (indent : Nat) {summary text : List Char} (hsummary : Clean summary) (hne : summary ≠ [])
  (hfeed : '\n' ∉ summary) (htext : Clean text)

/-- What stands before the opening delimiter. -/
def summarySection (indent : Nat) (summary : List Char) : List Char := joinLines ([summary, []] ++ [indented indent []])

/-- What stands between the delimiters. -/
def textSection (indent : Nat) (text : List Char) : List Char :=
  joinLines ([] :: (text.splitOn '\n').map (indented indent) ++ [indented indent []])

theorem delimited_eq (summary text : List Char) : delimited indent summary text =
    summarySection indent summary ++ (delimiter ++ (textSection indent text ++ (delimiter ++ []))) := by
  have hdelimiter : indented indent delimiter = indented indent [] ++ delimiter := by
    rw [indented, indented, List.append_nil]
  rw [delimited, summarySection, textSection, List.map_append, List.map_cons, List.map_singleton, ← List.append_assoc,
    joinLines_concat, joinLines_concat, joinLines_concat, unlines_append, hdelimiter]
  simp only [unlines_cons, unlines_nil, List.append_assoc, List.cons_append, List.nil_append, List.append_nil]

include hsummary hfeed in
theorem lines_summarySection :
    lines (summarySection indent summary) = [summary, []] ++ lines (indented indent []) := by
  have htidy : Tidy summary := hsummary.trim_eq ▸ tidy_trimEnd _
  have hreturn : dropReturn summary = summary :=
    dropReturn_eq_self fun hlast => absurd (htidy _ hlast) (by decide)
  have hlines : ∀ line ∈ [summary, []], '\n' ∉ line := by
    rw [List.forall_mem_cons, List.forall_mem_singleton]
    exact ⟨hfeed, List.not_mem_nil⟩
  rw [summarySection, joinLines_concat, lines_unlines_append hlines, List.map_cons, hreturn]
  rfl

theorem blank_behind_summary : ∀ line ∈ [] :: lines (indented indent []), isBlankText line = true := by
  refine List.forall_mem_cons.mpr ⟨rfl, fun line hline => ?_⟩
  exact isBlankText_of_mem_lines (isBlankText_indented indent []) hline

include htext in
theorem unindentBlock_textSection : unindentBlock indent (textSection indent text) = text := by
  have hjoin : joinLines (text.splitOn '\n') = text := List.intercalate_splitOn '\n'
  have htidy : Tidy text := htext.trim_eq ▸ tidy_trimEnd _
  have hstart : ∀ c ∈ text.head?, isBlank c = false := by
    intro c hc
    have hhead := List.head?_dropWhile_not isBlank text
    rw [← trimStart, trimStart_of_trim htext.trim_eq, Option.mem_def.mp hc] at hhead
    exact hhead
  rw [textSection, unindentBlock_indented (fun line => notMem_of_mem_splitOn) ?_ (hjoin.symm ▸ htidy), hjoin]
  rw [hjoin]
  exact fun c hc => isLineBreak_of_isBlank (hstart c hc)

include hsummary htext in
theorem sections_delimited : splitAtText delimiter (expandTabs (delimited indent summary text)) =
    [summarySection indent summary, textSection indent text, []] := by
  have hbefore : ∀ line ∈ [summary, []], '\t' ∉ line ∧ ¬ delimiter <:+: line := by
    rw [List.forall_mem_cons, List.forall_mem_singleton]
    exact ⟨⟨hsummary.tab, hsummary.delimiter⟩, by decide, by decide⟩
  have hblock : ∀ line ∈ [] :: (text.splitOn '\n').map (indented indent), '\t' ∉ line ∧ ¬ delimiter <:+: line := by
    refine List.forall_mem_cons.mpr ⟨⟨by decide, by decide⟩, fun line hline => ?_⟩
    obtain ⟨own, hown, rfl⟩ := List.mem_map.mp hline
    have hinside : own <:+: text := by
      have hjoined := infix_joinLines hown
      rwa [joinLines, List.intercalate_splitOn] at hjoined
    exact ⟨notMem_indented (by decide) (fun hmem => htext.tab (hinside.subset hmem)) indent,
      fun hk => htext.delimiter ((infix_indented hk).trans hinside)⟩
  rw [delimited_eq, summarySection, splitAtText_section hbefore, ← summarySection, textSection, splitAtText_section hblock]
  rfl

include hsummary hne hfeed htext in
/-- The delimited spelling is split into its summary and its text. -/
theorem split_delimited (fallback : String) (allMarkdown : Bool) :
    split fallback allMarkdown (String.ofList (delimited indent summary text)) =
      ⟨String.ofList summary, fallback, String.ofList summary, String.ofList text⟩ := by
  have hsections := sections_delimited indent hsummary htext
  have hlines := lines_summarySection indent hsummary hfeed
  have hblank := blank_behind_summary indent
  have hsummaryOf : summaryOf (summarySection indent summary) = summary := by
    rw [summaryOf, hlines, List.cons_append, List.map_cons, hsummary.trim_eq,
      List.find?_cons_of_pos (by simpa using hne), Option.getD_some]
  have hbody : withoutSummary (summarySection indent summary) summary = [] := by
    have herase : (lines (summarySection indent summary)).eraseP (fun line => trim line == summary) =
        [] :: lines (indented indent []) := by
      rw [hlines, List.cons_append, List.eraseP_cons, hsummary.trim_eq, beq_self_eq_true, cond_true]
      rfl
    rw [withoutSummary, if_neg (by simpa using hne), herase]
    exact trim_dedent_of_blank (isBlankText_joinLines hblank)
  have hprose : trim (dedent (summarySection indent summary)) = summary := by
    have hjoin : joinLines [summary] = summary := List.intercalate_singleton
    have hdedent := @trim_dedent 0 [] [summary] ([] :: lines (indented indent [])) (List.forall_mem_nil _) hblank _
      hlines (hjoin.symm ▸ hsummary.trim_eq)
    rwa [hjoin] at hdedent
  have hindent : delimiterIndent (summarySection indent summary) = indent := by
    refine delimiterIndent_section (fun line hline => ?_) indent
    rcases List.mem_cons.mp hline with rfl | hline
    · exact hfeed
    · exact List.mem_singleton.mp hline ▸ List.not_mem_nil
  have hempty : summary.isEmpty = false := List.isEmpty_eq_false_iff.mpr hne
  rw [← String.toList_ofList (l := delimited indent summary text)] at hsections
  rw [split_of_block hsections, hsummaryOf, hbody, hprose, hindent, unindentBlock_textSection indent htext, orText, orText,
    hempty]
  rfl

end Delimited

/-! Docstrings without delimiters -/

theorem tab_notMem_proseOf (raw : String) : '\t' ∉ proseOf raw := by
  intro hmem
  rcases mem_expandTabs hmem with hspace | ⟨-, hne⟩
  · exact absurd hspace (by decide)
  · exact hne rfl

section Undelimited
variable {raw : String} (hraw : ¬ delimiter <:+: raw.toList)
include hraw

theorem sections_of_undelimited : splitAtText delimiter (expandTabs raw.toList) = [proseOf raw] := by
  rw [sections_eq, splitAtText_eq_singleton hraw]
  rfl

theorem delimiter_not_infix_proseOf : ¬ delimiter <:+: proseOf raw := by
  have hprose : proseOf raw = expandTabs raw.toList := by
    rw [proseOf, splitAtText_eq_singleton hraw, List.headD_cons]
  intro hinside
  have hlength := one_lt_length_splitAtText (by decide) hinside
  rw [hprose, sections_of_undelimited hraw] at hlength
  exact Nat.lt_irrefl 1 hlength

end Undelimited

/-- Reading everything behind the summary as markdown gives the parts of the delimited spelling of the summary and the body
that are found otherwise. -/
theorem split_allMarkdown {raw : String} (hraw : ¬ delimiter <:+: raw.toList) (hbody : (split "" false raw).body ≠ "")
    (fallback : String) (indent : Nat) (allMarkdown : Bool) :
    let found := split fallback false raw
    split fallback true raw = ⟨found.summary, fallback, found.summary, found.body⟩ ∧
    split fallback true raw = split fallback allMarkdown
      (String.ofList (delimited indent found.summary.toList found.body.toList)) := by
  have hne : withoutSummary (proseOf raw) (summaryOf (proseOf raw)) ≠ [] := by
    intro hnil
    rw [(split_prose "" raw).2.1, hnil] at hbody
    exact hbody rfl
  have hnonblank : isBlankText (proseOf raw) = false := by
    apply Bool.eq_false_iff.mpr
    intro hblank
    exact hne (withoutSummary_of_blank hblank _)
  have htab := tab_notMem_proseOf raw
  have hdelimiter := delimiter_not_infix_proseOf hraw
  obtain ⟨hsummary, hfeed⟩ := summaryOf_spec hnonblank
  obtain ⟨hshown, htext, -⟩ := split_prose fallback raw
  rw [orText, if_neg (by simpa using hne)] at htext
  have hmarkdown : split fallback true raw = ⟨(split fallback false raw).summary, fallback,
      (split fallback false raw).summary, (split fallback false raw).body⟩ := by
    rw [hshown, htext, split_of_undelimited (sections_of_undelimited hraw), if_pos (by simpa using hne), orText,
      if_neg (by simpa using hsummary)]
  refine ⟨hmarkdown, hmarkdown.trans ?_⟩
  rw [hshown, htext, String.toList_ofList, String.toList_ofList, split_delimited indent
    (clean_summaryOf htab hdelimiter hnonblank) hsummary hfeed (clean_withoutSummary htab hdelimiter _)]

/-- A docstring with tabs, carriage returns, a line of spaces and a body that repeats the summary. -/
def changeDoc : String := "\n  Change data\n\n\t### body\r\r\r\n  \n\t  Change data\n"

theorem split_changeDoc : ¬ delimiter <:+: changeDoc.toList ∧ (split "" false changeDoc).body ≠ "" ∧
    split "none" true changeDoc = ⟨"Change data", "none", "Change data", "### body\r\n\n  Change data"⟩ ∧
    split "none" true changeDoc =
      split "none" false "Change data\n\n  @@@\n  ### body\r\n  \n    Change data\n  @@@" := by
  have hraw : ¬ delimiter <:+: changeDoc.toList := by decide +kernel
  have hbody : (split "" false changeDoc).body ≠ "" := by decide +kernel
  have hfound : split "none" false changeDoc = ⟨"Change data", "### body\r\n\n  Change data",
      "Change data\n\n  ### body\r\r\n\n    Change data", ""⟩ := by decide +kernel
  have hdelimited : String.ofList (delimited 2 "Change data".toList "### body\r\n\n  Change data".toList) =
      "Change data\n\n  @@@\n  ### body\r\n  \n    Change data\n  @@@" := by decide +kernel
  obtain ⟨hmarkdown, hspelling⟩ := split_allMarkdown hraw hbody "none" 2 false
  rw [hfound] at hmarkdown hspelling
  exact ⟨hraw, hbody, hmarkdown, hdelimited ▸ hspelling⟩

end ApiHandbook.Docstring
