import ApiHandbook.Proofs.Indentation
import ApiHandbook.Proofs.Replacement

/-! Docstrings that are written from parts. Splitting gives the parts back, whatever the indentation of the body and the
block is and whatever stands behind the block. -/
namespace ApiHandbook.Docstring
open Text

/-- Texts that a docstring can be written from: a summary line, and a body and a markdown block, each given by its lines.
The empty text has no lines, or one that is empty. -/
structure Parts where
  summary : List Char
  body : List (List Char)
  block : List (List Char)
  summary_ne_nil : summary ≠ []
  trim_summary : trim summary = summary
  trim_body : trim (joinLines body) = joinLines body
  block_start : (joinLines block).head? ≠ some '\n'
  block_end : trimEnd (joinLines block) = joinLines block
  feed_notMem : ∀ line ∈ summary :: (body ++ block), '\n' ∉ line
  plain : ∀ text ∈ [summary, joinLines body, joinLines block], '\t' ∉ text ∧ '\r' ∉ text ∧ ¬ delimiter <:+: text

/-- Whether a line holds no line break, no tab and no delimiter. -/
structure Plain (line : List Char) : Prop where
  feed : '\n' ∉ line
  tab : '\t' ∉ line
  carriageReturn : '\r' ∉ line
  delimiter : ¬ delimiter <:+: line

theorem infix_indented {n : Nat} {line : List Char} (h : delimiter <:+: indented n line) : delimiter <:+: line := by
  induction n with
  | zero => exact h
  | succ n ih =>
    rw [indented, List.replicate_succ, List.cons_append, List.infix_cons_iff] at h
    rcases h with h | h
    · exact absurd (List.cons_prefix_cons.mp h).1 (by decide)
    · exact ih h

theorem notMem_indented {c : Char} (hspace : c ≠ ' ') {line : List Char} (h : c ∉ line) (n : Nat) : c ∉ indented n line := by
  intro hmem
  rcases List.mem_append.mp hmem with hmem | hmem
  · exact hspace (List.eq_of_mem_replicate hmem)
  · exact h hmem

theorem plain_nil : Plain [] := ⟨by decide, by decide, by decide, by decide⟩

theorem Plain.indented {line : List Char} (h : Plain line) (n : Nat) : Plain (indented n line) where
  feed := notMem_indented (by decide) h.feed n
  tab := notMem_indented (by decide) h.tab n
  carriageReturn := notMem_indented (by decide) h.carriageReturn n
  delimiter hinside := h.delimiter (infix_indented hinside)

theorem expandTabs_append (s t : List Char) : expandTabs (s ++ t) = expandTabs s ++ expandTabs t := List.flatMap_append

theorem expandTabs_eq_self {s : List Char} (h : '\t' ∉ s) : expandTabs s = s := by
  induction s with
  | nil => rfl
  | cons c s ih =>
    have hc : (c == '\t') = false := beq_eq_false_iff_ne.mpr fun heq => h (heq ▸ List.mem_cons_self)
    rw [expandTabs, List.flatMap_cons, hc, ← expandTabs, ih fun hmem => h (List.mem_cons_of_mem c hmem)]
    rfl

/-- A section of lines up to an indented delimiter does not hold a delimiter, nor does one reach into it. -/
theorem not_infix_section {ls : List (List Char)} (h : ∀ line ∈ ls, ¬ delimiter <:+: line) (n : Nat) :
    ¬ delimiter <:+: joinLines (ls ++ [indented n []]) ++ delimiter.dropLast := by
  intro hinside
  have hlines : delimiter <:+: unlines (ls ++ [indented n delimiter.dropLast]) := by
    rw [joinLines_concat, indented, List.append_nil, List.append_assoc] at hinside
    rw [unlines_append, unlines_cons, unlines_nil, ← List.append_assoc]
    exact hinside.trans (List.prefix_append _ _).isInfix
  obtain ⟨line, hline, hk⟩ := exists_infix_of_infix_unlines (by decide) (by decide) hlines
  rcases List.mem_append.mp hline with hline | hline
  · exact h line hline hk
  · rw [List.mem_singleton.mp hline] at hk
    exact absurd (infix_indented hk).length_le (by decide)

theorem tab_notMem_section {ls : List (List Char)} (h : ∀ line ∈ ls, '\t' ∉ line) (n : Nat) :
    '\t' ∉ joinLines (ls ++ [indented n []]) := by
  rw [joinLines_concat, unlines, List.mem_append, List.mem_flatMap]
  rintro (⟨line, hline, hmem⟩ | hmem)
  · rcases List.mem_append.mp hmem with hmem | hmem
    · exact h line hline hmem
    · exact absurd (List.mem_singleton.mp hmem) (by decide)
  · exact notMem_indented (by decide) List.not_mem_nil n hmem

/-- What is written line by line up to an indented delimiter is the first section of a docstring. -/
theorem splitAtText_section {ls : List (List Char)} (h : ∀ line ∈ ls, '\t' ∉ line ∧ ¬ delimiter <:+: line) (n : Nat)
    (rest : List Char) : splitAtText delimiter (expandTabs (joinLines (ls ++ [indented n []]) ++ (delimiter ++ rest))) =
      joinLines (ls ++ [indented n []]) :: splitAtText delimiter (expandTabs rest) := by
  have hdelimiter : expandTabs delimiter = delimiter := expandTabs_eq_self (by decide)
  rw [expandTabs_append, expandTabs_append, hdelimiter, expandTabs_eq_self (tab_notMem_section (fun l hl => (h l hl).1) n),
    splitAtText_append_append (by decide) (not_infix_section (fun l hl => (h l hl).2) n)]

theorem delimiterIndent_section {ls : List (List Char)} (h : ∀ line ∈ ls, '\n' ∉ line) (n : Nat) :
    delimiterIndent (joinLines (ls ++ [indented n []])) = n := by
  have hsplit : (joinLines (ls ++ [indented n []])).splitOn '\n' = ls ++ [indented n []] := by
    refine splitOn_joinLines (fun line hline => ?_) (by simp)
    rcases List.mem_append.mp hline with hline | hline
    · exact h line hline
    · exact List.mem_singleton.mp hline ▸ notMem_indented (by decide) List.not_mem_nil n
  rw [delimiterIndent, hsplit, List.getLastD_concat, indented, List.append_nil, List.count_replicate_self]

/-- A text, or another one in place of the empty text. -/
def orText (fallback : String) (s : List Char) : String := if s.isEmpty then fallback else String.ofList s

section Split
variable {fallback : String} {allMarkdown : Bool} {raw : String} {prose block : List Char} {more : List (List Char)}

theorem split_of_block (h : splitAtText delimiter (expandTabs raw.toList) = prose :: block :: more) :
    split fallback allMarkdown raw = ⟨String.ofList (summaryOf prose), orText fallback (withoutSummary prose (summaryOf prose)),
      orText fallback (trim (dedent prose)), String.ofList (unindentBlock (delimiterIndent prose) block)⟩ := by
  simp only [split, h, List.headD_cons, orText]

theorem split_of_undelimited (h : splitAtText delimiter (expandTabs raw.toList) = [prose]) :
    split fallback allMarkdown raw =
      if allMarkdown && !(withoutSummary prose (summaryOf prose)).isEmpty then
        ⟨String.ofList (summaryOf prose), fallback, orText fallback (summaryOf prose),
          String.ofList (withoutSummary prose (summaryOf prose))⟩
      else ⟨String.ofList (summaryOf prose), orText fallback (withoutSummary prose (summaryOf prose)),
        orText fallback (trim (dedent prose)), ""⟩ := by
  simp only [split, h, List.headD_cons, orText]

/-- What splitting makes of a docstring with a delimiter. -/
theorem split_of_sections (h : splitAtText delimiter (expandTabs raw.toList) = prose :: block :: more) :
    (split fallback allMarkdown raw).summary = String.ofList (summaryOf prose) ∧
    (split fallback allMarkdown raw).body = (if (withoutSummary prose (summaryOf prose)).isEmpty then fallback
      else String.ofList (withoutSummary prose (summaryOf prose))) ∧
    (split fallback allMarkdown raw).markdown = String.ofList (unindentBlock (delimiterIndent prose) block) := by
  simp only [split_of_block h, orText, and_self]

end Split

namespace Parts
variable (parts : Parts) (indent : Nat)

/-- The lines in front of the line of the opening delimiter. -/
def proseLines : List (List Char) := parts.summary :: ([] :: parts.body.map (indented indent) ++ [[]])

/-- The docstring that the parts are written as, with an indentation and any text behind the closing delimiter. -/
def written (rest : String) : String :=
  String.ofList (unlines (parts.proseLines indent ++ (delimiter :: parts.block).map (indented indent)) ++
    indented indent delimiter ++ rest.toList)

/-- What stands before the opening delimiter. -/
def proseSection : List Char := joinLines (parts.proseLines indent ++ [indented indent []])

/-- What stands between the delimiters. -/
def blockSection : List Char := joinLines ([] :: parts.block.map (indented indent) ++ [indented indent []])

theorem toList_written (rest : String) : (parts.written indent rest).toList =
    parts.proseSection indent ++ (delimiter ++ (parts.blockSection indent ++ (delimiter ++ rest.toList))) := by
  have hdelimiter : indented indent delimiter = indented indent [] ++ delimiter := by
    rw [indented, indented, List.append_nil]
  rw [written, String.toList_ofList, proseSection, blockSection, joinLines_concat, joinLines_concat, unlines_append,
    List.map_cons, unlines_cons, unlines_cons, hdelimiter]
  simp only [List.append_assoc, List.cons_append, List.nil_append]

theorem plain_of_mem {line : List Char} (h : line ∈ parts.summary :: (parts.body ++ parts.block)) : Plain line := by
  have hof {text : List Char} (htext : text ∈ [parts.summary, joinLines parts.body, joinLines parts.block])
      (hinside : line <:+: text) : Plain line := by
    obtain ⟨htab, hreturn, hdelimiter⟩ := parts.plain text htext
    exact ⟨parts.feed_notMem line h, fun hmem => htab (hinside.subset hmem), fun hmem => hreturn (hinside.subset hmem),
      fun hmem => hdelimiter (hmem.trans hinside)⟩
  have hmem := h
  rw [List.mem_cons, List.mem_append] at hmem
  rcases hmem with rfl | hmem | hmem
  · exact hof List.mem_cons_self (List.infix_refl _)
  · exact hof (List.mem_cons_of_mem _ List.mem_cons_self) (infix_joinLines hmem)
  · exact hof (List.mem_cons_of_mem _ (List.mem_cons_of_mem _ List.mem_cons_self)) (infix_joinLines hmem)

theorem plain_of_mem_proseLines : ∀ line ∈ parts.proseLines indent, Plain line := by
  intro line h
  rw [proseLines, List.mem_cons, List.cons_append, List.mem_cons, List.mem_append, List.mem_singleton] at h
  rcases h with rfl | rfl | h | rfl
  · exact parts.plain_of_mem List.mem_cons_self
  · exact plain_nil
  · obtain ⟨own, hown, rfl⟩ := List.mem_map.mp h
    exact (parts.plain_of_mem (List.mem_cons_of_mem _ (List.mem_append_left _ hown))).indented indent
  · exact plain_nil

theorem plain_of_mem_blockLines : ∀ line ∈ [] :: parts.block.map (indented indent), Plain line := by
  intro line h
  rcases List.mem_cons.mp h with rfl | h
  · exact plain_nil
  · obtain ⟨own, hown, rfl⟩ := List.mem_map.mp h
    exact (parts.plain_of_mem (List.mem_cons_of_mem _ (List.mem_append_right _ hown))).indented indent

/-- The delimiters of the written docstring are its first two. -/
theorem sections_written (rest : String) : splitAtText delimiter (expandTabs (parts.written indent rest).toList) =
    parts.proseSection indent :: parts.blockSection indent :: splitAtText delimiter (expandTabs rest.toList) := by
  have hprose := parts.plain_of_mem_proseLines indent
  have hblock := parts.plain_of_mem_blockLines indent
  rw [toList_written, proseSection, splitAtText_section fun line h => ⟨(hprose line h).tab, (hprose line h).delimiter⟩,
    blockSection, splitAtText_section fun line h => ⟨(hblock line h).tab, (hblock line h).delimiter⟩]

theorem lines_proseSection :
    lines (parts.proseSection indent) = parts.proseLines indent ++ lines (indented indent []) :=
  lines_joinLines (fun line h => ⟨(parts.plain_of_mem_proseLines indent line h).feed,
    (parts.plain_of_mem_proseLines indent line h).carriageReturn⟩) _

theorem summaryOf_proseSection : summaryOf (parts.proseSection indent) = parts.summary := by
  rw [summaryOf, lines_proseSection, proseLines, List.cons_append, List.map_cons, parts.trim_summary,
    List.find?_cons_of_pos (by simpa using parts.summary_ne_nil), Option.getD_some]

/-- Without the summary line, the prose holds the indented body between blank lines. -/
theorem lines_without_summary : ∃ after, (∀ line ∈ after, isBlankText line = true) ∧
    lines (joinLines ([] :: parts.body.map (indented indent) ++ [[]] ++ lines (indented indent []))) =
      [[]] ++ parts.body.map (indented indent) ++ after := by
  have hplain : ∀ line ∈ [] :: parts.body.map (indented indent) ++ [[]], '\n' ∉ line ∧ '\r' ∉ line := by
    intro line h
    have hline := parts.plain_of_mem_proseLines indent line (List.mem_cons_of_mem _ h)
    exact ⟨hline.feed, hline.carriageReturn⟩
  have hpad : lines (indented indent []) = if (indented indent []).isEmpty then [] else [indented indent []] :=
    lines_of_notMem (plain_nil.indented indent).feed
  have hblank : isBlankText (indented indent []) = true := isBlankText_indented indent []
  split_ifs at hpad with hempty
  · -- Joining drops the empty line at the end.
    refine ⟨[], nofun, ?_⟩
    rw [hpad, List.append_nil, lines_joinLines (fun line h => hplain line (List.mem_append_left _ h))]
    rfl
  · refine ⟨[[], indented indent []], fun line h => ?_, ?_⟩
    · rcases List.mem_cons.mp h with rfl | h
      · rfl
      · exact List.mem_singleton.mp h ▸ hblank
    · rw [hpad, lines_joinLines hplain, hpad, List.append_assoc]
      rfl

theorem withoutSummary_proseSection : withoutSummary (parts.proseSection indent) parts.summary = joinLines parts.body := by
  have hkept : (lines (parts.proseSection indent)).eraseP (fun line => trim line == parts.summary) =
      [] :: parts.body.map (indented indent) ++ [[]] ++ lines (indented indent []) := by
    rw [lines_proseSection, proseLines, List.cons_append, List.eraseP_cons, parts.trim_summary, beq_self_eq_true,
      cond_true]
  obtain ⟨after, hafter, hlines⟩ := parts.lines_without_summary indent
  rw [withoutSummary, if_neg (by simpa using parts.summary_ne_nil), hkept]
  exact trim_dedent (by decide) hafter hlines parts.trim_body

theorem delimiterIndent_proseSection : delimiterIndent (parts.proseSection indent) = indent :=
  delimiterIndent_section (fun line h => (parts.plain_of_mem_proseLines indent line h).feed) indent

theorem unindentBlock_blockSection : unindentBlock indent (parts.blockSection indent) = joinLines parts.block := by
  refine unindentBlock_indented (fun line h => ?_) (fun c hc => ?_) ?_
  · exact (parts.plain_of_mem (List.mem_cons_of_mem _ (List.mem_append_right _ h))).feed
  · have hmem : c ∈ joinLines parts.block := List.mem_of_mem_head? hc
    rw [isLineBreak, Bool.or_eq_false_iff, beq_eq_false_iff_ne, beq_eq_false_iff_ne]
    constructor
    · rintro rfl
      exact parts.block_start hc
    · rintro rfl
      exact (parts.plain _ (by simp)).2.1 hmem
  · exact parts.block_end ▸ tidy_trimEnd _

end Parts

/-- Splitting a docstring that was written from parts gives the parts back, with the fallback for an empty body. -/
theorem split_written (parts : Parts) (indent : Nat) (rest fallback : String) (allMarkdown : Bool) :
    (split fallback allMarkdown (parts.written indent rest)).summary = String.ofList parts.summary ∧
    (split fallback allMarkdown (parts.written indent rest)).body =
      (if joinLines parts.body = [] then fallback else String.ofList (joinLines parts.body)) ∧
    (split fallback allMarkdown (parts.written indent rest)).markdown = String.ofList (joinLines parts.block) := by
  have hsplit := @split_of_sections fallback allMarkdown _ _ _ _ (parts.sections_written indent rest)
  simp only [parts.summaryOf_proseSection, parts.withoutSummary_proseSection, parts.delimiterIndent_proseSection,
    parts.unindentBlock_blockSection, List.isEmpty_iff] at hsplit
  exact hsplit

/-- Parts with a body that repeats the summary and holds a blank line and an indented one. -/
def addParts : Parts where
  summary := "Add a todo".toList
  body := ["Notes:", "  * idempotent", "", "Add a todo"].map String.toList
  block := ["### args", "", "    | id |"].map String.toList
  summary_ne_nil := by decide +kernel
  trim_summary := by decide +kernel
  trim_body := by decide +kernel
  block_start := by decide +kernel
  block_end := by decide +kernel
  feed_notMem := by decide +kernel
  plain := by decide +kernel

theorem split_addParts (fallback : String) (allMarkdown : Bool) :
    addParts.written 2 "\n\tsee @@@" =
      "Add a todo\n\n  Notes:\n    * idempotent\n  \n  Add a todo\n\n  @@@\n  ### args\n  \n      | id |\n  @@@\n\tsee @@@" ∧
    (split fallback allMarkdown (addParts.written 2 "\n\tsee @@@")).summary = "Add a todo" ∧
    (split fallback allMarkdown (addParts.written 2 "\n\tsee @@@")).body =
      "Notes:\n  * idempotent\n\nAdd a todo" ∧
    (split fallback allMarkdown (addParts.written 2 "\n\tsee @@@")).markdown = "### args\n\n    | id |" := by
  have hbody : ¬ joinLines addParts.body = [] := by decide +kernel
  obtain ⟨hsummary, hprose, hblock⟩ := split_written addParts 2 "\n\tsee @@@" fallback allMarkdown
  rw [if_neg hbody] at hprose
  exact ⟨by decide +kernel, hsummary.trans (by decide +kernel), hprose.trans (by decide +kernel),
    hblock.trans (by decide +kernel)⟩

end ApiHandbook.Docstring
