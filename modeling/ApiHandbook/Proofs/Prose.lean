import ApiHandbook.Aggregate
import ApiHandbook.Proofs.Dedenting
import ApiHandbook.Proofs.Sections

/-! The prose of a docstring and its body. The body is the prose without its first line, although the two lose different
indentations. -/
namespace ApiHandbook.Docstring
open Text

/-! The first line and the others -/

theorem isBlankText_of_linesOfPieces {pieces : List (List Char)} (h : ∀ line ∈ linesOfPieces pieces, isBlankText line = true) :
    ∀ piece ∈ pieces, isBlankText piece = true := by
  induction pieces with
  | nil => exact List.forall_mem_nil _
  | cons piece pieces ih =>
    cases pieces with
    | nil =>
      rw [List.forall_mem_singleton]
      rw [linesOfPieces] at h
      split at h
      · rename_i hempty
        rw [List.isEmpty_iff.mp hempty]
        rfl
      · exact h piece List.mem_cons_self
    | cons next pieces =>
      obtain ⟨hpiece, hpieces⟩ := List.forall_mem_cons.mp h
      refine List.forall_mem_cons.mpr ⟨?_, ih hpieces⟩
      rcases dropReturn_cases piece with ⟨heq, -⟩ | heq
      · rwa [heq] at hpiece
      · rw [heq, isBlankText_append, hpiece]
        rfl

theorem exists_nonblank_line {s : List Char} (h : isBlankText s = false) : ∃ line ∈ lines s, isBlankText line = false := by
  by_contra hall
  have hblank : ∀ line ∈ lines s, isBlankText line = true := by simpa using hall
  have hjoin : joinLines (s.splitOn '\n') = s := List.intercalate_splitOn '\n'
  have htext := isBlankText_joinLines (isBlankText_of_linesOfPieces hblank)
  rw [hjoin, h] at htext
  exact Bool.false_ne_true htext

/-- The summary is the first line that is not blank, trimmed, and the body is made of the lines around it. -/
theorem exists_summary_line {s : List Char} (h : isBlankText s = false) : ∃ before line after,
    lines s = before ++ line :: after ∧ (∀ l ∈ before, isBlankText l = true) ∧ isBlankText line = false ∧
    summaryOf s = trim line ∧ withoutSummary s (trim line) = trim (dedent (joinLines (before ++ after))) := by
  obtain ⟨line, hline, hnonblank⟩ := exists_nonblank_line h
  have hsome : ((lines s).find? fun line => !(trim line).isEmpty).isSome := by
    apply List.find?_isSome.mpr
    exact ⟨line, hline, by simpa using trim_ne_nil hnonblank⟩
  obtain ⟨first, hfirst⟩ := Option.isSome_iff_exists.mp hsome
  obtain ⟨hnonempty, before, after, hlines, hbefore⟩ := List.find?_eq_some_iff_append.mp hfirst
  have hbefore' : ∀ l ∈ before, trim l = [] := fun l hl => by simpa using hbefore l hl
  have hne : trim first ≠ [] := by simpa using hnonempty
  refine ⟨before, first, after, hlines, fun l hl => ?_, ?_, ?_, ?_⟩
  · by_contra hblank
    exact trim_ne_nil (Bool.eq_false_iff.mpr hblank) (hbefore' l hl)
  · apply Bool.eq_false_iff.mpr
    exact fun hblank => hne (trim_eq_nil hblank)
  · have hfind : ((lines s).map trim).find? (fun line => !line.isEmpty) = some (trim first) := by
      rw [List.find?_map]
      exact congrArg (Option.map trim) hfirst
    rw [summaryOf, hfind, Option.getD_some]
  · have herase : (before ++ first :: after).eraseP (fun line => trim line == trim first) = before ++ after := by
      rw [List.eraseP_append_right _ fun l hl => ?_, List.eraseP_cons, beq_self_eq_true, cond_true]
      rw [hbefore' l hl]
      simpa using hne.symm
    rw [withoutSummary, if_neg (by simpa using hne), hlines, herase]

/-- A body is made of lines of the prose. -/
theorem exists_kept (prose summary : List Char) :
    ∃ kept, kept.Sublist (lines prose) ∧ withoutSummary prose summary = trim (dedent (joinLines kept)) := by
  refine ⟨_, ?_, rfl⟩
  split
  · exact List.Sublist.refl _
  · exact List.eraseP_sublist

theorem withoutSummary_of_blank {prose : List Char} (h : isBlankText prose = true) (summary : List Char) :
    withoutSummary prose summary = [] := by
  obtain ⟨kept, hkept, heq⟩ := exists_kept prose summary
  rw [heq]
  apply trim_dedent_of_blank
  exact isBlankText_joinLines fun line hline => isBlankText_of_mem_lines h (hkept.subset hline)

/-- The first line of the prose is the summary line, and the others are what the body is made of. -/
theorem lines_prose {s : List Char} (hspaced : ∀ line ∈ lines s, Spaced line) (h : isBlankText s = false) :
    ∃ first rest, lines (trim (dedent s)) = first :: rest ∧ trim first = summaryOf s ∧
      trim (dedent (joinLines rest)) = withoutSummary s (summaryOf s) := by
  obtain ⟨before, line, after, hlines, hbefore, hline, hsummary, hbody⟩ := exists_summary_line h
  rw [hsummary, hbody, dedent_eq hspaced, hlines]
  rw [hlines] at hspaced
  rcases exists_last_nonblank after with hafter | ⟨front, last, back, rfl, -, hlast, hback⟩
  · -- There is nothing but the summary line.
    have hprose : trim (joinLines (flush (before ++ line :: after))) = trim line := by
      rw [List.append_cons, trim_flush_append_append hbefore hafter (List.cons_ne_nil line []), flush, List.map_singleton,
        joinLines, List.intercalate_singleton, trim_drop (commonIndent_le List.mem_cons_self hline)]
    have hfeed : '\n' ∉ trim line := fun hmem => (hspaced line (by simp)).breaks.1 ((trim_infix_self line).subset hmem)
    have hrest : isBlankText (joinLines (before ++ after)) = true :=
      isBlankText_joinLines (List.forall_mem_append.mpr ⟨hbefore, hafter⟩)
    refine ⟨trim line, [], ?_, trim_trim line, ?_⟩
    · rw [hprose, lines_of_notMem hfeed, if_neg (by simpa using trim_ne_nil hline)]
    · rw [trim_dedent_of_blank hrest]
      rfl
  · have hcontent : before ++ line :: (front ++ last :: back) = before ++ (line :: front ++ [last]) ++ back := by simp
    have hothers : before ++ (front ++ last :: back) = before ++ (front ++ [last]) ++ back := by simp
    rw [hcontent] at hspaced ⊢
    have hspaced' : ∀ l ∈ line :: front ++ [last], Spaced l := fun l hl =>
      hspaced l (List.mem_append_left _ (List.mem_append_right _ hl))
    -- The summary line counts for the indentation of the prose, but not for that of the body.
    have hle : commonIndent (line :: front ++ [last]) ≤ commonIndent (front ++ [last]) := by
      obtain ⟨least, hleast, hnonblank, heq⟩ := @exists_commonIndent (front ++ [last]) last (by simp) hlast
      exact heq ▸ commonIndent_le (List.mem_cons_of_mem line hleast) hnonblank
    rw [trim_flush_append_append hbefore hback (by simp)]
    refine ⟨_, _, lines_trim_flush hspaced' hline hlast rfl, ?_, ?_⟩
    · rw [trim_trimStart, trim_drop (commonIndent_le (by simp) hline)]
    · have hothers' : (before ++ (front ++ [last]) ++ back).Sublist (before ++ (line :: front ++ [last]) ++ back) :=
        ((List.sublist_cons_self line (front ++ [last])).append_left before).append_right back
      have hspaced'' : ∀ l ∈ before ++ (front ++ [last]) ++ back, Spaced l := fun l hl => hspaced l (hothers'.subset hl)
      rw [trim_dedent_map_drop (fun l hl => hspaced' l (List.mem_cons_of_mem line hl)) hlast hle, hothers,
        trim_dedent_joinLines hspaced'' hbefore hback hlast]

/-! What the documentation shows -/

/-- Whether a prose shows a summary in its first line and a body in the others; a fallback stands for a body of blanks. -/
structure Presents (fallback prose summary body : String) : Prop where
  first : (lines prose.toList).head?.map trim = some summary.toList
  others : body = orText fallback (trim (dedent (joinLines (lines prose.toList).tail)))

theorem spaced_of_mem_lines_proseOf {raw : String} (hblank : ∀ c ∈ raw.toList, isBlank c = true → c = ' ' ∨ c = '\t' ∨ c = '\n') :
    ∀ line ∈ lines (proseOf raw), Spaced line := by
  intro line hline c hc hb
  rcases mem_expandTabs (mem_of_mem_lines hline hc) with hspace | ⟨hmem, htab⟩
  · exact hspace
  · rcases hblank c (mem_of_mem_headD (by decide) hmem) hb with hspace | htab' | rfl
    · exact hspace
    · exact absurd htab' htab
    · exact absurd hc (notMem_of_mem_lines hline)

/-- The summary and the body are what the prose shows, and so a resource's method shows what a function with the same
docstring shows. -/
theorem prose_presents (fallback : String) {raw : String}
    (hblank : ∀ c ∈ raw.toList, isBlank c = true → c = ' ' ∨ c = '\t' ∨ c = '\n')
    (hprose : isBlankText ((splitAtText delimiter raw.toList).headD []) = false) :
    Presents fallback (split fallback false raw).prose (split fallback false raw).summary (split fallback false raw).body ∧
    ∀ (settings : Settings) (function method : ClassifiedRoute) (handler handler' : Handler),
      settings.allMarkdown = false → settings.noDocText = fallback → function.kind = .api → method.kind = .restfulApi →
      handler.docstring = some raw → handler'.docstring = some raw →
      Presents fallback (Entry.opened settings function handler).doc (Entry.opened settings method handler').nameExtra
        (Entry.opened settings method handler').doc := by
  have hnonblank : isBlankText (proseOf raw) = false := (isBlankText_expandTabs _).trans hprose
  obtain ⟨first, rest, hlines, hfirst, hrest⟩ := lines_prose (spaced_of_mem_lines_proseOf hblank) hnonblank
  obtain ⟨hsummary, hbody, hshown⟩ := split_prose fallback raw
  have hne : (trim (dedent (proseOf raw))).isEmpty = false := by
    apply List.isEmpty_eq_false_iff.mpr
    intro hnil
    rw [hnil] at hlines
    exact List.cons_ne_nil _ _ hlines.symm
  have hpresents : Presents fallback (split fallback false raw).prose (split fallback false raw).summary
      (split fallback false raw).body := by
    rw [hsummary, hbody, hshown, orText, hne, if_neg Bool.false_ne_true]
    constructor
    · rw [String.toList_ofList, String.toList_ofList, hlines, List.head?_cons, Option.map_some, hfirst]
    · rw [String.toList_ofList, hlines, List.tail_cons, hrest]
  refine ⟨hpresents, ?_⟩
  intro settings function method handler handler' hmarkdown hfallback hfunction hmethod hdoc hdoc'
  subst hfallback
  simpa only [Entry.opened, hfunction, hmethod, hdoc, hdoc', Option.getD_some, Settings.docstring, hmarkdown] using hpresents

/-- A docstring behind tabs, with a body that is indented further than the summary and a line of nothing but spaces. -/
def noteDoc : String := "\n\tAdd a note \n\n\t  Notes:\n  \n\t    - short\n\t@@@\n\t| id |\n\t@@@"

def noteRoute (kind : ApiKind) : ClassifiedRoute := ⟨kind, "Notes", none, "POST", "/notes", ["POST"], none⟩

theorem noteDoc_presents :
    (∀ c ∈ noteDoc.toList, isBlank c = true → c = ' ' ∨ c = '\t' ∨ c = '\n') ∧
    isBlankText ((splitAtText delimiter noteDoc.toList).headD []) = false ∧
    Presents "none" "Add a note \n\n  Notes:\n\n    - short" "Add a note" "Notes:\n\n  - short" ∧
    Presents "none" (Entry.opened { noDocText := "none" } (noteRoute .api) ⟨"add", some noteDoc, none, none, none⟩).doc
      (Entry.opened { noDocText := "none" } (noteRoute .restfulApi) ⟨"post", some noteDoc, none, none, none⟩).nameExtra
      (Entry.opened { noDocText := "none" } (noteRoute .restfulApi) ⟨"post", some noteDoc, none, none, none⟩).doc := by
  have hblank : ∀ c ∈ noteDoc.toList, isBlank c = true → c = ' ' ∨ c = '\t' ∨ c = '\n' :=
    forall_mem_of_all (by decide +kernel)
  have hprose : isBlankText ((splitAtText delimiter noteDoc.toList).headD []) = false := by decide +kernel
  have hsplit : split "none" false noteDoc =
      ⟨"Add a note", "Notes:\n\n  - short", "Add a note \n\n  Notes:\n\n    - short", "| id |"⟩ := by decide +kernel
  obtain ⟨hown, hentries⟩ := prose_presents "none" hblank hprose
  rw [hsplit] at hown
  refine ⟨hblank, hprose, hown, ?_⟩
  exact hentries _ _ _ _ _ rfl rfl rfl rfl (by decide +kernel) (by decide +kernel)

end ApiHandbook.Docstring
