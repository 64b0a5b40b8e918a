import ApiHandbook.Proofs.Comments
import ApiHandbook.Proofs.Declarations

/-! The docstring of a function and what is scraped of its code: the first occurrence of the docstring in the text of the
function is left out, whatever stands there. As long as that is no code, the declarations are those of the code alone. -/
namespace ApiHandbook
open Text

/-! The first occurrence of a text -/

namespace Text
variable {key s before after : List Char}

theorem cut?_eq_none (h : ¬ key <:+: s) : cut? key s = none := by
  rw [cut?, splitAtText_eq_singleton h]

/-- A text is cut in front of or at any occurrence of the separator. -/
theorem length_le_of_cut? (hkey : key ≠ []) {front rest : List Char}
    (h : cut? key (front ++ (key ++ rest)) = some (before, after)) : before.length ≤ front.length := by
  have hhead : (splitAtText key (front ++ (key ++ rest))).headD [] = before := by
    rw [cut?] at h
    split at h
    · rename_i head next more hpieces
      obtain ⟨rfl, -⟩ := Prod.mk.inj (Option.some.inj h)
      rw [hpieces, List.headD_cons]
    · cases h
  rw [← hhead]
  clear h hhead
  induction front with
  | nil => rw [List.nil_append, splitAtText_append hkey, List.headD_cons]
  | cons c front ih =>
    by_cases hstart : key <+: c :: (front ++ (key ++ rest))
    · obtain ⟨more, hmore⟩ := hstart
      rw [List.cons_append, ← hmore, splitAtText_append hkey]
      exact Nat.zero_le _
    · obtain ⟨piece, pieces, hpieces⟩ := List.exists_cons_of_ne_nil (splitAtText_ne_nil key (front ++ (key ++ rest)))
      rw [hpieces, List.headD_cons] at ih
      rw [List.cons_append, splitAtText_cons hstart, hpieces, List.modifyHead_cons, List.headD_cons]
      exact Nat.succ_le_succ ih

/-- In front of a character that it does not hold, a separator that does not occur makes no piece. -/
theorem tail_splitAtText {c : Char} (hc : c ∉ key) (h : ¬ key <:+: s) (t : List Char) :
    (splitAtText key (s ++ c :: t)).tail = (splitAtText key t).tail := by
  by_cases hkey : key = []
  · exact absurd (hkey ▸ List.nil_infix) h
  induction s with
  | nil =>
    have hstart : ¬ key <+: c :: t := fun hp => hkey (List.prefix_nil.mp ((prefix_append_cons_iff hc [] t).mp hp))
    rw [List.nil_append, splitAtText_cons hstart, List.tail_modifyHead]
  | cons d s ih =>
    rw [List.infix_cons_iff, not_or] at h
    have hstart : ¬ key <+: d :: (s ++ c :: t) := fun hp => h.1 ((prefix_append_cons_iff hc (d :: s) t).mp hp)
    rw [List.cons_append, splitAtText_cons hstart, List.tail_modifyHead, ih h.2]

theorem length_linesOfPieces_le (pieces : List (List Char)) : (linesOfPieces pieces).length ≤ pieces.length := by
  fun_induction linesOfPieces pieces with
  | case1 => exact Nat.le_refl 0
  | case2 last hempty => exact Nat.zero_le 1
  | case3 last hempty => exact Nat.le_refl 1
  | case4 line next rest ih => exact Nat.succ_le_succ ih

theorem count_unlines {ls : List (List Char)} (h : ∀ line ∈ ls, '\n' ∉ line) : (unlines ls).count '\n' = ls.length := by
  induction ls with
  | nil => rfl
  | cons line ls ih =>
    obtain ⟨hline, hls⟩ := List.forall_mem_cons.mp h
    rw [unlines_cons, List.count_append, List.count_cons_self, List.count_eq_zero.mpr hline, ih hls, Nat.zero_add,
      List.length_cons]

/-- A text has at most one line more than it has line feeds. -/
theorem length_lines_le (s : List Char) : (lines s).length ≤ s.count '\n' + 1 := by
  have hcount := @count_unlines (s.splitOn '\n') fun _ => notMem_of_mem_splitOn
  rw [unlines_splitOn, List.count_append, List.count_singleton_self] at hcount
  exact hcount ▸ length_linesOfPieces_le _

end Text

namespace Argument

/-! Declarations of a code -/

/-- The records of all declarations in a code. -/
def recordsIn (code : List Char) : List Record := ((splitAtText opening code).drop 1).filterMap recordAt

theorem scrapeDeclarations_eq_recordsIn (source : String) (doc : Option String) :
    scrapeDeclarations source doc = recordsIn (codeOf source.toList (doc.map String.toList)) := rfl

/-- A line without an opening in front of a code declares nothing. -/
theorem recordsIn_joinLines_cons {line : List Char} (h : ¬ opening <:+: line) (ls : List (List Char)) :
    recordsIn (joinLines (line :: ls)) = recordsIn (joinLines ls) := by
  cases ls with
  | nil =>
    rw [joinLines, List.intercalate_singleton, recordsIn, splitAtText_eq_singleton h]
    rfl
  | cons next rest =>
    rw [joinLines_cons_of_ne_nil (List.cons_ne_nil next rest), recordsIn, List.drop_one, tail_splitAtText (by decide) h,
      ← List.drop_one, ← recordsIn]

/-- A line that documents something, or that holds no opening, declares nothing. -/
theorem recordsIn_codeOf_cons {line : List Char} (hfeed : '\n' ∉ line) (hreturn : '\r' ∉ line)
    (h : isDocLine line = true ∨ ¬ opening <:+: line) (code : List Char) :
    recordsIn (codeOf (line ++ '\n' :: code) none) = recordsIn (codeOf code none) := by
  have hline : dropReturn line = line := dropReturn_eq_self fun hlast => hreturn (List.mem_of_getLast? hlast)
  rw [codeOf, codeOf, lines_append_cons hfeed, hline, List.filter_cons]
  split
  · rename_i hcode
    exact recordsIn_joinLines_cons (h.resolve_left (by simpa using hcode)) _
  · rfl

/-! Documentation comments -/

/-- What stands in front of the text of a documentation comment. -/
def commentMark : List Char := ['/', '/', '/', ' ']

theorem commentsOf_eq_unlines (ls : List (List Char)) : Code.commentsOf [] ls = unlines (ls.map (commentMark ++ ·)) := by
  rw [unlines, List.flatMap_map]
  rfl

section Documented
variable {doc : List Char} (code : List Char)

/-- A docstring of one line occurs in its comment first. -/
theorem suffix_of_cut? (hne : doc ≠ []) (hbreak : '\n' ∉ doc) {before after : List Char}
    (hcut : cut? doc (Code.commentsOf [] (lines doc) ++ code) = some (before, after)) : '\n' :: code <:+ after := by
  have hsource : Code.commentsOf [] (lines doc) ++ code = commentMark ++ (doc ++ '\n' :: code) := by
    rw [lines_of_notMem hbreak, if_neg (by simpa using hne)]
    simp [Code.commentsOf, commentMark]
  have hle := length_le_of_cut? hne (hsource ▸ hcut)
  have heq := eq_of_cut? hne hcut
  have hlength := congrArg List.length (hsource.symm.trans heq)
  simp only [List.length_append, List.length_cons] at hlength
  have hcode : '\n' :: code <:+ Code.commentsOf [] (lines doc) ++ code :=
    ⟨commentMark ++ doc, by rw [hsource, List.append_assoc]⟩
  have hrest : after <:+ Code.commentsOf [] (lines doc) ++ code := ⟨before ++ doc, by rw [heq, List.append_assoc]⟩
  refine List.suffix_of_suffix_length_le hcode hrest ?_
  rw [List.length_cons]
  omega

variable (hreturn : '\r' ∉ doc)
include hreturn

theorem notMem_commentLines : ∀ line ∈ (lines doc).map (commentMark ++ ·), '\n' ∉ line ∧ '\r' ∉ line := by
  intro line hline
  obtain ⟨text, htext, rfl⟩ := List.mem_map.mp hline
  refine ⟨fun hmem => ?_, fun hmem => ?_⟩
  · exact notMem_of_mem_lines htext ((List.mem_append.mp hmem).resolve_left (by decide))
  · exact hreturn (mem_of_mem_lines htext ((List.mem_append.mp hmem).resolve_left (by decide)))

theorem return_notMem_commentsOf : '\r' ∉ Code.commentsOf [] (lines doc) := by
  rw [commentsOf_eq_unlines, unlines]
  intro hmem
  obtain ⟨line, hline, hmem⟩ := List.mem_flatMap.mp hmem
  exact (notMem_commentLines hreturn line hline).2 ((List.mem_append.mp hmem).resolve_right (by decide))

/-- Documentation comments are no code. -/
theorem codeOf_commentsOf : codeOf (Code.commentsOf [] (lines doc) ++ code) none = codeOf code none := by
  have hlines := notMem_commentLines hreturn
  have hdoc : ∀ line ∈ (lines doc).map (commentMark ++ ·), dropReturn line = line ∧ isDocLine line = true := by
    intro line hline
    refine ⟨dropReturn_eq_self fun hlast => (hlines line hline).2 (List.mem_of_getLast? hlast), ?_⟩
    obtain ⟨text, -, rfl⟩ := List.mem_map.mp hline
    rfl
  have hkept : ((lines doc).map (commentMark ++ ·)).map dropReturn = (lines doc).map (commentMark ++ ·) :=
    List.map_congr_left (fun line hline => (hdoc line hline).1) |>.trans (List.map_id _)
  have hdropped : ((lines doc).map (commentMark ++ ·)).filter (fun line => !isDocLine line) = [] :=
    List.filter_eq_nil_iff.mpr fun line hline => by simp [(hdoc line hline).2]
  rw [commentsOf_eq_unlines, codeOf, codeOf, lines_unlines_append fun line hline => (hlines line hline).1, hkept,
    List.filter_append, hdropped, List.nil_append]

section Around
variable {before middle : List Char} (hcomments : Code.commentsOf [] (lines doc) = before ++ doc ++ middle ++ ['\n'])
include hcomments

/-- The comments have a line feed for each line of the docstring, and only the last one is none of its own. -/
theorem feed_notMem_around : '\n' ∉ before ++ middle := by
  have hcount : before.count '\n' + doc.count '\n' + middle.count '\n' + 1 ≤ doc.count '\n' + 1 := by
    have hfeeds := count_unlines fun line hline => (notMem_commentLines hreturn line hline).1
    rw [← commentsOf_eq_unlines, hcomments, List.length_map] at hfeeds
    simp only [List.count_append, List.count_singleton_self] at hfeeds
    exact hfeeds ▸ length_lines_le doc
  refine List.count_eq_zero.mp ?_
  rw [List.count_append]
  omega

theorem return_notMem_around : '\r' ∉ before ++ middle := by
  have hreturns := return_notMem_commentsOf hreturn
  rw [hcomments] at hreturns
  simp only [List.mem_append, not_or] at hreturns ⊢
  exact ⟨hreturns.1.1.1, hreturns.1.2⟩

/-- The first line of the comments ends where the first line of the docstring does. -/
theorem eq_commentMark (hbreak : '\n' ∈ doc) : before = commentMark := by
  have hfeed := feed_notMem_around hreturn hcomments
  have hreturns := return_notMem_around hreturn hcomments
  simp only [List.mem_append, not_or] at hfeed hreturns
  obtain ⟨first, rest, rfl, hfirst⟩ := List.eq_append_cons_of_mem hbreak
  have hsame {line : List Char} (h : '\r' ∉ line) : dropReturn line = line :=
    dropReturn_eq_self fun hlast => h (List.mem_of_getLast? hlast)
  have hfirst' : '\r' ∉ first := fun hmem => hreturn (List.mem_append_left _ hmem)
  have hlines := congrArg lines hcomments
  have hright : before ++ (first ++ '\n' :: rest) ++ middle ++ ['\n'] =
      (before ++ first) ++ '\n' :: (rest ++ middle ++ ['\n']) := by simp
  rw [lines_append_cons hfirst, hsame hfirst', commentsOf_eq_unlines, List.map_cons, unlines_cons,
    lines_append_cons (by simp [commentMark, hfirst]), hsame (by simp [commentMark, hfirst']), hright,
    lines_append_cons (by simp [hfeed, hfirst]), hsame (by simp [hreturns, hfirst'])] at hlines
  exact (List.append_cancel_right (List.cons.inj hlines).1).symm

omit hreturn in
/-- What is left of the only comment is as long as its mark. -/
theorem length_around (hne : doc ≠ []) (hbreak : '\n' ∉ doc) : (before ++ middle).length = 4 := by
  have hlength := congrArg List.length hcomments
  rw [lines_of_notMem hbreak, if_neg (by simpa using hne)] at hlength
  simp [Code.commentsOf] at hlength
  rw [List.length_append]
  omega

end Around

/-- Where the docstring is left out of the comments in front of a code, what is left of them declares nothing. -/
theorem recordsIn_cut (hne : doc ≠ []) {before after : List Char}
    (hcut : cut? doc (Code.commentsOf [] (lines doc) ++ code) = some (before, after)) (hafter : '\n' :: code <:+ after) :
    recordsIn (codeOf (before ++ after) none) = recordsIn (codeOf code none) := by
  obtain ⟨middle, rfl⟩ := hafter
  have hcomments : Code.commentsOf [] (lines doc) = before ++ doc ++ middle ++ ['\n'] := by
    apply @List.append_cancel_right _ _ code
    rw [eq_of_cut? hne hcut]
    simp
  rw [← List.append_assoc]
  refine recordsIn_codeOf_cons (feed_notMem_around hreturn hcomments) (return_notMem_around hreturn hcomments) ?_ code
  by_cases hbreak : '\n' ∈ doc
  · rw [eq_commentMark hreturn hcomments hbreak]
    exact .inl rfl
  · refine .inr fun hopening => ?_
    have hle := hopening.length_le
    rw [length_around hcomments hne hbreak] at hle
    exact absurd hle (by decide)

end Documented

/-- A docstring changes nothing of the records where it does not stand in the code. With its lines as comments in front of
the code, it changes nothing where its first occurrence, if there is one, ends in front of the code; a docstring of one line
always does. -/
theorem scrapeDeclarations_documented {code doc : String} (hreturn : '\r' ∉ doc.toList) :
    let source := Code.commentsOf [] (lines doc.toList) ++ code.toList
    (isBlankText doc.toList = true ∨ ¬ doc.toList <:+: code.toList →
      scrapeDeclarations code (some doc) = scrapeDeclarations code none) ∧
    (isBlankText doc.toList = true ∨ '\n' ∉ doc.toList ∨
        (∀ before after, cut? doc.toList source = some (before, after) → '\n' :: code.toList <:+ after) →
      scrapeDeclarations (String.ofList source) (some doc) = scrapeDeclarations code none) := by
  intro source
  simp only [scrapeDeclarations_eq_recordsIn, Option.map_some, Option.map_none, String.toList_ofList]
  have hblank (s : List Char) (h : isBlankText doc.toList = true) : codeOf s (some doc.toList) = codeOf s none := by
    simp only [codeOf, if_pos h]
  have hnone (s : List Char) (h : cut? doc.toList s = none) : codeOf s (some doc.toList) = codeOf s none := by
    simp only [codeOf, withoutFirst, h, ite_self]
  refine ⟨fun h => ?_, fun h => ?_⟩
  · rcases h with h | h
    · rw [hblank _ h]
    · rw [hnone _ (cut?_eq_none h)]
  · by_cases hempty : isBlankText doc.toList = true
    · rw [hblank _ hempty, codeOf_commentsOf _ hreturn]
    have hne : doc.toList ≠ [] := fun heq => hempty (heq ▸ rfl)
    cases hcut : cut? doc.toList source with
    | none => rw [hnone _ hcut, codeOf_commentsOf _ hreturn]
    | some found =>
      obtain ⟨before, after⟩ := found
      have hafter : '\n' :: code.toList <:+ after := by
        rcases h.resolve_left hempty with hbreak | hfirst
        · exact suffix_of_cut? code.toList hne hbreak hcut
        · exact hfirst before after hcut
      rw [← recordsIn_cut _ hreturn hne hcut hafter]
      simp only [codeOf, withoutFirst, hcut, if_neg hempty]

/-- A docstring of two lines, one of which quotes a declaration. -/
theorem scrapeDeclarations_addTodo :
    let doc := "Adds a todo.\nSee p.add_argument(\"quoted\")"
    let code := "p.add_argument(\"task\", help = \"Adds a todo.\")"
    let source := "/// Adds a todo.\n/// See p.add_argument(\"quoted\")\np.add_argument(\"task\", help = \"Adds a todo.\")"
    '\r' ∉ doc.toList ∧ ¬ doc.toList <:+: code.toList ∧
    scrapeDeclarations code none = [⟨"task", [(.help, "Adds a todo.")]⟩] ∧
    scrapeDeclarations code (some doc) = [⟨"task", [(.help, "Adds a todo.")]⟩] ∧
    scrapeDeclarations source (some doc) = [⟨"task", [(.help, "Adds a todo.")]⟩] := by
  intro doc code source
  have hreturn : '\r' ∉ doc.toList := by decide
  have hcode : ¬ doc.toList <:+: code.toList := by decide +kernel
  have hrecords : scrapeDeclarations code none = [⟨"task", [(.help, "Adds a todo.")]⟩] := by decide +kernel
  have hsource : String.ofList (Code.commentsOf [] (lines doc.toList) ++ code.toList) = source := by decide +kernel
  have hcut : cut? doc.toList (Code.commentsOf [] (lines doc.toList) ++ code.toList) = none := by decide +kernel
  obtain ⟨halone, hcomments⟩ := @scrapeDeclarations_documented code doc hreturn
  refine ⟨hreturn, hcode, hrecords, (halone (.inr hcode)).trans hrecords, ?_⟩
  rw [← hsource, hcomments (.inr (.inr fun before after h => by rw [hcut] at h; cases h)), hrecords]

/-- A docstring that is also the name of an argument takes its name away, and one that ends with a line feed takes the line
behind its comment. -/
theorem records_lost_to_docstring :
    let code := "p.add_argument(\"name\")"
    let r : Record := ⟨"name", [(.required, "false"), (.nullable, "true")]⟩
    (∀ line ∈ lines code.toList, isDocLine line = false) ∧ '\r' ∉ code.toList ∧
    scrapeDeclarations code none = [r] ∧ scrapeDeclarations code (some "name") = [] ∧
    String.ofList (Code.commentsOf [] (lines "Names it\n".toList)) = "/// Names it\n" ∧
    scrapeDeclarations ("/// Names it\n" ++ code) (some "Names it\n") = [] := by
  decide +kernel

end Argument
end ApiHandbook
