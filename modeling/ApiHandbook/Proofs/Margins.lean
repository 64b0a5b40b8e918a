import ApiHandbook.Proofs.Neighbours

/-! What is blank around a text changes nothing of its records: around the code, around the lines that the code is taken from, and
around a text whose docstring is left out first. -/
namespace ApiHandbook
open Text

namespace Argument

/-! Blank text around code -/

theorem opening_nonblank : ∀ c ∈ opening, isBlank c = false := forall_mem_of_all (by decide)

theorem isClosing_of_isBlank {c : Char} (h : isBlank c = true) : isClosing c = false := by
  have hparenthesis : c ≠ ')' := fun heq => absurd (heq ▸ h) (by decide)
  have hbracket : c ≠ ']' := fun heq => absurd (heq ▸ h) (by decide)
  have hbrace : c ≠ '\x7d' := fun heq => absurd (heq ▸ h) (by decide)
  simp [isClosing, hparenthesis, hbracket, hbrace]

theorem recordsIn_append_blank {blanks : List Char} (h : isBlankText blanks = true) (code : List Char) :
    recordsIn (code ++ blanks) = recordsIn code := by
  induction blanks generalizing code with
  | nil => rw [List.append_nil]
  | cons c blanks ih =>
    obtain ⟨hc, hblanks⟩ := List.forall_mem_cons.mp (isBlankText_iff.mp h)
    have hlast : opening.getLast? ≠ some c := fun heq => by
      rw [opening_nonblank c (List.mem_of_getLast? heq)] at hc
      cases hc
    obtain ⟨front, last, hcode, hconcat⟩ := @splitAtText_concat opening (by decide) c hlast code
    rw [List.append_cons, ih (isBlankText_iff.mpr hblanks), recordsIn, recordsIn, hcode, hconcat]
    cases front with
    | nil => rfl
    | cons piece front =>
      simp only [List.cons_append, List.drop_succ_cons, List.drop_zero, List.filterMap_append, List.filterMap_cons,
        List.filterMap_nil, recordAt_concat (isClosing_of_isBlank hc)]

theorem recordsIn_blank_append {blanks : List Char} (h : isBlankText blanks = true) (code : List Char) :
    recordsIn (blanks ++ code) = recordsIn code := by
  have hdot : '.' ∉ blanks := fun hmem => absurd (isBlankText_iff.mp h _ hmem) (by decide)
  rw [recordsIn, recordsIn, List.drop_one, List.drop_one, opening_eq, splitAtText_skip hdot, List.tail_modifyHead]

/-! Blank text around the text of a function -/

section Blank
variable {blanks : List Char} (hblank : isBlankText blanks = true)
include hblank

theorem isPrefixOf_append_blank {key : List Char} (hkey : ∀ c ∈ key, isBlank c = false) (s : List Char) :
    key.isPrefixOf (s ++ blanks) = key.isPrefixOf s := by
  cases blanks with
  | nil => rw [List.append_nil]
  | cons c blanks =>
    have hc : c ∉ key := fun hmem => by
      have hmust := isBlankText_iff.mp hblank c List.mem_cons_self
      rw [hkey c hmem] at hmust
      cases hmust
    rw [Bool.eq_iff_iff, List.isPrefixOf_iff_prefix, List.isPrefixOf_iff_prefix, prefix_append_cons_iff hc]

theorem isDocLine_blank_append (line : List Char) : isDocLine (blanks ++ line) = isDocLine line := by
  rw [isDocLine, isDocLine, trimStart, trimStart, List.dropWhile_append_of_pos (isBlankText_iff.mp hblank)]

theorem isDocLine_append_blank (line : List Char) : isDocLine (line ++ blanks) = isDocLine line := by
  have htrim : trimStart (line ++ blanks) = trimStart line ++ if (trimStart line).isEmpty then [] else blanks := by
    rw [trimStart, List.dropWhile_append, ← trimStart]
    split
    · rename_i hempty
      rw [List.isEmpty_iff.mp hempty, List.dropWhile_eq_nil_iff.mpr (isBlankText_iff.mp hblank), List.append_nil]
    · rfl
  have hmark {key : List Char} (hkey : key.all (fun c => decide (isBlank c = false)) = true) :
      key.isPrefixOf (trimStart (line ++ blanks)) = key.isPrefixOf (trimStart line) := by
    rw [htrim]
    split
    · rw [List.append_nil]
    · exact isPrefixOf_append_blank hblank (forall_mem_of_all hkey) _
  rw [isDocLine, isDocLine, hmark (by decide), hmark (by decide), hmark (by decide)]

/-- What is blank in front of the first line. -/
theorem recordsIn_lines_blank_append (first : List Char) (rest : List (List Char)) :
    recordsIn (joinLines (((blanks ++ first) :: rest).filter fun line => !isDocLine line)) =
      recordsIn (joinLines ((first :: rest).filter fun line => !isDocLine line)) := by
  rw [List.filter_cons, List.filter_cons, isDocLine_blank_append hblank]
  split
  · rw [joinLines_cons, joinLines_cons, List.append_assoc, recordsIn_blank_append hblank]
  · rfl

/-- What is blank behind the last line. -/
theorem recordsIn_lines_append_blank (front : List (List Char)) (last : List Char) :
    recordsIn (joinLines ((front ++ [last ++ blanks]).filter fun line => !isDocLine line)) =
      recordsIn (joinLines ((front ++ [last]).filter fun line => !isDocLine line)) := by
  rw [List.filter_append, List.filter_append, List.filter_cons, List.filter_cons, isDocLine_append_blank hblank]
  split
  · rw [List.filter_nil, joinLines_concat, joinLines_concat, ← List.append_assoc, recordsIn_append_blank hblank]
  · rfl

end Blank

/-- A last line that is empty changes nothing. -/
theorem recordsIn_codeOf_unlines {ls : List (List Char)} {last : List Char} (hls : ∀ line ∈ ls, '\n' ∉ line)
    (hlast : '\n' ∉ last) : recordsIn (codeOf (unlines ls ++ last) none) =
      recordsIn (joinLines ((ls.map dropReturn ++ [last]).filter fun line => !isDocLine line)) := by
  rw [codeOf, lines_unlines_append hls, lines_of_notMem hlast]
  split
  · rename_i hempty
    rw [List.isEmpty_iff.mp hempty, List.append_nil, List.filter_append]
    change _ = recordsIn (joinLines (_ ++ [[]]))
    rw [joinLines_concat, List.append_nil]
    generalize (ls.map dropReturn).filter (fun line => !isDocLine line) = kept
    by_cases hkept : kept = []
    · rw [hkept]
      rfl
    · rw [← joinLines_append hkept, recordsIn_append_blank rfl]
  · rfl

section Blank
variable {blanks : List Char} (hblank : isBlankText blanks = true)
include hblank

/-- What is blank in front of a text, on its first line. -/
theorem recordsIn_codeOf_blank_append (hfeed : '\n' ∉ blanks) (s : List Char) :
    recordsIn (codeOf (blanks ++ s) none) = recordsIn (codeOf s none) := by
  obtain ⟨ls, last, rfl, hls, hlast, -⟩ := exists_lastLine s
  have hfirst {line : List Char} (hline : '\n' ∉ line) : '\n' ∉ blanks ++ line := fun hmem =>
    (List.mem_append.mp hmem).elim hfeed hline
  cases ls with
  | nil =>
    have hnil : ∀ line ∈ ([] : List (List Char)), '\n' ∉ line := List.forall_mem_nil _
    have hwhole := recordsIn_codeOf_unlines hnil (hfirst hlast)
    rw [unlines_nil, List.nil_append] at hwhole ⊢
    rw [hwhole, ← List.nil_append last, ← unlines_nil, recordsIn_codeOf_unlines hnil hlast]
    exact recordsIn_lines_blank_append hblank last []
  | cons first ls =>
    obtain ⟨hline, hls'⟩ := List.forall_mem_cons.mp hls
    have hsplit : blanks ++ (unlines (first :: ls) ++ last) = unlines ((blanks ++ first) :: ls) ++ last := by
      simp only [unlines_cons, List.append_assoc]
    obtain ⟨blanks', hblank', hdrop⟩ : ∃ blanks', isBlankText blanks' = true ∧
        dropReturn (blanks ++ first) = blanks' ++ dropReturn first := by
      cases first with
      | nil =>
        refine ⟨dropReturn blanks, ?_, by rw [List.append_nil]; exact (List.append_nil _).symm⟩
        exact isBlankText_iff.mpr fun c hc => isBlankText_iff.mp hblank c ((dropReturn_prefix_self blanks).subset hc)
      | cons c first => exact ⟨blanks, hblank, dropReturn_append (List.cons_ne_nil c first) blanks⟩
    rw [hsplit, recordsIn_codeOf_unlines (List.forall_mem_cons.mpr ⟨hfirst hline, hls'⟩) hlast,
      recordsIn_codeOf_unlines hls hlast, List.map_cons, hdrop]
    exact recordsIn_lines_blank_append hblank' _ _

end Blank

/-- What is blank behind a text, whatever line breaks it holds. -/
theorem recordsIn_codeOf_append_blank {blanks : List Char} (hblank : isBlankText blanks = true) (s : List Char) :
    recordsIn (codeOf (s ++ blanks) none) = recordsIn (codeOf s none) := by
  induction blanks generalizing s with
  | nil => rw [List.append_nil]
  | cons c blanks ih =>
    obtain ⟨hc, hblanks⟩ := List.forall_mem_cons.mp (isBlankText_iff.mp hblank)
    rw [List.append_cons, ih (isBlankText_iff.mpr hblanks)]
    obtain ⟨ls, last, rfl, hls, hlast, -⟩ := exists_lastLine s
    rw [recordsIn_codeOf_unlines hls hlast]
    by_cases hfeed : c = '\n'
    · have hbreak : unlines ls ++ last ++ [c] = unlines (ls ++ [last]) := by
        rw [hfeed, unlines_append, unlines_cons, List.append_assoc]
        rfl
      have hls' : ∀ line ∈ ls ++ [last], '\n' ∉ line :=
        List.forall_mem_append.mpr ⟨hls, List.forall_mem_singleton.mpr hlast⟩
      rw [hbreak, codeOf, lines_unlines hls', List.map_append, List.map_singleton]
      rcases dropReturn_cases last with ⟨hsame, -⟩ | hreturn
      · rw [hsame]
      · conv_rhs => rw [hreturn]
        exact (recordsIn_lines_append_blank (by decide) _ _).symm
    · have hlast' : '\n' ∉ last ++ [c] := fun hmem =>
        (List.mem_append.mp hmem).elim hlast fun hmem => hfeed (List.mem_singleton.mp hmem).symm
      rw [List.append_assoc, recordsIn_codeOf_unlines hls hlast',
        recordsIn_lines_append_blank (isBlankText_iff.mpr (List.forall_mem_singleton.mpr hc))]

/-! Blank text around the text of a documented function -/

section Without
variable {part s : List Char}

theorem withoutFirst_of_singleton {piece : List Char} (h : splitAtText part s = [piece]) : withoutFirst part s = s := by
  rw [withoutFirst, cut?, h]

theorem withoutFirst_of_cons {head : List Char} {tail : List (List Char)} (h : splitAtText part s = head :: tail)
    (htail : tail ≠ []) : withoutFirst part s = head ++ part.intercalate tail := by
  obtain ⟨next, rest, rfl⟩ := List.exists_cons_of_ne_nil htail
  rw [withoutFirst, cut?, h]

end Without

theorem intercalate_concat (part : List Char) (front : List (List Char)) (last behind : List Char) :
    part.intercalate (front ++ [last ++ behind]) = part.intercalate (front ++ [last]) ++ behind := by
  induction front with
  | nil => simp only [List.nil_append, List.intercalate_singleton]
  | cons piece front ih =>
    cases front with
    | nil =>
      simp only [List.cons_append, List.nil_append, List.intercalate_cons_cons, List.intercalate_singleton, List.append_assoc]
    | cons next front =>
      simp only [List.cons_append, List.intercalate_cons_cons] at ih ⊢
      rw [ih, List.append_assoc, List.append_assoc, List.append_assoc]

section Beside
variable {doc beside : List Char} (hne : doc ≠ [])
include hne

/-- A docstring that does not start with a character in front of a text is left out of that text. -/
theorem withoutFirst_append_left (hfirst : ∀ c ∈ doc.head?, c ∉ beside) (s : List Char) :
    withoutFirst doc (beside ++ s) = beside ++ withoutFirst doc s := by
  obtain ⟨k, key, rfl⟩ := List.exists_cons_of_ne_nil hne
  have hskip := @splitAtText_skip k key beside (hfirst k rfl) s
  obtain ⟨head, tail, hpieces⟩ := List.exists_cons_of_ne_nil (splitAtText_ne_nil (k :: key) s)
  rw [hpieces, List.modifyHead_cons] at hskip
  by_cases htail : tail = []
  · subst htail
    rw [withoutFirst_of_singleton hskip, withoutFirst_of_singleton hpieces]
  · rw [withoutFirst_of_cons hskip htail, withoutFirst_of_cons hpieces htail, List.append_assoc]

/-- A docstring that does not end with a character behind a text is left out of that text. -/
theorem withoutFirst_append_right (hlast : ∀ c ∈ doc.getLast?, c ∉ beside) (s : List Char) :
    withoutFirst doc (s ++ beside) = withoutFirst doc s ++ beside := by
  induction beside generalizing s with
  | nil => rw [List.append_nil, List.append_nil]
  | cons c beside ih =>
    have hc : doc.getLast? ≠ some c := fun heq => hlast c heq List.mem_cons_self
    have hbeside : ∀ d ∈ doc.getLast?, d ∉ beside := fun d hd hmem => hlast d hd (List.mem_cons_of_mem c hmem)
    obtain ⟨front, last, hs, hconcat⟩ := splitAtText_concat hne hc s
    have hstep : withoutFirst doc (s ++ [c]) = withoutFirst doc s ++ [c] := by
      cases front with
      | nil => rw [withoutFirst_of_singleton hconcat, withoutFirst_of_singleton hs]
      | cons head front =>
        have htail (piece : List Char) : front ++ [piece] ≠ [] :=
          List.append_ne_nil_of_right_ne_nil front (List.cons_ne_nil piece [])
        rw [List.cons_append] at hs hconcat
        rw [withoutFirst_of_cons hconcat (htail _), withoutFirst_of_cons hs (htail _), intercalate_concat, List.append_assoc]
    rw [List.append_cons, ih hbeside, hstep, List.append_assoc]
    rfl

/-- A docstring that stands in a text is left out of that text, whatever follows it. -/
theorem withoutFirst_append_of_stands {s : List Char} (h : doc <:+: s) (behind : List Char) :
    withoutFirst doc (s ++ behind) = withoutFirst doc s ++ behind := by
  have hfirst {t : List Char} : withoutFirst doc (doc ++ t) = t := by
    rw [withoutFirst_of_cons (splitAtText_append hne t) (splitAtText_ne_nil doc t), intercalate_splitAtText hne]
    rfl
  induction s using split_induction hne with
  | nil => exact absurd (List.infix_nil.mp h) hne
  | occurrence s => rw [List.append_assoc, hfirst, hfirst]
  | char c s hstart ih =>
    have hs : doc <:+: s := (List.infix_cons_iff.mp h).resolve_left hstart
    have hstart' : ¬ doc <+: c :: (s ++ behind) := fun hstarts =>
      hstart (List.prefix_of_prefix_length_le hstarts (List.prefix_append (c :: s) behind) h.length_le)
    have hskip {t : List Char} (ht : ¬ doc <+: c :: t) : withoutFirst doc (c :: t) = c :: withoutFirst doc t := by
      obtain ⟨head, tail, hpieces⟩ := List.exists_cons_of_ne_nil (splitAtText_ne_nil doc t)
      have hcons := splitAtText_cons ht
      rw [hpieces, List.modifyHead_cons] at hcons
      by_cases htail : tail = []
      · subst htail
        rw [withoutFirst_of_singleton hcons, withoutFirst_of_singleton hpieces]
      · rw [withoutFirst_of_cons hcons htail, withoutFirst_of_cons hpieces htail]
        rfl
    rw [List.cons_append, hskip hstart', hskip hstart, ih hs]
    rfl

end Beside

section Documented
variable {doc : Option (List Char)}

/-- Either the docstring changes nothing, or its first occurrence is left out. -/
theorem codeOf_cases (doc : Option (List Char)) : (∀ s, codeOf s doc = codeOf s none) ∨
    ∃ text ∈ doc, text ≠ [] ∧ ∀ s, codeOf s doc = codeOf (withoutFirst text s) none := by
  cases doc with
  | none => exact .inl fun _ => rfl
  | some text =>
    by_cases hblank : isBlankText text = true
    · exact .inl fun s => by simp only [codeOf, if_pos hblank]
    · exact .inr ⟨text, rfl, fun heq => hblank (heq ▸ rfl), fun s => by simp only [codeOf, if_neg hblank]⟩

theorem recordsIn_blank_append_documented {blanks : List Char} (hblank : isBlankText blanks = true) (hfeed : '\n' ∉ blanks)
    (hdoc : ∀ text ∈ doc, ∀ c ∈ text.head?, c ∉ blanks) (s : List Char) :
    recordsIn (codeOf (blanks ++ s) doc) = recordsIn (codeOf s doc) := by
  rcases codeOf_cases doc with hnone | ⟨text, htext, hne, hcut⟩
  · rw [hnone, hnone, recordsIn_codeOf_blank_append hblank hfeed]
  · rw [hcut, hcut, withoutFirst_append_left hne (hdoc text htext), recordsIn_codeOf_blank_append hblank hfeed]

theorem recordsIn_append_blank_documented {blanks s : List Char} (hblank : isBlankText blanks = true)
    (hdoc : ∀ text ∈ doc, (∀ c ∈ text.getLast?, c ∉ blanks) ∨ text <:+: s) :
    recordsIn (codeOf (s ++ blanks) doc) = recordsIn (codeOf s doc) := by
  rcases codeOf_cases doc with hnone | ⟨text, htext, hne, hcut⟩
  · rw [hnone, hnone, recordsIn_codeOf_append_blank hblank]
  · rw [hcut, hcut]
    rcases hdoc text htext with hlast | hstands
    · rw [withoutFirst_append_right hne hlast, recordsIn_codeOf_append_blank hblank]
    · rw [withoutFirst_append_of_stands hne hstands, recordsIn_codeOf_append_blank hblank]

/-- Where nothing but blanks stands beside a text on its lines, the records of these lines are its own, if the docstring neither
starts in front of the text nor ends behind it. -/
theorem recordsIn_lines_blank_around {front own back : List Char} (hfront : isBlankText front = true) (hfeed : '\n' ∉ front)
    (hback : isBlankText back = true) (hreturn : '\r' ∉ own) (hstart : ∀ text ∈ doc, ∀ c ∈ text.head?, c ∉ front)
    (hend : ∀ text ∈ doc, (∀ c ∈ text.getLast?, c ∉ '\n' :: back) ∨ text <:+: own.dropLast) :
    recordsIn (codeOf (joinLines (lines (front ++ own ++ back))) doc) = recordsIn (codeOf own doc) := by
  obtain ⟨ending, hending, hwhole⟩ := exists_withoutReturns_eq (front ++ own ++ back)
  obtain ⟨front', hstarts, haround⟩ := withoutReturns_around hfeed hreturn back
  rw [haround] at hwhole
  have hback' : isBlankText (withoutReturns back) = true :=
    isBlankText_iff.mpr fun c hc => isBlankText_iff.mp hback c ((withoutReturns_sublist back).subset hc)
  have hfront' : isBlankText front' = true := isBlankText_iff.mpr fun c hc => isBlankText_iff.mp hfront c (hstarts.subset hc)
  have hblank : isBlankText ending = true := by
    rcases hending with rfl | rfl <;> rfl
  have hbefore : own.dropLast <:+: joinLines (lines (front ++ own ++ back)) :=
    dropLast_infix_of_append hwhole (by rcases hending with rfl | rfl <;> decide)
  have hended : ∀ text ∈ doc, (∀ c ∈ text.getLast?, c ∉ ending) ∨ text <:+: joinLines (lines (front ++ own ++ back)) :=
    fun text htext => (hend text htext).imp (fun hlast c hc hmem => by
      rcases hending with rfl | rfl
      · cases hmem
      · exact hlast c hc (List.mem_singleton.mp hmem ▸ List.mem_cons_self)) (·.trans hbefore)
  have hended' : ∀ text ∈ doc, (∀ c ∈ text.getLast?, c ∉ withoutReturns back) ∨ text <:+: front' ++ own :=
    fun text htext => (hend text htext).imp
      (fun hlast c hc hmem => hlast c hc (List.mem_cons_of_mem _ ((withoutReturns_sublist back).subset hmem)))
      fun hstands => (hstands.trans (List.dropLast_prefix own).isInfix).trans (List.suffix_append front' own).isInfix
  rw [← recordsIn_append_blank_documented hblank hended, ← hwhole, recordsIn_append_blank_documented hback' hended',
    recordsIn_blank_append_documented hfront' (fun hmem => hfeed (hstarts.subset hmem))
      fun text htext c hc hmem => hstart text htext c hc (hstarts.subset hmem)]

end Documented

end Argument
end ApiHandbook
