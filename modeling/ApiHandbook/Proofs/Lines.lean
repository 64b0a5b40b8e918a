import ApiHandbook.Text.Blank
import ApiHandbook.Text.Lines

/-! Texts that are written line by line are read line by line, and trimming the end of a text stops at its last
character that is not blank. -/
namespace ApiHandbook.Text

/-- A property of the characters of a list is checked one by one. -/
theorem forall_mem_of_all {p : Char → Prop} [DecidablePred p] {s : List Char} (h : s.all (fun c => decide (p c)) = true) :
    ∀ c ∈ s, p c := by
  simpa using h

theorem eq_false_of_mem_splitOnP (p : Char → Bool) (s : List Char) :
    ∀ piece ∈ s.splitOnP p, ∀ c ∈ piece, p c = false := by
  induction s with
  | nil => simp
  | cons d s ih =>
    rw [List.splitOnP_cons_eq_if_modifyHead]
    split
    · simpa using ih
    · rename_i hd
      obtain ⟨first, rest, he⟩ := List.exists_cons_of_ne_nil (List.splitOnP_ne_nil p s)
      rw [he] at ih ⊢
      intro piece hp c hc
      rcases List.mem_cons.mp hp with rfl | hp
      · rcases List.mem_cons.mp hc with rfl | hc
        · simpa using hd
        · exact ih first (by simp) c hc
      · exact ih piece (by simp [hp]) c hc

theorem notMem_of_mem_splitOn {s piece : List Char} (h : piece ∈ s.splitOn '\n') : '\n' ∉ piece := by
  intro hm
  have := eq_false_of_mem_splitOnP (· == '\n') s piece h '\n' hm
  simp at this

theorem dropReturn_prefix_self (line : List Char) : dropReturn line <+: line := by
  rw [dropReturn]
  split
  · exact List.dropLast_prefix line
  · exact List.prefix_rfl

/-- A line either keeps its characters or loses a carriage return at its end. -/
theorem dropReturn_cases (line : List Char) :
    dropReturn line = line ∧ line.getLast? ≠ some '\r' ∨ line = dropReturn line ++ ['\r'] := by
  rw [dropReturn]
  split
  · rename_i h
    obtain ⟨front, rfl⟩ := List.getLast?_eq_some_iff.mp h
    exact .inr (by rw [List.dropLast_concat])
  · rename_i h
    exact .inl ⟨rfl, h⟩

theorem dropReturn_eq_self {line : List Char} (h : line.getLast? ≠ some '\r') : dropReturn line = line := if_neg h

theorem dropReturn_append {t : List Char} (ht : t ≠ []) (s : List Char) : dropReturn (s ++ t) = s ++ dropReturn t := by
  have hl : (s ++ t).getLast? = t.getLast? := by
    obtain ⟨d, hd⟩ := Option.isSome_iff_exists.mp (List.getLast?_isSome.mpr ht)
    rw [List.getLast?_append, hd, Option.some_or]
  rw [dropReturn, dropReturn, hl]
  split
  · rw [List.dropLast_append_of_ne_nil ht]
  · rfl

theorem mem_linesOfPieces {pieces : List (List Char)} {line : List Char} (h : line ∈ linesOfPieces pieces) :
    line ∈ pieces ∨ ∃ piece ∈ pieces, line = dropReturn piece := by
  induction pieces with
  | nil => cases h
  | cons piece pieces ih =>
    cases pieces with
    | nil =>
      rw [linesOfPieces] at h
      split at h
      · cases h
      · exact .inl h
    | cons next rest =>
      rcases List.mem_cons.mp h with rfl | h
      · exact .inr ⟨piece, by simp, rfl⟩
      · rcases ih h with h | ⟨p, hp, rfl⟩
        · exact .inl (by simp [h])
        · exact .inr ⟨p, List.mem_cons_of_mem _ hp, rfl⟩

/-- No line holds a line feed. -/
theorem notMem_of_mem_lines {s line : List Char} (h : line ∈ lines s) : '\n' ∉ line := by
  rcases mem_linesOfPieces h with h | ⟨piece, hp, rfl⟩
  · exact notMem_of_mem_splitOn h
  · exact fun hm => notMem_of_mem_splitOn hp ((dropReturn_prefix_self piece).subset hm)

theorem infix_joinLines {ls : List (List Char)} {line : List Char} (h : line ∈ ls) : line <:+: joinLines ls := by
  induction ls with
  | nil => cases h
  | cons first ls ih =>
    cases ls with
    | nil =>
      obtain rfl := List.mem_singleton.mp h
      simp [joinLines]
    | cons next rest =>
      rw [joinLines, List.intercalate_cons_cons, List.append_assoc]
      rcases List.mem_cons.mp h with rfl | h
      · exact (List.prefix_append _ _).isInfix
      · exact (ih h).trans ((List.suffix_append _ _).trans (List.suffix_append _ _)).isInfix

theorem infix_of_mem_lines {s line : List Char} (h : line ∈ lines s) : line <:+: s := by
  have hpiece {piece : List Char} (hp : piece ∈ s.splitOn '\n') : piece <:+: s := by
    have hi := infix_joinLines hp
    rwa [joinLines, List.intercalate_splitOn] at hi
  rcases mem_linesOfPieces h with h | ⟨piece, hp, rfl⟩
  · exact hpiece h
  · exact (dropReturn_prefix_self piece).isInfix.trans (hpiece hp)

theorem mem_of_mem_lines {s line : List Char} (h : line ∈ lines s) {c : Char} (hc : c ∈ line) : c ∈ s :=
  (infix_of_mem_lines h).subset hc

/-- Lines with a line feed after each. -/
def unlines (ls : List (List Char)) : List Char := ls.flatMap fun line => line ++ ['\n']

@[simp] theorem unlines_nil : unlines [] = [] := rfl

theorem unlines_cons (line : List Char) (ls : List (List Char)) : unlines (line :: ls) = line ++ '\n' :: unlines ls := by
  simp [unlines]

theorem unlines_append (ls more : List (List Char)) : unlines (ls ++ more) = unlines ls ++ unlines more :=
  List.flatMap_append

theorem unlines_flatMap {α : Type} (items : List α) (f : α → List (List Char)) :
    unlines (items.flatMap f) = items.flatMap fun a => unlines (f a) := by
  rw [unlines, List.flatMap_assoc]
  rfl

theorem joinLines_append {ls : List (List Char)} (h : ls ≠ []) : joinLines ls ++ ['\n'] = unlines ls := by
  induction ls with
  | nil => exact absurd rfl h
  | cons line ls ih =>
    cases ls with
    | nil => simp [joinLines, unlines_cons]
    | cons next rest =>
      rw [unlines_cons, ← ih (by simp), joinLines, List.intercalate_cons_cons]
      simp [joinLines]

theorem unlines_splitOn (s : List Char) : unlines (s.splitOn '\n') = s ++ ['\n'] := by
  rw [← joinLines_append (List.splitOn_ne_nil _ _), joinLines, List.intercalate_splitOn]

theorem lines_append_cons {line : List Char} (h : '\n' ∉ line) (s : List Char) :
    lines (line ++ '\n' :: s) = dropReturn line :: lines s := by
  have hl : ∀ c ∈ line, (c == '\n') = false := fun c hc => beq_eq_false_iff_ne.mpr fun he => h (he ▸ hc)
  have hs : (line ++ '\n' :: s).splitOn '\n' = line :: s.splitOn '\n' :=
    List.splitOnP_append_cons_of_forall_mem hl '\n' (by decide) s
  obtain ⟨next, rest, he⟩ := List.exists_cons_of_ne_nil (List.splitOn_ne_nil '\n' s)
  rw [lines, lines, hs, he, linesOfPieces]

/-- Written lines are read as they were, but for carriage returns at their ends. -/
theorem lines_unlines_append {ls : List (List Char)} (h : ∀ line ∈ ls, '\n' ∉ line) (s : List Char) :
    lines (unlines ls ++ s) = ls.map dropReturn ++ lines s := by
  induction ls with
  | nil => rfl
  | cons line ls ih =>
    rw [unlines_cons, List.append_assoc, List.cons_append, lines_append_cons (h line (by simp)),
      ih fun l hl => h l (by simp [hl])]
    rfl

theorem lines_unlines {ls : List (List Char)} (h : ∀ line ∈ ls, '\n' ∉ line) : lines (unlines ls) = ls.map dropReturn := by
  have hl := lines_unlines_append h []
  rwa [List.append_nil, show lines [] = [] from rfl, List.append_nil] at hl

theorem lines_ne_nil {s : List Char} (h : s ≠ []) : lines s ≠ [] := by
  have hi := @List.intercalate_splitOn Char s _ _ '\n'
  rw [lines]
  cases hp : s.splitOn '\n' with
  | nil => exact absurd hp (List.splitOn_ne_nil _ _)
  | cons first rest =>
    cases rest with
    | nil =>
      rw [hp, List.intercalate_singleton] at hi
      subst hi
      rw [linesOfPieces, if_neg (by simpa using h)]
      simp
    | cons next rest => simp [linesOfPieces]

/-- A text that does not end with a blank. -/
def Tidy (s : List Char) : Prop := ∀ c ∈ s.getLast?, isBlank c = false

theorem trimEnd_append_of_blank {t : List Char} (ht : isBlankText t = true) (s : List Char) :
    trimEnd (s ++ t) = trimEnd s := by
  rw [trimEnd, dropEndWhile, List.reverse_append, List.dropWhile_append_of_pos (by simpa [isBlankText] using ht)]
  rfl

theorem trimEnd_of_tidy {s : List Char} (h : Tidy s) : trimEnd s = s := by
  rw [Tidy, List.getLast?_eq_head?_reverse] at h
  rw [trimEnd, dropEndWhile]
  cases hr : s.reverse with
  | nil => simpa using hr.symm
  | cons c t =>
    have hc := h c (by simp [hr])
    rw [List.dropWhile_cons_of_neg (by simp [hc]), ← hr, List.reverse_reverse]

theorem tidy_trimEnd (s : List Char) : Tidy (trimEnd s) := by
  intro c hc
  rw [trimEnd, dropEndWhile, List.getLast?_reverse, Option.mem_def] at hc
  have := List.head?_dropWhile_not isBlank s.reverse
  rw [hc] at this
  simpa using this

theorem Tidy.append {s t : List Char} (ht : Tidy t) (hne : t ≠ []) : Tidy (s ++ t) := by
  intro c hc
  obtain ⟨d, hd⟩ := Option.isSome_iff_exists.mp (List.getLast?_isSome.mpr hne)
  rw [List.getLast?_append, hd, Option.some_or] at hc
  exact ht c (hd ▸ hc)

theorem Tidy.of_suffix {s t : List Char} (hs : Tidy s) (h : t <:+ s) : Tidy t := by
  obtain ⟨front, rfl⟩ := h
  intro c hc
  refine hs c ?_
  rw [List.getLast?_append, Option.mem_def.mp hc]
  rfl

theorem joinLines_concat (front : List (List Char)) (last : List Char) :
    joinLines (front ++ [last]) = unlines front ++ last := by
  have h := @joinLines_append (front ++ [last]) (by simp)
  rw [unlines_append, unlines_cons, unlines_nil, ← List.append_assoc] at h
  exact List.append_cancel_right h

theorem linesOfPieces_concat {last : List Char} (h : last ≠ []) (front : List (List Char)) :
    linesOfPieces (front ++ [last]) = front.map dropReturn ++ [last] := by
  induction front with
  | nil => rw [List.nil_append, linesOfPieces, if_neg (by simpa using h), List.map_nil, List.nil_append]
  | cons first front ih =>
    obtain ⟨next, rest, he⟩ := List.exists_cons_of_ne_nil (List.append_ne_nil_of_right_ne_nil front (List.cons_ne_nil last []))
    rw [List.cons_append, he, linesOfPieces, ← he, ih]
    rfl

/-- A text that does not end with a blank has a last piece, which does not either. -/
theorem pieces_of_tidy {s : List Char} (hs : Tidy s) (hn : s ≠ []) :
    ∃ front last, s.splitOn '\n' = front ++ [last] ∧ Tidy last ∧ last ≠ [] := by
  have hne := List.splitOn_ne_nil '\n' s
  obtain ⟨front, last, hp⟩ : ∃ front last, s.splitOn '\n' = front ++ [last] :=
    ⟨_, _, (List.dropLast_concat_getLast hne).symm⟩
  have he : s = unlines front ++ last := by
    rw [← joinLines_concat, ← hp, joinLines, List.intercalate_splitOn]
  have hl : last ≠ [] := by
    rintro rfl
    obtain ⟨init, final, rfl⟩ : ∃ init final, front = init ++ [final] := by
      refine ⟨_, _, (List.dropLast_concat_getLast (l := front) ?_).symm⟩
      rintro rfl
      exact hn he
    have := hs '\n' (by simp [he, unlines_append, unlines_cons])
    exact absurd this (by decide)
  exact ⟨front, last, hp, hs.of_suffix ⟨_, he.symm⟩, hl⟩

/-- A text that does not end with a blank has a last line, which does not either. -/
theorem lines_of_tidy {s : List Char} (hs : Tidy s) (hn : s ≠ []) :
    ∃ front last, lines s = front ++ [last] ∧ Tidy last ∧ last ≠ [] := by
  obtain ⟨front, last, hp, hlast⟩ := pieces_of_tidy hs hn
  exact ⟨front.map dropReturn, last, by rw [lines, hp, linesOfPieces_concat hlast.2], hlast⟩

/-- A line feed behind a text that does not end with a blank changes none of its lines. -/
theorem lines_concat_of_tidy {s : List Char} (hs : Tidy s) (hn : s ≠ []) : lines (s ++ ['\n']) = lines s := by
  obtain ⟨front, last, hp, htidy, hlast⟩ := pieces_of_tidy hs hn
  have hreturn : dropReturn last = last := dropReturn_eq_self fun hr => absurd (htidy _ hr) (by decide)
  rw [← unlines_splitOn, lines_unlines fun _ => notMem_of_mem_splitOn, lines, hp, linesOfPieces_concat hlast,
    List.map_append, List.map_singleton, hreturn]

/-- A text that ends with a line feed is read apart from what follows. -/
theorem lines_concat_append (s t : List Char) : lines (s ++ '\n' :: t) = lines (s ++ ['\n']) ++ lines t := by
  have hs : ∀ line ∈ s.splitOn '\n', '\n' ∉ line := fun _ => notMem_of_mem_splitOn
  rw [List.append_cons, ← unlines_splitOn, lines_unlines_append hs, lines_unlines hs]

theorem trimEnd_append {t : List Char} (ht : trimEnd t ≠ []) (s : List Char) : trimEnd (s ++ t) = s ++ trimEnd t := by
  have hne : t.reverse.dropWhile isBlank ≠ [] := fun h => ht (by rw [trimEnd, dropEndWhile, h, List.reverse_nil])
  rw [trimEnd, dropEndWhile, List.reverse_append, List.dropWhile_append, if_neg (by simpa using hne),
    List.reverse_append, List.reverse_reverse]
  rfl

end ApiHandbook.Text
