import ApiHandbook.Proofs.Documentation
import ApiHandbook.Proofs.Lexemes

/-! The lines on which a stretch of text stands: they hold the stretch, what stands in front of it on its first line, and what
follows it on its last. -/
namespace ApiHandbook.Text
open Code.Lexical (lineBreaks lineBreaks_append)

theorem length_splitOn (s : List Char) : (s.splitOn '\n').length = lineBreaks s + 1 := by
  have hcount := @count_unlines (s.splitOn '\n') fun _ => notMem_of_mem_splitOn
  rw [unlines_splitOn, List.count_append, List.count_singleton_self] at hcount
  exact hcount.symm

theorem length_lines_concat (s : List Char) : (lines (s ++ ['\n'])).length = lineBreaks s + 1 := by
  rw [← unlines_splitOn, lines_unlines fun _ => notMem_of_mem_splitOn, List.length_map, length_splitOn]

/-- A text up to its last line break, and the rest of it. -/
theorem exists_lastLine (s : List Char) :
    ∃ ls front, s = unlines ls ++ front ∧ (∀ line ∈ ls, '\n' ∉ line) ∧ '\n' ∉ front ∧ ls.length = lineBreaks s := by
  obtain ⟨ls, front, hpieces⟩ : ∃ ls front, s.splitOn '\n' = ls ++ [front] :=
    ⟨_, _, (List.dropLast_concat_getLast (List.splitOn_ne_nil '\n' s)).symm⟩
  have hfeed : ∀ piece ∈ ls ++ [front], '\n' ∉ piece := fun piece hpiece => notMem_of_mem_splitOn (hpieces ▸ hpiece)
  have hlength := length_splitOn s
  rw [hpieces, List.length_append, List.length_singleton, Nat.add_right_cancel_iff] at hlength
  refine ⟨ls, front, ?_, fun line hline => hfeed line (List.mem_append_left _ hline), hfeed front (by simp), hlength⟩
  rw [← joinLines_concat, ← hpieces, joinLines, List.intercalate_splitOn]

/-- What stands behind the last line break of a text. -/
def afterFeed (s : List Char) : List Char := (s.reverse.takeWhile (· != '\n')).reverse

/-- A text up to its first line break, that included. -/
def upToFeed (s : List Char) : List Char := s.take ((s.takeWhile (· != '\n')).length + 1)

theorem notMem_afterFeed (s : List Char) : '\n' ∉ afterFeed s := fun hmem =>
  absurd (List.mem_takeWhile_imp (List.mem_reverse.mp hmem)) (by decide)

section Feed
variable {line : List Char} (h : '\n' ∉ line)
include h

theorem takeWhile_append_feed (s : List Char) : (line ++ '\n' :: s).takeWhile (· != '\n') = line := by
  have hline : ∀ c ∈ line, (c != '\n') = true := fun c hc => bne_iff_ne.mpr (ne_of_mem_of_not_mem hc h)
  rw [List.takeWhile_append_of_pos hline, List.takeWhile_cons_of_neg (by simp), List.append_nil]

theorem takeWhile_of_notMem : line.takeWhile (· != '\n') = line :=
  List.takeWhile_eq_self_iff.mpr fun _ hc => bne_iff_ne.mpr (ne_of_mem_of_not_mem hc h)

theorem afterFeed_unlines_append (ls : List (List Char)) : afterFeed (unlines ls ++ line) = line := by
  have hline : '\n' ∉ line.reverse := fun hmem => h (List.mem_reverse.mp hmem)
  rw [afterFeed, List.reverse_append]
  cases ls using List.reverseRecOn with
  | nil => rw [unlines_nil, List.reverse_nil, List.append_nil, takeWhile_of_notMem hline, List.reverse_reverse]
  | append_singleton ls last =>
    have hreverse : (unlines (ls ++ [last])).reverse = '\n' :: (unlines ls ++ last).reverse := by
      rw [unlines_append, unlines_cons, unlines_nil, ← List.append_assoc, List.reverse_concat]
    rw [hreverse, takeWhile_append_feed hline, List.reverse_reverse]

theorem upToFeed_append_cons (s : List Char) : upToFeed (line ++ '\n' :: s) = line ++ ['\n'] := by
  rw [upToFeed, takeWhile_append_feed h, List.append_cons]
  exact List.take_left' List.length_append

theorem upToFeed_of_notMem : upToFeed line = line := by
  rw [upToFeed, takeWhile_of_notMem h, List.take_of_length_le (Nat.le_succ _)]

end Feed

/-- The lines of a text on which a stretch of it stands. -/
theorem lines_stretch (ahead own behind : List Char) :
    ((lines (ahead ++ own ++ behind)).drop (lineBreaks ahead)).take (lineBreaks own + 1) =
      lines (afterFeed ahead ++ own ++ upToFeed behind) := by
  obtain ⟨ls, front, rfl, hls, hfront, hlength⟩ := exists_lastLine ahead
  have hzero : lineBreaks front = 0 := List.count_eq_zero.mpr hfront
  have hlines (t : List Char) : (lines (unlines ls ++ front ++ own ++ t)).drop (lineBreaks (unlines ls ++ front)) =
      lines (front ++ own ++ t) := by
    have hlength' : (ls.map dropReturn).length = lineBreaks (unlines ls ++ front) := (List.length_map _).trans hlength
    rw [List.append_assoc, List.append_assoc, lines_unlines_append hls, ← hlength', List.drop_left, List.append_assoc]
  have hbreaks {t : List Char} (ht : '\n' ∉ t) : lineBreaks (front ++ own ++ t) = lineBreaks own := by
    rw [lineBreaks_append, lineBreaks_append, hzero, show lineBreaks t = 0 from List.count_eq_zero.mpr ht]
    omega
  rw [hlines, afterFeed_unlines_append hfront]
  by_cases hfeed : '\n' ∈ behind
  · obtain ⟨line, rest, rfl, hline⟩ := List.eq_append_cons_of_mem hfeed
    rw [upToFeed_append_cons hline, ← List.append_assoc, lines_concat_append, ← hbreaks hline, ← length_lines_concat,
      List.take_left, List.append_assoc _ line]
  · rw [upToFeed_of_notMem hfeed, ← hbreaks hfeed]
    exact List.take_of_length_le (length_lines_le _)

theorem withoutReturns_sublist (s : List Char) : (withoutReturns s).Sublist s := by
  induction s with
  | nil => exact List.Sublist.refl []
  | cons c s ih =>
    rw [withoutReturns]
    split
    · exact ih.cons c
    · exact ih.cons_cons c

/-- Without carriage returns of its own, a text stays as it is among the lines that it stands on. -/
theorem withoutReturns_around {front own : List Char} (hfeed : '\n' ∉ front) (hreturn : '\r' ∉ own) (back : List Char) :
    ∃ front', front' <+: front ∧ withoutReturns (front ++ own ++ back) = front' ++ own ++ withoutReturns back := by
  have hown : withoutReturns (own ++ back) = own ++ withoutReturns back := by
    rw [withoutReturns_append fun heq => absurd (List.mem_of_getLast? heq) hreturn, withoutReturns_eq_self hreturn]
  rw [List.append_assoc]
  by_cases hseam : front.getLast? = some '\r' ∧ (own ++ back).head? = some '\n'
  · obtain ⟨front', rfl⟩ := List.getLast?_eq_some_iff.mp hseam.1
    obtain ⟨rest, hrest⟩ := List.head?_eq_some_iff.mp hseam.2
    have hdropped : withoutReturns ('\r' :: '\n' :: rest) = withoutReturns ('\n' :: rest) := if_pos ⟨rfl, rfl⟩
    have hfeed' : '\n' ∉ front' := fun hmem => hfeed (List.mem_append_left _ hmem)
    refine ⟨front', List.prefix_append front' _, ?_⟩
    rw [List.append_assoc, List.singleton_append, withoutReturns_append fun _ => by simp, withoutReturns_of_notMem hfeed', hrest,
      hdropped, ← hrest, hown, List.append_assoc]
  · refine ⟨front, List.prefix_rfl, ?_⟩
    rw [withoutReturns_append fun hlast hhead => hseam ⟨hlast, hhead⟩, withoutReturns_of_notMem hfeed, hown, List.append_assoc]

theorem dropLast_infix_of_append {ahead own behind whole ending : List Char} (h : ahead ++ own ++ behind = whole ++ ending)
    (hending : ending.length ≤ 1) : own.dropLast <:+: whole := by
  cases own using List.reverseRecOn with
  | nil => exact List.nil_infix
  | append_singleton own last =>
    have hlength := congrArg List.length h
    simp only [List.length_append, List.length_singleton] at hlength
    have hstarts : ahead ++ own <+: whole ++ ending := ⟨last :: behind, by rw [← h]; simp⟩
    rw [List.dropLast_concat]
    refine (List.suffix_append ahead own).isInfix.trans (List.IsPrefix.isInfix ?_)
    exact List.prefix_of_prefix_length_le hstarts (List.prefix_append whole ending) (by rw [List.length_append]; omega)

end ApiHandbook.Text
