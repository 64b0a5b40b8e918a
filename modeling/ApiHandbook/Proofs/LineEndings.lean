import ApiHandbook.Proofs.Indentation
import ApiHandbook.Proofs.Replacement

/-! The line endings of a text do not matter for its lines or, but for a line feed at its end, for the text that is joined
from them; a text is split at the same places whatever they are. -/
namespace ApiHandbook.Text

/-- A text without the carriage returns that stand before line feeds. -/
def withoutReturns : List Char → List Char
  | [] => []
  | c :: s => if c = '\r' ∧ s.head? = some '\n' then withoutReturns s else c :: withoutReturns s

theorem withoutReturns_cons {c : Char} {s : List Char} (h : c = '\r' → s.head? ≠ some '\n') :
    withoutReturns (c :: s) = c :: withoutReturns s :=
  if_neg fun hboth => h hboth.1 hboth.2

theorem withoutReturns_eq_self {s : List Char} (h : '\r' ∉ s) : withoutReturns s = s := by
  induction s with
  | nil => rfl
  | cons c s ih =>
    obtain ⟨hc, hs⟩ := List.ne_and_not_mem_of_not_mem_cons h
    rw [withoutReturns_cons fun heq => absurd heq.symm hc, ih hs]

theorem withoutReturns_of_notMem {line : List Char} (h : '\n' ∉ line) : withoutReturns line = line := by
  induction line with
  | nil => rfl
  | cons c line ih =>
    have hline : '\n' ∉ line := fun hmem => h (List.mem_cons_of_mem c hmem)
    rw [withoutReturns_cons fun _ hhead => hline (List.mem_of_mem_head? hhead), ih hline]

theorem withoutReturns_append {s t : List Char} (h : s.getLast? = some '\r' → t.head? ≠ some '\n') :
    withoutReturns (s ++ t) = withoutReturns s ++ withoutReturns t := by
  induction s with
  | nil => rfl
  | cons c s ih =>
    cases s with
    | nil =>
      have hc : c = '\r' → t.head? ≠ some '\n' := fun heq => h (congrArg some heq)
      have hone : withoutReturns [c] = [c] := withoutReturns_cons fun _ => by simp
      rw [List.cons_append, List.nil_append, withoutReturns_cons hc, hone]
      rfl
    | cons d s =>
      have ih' := ih (by rwa [List.getLast?_cons_cons] at h)
      rw [List.cons_append, withoutReturns, withoutReturns, ih']
      split_ifs with hcrlf hcrlf' hcrlf'
      · rfl
      · exact absurd hcrlf hcrlf'
      · exact absurd hcrlf' hcrlf
      · rfl

theorem withoutReturns_line {line : List Char} (h : '\n' ∉ line) (s : List Char) :
    withoutReturns (line ++ '\n' :: s) = dropReturn line ++ '\n' :: withoutReturns s := by
  have hfeed : withoutReturns ('\n' :: s) = '\n' :: withoutReturns s := withoutReturns_cons fun heq => absurd heq (by decide)
  rcases dropReturn_cases line with ⟨heq, hlast⟩ | heq
  · rw [withoutReturns_append fun hreturn => absurd hreturn hlast, hfeed, heq, withoutReturns_of_notMem h]
  · have hfront : '\n' ∉ dropReturn line := fun hmem => h ((dropReturn_prefix_self line).subset hmem)
    have hdropped : withoutReturns ('\r' :: '\n' :: s) = withoutReturns ('\n' :: s) := if_pos ⟨rfl, rfl⟩
    have hsplit : line ++ '\n' :: s = dropReturn line ++ '\r' :: '\n' :: s :=
      (congrArg (· ++ '\n' :: s) heq).trans (List.append_assoc _ _ _)
    rw [hsplit, withoutReturns_append fun _ => by simp, hdropped, hfeed, withoutReturns_of_notMem hfront]

/-- Joined again, the lines of a text are the text without carriage returns before line feeds, but for a line feed at its
end. -/
theorem exists_withoutReturns_eq (s : List Char) :
    ∃ ending, (ending = [] ∨ ending = ['\n']) ∧ withoutReturns s = joinLines (lines s) ++ ending := by
  have hjoin : joinLines (s.splitOn '\n') = s := List.intercalate_splitOn '\n'
  have hfeed : ∀ piece ∈ s.splitOn '\n', '\n' ∉ piece := fun _ => notMem_of_mem_splitOn
  rw [← hjoin]
  generalize s.splitOn '\n' = pieces at hfeed
  induction pieces with
  | nil => exact ⟨[], .inl rfl, rfl⟩
  | cons piece pieces ih =>
    obtain ⟨hpiece, hpieces⟩ := List.forall_mem_cons.mp hfeed
    obtain ⟨ending, hending, ih⟩ := ih hpieces
    cases pieces with
    | nil =>
      refine ⟨[], .inl rfl, ?_⟩
      rw [show joinLines [piece] = piece from List.intercalate_singleton, withoutReturns_of_notMem hpiece,
        lines_of_notMem hpiece, List.append_nil]
      split_ifs with hempty
      · exact List.isEmpty_iff.mp hempty
      · exact List.intercalate_singleton.symm
    | cons next more =>
      have hne : next :: more ≠ [] := List.cons_ne_nil next more
      rw [joinLines_cons_of_ne_nil hne, withoutReturns_line hpiece, lines_append_cons hpiece]
      by_cases hrest : joinLines (next :: more) = []
      · refine ⟨['\n'], .inr rfl, ?_⟩
        rw [hrest]
        exact congrArg (· ++ ['\n']) List.intercalate_singleton.symm
      · refine ⟨ending, hending, ?_⟩
        rw [ih, joinLines_cons_of_ne_nil (lines_ne_nil hrest), List.append_assoc, List.cons_append]

section Split
variable {key : List Char} (hreturn : '\r' ∉ key) (hfeed : '\n' ∉ key)
include hreturn hfeed

theorem prefix_of_prefix_withoutReturns {s : List Char} (h : key <+: withoutReturns s) : key <+: s := by
  induction key generalizing s with
  | nil => exact List.nil_prefix
  | cons d key ih =>
    obtain ⟨hd, hreturn⟩ := List.ne_and_not_mem_of_not_mem_cons hreturn
    obtain ⟨hd', hfeed⟩ := List.ne_and_not_mem_of_not_mem_cons hfeed
    cases s with
    | nil => exact absurd (List.prefix_nil.mp h) (List.cons_ne_nil d key)
    | cons c s =>
      by_cases hends : c = '\r' ∧ s.head? = some '\n'
      · obtain ⟨s, rfl⟩ := List.head?_eq_some_iff.mp hends.2
        rw [withoutReturns, if_pos hends, withoutReturns_cons fun heq => absurd heq (by decide)] at h
        exact absurd (List.cons_prefix_cons.mp h).1.symm hd'
      · rw [withoutReturns, if_neg hends, List.cons_prefix_cons] at h
        exact List.cons_prefix_cons.mpr ⟨h.1, ih hreturn hfeed h.2⟩

/-- A text is split at the same places before and after carriage returns are left out. -/
theorem splitAtText_withoutReturns (hkey : key ≠ []) (s : List Char) :
    splitAtText key (withoutReturns s) = (splitAtText key s).map withoutReturns := by
  induction s using split_induction hkey with
  | nil => rfl
  | occurrence s ih =>
    have hlast : key.getLast? ≠ some '\r' := fun heq => hreturn (List.mem_of_getLast? heq)
    rw [withoutReturns_append fun heq => absurd heq hlast, withoutReturns_eq_self hreturn, splitAtText_append hkey,
      splitAtText_append hkey, ih]
    rfl
  | char c s hstart ih =>
    obtain ⟨piece, pieces, hpieces⟩ := List.exists_cons_of_ne_nil (splitAtText_ne_nil key s)
    have hhead := head?_eq_some_of_splitAtText hkey hfeed hpieces
    rw [hpieces] at ih
    rw [splitAtText_cons hstart, hpieces, List.modifyHead_cons, List.map_cons]
    by_cases hends : c = '\r' ∧ s.head? = some '\n'
    · rw [withoutReturns, withoutReturns, if_pos hends, if_pos ⟨hends.1, hhead.mpr hends.2⟩, ih]
      rfl
    · have hstart' : ¬ key <+: c :: withoutReturns s := by
        intro h
        apply hstart
        apply prefix_of_prefix_withoutReturns hreturn hfeed
        rwa [withoutReturns, if_neg hends]
      rw [withoutReturns, withoutReturns, if_neg hends, if_neg fun hends' => hends ⟨hends'.1, hhead.mp hends'.2⟩,
        splitAtText_cons hstart', ih]
      rfl

end Split

end ApiHandbook.Text
