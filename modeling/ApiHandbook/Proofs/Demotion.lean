import ApiHandbook.Proofs.Headings

/-! What demotion keeps of a text, line by line: only headings outside fenced blocks change, by their hashes and their
indentation, and a block left open is closed. Read again by the same rules, the lines leave no block open and have no
heading above the level that demotion makes room for. -/
namespace ApiHandbook.Markdown
open Text

/-- What demotion may make of a line when the given block is open before it. -/
inductive Demotes (levels : Nat) : Option Fence → List Char → List Char → Prop where
  /-- A heading outside fenced blocks gets more hashes, six at most, and starts with them; its text stays. -/
  | heading {line text : List Char} {level : Nat} (is_heading : headingLevel? (trimStart line) = some level)
      (text_eq : trimStart line = List.replicate level '#' ++ text) :
      Demotes levels none line (List.replicate (min 6 (level + levels)) '#' ++ text)
  /-- Every other line stays as it is. -/
  | kept {opened : Option Fence} {line : List Char}
      (no_heading : opened = none → headingLevel? (trimStart line) = none) : Demotes levels opened line line

/-- The levels of the headings outside fenced blocks, when the given block is open before the lines. -/
def levelsFrom (opened : Option Fence) : List (List Char) → List Nat
  | [] => []
  | line :: rest => (if opened.isNone then headingLevel? (trimStart line) else none).toList ++
      levelsFrom (fenceAfter opened line) rest

/-- How the lines of a demoted text are made of those of the text. -/
structure IsDemotion (levels : Nat) (ls out : List (List Char)) : Prop where
  /-- Each line is changed in its place, by what the lines before it leave open. -/
  line : ∀ front line back, ls = front ++ line :: back →
    ∃ new, out[front.length]? = some new ∧ Demotes levels (openAfter none front) line new
  /-- At most one line follows: the fence that closes the block that is open at the end. -/
  closing : openAfter none ls = none ∧ out.length = ls.length ∨
    ∃ f, openAfter none ls = some f ∧ out.drop ls.length = [f.text] ∧ fenceAfter (some f) f.text = none

theorem demotes_demotedLine (levels : Nat) (opened : Option Fence) (line : List Char) :
    Demotes levels opened line (demotedLine levels opened line) := by
  rcases demotedLine_cases levels opened line with ⟨level, rfl, -, hl, hd⟩ | ⟨hd, hn⟩
  · obtain ⟨-, text, ht, -⟩ := (headingLevel?_eq_some_iff _ level).mp hl
    rw [hd, ht, demotedHeading_replicate, Nat.min_comm]
    exact .heading hl ht
  · rw [hd]
    refine .kept fun ho => ?_
    cases hl : headingLevel? (trimStart line) with
    | none => rfl
    | some level => exact hl.symm.trans (hn ho (ofLine?_of_headingLevel? hl))

/-- The lines of a text in their order, then those that demotion adds behind them. -/
theorem demotedLines_append (levels : Nat) (opened : Option Fence) (front back : List (List Char)) :
    ∃ out, demotedLines levels opened (front ++ back) = out ++ demotedLines levels (openAfter opened front) back ∧
      out.length = front.length := by
  induction front generalizing opened with
  | nil => exact ⟨[], rfl, rfl⟩
  | cons line front ih =>
    obtain ⟨out, hout, hlength⟩ := ih (fenceAfter opened line)
    refine ⟨demotedLine levels opened line :: out, ?_, by rw [List.length_cons, hlength, List.length_cons]⟩
    rw [List.cons_append, demotedLines_cons, hout]
    rfl

theorem isDemotion_demotedLines (levels : Nat) (ls : List (List Char)) :
    IsDemotion levels ls (demotedLines levels none ls) where
  line front line back hls := by
    obtain ⟨out, hout, hlength⟩ := demotedLines_append levels none front (line :: back)
    refine ⟨_, ?_, demotes_demotedLine levels (openAfter none front) line⟩
    rw [hls, hout, demotedLines_cons, ← hlength, List.getElem?_append_right (Nat.le_refl _), Nat.sub_self,
      List.getElem?_cons_zero]
  closing := by
    obtain ⟨out, hout, hlength⟩ := demotedLines_append levels none ls []
    rw [List.append_nil] at hout
    cases ho : openAfter none ls with
    | none =>
      rw [ho] at hout
      exact .inl ⟨rfl, by rw [hout, demotedLines, List.append_nil, hlength]⟩
    | some f =>
      rw [ho] at hout
      have hnone : ∀ o ∈ (none : Option Fence), o.Valid := by simp
      have hv : f.Valid := valid_of_openAfter hnone f ho
      refine .inr ⟨f, rfl, ?_, fenceAfter_text hv⟩
      rw [hout, ← hlength, List.drop_left, demotedLines]

theorem headingLevel?_demotedLine {levels : Nat} {line : List Char} {level : Nat}
    (h : headingLevel? (trimStart (demotedLine levels none line)) = some level) : min (levels + 1) 6 ≤ level := by
  rcases demotedLine_cases levels none line with ⟨before, -, -, hl, hd⟩ | ⟨hd, hn⟩
  · obtain ⟨⟨h1, h6⟩, text, ht, hspace⟩ := (headingLevel?_eq_some_iff _ before).mp hl
    rw [hd, ht, demotedHeading_replicate, trimStart_of_head] at h
    · have hnew := (headingLevel?_eq_some_iff _ (min (before + levels) 6)).mpr ⟨by omega, text, rfl, hspace⟩
      obtain rfl := Option.some.inj (hnew.symm.trans h)
      omega
    · obtain ⟨n, hn⟩ : ∃ n, min (before + levels) 6 = n + 1 := ⟨min (before + levels) 6 - 1, by omega⟩
      rw [hn, List.replicate_succ]
      rintro _ ⟨⟩
      decide
  · rw [hd] at h
    have hnone := hn rfl (ofLine?_of_headingLevel? h)
    rw [h] at hnone
    cases hnone

/-- After demotion all headings outside fenced blocks are pushed down. -/
theorem le_of_mem_levelsFrom {levels : Nat} {ls : List (List Char)} {opened : Option Fence}
    (hv : ∀ o ∈ opened, o.Valid) : ∀ level ∈ levelsFrom opened (demotedLines levels opened ls), min (levels + 1) 6 ≤ level := by
  induction ls generalizing opened with
  | nil => cases opened <;> nofun
  | cons line ls ih =>
    intro level hlevel
    rw [demotedLines_cons, levelsFrom, fenceAfter_demotedLine, List.mem_append] at hlevel
    rcases hlevel with hline | hrest
    · cases opened with
      | none => exact headingLevel?_demotedLine (Option.mem_toList.mp hline)
      | some _ => cases hline
    · exact ih (fun o ho => valid_of_fenceAfter hv ho) level hrest

end ApiHandbook.Markdown
