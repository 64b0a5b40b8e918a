import ApiHandbook.Proofs.Fences

/-! What the lines outside fenced blocks are read as, and which headings demotion leaves above its level. -/
namespace ApiHandbook.Markdown
open Text

/-- What a line outside fenced blocks is read as. -/
inductive Mark where
  | heading (level : Nat) (text : List Char)
  /-- A list item in a code span. -/
  | item (word : List Char)
  /-- The label of the methods of an entry. -/
  | methodLabel
  /-- The fence that opens a block. -/
  | fence
  | other
  deriving DecidableEq

def itemWord? (line : List Char) : Option (List Char) :=
  (after? ['-', ' ', tick] line).bind (before? [tick])

def lineMark (line : List Char) : Mark :=
  match headingLevel? (trimStart line) with
  | some level => .heading level ((trimStart line).drop (level + 1))
  | none =>
    if line = "**Method**".toList then .methodLabel
    else match itemWord? line with
      | some word => .item word
      | none => .other

/-- What a line is read as when the given block is open before it; lines of a block and its end are passed over. -/
def lineMarks (opened : Option Fence) (line : List Char) : List Mark :=
  match opened, Fence.ofLine? (trimStart line) with
  | some _, _ => []
  | none, some _ => [.fence]
  | none, none => [lineMark line]

def marks (opened : Option Fence) : List (List Char) → List Mark
  | [] => []
  | line :: rest => lineMarks opened line ++ marks (fenceAfter opened line) rest

theorem marks_append (opened : Option Fence) (ls more : List (List Char)) :
    marks opened (ls ++ more) = marks opened ls ++ marks (openAfter opened ls) more := by
  induction ls generalizing opened with
  | nil => rfl
  | cons line ls ih =>
    rw [List.cons_append, marks, marks, ih, List.append_assoc]
    rfl

/-- Lines by which no block opens or ends are read one by one. -/
theorem marks_of_fenceAfter {opened : Option Fence} {ls : List (List Char)}
    (h : ∀ line ∈ ls, fenceAfter opened line = opened) :
    marks opened ls = ls.flatMap (lineMarks opened) ∧ openAfter opened ls = opened := by
  induction ls with
  | nil => exact ⟨rfl, rfl⟩
  | cons line ls ih =>
    obtain ⟨hl, hls⟩ := List.forall_mem_cons.mp h
    obtain ⟨hm, ho⟩ := ih hls
    exact ⟨by rw [marks, hl, hm, List.flatMap_cons], by rw [openAfter, List.foldl_cons, hl]; exact ho⟩

/-- Lines that leave a block open are passed over. -/
theorem marks_inside {opened : Fence} {ls : List (List Char)}
    (h : ∀ line ∈ ls, fenceAfter (some opened) line = some opened) :
    marks (some opened) ls = [] ∧ openAfter (some opened) ls = some opened := by
  obtain ⟨hmarks, hafter⟩ := marks_of_fenceAfter h
  exact ⟨hmarks.trans (List.flatMap_eq_nil_iff.mpr fun _ _ => rfl), hafter⟩

/-- One to six hashes, then a space or the end. -/
theorem headingLevel?_eq_some_iff (s : List Char) (n : Nat) :
    headingLevel? s = some n ↔
      (1 ≤ n ∧ n ≤ 6) ∧ ∃ rest, s = List.replicate n '#' ++ rest ∧ ∀ c ∈ rest.head?, c = ' ' := by
  constructor
  · intro h
    have hs : s = List.replicate (s.takeWhile (· == '#')).length '#' ++ s.drop (s.takeWhile (· == '#')).length := by
      rw [← takeWhile_beq]
      exact (List.prefix_iff_eq_append.mp (List.takeWhile_prefix _)).symm
    simp only [headingLevel?] at h
    split at h
    · rename_i hd
      simp only [Option.ite_none_right_eq_some, Option.some.injEq, Bool.and_eq_true, decide_eq_true_eq] at h
      obtain ⟨hl, rfl⟩ := h
      exact ⟨hl, [], by rwa [hd] at hs, by simp⟩
    · rename_i c rest hd
      simp only [Option.ite_none_right_eq_some, Option.some.injEq, Bool.and_eq_true, decide_eq_true_eq,
        beq_iff_eq] at h
      obtain ⟨⟨hl, rfl⟩, rfl⟩ := h
      exact ⟨hl, _, by rwa [hd] at hs, by simp⟩
  · rintro ⟨⟨h1, h6⟩, rest, rfl, hr⟩
    have ht : (List.replicate n '#' ++ rest).takeWhile (· == '#') = List.replicate n '#' :=
      takeWhile_replicate_append (fun h => absurd (hr '#' h) (by decide)) n
    simp only [headingLevel?, ht, List.length_replicate]
    rw [List.drop_append_of_le_length (by simp), List.drop_eq_nil_of_le (by simp), List.nil_append]
    cases rest with
    | nil => simp [h1, h6]
    | cons c rest => simp [h1, h6, hr c rfl]

/-- A heading starts with a hash, so it is no fence. -/
theorem ofLine?_of_headingLevel? {line : List Char} {level : Nat} (h : headingLevel? line = some level) :
    Fence.ofLine? line = none := by
  obtain ⟨⟨h1, -⟩, rest, rfl, -⟩ := (headingLevel?_eq_some_iff line level).mp h
  obtain ⟨n, rfl⟩ : ∃ n, level = n + 1 := ⟨level - 1, by omega⟩
  exact ofLine?_of_notMem (by simp [List.replicate_succ, tick])

/-- Headings down to the level of entries, which only the document itself should have. -/
def Mark.shallow : Mark → Bool
  | .heading level _ => level ≤ entryLevel
  | _ => false

theorem shallow_lineMark_iff (line : List Char) :
    (lineMark line).shallow = true ↔ ∃ n ≤ 3, headingLevel? (trimStart line) = some n := by
  rw [lineMark]
  split
  · rename_i level hl
    rw [Mark.shallow, decide_eq_true_eq, hl, entryLevel]
    simp
  · rename_i hl
    rw [hl]
    split
    · simp [Mark.shallow]
    · split <;> simp [Mark.shallow]

/-- A line of one to three hashes before a carriage return. It is no heading, but is one without that return. -/
def isStray (line : List Char) : Bool :=
  (List.range' 1 3).any fun n => trimStart line == List.replicate n '#' ++ ['\r']

theorem isStray_iff (line : List Char) :
    isStray line = true ↔ ∃ n, 1 ≤ n ∧ n ≤ 3 ∧ trimStart line = List.replicate n '#' ++ ['\r'] := by
  simp only [isStray, List.any_eq_true, List.mem_range'_1, beq_iff_eq]
  constructor
  · rintro ⟨n, ⟨h1, h3⟩, h⟩
    exact ⟨n, h1, by omega, h⟩
  · rintro ⟨n, h1, h3, h⟩
    exact ⟨n, ⟨h1, by omega⟩, h⟩

/-- A line that is no heading is read as a shallow one just when it is a stray. -/
theorem shallow_dropReturn_iff {line : List Char} (h : headingLevel? (trimStart line) = none) :
    (lineMark (dropReturn line)).shallow = true ↔ isStray line = true := by
  rw [shallow_lineMark_iff, isStray_iff]
  rcases dropReturn_cases line with ⟨hd, hl⟩ | hd
  · rw [hd, h]
    constructor
    · rintro ⟨n, _, hn⟩
      cases hn
    · rintro ⟨n, _, _, hn⟩
      obtain ⟨blanks, hb⟩ := List.dropWhile_suffix isBlank (l := line)
      rw [← trimStart, hn] at hb
      exact absurd (by simp [← hb]) hl
  · generalize dropReturn line = kept at hd
    subst hd
    rw [trimStart_concat_return] at h ⊢
    split at h
    · rename_i hk
      rw [if_pos hk, hk]
      constructor
      · rintro ⟨n, _, hn⟩
        cases hn
      · rintro ⟨n, _, _, hn⟩
        cases n <;> cases hn
    · rename_i hk
      rw [if_neg hk]
      constructor
      · rintro ⟨n, h3, hn⟩
        obtain ⟨⟨h1, h6⟩, rest, hr, hc⟩ := (headingLevel?_eq_some_iff _ n).mp hn
        refine ⟨n, h1, h3, ?_⟩
        cases rest with
        | nil => rw [hr, List.append_nil]
        | cons c rest =>
          have : headingLevel? (trimStart kept ++ ['\r']) = some n :=
            (headingLevel?_eq_some_iff _ n).mpr ⟨⟨h1, h6⟩, c :: rest ++ ['\r'], by rw [hr, List.append_assoc], hc⟩
          rw [h] at this
          cases this
      · rintro ⟨n, h1, h3, hn⟩
        have hn := List.append_cancel_right hn
        exact ⟨n, h3, (headingLevel?_eq_some_iff _ n).mpr ⟨⟨h1, by omega⟩, [], by rw [hn, List.append_nil], by simp⟩⟩

theorem ofLine?_of_head {line : List Char} (h : line.head? = some '#') : Fence.ofLine? (trimStart line) = none := by
  have hc : ∀ c ∈ line.head?, c = '#' := fun c hc => (Option.some.inj (h.symm.trans hc)).symm
  rw [trimStart_of_head fun c hm => by rw [hc c hm]; decide]
  exact ofLine?_of_notMem fun c hm => by rw [hc c hm]; decide

theorem fenceAfter_of_head {line : List Char} (h : line.head? = some '#') (opened : Option Fence) :
    fenceAfter opened line = opened := by
  rw [fenceAfter, ofLine?_of_head h]

theorem demotedHeading_replicate (levels level : Nat) (rest : List Char) :
    demotedHeading levels level (List.replicate level '#' ++ rest) = List.replicate (min (level + levels) 6) '#' ++ rest := by
  rw [demotedHeading, List.drop_append_of_le_length (by simp), List.drop_eq_nil_of_le (by simp), List.nil_append]

/-- A heading that is pushed down is read as a heading of its new level, with or without a carriage return. -/
theorem headingLevel?_demotedHeading {levels level : Nat} {s : List Char} (h : headingLevel? s = some level) :
    headingLevel? (trimStart (dropReturn (demotedHeading levels level s))) = some (min (level + levels) 6) ∧
      (demotedHeading levels level s).head? = some '#' := by
  obtain ⟨⟨h1, h6⟩, rest, rfl, hr⟩ := (headingLevel?_eq_some_iff s level).mp h
  have hk : 1 ≤ min (level + levels) 6 ∧ min (level + levels) 6 ≤ 6 := by omega
  rw [demotedHeading_replicate]
  generalize min (level + levels) 6 = k at hk
  obtain ⟨m, rfl⟩ : ∃ m, k = m + 1 := ⟨k - 1, by omega⟩
  refine ⟨?_, by simp [List.replicate_succ]⟩
  obtain ⟨kept, hkept, hkr⟩ : ∃ kept, dropReturn (List.replicate (m + 1) '#' ++ rest) =
      List.replicate (m + 1) '#' ++ kept ∧ ∀ c ∈ kept.head?, c = ' ' := by
    cases rest with
    | nil =>
      refine ⟨[], ?_, by simp⟩
      rw [List.append_nil, dropReturn_eq_self]
      simp [List.getLast?_replicate]
    | cons c t =>
      obtain rfl := hr c rfl
      refine ⟨dropReturn (' ' :: t), dropReturn_append (by simp) _, fun c hc => ?_⟩
      cases t with
      | nil => exact (Option.some.inj hc).symm
      | cons d t =>
        rw [show ' ' :: d :: t = [' '] ++ d :: t from rfl, dropReturn_append (by simp)] at hc
        exact (Option.some.inj hc).symm
  rw [hkept, trimStart_of_head (by simp [List.replicate_succ]; decide)]
  exact (headingLevel?_eq_some_iff _ _).mpr ⟨hk, kept, rfl, hkr⟩

/-- What demotion makes of one line. -/
def demotedLine (levels : Nat) (opened : Option Fence) (line : List Char) : List Char :=
  match opened, Fence.ofLine? (trimStart line), headingLevel? (trimStart line) with
  | none, none, some level => demotedHeading levels level (trimStart line)
  | _, _, _ => line

theorem demotedLines_cons (levels : Nat) (opened : Option Fence) (line : List Char) (rest : List (List Char)) :
    demotedLines levels opened (line :: rest) =
      demotedLine levels opened line :: demotedLines levels (fenceAfter opened line) rest := by
  simp only [demotedLines.eq_def levels opened (line :: rest), demotedLine, fenceAfter]
  cases Fence.ofLine? (trimStart line) with
  | some f => cases opened <;> rfl
  | none => cases opened <;> cases headingLevel? (trimStart line) <;> rfl

/-- Only headings outside fenced blocks change. -/
theorem demotedLine_cases (levels : Nat) (opened : Option Fence) (line : List Char) :
    (∃ level, opened = none ∧ Fence.ofLine? (trimStart line) = none ∧ headingLevel? (trimStart line) = some level ∧
      demotedLine levels opened line = demotedHeading levels level (trimStart line)) ∨
    demotedLine levels opened line = line ∧
      (opened = none → Fence.ofLine? (trimStart line) = none → headingLevel? (trimStart line) = none) := by
  unfold demotedLine
  cases opened with
  | some o => simp
  | none =>
    cases Fence.ofLine? (trimStart line) with
    | some f => simp
    | none => cases headingLevel? (trimStart line) <;> simp

theorem fenceAfter_demotedLine (levels : Nat) (opened : Option Fence) (line : List Char) :
    fenceAfter opened (demotedLine levels opened line) = fenceAfter opened line := by
  rcases demotedLine_cases levels opened line with ⟨level, -, hf, hl, hd⟩ | ⟨hd, -⟩
  · rw [hd, fenceAfter_of_head (headingLevel?_demotedHeading hl).2, fenceAfter, hf]
  · rw [hd]

/-- After demotion no block is open. -/
theorem openAfter_demotedLines (levels : Nat) (ls : List (List Char)) (opened : Option Fence)
    (hv : ∀ o ∈ opened, o.Valid) : openAfter opened (demotedLines levels opened ls) = none := by
  induction ls generalizing opened with
  | nil =>
    cases opened with
    | none => rfl
    | some o => exact fenceAfter_text (hv o rfl)
  | cons line ls ih =>
    rw [demotedLines_cons, openAfter, List.foldl_cons, fenceAfter_demotedLine]
    exact ih _ fun o ho => valid_of_fenceAfter hv ho

/-- The stray lines outside fenced blocks. -/
def strays (opened : Option Fence) : List (List Char) → List (List Char)
  | [] => []
  | line :: rest => (if opened.isNone && isStray line then [line] else []) ++ strays (fenceAfter opened line) rest

theorem isStray_eq_false_of_fence {line : List Char} {f : Fence} (h : Fence.ofLine? (trimStart line) = some f) :
    isStray line = false := by
  rw [Bool.eq_false_iff, Ne, isStray_iff]
  rintro ⟨n, h1, _, hn⟩
  obtain ⟨m, rfl⟩ : ∃ m, n = m + 1 := ⟨n - 1, by omega⟩
  rw [hn, ofLine?_of_notMem (by simp [List.replicate_succ, tick])] at h
  cases h

theorem isStray_eq_false_of_heading {line : List Char} {level : Nat} (h : headingLevel? (trimStart line) = some level) :
    isStray line = false := by
  rw [Bool.eq_false_iff, Ne, isStray_iff]
  rintro ⟨n, _, _, hn⟩
  obtain ⟨_, rest, hr, hc⟩ := (headingLevel?_eq_some_iff _ level).mp h
  rw [hn] at hr
  cases rest with
  | nil =>
    have hm : '\r' ∈ List.replicate level '#' ++ [] := by simp [← hr]
    simp at hm
  | cons c rest =>
    obtain rfl := hc c rfl
    have hm : ' ' ∈ List.replicate n '#' ++ ['\r'] := by simp [hr]
    simp at hm

theorem countP_shallow_demotedLine (opened : Option Fence) (line : List Char) :
    (lineMarks opened (dropReturn (demotedLine entryLevel opened line))).countP Mark.shallow =
      (if opened.isNone && isStray line then [line] else []).length := by
  cases opened with
  | some o => rfl
  | none =>
    rcases demotedLine_cases entryLevel none line with ⟨level, -, hf, hl, hd⟩ | ⟨hd, hn⟩
    · obtain ⟨hr, hh⟩ := @headingLevel?_demotedHeading entryLevel level _ hl
      have h1 := ((headingLevel?_eq_some_iff _ level).mp hl).1.1
      have hm : (lineMark (dropReturn (demotedHeading entryLevel level (trimStart line)))).shallow = false := by
        rw [Bool.eq_false_iff, Ne, shallow_lineMark_iff, hr]
        rintro ⟨n, h3, hn⟩
        obtain rfl := Option.some.inj hn
        rw [entryLevel] at h3
        omega
      rw [hd, isStray_eq_false_of_heading hl]
      unfold lineMarks
      rw [ofLine?_dropReturn, ofLine?_of_head hh]
      simp [hm]
    · rw [hd]
      unfold lineMarks
      rw [ofLine?_dropReturn]
      cases hf : Fence.ofLine? (trimStart line) with
      | some f =>
        rw [isStray_eq_false_of_fence hf]
        rfl
      | none =>
        have hs := shallow_dropReturn_iff (hn rfl hf)
        by_cases h : isStray line = true <;> simp [h, hs]

/-- The shallow headings that are read from demoted lines are the stray lines. -/
theorem countP_shallow_demotedLines (ls : List (List Char)) (opened : Option Fence) :
    (marks opened ((demotedLines entryLevel opened ls).map dropReturn)).countP Mark.shallow =
      (strays opened ls).length := by
  induction ls generalizing opened with
  | nil => cases opened <;> rfl
  | cons line ls ih =>
    rw [demotedLines_cons, List.map_cons, marks, fenceAfter_dropReturn, fenceAfter_demotedLine, List.countP_append, ih,
      countP_shallow_demotedLine, strays, List.length_append]

end ApiHandbook.Markdown
