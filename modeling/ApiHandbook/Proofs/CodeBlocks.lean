import ApiHandbook.Proofs.RoundTrip

/-! Demoted texts read by CommonMark's rules for fenced blocks and headings, which know fewer fences and more headings
than demotion does. Where the two readings part, a block can stay open and headings can keep their level. -/
namespace ApiHandbook.Markdown
open Text

namespace Common

/-- A line after its indentation, which is at most three spaces. -/
def unindented? (line : List Char) : Option (List Char) :=
  if (line.takeWhile (· == ' ')).length ≤ 3 then some (line.dropWhile (· == ' ')) else none

/-- The fence with which a line starts, and the rest of the line. -/
def fence? (line : List Char) : Option (Fence × List Char) := do
  let start ← unindented? line
  let f ← Fence.ofLine? start
  return (f, start.dropWhile (· == f.char))

/-- The fence by which a line opens a block. No backtick stands behind a fence of backticks. -/
def opening? (line : List Char) : Option Fence := do
  let (f, rest) ← fence? line
  if f.char = tick ∧ tick ∈ rest then none else some f

/-- Whether a line ends the block that `opened` began. Behind the fence stand only spaces; a carriage return is part of
the line ending. -/
def ends (opened : Fence) (line : List Char) : Bool :=
  (fence? line).any fun (f, rest) => f.closes opened && rest.all fun c => c == ' ' || c == '\r'

/-- The block that is open after a line. -/
def blockAfter (opened : Option Fence) (line : List Char) : Option Fence :=
  match opened with
  | none => opening? line
  | some f => if ends f line then none else some f

def openBlock (opened : Option Fence) (ls : List (List Char)) : Option Fence := ls.foldl blockAfter opened

/-- The level of the heading that a line is: one to six hashes, then a space, a tab or the end of the line. -/
def atxLevel? (line : List Char) : Option Nat := do
  let start ← unindented? line
  let level := (start.takeWhile (· == '#')).length
  if 1 ≤ level ∧ level ≤ 6 ∧ (start.dropWhile (· == '#')).head?.all (· ∈ [' ', '\t', '\r']) then some level else none

/-- The levels of the headings outside blocks, when the given block is open before the lines. -/
def headingLevels (opened : Option Fence) : List (List Char) → List Nat
  | [] => []
  | line :: rest => (if opened.isNone then atxLevel? line else none).toList ++ headingLevels (blockAfter opened line) rest

end Common
open Common

theorem dropReturn_concat (line : List Char) : dropReturn (line ++ ['\r']) = line := by
  rw [dropReturn_append (by simp)]
  exact List.append_nil line

section DropReturn
variable {p : Char → Bool} (hp : p '\r' = false) (line : List Char)
include hp

theorem takeWhile_dropReturn : (dropReturn line).takeWhile p = line.takeWhile p := by
  rcases dropReturn_cases line with ⟨h, -⟩ | h
  · rw [h]
  · conv_rhs => rw [h, List.takeWhile_append, List.takeWhile_cons_of_neg (by simp [hp]), List.append_nil]
    split
    · rename_i hl
      exact (List.takeWhile_prefix p).eq_of_length hl
    · rfl

theorem dropWhile_dropReturn : (dropReturn line).dropWhile p = dropReturn (line.dropWhile p) := by
  rcases dropReturn_cases line with ⟨h, hl⟩ | h
  · rw [h, dropReturn_eq_self]
    obtain ⟨front, hf⟩ := List.dropWhile_suffix p (l := line)
    intro hr
    rw [← hf, List.getLast?_append, hr] at hl
    exact hl rfl
  · generalize dropReturn line = kept at h
    rw [h, List.dropWhile_append, List.dropWhile_cons_of_neg (by simp [hp])]
    split
    · rename_i he
      rw [List.isEmpty_iff.mp he]
      rfl
    · exact (dropReturn_concat _).symm

end DropReturn

theorem unindented?_dropReturn (line : List Char) : unindented? (dropReturn line) = (unindented? line).map dropReturn := by
  rw [unindented?, unindented?, takeWhile_dropReturn (by decide), dropWhile_dropReturn (by decide)]
  split <;> rfl

theorem fence?_dropReturn (line : List Char) :
    fence? (dropReturn line) = (fence? line).map fun (f, rest) => (f, dropReturn rest) := by
  rw [fence?, fence?, unindented?_dropReturn]
  cases unindented? line with
  | none => rfl
  | some start =>
    have hf : Fence.ofLine? (dropReturn start) = Fence.ofLine? start := by
      rcases dropReturn_cases start with ⟨h, -⟩ | h
      · rw [h]
      · conv_rhs => rw [h, ofLine?_concat_return]
    simp only [Option.map_some, Option.bind_eq_bind, Option.bind_some, hf]
    cases hs : Fence.ofLine? start with
    | none => rfl
    | some f =>
      have hc : ('\r' == f.char) = false := by
        rcases (ofLine?_eq_some hs).1.char_eq with h | h <;> rw [h] <;> decide
      rw [Option.bind_some, Option.bind_some, dropWhile_dropReturn (p := (· == f.char)) hc]
      rfl

theorem mem_dropReturn_iff {line : List Char} {c : Char} (hc : c ≠ '\r') : c ∈ dropReturn line ↔ c ∈ line := by
  rcases dropReturn_cases line with ⟨h, -⟩ | h
  · rw [h]
  · conv_rhs => rw [h, List.mem_append, List.mem_singleton, or_iff_left hc]

theorem all_dropReturn {p : Char → Bool} (hp : p '\r' = true) (line : List Char) :
    (dropReturn line).all p = line.all p := by
  rcases dropReturn_cases line with ⟨h, -⟩ | h
  · rw [h]
  · conv_rhs => rw [h, List.all_append, List.all_cons, hp, List.all_nil, Bool.and_self, Bool.and_true]

theorem head?_all_dropReturn {p : Char → Bool} (hp : p '\r' = true) (line : List Char) :
    (dropReturn line).head?.all p = line.head?.all p := by
  rcases dropReturn_cases line with ⟨h, -⟩ | h
  · rw [h]
  · conv_rhs => rw [h]
    cases dropReturn line with
    | nil => exact hp.symm
    | cons c line => rfl

/-- A carriage return at the end of a line changes nothing. -/
theorem blockAfter_dropReturn (opened : Option Fence) (line : List Char) :
    blockAfter opened (dropReturn line) = blockAfter opened line := by
  have hopening : opening? (dropReturn line) = opening? line := by
    rw [opening?, opening?, fence?_dropReturn]
    cases fence? line with
    | none => rfl
    | some found =>
      simp only [Option.map_some, Option.bind_eq_bind, Option.bind_some, mem_dropReturn_iff (c := tick) (by decide)]
  have hends (f : Fence) : ends f (dropReturn line) = ends f line := by
    rw [ends, ends, fence?_dropReturn]
    cases fence? line with
    | none => rfl
    | some found => simp only [Option.map_some, Option.any_some, all_dropReturn (p := fun c => c == ' ' || c == '\r') rfl]
  cases opened with
  | none => exact hopening
  | some f => rw [blockAfter, blockAfter, hends]

theorem atxLevel?_dropReturn (line : List Char) : atxLevel? (dropReturn line) = atxLevel? line := by
  rw [atxLevel?, atxLevel?, unindented?_dropReturn]
  cases unindented? line with
  | none => rfl
  | some start =>
    simp only [Option.map_some, Option.bind_eq_bind, Option.bind_some, takeWhile_dropReturn (p := (· == '#')) rfl,
      dropWhile_dropReturn (p := (· == '#')) rfl, head?_all_dropReturn (p := (· ∈ [' ', '\t', '\r'])) rfl]

theorem openBlock_append (opened : Option Fence) (ls more : List (List Char)) :
    openBlock opened (ls ++ more) = openBlock (openBlock opened ls) more := List.foldl_append

theorem headingLevels_append (opened : Option Fence) (ls more : List (List Char)) :
    headingLevels opened (ls ++ more) = headingLevels opened ls ++ headingLevels (openBlock opened ls) more := by
  induction ls generalizing opened with
  | nil => rfl
  | cons line ls ih =>
    rw [List.cons_append, headingLevels, headingLevels, ih, List.append_assoc]
    rfl

theorem read_map_dropReturn (opened : Option Fence) (ls : List (List Char)) :
    openBlock opened (ls.map dropReturn) = openBlock opened ls ∧
      headingLevels opened (ls.map dropReturn) = headingLevels opened ls := by
  induction ls generalizing opened with
  | nil => exact ⟨rfl, rfl⟩
  | cons line ls ih =>
    rw [List.map_cons, openBlock, List.foldl_cons, headingLevels, blockAfter_dropReturn, atxLevel?_dropReturn]
    exact ⟨(ih _).1, congrArg _ (ih _).2⟩

/-- Joined lines are read as they were. -/
theorem read_joinLines {ls : List (List Char)} (h : ∀ line ∈ ls, '\n' ∉ line) (opened : Option Fence) :
    openBlock opened (lines (joinLines ls)) = openBlock opened ls ∧
      headingLevels opened (lines (joinLines ls)) = headingLevels opened ls := by
  rcases ls.eq_nil_or_concat with rfl | ⟨front, last, rfl⟩
  · exact ⟨rfl, rfl⟩
  · rw [List.concat_eq_append] at h ⊢
    obtain ⟨hopen, hlevels⟩ := read_map_dropReturn opened front
    rw [joinLines_concat, lines_unlines_append fun line hl => h line (List.mem_append_left _ hl), openBlock_append,
      openBlock_append, headingLevels_append, headingLevels_append, hopen, hlevels]
    have hlast : lines last = if last.isEmpty then [] else [last] := by
      rw [lines, List.splitOn_eq_singleton (h last (by simp))]
      rfl
    rw [hlast]
    split
    · rename_i he
      rw [List.isEmpty_iff.mp he]
      cases openBlock opened front <;> exact ⟨rfl, rfl⟩
    · exact ⟨rfl, rfl⟩

/-- Spaces at the start of a line are blanks. -/
theorem trimStart_eq_dropWhile {line : List Char} (h : ∀ c ∈ (line.dropWhile (· == ' ')).head?, isBlank c = false) :
    trimStart line = line.dropWhile (· == ' ') := by
  have hblank : ∀ c ∈ line.takeWhile (· == ' '), isBlank c = true := fun c hc => by
    rw [eq_of_beq (List.mem_takeWhile_imp (p := (· == ' ')) hc)]
    rfl
  conv_lhs => rw [← List.takeWhile_append_dropWhile (p := (· == ' ')) (l := line), trimStart,
    List.dropWhile_append_of_pos hblank, ← trimStart, trimStart_of_head h]

theorem Fence.Valid.text_eq {f : Fence} (hf : f.Valid) : f.text = f.char :: List.replicate (f.length - 1) f.char := by
  rw [← List.replicate_succ, Nat.sub_add_cancel (Nat.le_trans (by decide) hf.three_le)]
  rfl

/-- Whatever starts a line with a fence starts it with one after all blanks have been taken away. -/
theorem ofLine?_of_fence? {line rest : List Char} {f : Fence} (h : fence? line = some (f, rest)) :
    Fence.ofLine? (trimStart line) = some f := by
  rw [fence?] at h
  obtain ⟨start, hstart, h⟩ := Option.bind_eq_some_iff.mp h
  obtain ⟨f', hf, h⟩ := Option.bind_eq_some_iff.mp h
  obtain ⟨rfl, -⟩ := Prod.mk.inj (Option.some.inj h)
  obtain ⟨-, hstart⟩ := Option.ite_none_right_eq_some.mp hstart
  obtain rfl := Option.some.inj hstart
  obtain ⟨hvalid, tail, htail⟩ := ofLine?_eq_some hf
  rw [trimStart_eq_dropWhile, hf]
  intro c hc
  rw [← htail, hvalid.text_eq, List.cons_append, List.head?_cons, Option.mem_some_iff] at hc
  subst hc
  rcases hvalid.char_eq with h | h <;> rw [h] <;> decide

theorem blockAfter_of_ofLine? {line : List Char} (h : Fence.ofLine? (trimStart line) = none) (opened : Option Fence) :
    blockAfter opened line = opened := by
  have hnone : fence? line = none := by
    cases hf : fence? line with
    | none => rfl
    | some found =>
      rw [ofLine?_of_fence? hf] at h
      cases h
  cases opened with
  | none =>
    rw [blockAfter, opening?, hnone]
    rfl
  | some f =>
    rw [blockAfter, ends, hnone]
    rfl

theorem blockAfter_demotedLine (levels : Nat) (opened block : Option Fence) (line : List Char) :
    blockAfter block (demotedLine levels opened line) = blockAfter block line := by
  rcases demotedLine_cases levels opened line with ⟨level, -, hf, hl, hd⟩ | ⟨hd, -⟩
  · rw [hd, blockAfter_of_ofLine? hf, blockAfter_of_ofLine? (ofLine?_of_head (headingLevel?_demotedHeading hl).2)]
  · rw [hd]

section Closing
variable {f : Fence} (hf : f.Valid)
include hf

theorem unindented?_text : unindented? f.text = some f.text := by
  have hspace : (f.char == ' ') = false := by rcases hf.char_eq with h | h <;> rw [h] <;> decide
  simp [unindented?, hf.text_eq, hspace]

/-- The fence that is put at the end ends the block that is open, or begins one. -/
theorem blockAfter_text (block : Option Fence) :
    blockAfter block f.text = match block with
      | none => some f
      | some g => if f.closes g then none else some g := by
  have hfence : fence? f.text = some (f, []) := by
    have hline : Fence.ofLine? f.text = some f := by simpa using @ofLine?_text_append f hf [] (by simp)
    have hrest : f.text.dropWhile (· == f.char) = [] :=
      List.dropWhile_eq_nil_iff.mpr fun c hc => beq_iff_eq.mpr (List.eq_of_mem_replicate hc)
    rw [fence?, unindented?_text hf, Option.bind_eq_bind, Option.bind_some, hline, Option.bind_eq_bind, Option.bind_some,
      hrest]
    rfl
  cases block with
  | none => simp [blockAfter, opening?, hfence]
  | some g => simp [blockAfter, ends, hfence]

theorem atxLevel?_text : atxLevel? f.text = none := by
  have hhash : (f.char == '#') = false := by rcases hf.char_eq with h | h <;> rw [h] <;> decide
  rw [atxLevel?, unindented?_text hf, hf.text_eq]
  simp [hhash]

end Closing

/-- Demotion changes no fences; at the end it adds the one that closes the block that it takes to be open. -/
theorem openBlock_demotedLines (levels : Nat) (opened block : Option Fence) (ls : List (List Char)) :
    openBlock block (demotedLines levels opened ls) =
      (openAfter opened ls).elim (openBlock block ls) fun f => blockAfter (openBlock block ls) f.text := by
  induction ls generalizing opened block with
  | nil => cases opened <;> rfl
  | cons line ls ih =>
    rw [demotedLines_cons, openBlock, List.foldl_cons, blockAfter_demotedLine]
    exact ih _ _

theorem atxLevel?_demotedHeading {levels level : Nat} {s : List Char} (h : headingLevel? s = some level) :
    atxLevel? (demotedHeading levels level s) = some (min (level + levels) 6) := by
  obtain ⟨⟨h1, h6⟩, rest, rfl, hr⟩ := (headingLevel?_eq_some_iff s level).mp h
  rw [demotedHeading_replicate]
  have hk : 1 ≤ min (level + levels) 6 ∧ min (level + levels) 6 ≤ 6 := by omega
  generalize min (level + levels) 6 = k at hk
  have hhash : rest.head? ≠ some '#' := fun h => absurd (hr '#' h) (by decide)
  have hstart : unindented? (List.replicate k '#' ++ rest) = some (List.replicate k '#' ++ rest) := by
    obtain ⟨n, rfl⟩ : ∃ n, k = n + 1 := ⟨k - 1, by omega⟩
    simp [unindented?, List.replicate_succ]
  have hrest : (List.replicate k '#' ++ rest).dropWhile (· == '#') = rest := by
    rw [List.dropWhile_append_of_pos fun c hc => beq_iff_eq.mpr (List.eq_of_mem_replicate hc)]
    cases rest with
    | nil => rfl
    | cons c rest => exact List.dropWhile_cons_of_neg (by simpa using hhash)
  have hspace : rest.head?.all (· ∈ [' ', '\t', '\r']) = true := by
    cases rest with
    | nil => rfl
    | cons c rest => simp [hr c rfl]
  rw [atxLevel?, hstart, Option.bind_eq_bind, Option.bind_some, takeWhile_replicate_append hhash, List.length_replicate,
    hrest, if_pos ⟨hk.1, hk.2, hspace⟩]

/-- Whether demotion pushes a line down. -/
def isDemoted (opened : Option Fence) (line : List Char) : Bool :=
  opened.isNone && (headingLevel? (trimStart line)).isSome

/-- The levels of the headings outside blocks that demotion leaves as they are. -/
def keptLevels (opened block : Option Fence) : List (List Char) → List Nat
  | [] => []
  | line :: rest => (if block.isNone && !isDemoted opened line then atxLevel? line else none).toList ++
      keptLevels (fenceAfter opened line) (blockAfter block line) rest

theorem isDemoted_cases (levels : Nat) (opened : Option Fence) (line : List Char) :
    (isDemoted opened line = true ∧ ∃ level, headingLevel? (trimStart line) = some level ∧
      demotedLine levels opened line = demotedHeading levels level (trimStart line)) ∨
    isDemoted opened line = false ∧ demotedLine levels opened line = line := by
  unfold isDemoted demotedLine
  cases opened with
  | some f => exact .inr ⟨rfl, rfl⟩
  | none =>
    cases hl : headingLevel? (trimStart line) with
    | none => cases Fence.ofLine? (trimStart line) <;> exact .inr ⟨rfl, rfl⟩
    | some level =>
      rw [ofLine?_of_headingLevel? hl]
      exact .inl ⟨rfl, level, rfl, rfl⟩

/-- Headings that demotion pushes down get below the level of entries. -/
theorem headingLevels_demotedLines (opened block : Option Fence) (ls : List (List Char)) (hv : ∀ o ∈ opened, o.Valid) :
    (∀ level ∈ headingLevels block (demotedLines entryLevel opened ls), entryLevel < level) ↔
      ∀ level ∈ keptLevels opened block ls, entryLevel < level := by
  induction ls generalizing opened block with
  | nil =>
    cases opened with
    | none => rfl
    | some f => cases block <;> simp [demotedLines, headingLevels, keptLevels, atxLevel?_text (hv f rfl)]
  | cons line ls ih =>
    rw [demotedLines_cons, headingLevels, keptLevels, blockAfter_demotedLine, List.forall_mem_append,
      List.forall_mem_append, ih _ _ fun o ho => valid_of_fenceAfter hv ho]
    refine and_congr_left fun _ => ?_
    rcases isDemoted_cases entryLevel opened line with ⟨hdemoted, level, hlevel, hline⟩ | ⟨hdemoted, hline⟩
    · have h1 := ((headingLevel?_eq_some_iff _ level).mp hlevel).1.1
      have hbelow : entryLevel < min (level + entryLevel) 6 := by
        rw [entryLevel]
        omega
      rw [hdemoted, hline, atxLevel?_demotedHeading hlevel]
      cases block with
      | none => simpa using hbelow
      | some _ => rfl
    · rw [hdemoted, hline]
      cases block <;> rfl

/-- Whether the block that demotion takes to be open at the end is the open one. -/
def Matched (opened block : Option Fence) : Prop :=
  match opened, block with
  | none, none => True
  | some f, some g => f.closes g = true
  | _, _ => False

theorem read_demoteHeadings (m : List Char) (block : Option Fence) :
    openBlock block (lines (demoteHeadings entryLevel m)) = openBlock block (demotedLines entryLevel none (lines m)) ∧
      headingLevels block (lines (demoteHeadings entryLevel m)) =
        headingLevels block (demotedLines entryLevel none (lines m)) :=
  read_joinLines (notMem_demotedLines (fun _ => notMem_of_mem_lines) entryLevel none nofun) block

theorem openBlock_demoteHeadings (m : List Char) : openBlock none (lines (demoteHeadings entryLevel m)) = none ↔
    Matched (openAfter none (lines m)) (openBlock none (lines m)) := by
  rw [(read_demoteHeadings m none).1, openBlock_demotedLines]
  have hvalid : ∀ f ∈ openAfter none (lines m), f.Valid := valid_of_openAfter nofun
  cases hf : openAfter none (lines m) with
  | none => cases openBlock none (lines m) <;> simp [Matched]
  | some f =>
    rw [Option.elim_some, blockAfter_text (hvalid f hf)]
    cases openBlock none (lines m) <;> simp [Matched]

theorem headingLevels_demoteHeadings (m : List Char) :
    (∀ level ∈ headingLevels none (lines (demoteHeadings entryLevel m)), entryLevel < level) ↔
      ∀ level ∈ keptLevels none none (lines m), entryLevel < level := by
  rw [(read_demoteHeadings m none).2]
  exact headingLevels_demotedLines none none _ nofun

/-- After demotion no block is open just when the block that demotion closes ends the one that is open in the text, if
any. Headings are below the level of entries just when those are that demotion takes for something else. -/
theorem demoteHeadings_read_iff (m : List Char) :
    (openBlock none (lines (demoteHeadings entryLevel m)) = none ↔
      Matched (openAfter none (lines m)) (openBlock none (lines m))) ∧
    ((∀ level ∈ headingLevels none (lines (demoteHeadings entryLevel m)), entryLevel < level) ↔
      ∀ level ∈ keptLevels none none (lines m), entryLevel < level) :=
  ⟨openBlock_demoteHeadings m, headingLevels_demoteHeadings m⟩

/-- An indented line is no fence, so that the one that is put at the end opens a block. A tab behind a hash makes a
heading, too. -/
theorem fence_left_open : openBlock none (lines (demoteHeadings entryLevel "    ```".toList)) = some ⟨tick, 3⟩ ∧
    headingLevels none (lines (demoteHeadings entryLevel "#\tTitle".toList)) = [1] := by decide +kernel

end ApiHandbook.Markdown
