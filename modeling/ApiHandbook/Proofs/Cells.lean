import ApiHandbook.Proofs.Columns
import Mathlib

/-! The rows of a table as its readers take them apart: a pipe separates cells unless an odd number of backslashes stands in
front of it. A pipe of a text gets a backslash in front, and so separates cells just when the text itself has an odd number of
backslashes in front of it. -/
namespace ApiHandbook.Argument
open Text

/-! Reading rows -/

/-- The number of backslashes at the end of a text. -/
def backslashes (front : List Char) : Nat := (front.rtakeWhile (· == '\\')).length

/-- What stands between the pipes that separate cells, behind the front of a row. -/
def piecesBehind (front : List Char) : List Char → List (List Char)
  | [] => [[]]
  | c :: rest =>
    if c = '|' ∧ backslashes front % 2 = 0 then [] :: piecesBehind (front ++ [c]) rest
    else (piecesBehind (front ++ [c]) rest).modifyHead (c :: ·)

/-- The cells between the outer pipes of a row. -/
def readCells? (row : List Char) : Option (List (List Char)) :=
  match piecesBehind [] row with
  | [] :: rest => if rest.getLast? = some [] then some rest.dropLast else none
  | _ => none

/-- The number of pipes that separate cells, behind the front of a row. -/
def separatorsBehind (front : List Char) : List Char → Nat
  | [] => 0
  | c :: rest => separatorsBehind (front ++ [c]) rest + if c = '|' ∧ backslashes front % 2 = 0 then 1 else 0

@[simp] theorem backslashes_nil : backslashes [] = 0 := rfl

theorem backslashes_concat (front : List Char) (c : Char) :
    backslashes (front ++ [c]) = if c = '\\' then backslashes front + 1 else 0 := by
  rw [backslashes, List.rtakeWhile_concat]
  split_ifs with h h' h'
  · rw [List.length_append, backslashes]
    rfl
  · exact absurd (beq_iff_eq.mp h) h'
  · exact absurd (beq_iff_eq.mpr h') h
  · rfl

theorem piecesBehind_ne_nil (front s : List Char) : piecesBehind front s ≠ [] := by
  cases s with
  | nil => exact List.cons_ne_nil [] []
  | cons c s =>
    rw [piecesBehind]
    split
    · exact List.cons_ne_nil _ _
    · exact fun h => piecesBehind_ne_nil (front ++ [c]) s (List.modifyHead_eq_nil_iff.mp h)

theorem length_piecesBehind (front s : List Char) : (piecesBehind front s).length = separatorsBehind front s + 1 := by
  induction s generalizing front with
  | nil => rfl
  | cons c s ih =>
    rw [piecesBehind, separatorsBehind]
    split
    · rw [List.length_cons, ih]
    · rw [List.length_modifyHead, ih]

/-- A text without separators belongs to one cell. -/
theorem piecesBehind_append {front s : List Char} (h : separatorsBehind front s = 0) (rest : List Char) :
    piecesBehind front (s ++ rest) = (piecesBehind (front ++ s) rest).modifyHead (s ++ ·) := by
  induction s generalizing front with
  | nil =>
    rw [List.append_nil]
    exact (congrFun List.modifyHead_id _).symm
  | cons c s ih =>
    rw [separatorsBehind, Nat.add_eq_zero_iff] at h
    obtain ⟨hrest, hc⟩ := h
    have hnot : ¬ (c = '|' ∧ backslashes front % 2 = 0) := fun hsep => by rw [if_pos hsep] at hc; cases hc
    rw [List.cons_append, piecesBehind, if_neg hnot, ih hrest, List.modifyHead_modifyHead, List.append_assoc]
    rfl

/-- Where a separator follows a text, the pieces of the text are cells of their own. -/
theorem piecesBehind_append_separator {front s rest : List Char} {pieces : List (List Char)}
    (h : piecesBehind (front ++ s) rest = [] :: pieces) : piecesBehind front (s ++ rest) = piecesBehind front s ++ pieces := by
  induction s generalizing front with
  | nil => rwa [List.append_nil] at h
  | cons c s ih =>
    rw [List.append_cons] at h
    rw [List.cons_append, piecesBehind, piecesBehind, ih h]
    split
    · rfl
    · obtain ⟨piece, more, hpieces⟩ := List.exists_cons_of_ne_nil (piecesBehind_ne_nil (front ++ [c]) s)
      rw [hpieces]
      rfl

theorem separatorsBehind_append (front s rest : List Char) :
    separatorsBehind front (s ++ rest) = separatorsBehind front s + separatorsBehind (front ++ s) rest := by
  induction s generalizing front with
  | nil => rw [List.append_nil, separatorsBehind, Nat.zero_add, List.nil_append]
  | cons c s ih =>
    rw [List.cons_append, separatorsBehind, ih, separatorsBehind, List.append_assoc]
    exact Nat.add_right_comm _ _ _

/-! Escaped texts -/

/-- The number of pipes in a text that have an odd number of backslashes in front of them, behind the front of the text. -/
def exposedBehind (front : List Char) : List Char → Nat
  | [] => 0
  | c :: rest => exposedBehind (front ++ [c]) rest + if c = '|' ∧ backslashes front % 2 = 1 then 1 else 0

/-- The number of pipes in a text that have an odd number of backslashes in front of them. -/
def exposedPipes (s : List Char) : Nat := exposedBehind [] s

theorem escapeCell_cons (c : Char) (s : List Char) : escapeCell (c :: s) =
    (if c = '|' then ['\\', '|'] else if c = '\r' ∨ c = '\n' then [' '] else [c]) ++ escapeCell s := rfl

theorem separatorsBehind_singleton (front : List Char) (c : Char) :
    separatorsBehind front [c] = if c = '|' ∧ backslashes front % 2 = 0 then 1 else 0 := Nat.zero_add _

/-- The pipes of a text that separate cells of a row are those that are exposed in the text, and it leaves as many backslashes at
its end as it found there. -/
theorem separatorsBehind_escapeCell (s : List Char) {front front' : List Char} (h : backslashes front = backslashes front') :
    separatorsBehind front (escapeCell s) = exposedBehind front' s := by
  induction s generalizing front front' with
  | nil => rfl
  | cons c s ih =>
    rw [escapeCell_cons, exposedBehind, separatorsBehind_append]
    by_cases hpipe : c = '|'
    · subst hpipe
      -- The backslash in front of the pipe changes the parity.
      have hends : backslashes (front ++ ['\\', '|']) = backslashes (front' ++ ['|']) := by
        rw [List.append_cons, backslashes_concat, backslashes_concat front']
        rfl
      have hpair : separatorsBehind front ['\\', '|'] = if backslashes front' % 2 = 1 then 1 else 0 := by
        rw [← List.singleton_append, separatorsBehind_append, separatorsBehind_singleton, separatorsBehind_singleton,
          backslashes_concat, ← h]
        simp only [Char.reduceEq, false_and, if_true, if_false, true_and, Nat.zero_add]
        exact if_congr (by omega) rfl rfl
      rw [if_pos rfl, ih hends, hpair, Nat.add_comm]
      simp only [true_and]
    · have hexposed : (if c = '|' ∧ backslashes front' % 2 = 1 then 1 else 0) = 0 := if_neg fun h => hpipe h.1
      rw [if_neg hpipe, hexposed, Nat.add_zero]
      by_cases hbreak : c = '\r' ∨ c = '\n'
      · have hends : backslashes (front ++ [' ']) = backslashes (front' ++ [c]) := by
          rw [backslashes_concat, backslashes_concat]
          rcases hbreak with rfl | rfl <;> rfl
        rw [if_pos hbreak, ih hends, separatorsBehind_singleton]
        exact Nat.zero_add _
      · have hends : backslashes (front ++ [c]) = backslashes (front' ++ [c]) := by
          rw [backslashes_concat, backslashes_concat, h]
        rw [if_neg hbreak, ih hends, separatorsBehind_singleton, if_neg fun hsep => hpipe hsep.1, Nat.zero_add]

theorem piecesBehind_congr {front front' : List Char} (h : backslashes front = backslashes front') (s : List Char) :
    piecesBehind front s = piecesBehind front' s := by
  induction s generalizing front front' with
  | nil => rfl
  | cons c s ih =>
    have hends : backslashes (front ++ [c]) = backslashes (front' ++ [c]) := by
      rw [backslashes_concat, backslashes_concat, h]
    rw [piecesBehind, piecesBehind, ih hends, h]

theorem separatorsBehind_congr {front front' : List Char} (h : backslashes front = backslashes front') (s : List Char) :
    separatorsBehind front s = separatorsBehind front' s := by
  have hlength := length_piecesBehind front s
  rw [piecesBehind_congr h, length_piecesBehind] at hlength
  exact (Nat.succ.inj hlength).symm

/-! Rows -/

/-- A cell as it stands in its row. -/
def padded (cell : List Char) : List Char := ' ' :: cell ++ [' ']

theorem rowText_cons (cell : List Char) (cells : List (List Char)) :
    rowText (cell :: cells) = ['|'] ++ padded cell ++ rowText cells := by
  simp [rowText, padded]

theorem backslashes_padded (front cell : List Char) : backslashes (front ++ padded cell) = 0 := by
  rw [padded, ← List.append_assoc, backslashes_concat]
  rfl

theorem separatorsBehind_padded (cell : List Char) : separatorsBehind [] (padded cell) = separatorsBehind [] cell := by
  have hcell : separatorsBehind ([] ++ [' ']) cell = separatorsBehind [] cell :=
    separatorsBehind_congr (backslashes_concat [] ' ') cell
  have hsplit : padded cell = [' '] ++ (cell ++ [' ']) := rfl
  rw [hsplit, separatorsBehind_append, separatorsBehind_append, hcell, separatorsBehind_singleton, separatorsBehind_singleton]
  exact Nat.zero_add _

theorem piecesBehind_pipe {front : List Char} (h : backslashes front = 0) (s : List Char) :
    piecesBehind front ('|' :: s) = [] :: piecesBehind [] s := by
  have hends : backslashes (front ++ ['|']) = backslashes [] := backslashes_concat front '|'
  rw [piecesBehind, if_pos ⟨rfl, by rw [h]⟩, piecesBehind_congr hends]

theorem piecesBehind_rowText {front : List Char} (h : backslashes front = 0) (cells : List (List Char)) :
    piecesBehind front (rowText cells) = [] :: (cells.flatMap fun cell => piecesBehind [] (padded cell)) ++ [[]] := by
  induction cells generalizing front with
  | nil => exact piecesBehind_pipe h []
  | cons cell cells ih =>
    have hrest := @ih ([] ++ padded cell) (backslashes_padded [] cell)
    rw [rowText_cons, List.append_assoc, List.singleton_append, piecesBehind_pipe h,
      piecesBehind_append_separator hrest, List.flatMap_cons, List.cons_append, List.append_assoc]
    rfl

/-- A row reads as the cells of its parts. -/
theorem readCells?_rowText (cells : List (List Char)) :
    readCells? (rowText cells) = some (cells.flatMap fun cell => piecesBehind [] (padded cell)) := by
  simp only [readCells?, piecesBehind_rowText backslashes_nil, List.cons_append, List.getLast?_concat, if_true,
    List.dropLast_concat]

/-- The number of cells that the row of some cells reads as. -/
theorem length_readCells?_rowText (cells : List (List Char)) :
    (readCells? (rowText cells)).map List.length = some (cells.length + (cells.map (separatorsBehind [])).sum) := by
  have hcell (cell : List Char) : (piecesBehind [] (padded cell)).length = separatorsBehind [] cell + 1 := by
    rw [length_piecesBehind, separatorsBehind_padded]
  rw [readCells?_rowText, Option.map_some, List.length_flatMap]
  congr 1
  simp only [hcell]
  induction cells with
  | nil => rfl
  | cons cell cells ih =>
    rw [List.map_cons, List.sum_cons, ih, List.map_cons, List.sum_cons, List.length_cons]
    omega

/-- Cells without separators read as they were written. -/
theorem readCells?_rowText_eq {cells : List (List Char)} (h : ∀ cell ∈ cells, separatorsBehind [] cell = 0) :
    readCells? (rowText cells) = some (cells.map padded) := by
  have hcell : ∀ cell ∈ cells, piecesBehind [] (padded cell) = [padded cell] := fun cell hcell => by
    have hpadded : separatorsBehind [] (padded cell) = 0 := (separatorsBehind_padded cell).trans (h cell hcell)
    have hpieces := piecesBehind_append hpadded []
    rwa [List.append_nil, piecesBehind, List.modifyHead_cons, List.append_nil] at hpieces
  rw [readCells?_rowText, List.flatMap_congr hcell, ← List.map_eq_flatMap]

/-! Tables -/

/-- The texts of a record that its row shows: its name, and its value of each field that it has. -/
def shownTexts (fields : List Field) (r : Record) : List (List Char) :=
  r.name.toList :: fields.filterMap fun field => (r.get? field).map String.toList

/-- The number of exposed pipes in the texts that the row of a record shows. -/
def exposedIn (fields : List Field) (r : Record) : Nat := ((shownTexts fields r).map exposedPipes).sum

theorem length_cellsOf (fields : List Field) (r : Record) : (cellsOf fields r).length = fields.length + 1 := by
  rw [cellsOf, List.length_cons, List.length_map]

theorem separators_cellsOf (fields : List Field) (r : Record) :
    ((cellsOf fields r).map (separatorsBehind [])).sum = exposedIn fields r := by
  have hcell (value : List Char) : separatorsBehind [] (escapeCell value) = exposedPipes value :=
    separatorsBehind_escapeCell value rfl
  rw [exposedIn, shownTexts, cellsOf, List.map_cons, List.map_cons, List.sum_cons, List.sum_cons, hcell]
  congr 1
  induction fields with
  | nil => rfl
  | cons field fields ih =>
    rw [List.map_cons, List.map_cons, List.sum_cons, ih, List.filterMap_cons]
    cases r.get? field with
    | none => exact Nat.zero_add _
    | some value =>
      rw [Option.map_some, Option.getD_some, hcell]
      rfl

theorem exposedIn_eq_zero {fields : List Field} {r : Record} :
    exposedIn fields r = 0 ↔ ∀ text ∈ shownTexts fields r, exposedPipes text = 0 := by
  rw [exposedIn, List.sum_eq_zero_iff_forall_eq_nat, List.forall_mem_map]

/-- How the readers of a table divide its lines into cells. -/
structure Divides (records : List Record) (fields : List Field) (table : List Char) : Prop where
  /-- Each exposed pipe in the texts of a record adds a cell to its row. -/
  lengths_eq : (table.splitOn '\n').map (fun line => (readCells? line).map List.length) =
    some (fields.length + 1) :: some (fields.length + 1) :: records.map fun r => some (fields.length + 1 + exposedIn fields r)
  /-- Where no text of a record has an exposed pipe, its row reads as its cells. -/
  readCells?_eq : ∀ i r, records[i]? = some r → (∀ text ∈ shownTexts fields r, exposedPipes text = 0) →
    (table.splitOn '\n')[i + 2]?.map readCells? = some (some ((cellsOf fields r).map padded))
  lines_iff : (∀ line ∈ table.splitOn '\n', (readCells? line).map List.length = some (fields.length + 1)) ↔
    ∀ r ∈ records, ∀ text ∈ shownTexts fields r, exposedPipes text = 0

theorem divides_columns {records : List Record} :
    Divides records (columns records) (joinLines (tableLines records)) := by
  have hheader : (("name".toList :: (columns records).map fun field => field.header.toList).map
      (separatorsBehind [])).sum = 0 := by
    refine List.sum_eq_zero_iff_forall_eq_nat.mpr (List.forall_mem_map.mpr (List.forall_mem_cons.mpr ⟨rfl, ?_⟩))
    exact List.forall_mem_map.mpr fun field _ => by cases field <;> rfl
  have hrule : ((List.replicate ((columns records).length + 1) "---".toList).map (separatorsBehind [])).sum = 0 := by
    rw [List.map_replicate, List.sum_replicate_nat]
    exact Nat.mul_zero _
  have hlengths : ((joinLines (tableLines records)).splitOn '\n').map (fun line => (readCells? line).map List.length) =
      some ((columns records).length + 1) :: some ((columns records).length + 1) ::
        records.map fun r => some ((columns records).length + 1 + exposedIn (columns records) r) := by
    rw [tabulates_columns.lines_eq, List.map_cons, List.map_cons, length_readCells?_rowText, length_readCells?_rowText,
      hheader, hrule, List.length_cons, List.length_map, List.length_replicate, List.map_map]
    simp only [Nat.add_zero, Function.comp_def, length_readCells?_rowText, separators_cellsOf, length_cellsOf]
  have hlines : (∀ line ∈ (joinLines (tableLines records)).splitOn '\n',
      (readCells? line).map List.length = some ((columns records).length + 1)) ↔
        ∀ r ∈ records, exposedIn (columns records) r = 0 := by
    rw [← List.forall_mem_map (P := fun length => length = some ((columns records).length + 1)), hlengths,
      List.forall_mem_cons, List.forall_mem_cons, List.forall_mem_map]
    simp only [true_and, Option.some.injEq, Nat.add_eq_left]
  exact {
    lengths_eq := hlengths
    readCells?_eq := fun i r hr hexposed => by
      have hseparators := (separators_cellsOf (columns records) r).trans (exposedIn_eq_zero.mpr hexposed)
      rw [tabulates_columns.lines_eq, List.getElem?_cons_succ, List.getElem?_cons_succ, List.getElem?_map, hr, Option.map_some,
        Option.map_some, readCells?_rowText_eq fun cell hcell =>
          List.sum_eq_zero_iff_forall_eq_nat.mp hseparators _ (List.mem_map_of_mem hcell)]
    lines_iff := hlines.trans (forall₂_congr fun r _ => exposedIn_eq_zero) }

/-- Every row of a table reads as one cell for each column, but for the rows that show texts with exposed pipes: each such pipe
adds a cell. -/
theorem table?_divides {records : List Record} (h : records ≠ []) :
    ∃ table, table? records = some table ∧ Divides records (columns records) table.toList := by
  refine ⟨String.ofList (joinLines (tableLines records)), ?_, ?_⟩
  · rw [table?, if_neg (by simpa using h)]
  · rw [String.toList_ofList]
    exact divides_columns

/-- A regular expression with a pipe that is escaped already, next to one with a bare pipe. -/
theorem table?_divides_patterns :
    let bare : Record := ⟨"sort", [(.help, "a|b")]⟩
    let escaped : Record := ⟨"split", [(.help, "a\\|b")]⟩
    [bare, escaped] ≠ [] ∧
      table? [bare, escaped] = some "| name | help |\n| --- | --- |\n| sort | a\\|b |\n| split | a\\\\|b |" ∧
      exposedIn [.help] bare = 0 ∧ exposedIn [.help] escaped = 1 ∧
      ∃ table, table? [bare, escaped] = some table ∧ Divides [bare, escaped] (columns [bare, escaped]) table.toList := by
  intro bare escaped
  have hne : [bare, escaped] ≠ [] := List.cons_ne_nil bare [escaped]
  exact ⟨hne, by decide +kernel, by decide +kernel, by decide +kernel, table?_divides hne⟩

/-- Tables do not show every text within its cell: behind a backslash of the text, the pipe is not escaped. -/
theorem cell_broken_by_backslash : ¬ ∀ records : List Record, records ≠ [] →
    ∃ table, table? records = some table ∧ ∀ line ∈ table.toList.splitOn '\n',
      (readCells? line).map List.length = some ((columns records).length + 1) := by
  intro hcells
  obtain ⟨table, htable, hlines⟩ := hcells [⟨"sep", [(.help, "a\\|b")]⟩] (List.cons_ne_nil _ _)
  have hsep : table? [⟨"sep", [(.help, "a\\|b")]⟩] = some "| name | help |\n| --- | --- |\n| sep | a\\\\|b |" := by
    decide +kernel
  cases hsep.symm.trans htable
  exact absurd hlines (by decide +kernel)

end ApiHandbook.Argument
