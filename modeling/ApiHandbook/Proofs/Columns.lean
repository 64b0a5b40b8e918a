import ApiHandbook.Argument.Table
import ApiHandbook.Proofs.Entries
import ApiHandbook.Proofs.Indentation

/-! The table of argument records, line by line: a header, a rule, and a row for each record. The columns are the fields that
the records set, in the order in which they are first seen, so that more records only add columns at the end. -/
namespace ApiHandbook.Argument
open Text

/-! Columns -/

/-- The fields that records set, record by record. -/
def fieldsIn (records : List Record) : List Field := records.flatMap fun r => r.fields.map Prod.fst

theorem columns_eq (records : List Record) : columns records = (fieldsIn records).eraseDups := by
  rw [columns, foldl_missing, List.nil_append, List.removeAll_nil, fieldsIn]

theorem mem_columns {records : List Record} {field : Field} :
    field ∈ columns records ↔ ∃ r ∈ records, (r.get? field).isSome := by
  have hlookup (r : Record) : field ∈ r.fields.map Prod.fst ↔ (r.get? field).isSome := by
    rw [Record.get?, List.lookup_isSome_iff, List.mem_map]
    simp only [beq_iff_eq, @eq_comm _ field]
  simp only [columns_eq, List.mem_eraseDups, fieldsIn, List.mem_flatMap, hlookup]

/-- More records add columns at the end. -/
theorem columns_prefix {front records : List Record} (h : front <+: records) : columns front <+: columns records := by
  obtain ⟨more, rfl⟩ := h
  rw [columns_eq, columns_eq, fieldsIn, fieldsIn, List.flatMap_append, List.eraseDups_append]
  exact List.prefix_append _ _

/-! Rows -/

/-- The text of a row: each cell between blanks, and the pipes around the cells. -/
def rowText (cells : List (List Char)) : List Char := '|' :: cells.flatMap fun cell => ' ' :: cell ++ [' ', '|']

theorem tableRow_eq_rowText {cells : List (List Char)} (h : cells ≠ []) : tableRow cells = rowText cells := by
  induction cells with
  | nil => exact absurd rfl h
  | cons cell cells ih =>
    cases cells with
    | nil => simp [tableRow, rowText]
    | cons next rest =>
      have hrest := ih (List.cons_ne_nil next rest)
      simp only [tableRow, rowText, List.cons_append, List.nil_append, List.cons.injEq, true_and] at hrest
      simp [tableRow, rowText, List.intercalate_cons_cons, hrest]

/-- The cells of a record: its name, and for each column its value of that field, if it has one. -/
def cellsOf (fields : List Field) (r : Record) : List (List Char) :=
  escapeCell r.name.toList :: fields.map fun field => ((r.get? field).map fun value => escapeCell value.toList).getD []

theorem recordCells_eq_cellsOf (fields : List Field) (r : Record) : recordCells fields r = cellsOf fields r := by
  have hcell (field : Field) : escapeCell ((r.get? field).getD "").toList =
      ((r.get? field).map fun value => escapeCell value.toList).getD [] := by
    cases r.get? field <;> rfl
  simp only [recordCells, cellsOf, hcell]

/-! Line breaks -/

/-- Whether a text stays on its line. -/
def Unbroken (s : List Char) : Prop := '\n' ∉ s ∧ '\r' ∉ s

theorem unbroken_append {s t : List Char} (hs : Unbroken s) (ht : Unbroken t) : Unbroken (s ++ t) :=
  ⟨fun h => (List.mem_append.mp h).elim hs.1 ht.1, fun h => (List.mem_append.mp h).elim hs.2 ht.2⟩

theorem unbroken_escapeCell (value : List Char) : Unbroken (escapeCell value) := by
  have hchar (c d : Char) (hd : d = '\n' ∨ d = '\r') :
      d ∉ if c = '|' then ['\\', '|'] else if c = '\r' ∨ c = '\n' then [' '] else [c] := by
    split
    · rcases hd with rfl | rfl <;> decide
    · split
      · rcases hd with rfl | rfl <;> decide
      · rename_i hbreak
        rcases hd with rfl | rfl <;> simpa [eq_comm] using fun h => hbreak (by simp [h])
  exact ⟨fun h => (List.mem_flatMap.mp h).elim fun c hc => hchar c _ (.inl rfl) hc.2,
    fun h => (List.mem_flatMap.mp h).elim fun c hc => hchar c _ (.inr rfl) hc.2⟩

theorem unbroken_rowText {cells : List (List Char)} (h : ∀ cell ∈ cells, Unbroken cell) : Unbroken (rowText cells) := by
  induction cells with
  | nil => exact ⟨by decide, by decide⟩
  | cons cell cells ih =>
    obtain ⟨hcell, hcells⟩ := List.forall_mem_cons.mp h
    have hfront : Unbroken (' ' :: cell ++ [' ']) :=
      unbroken_append (unbroken_append (s := [' ']) ⟨by decide, by decide⟩ hcell) ⟨by decide, by decide⟩
    have hrow : rowText (cell :: cells) = ['|'] ++ (' ' :: cell ++ [' '] ++ rowText cells) := by
      simp [rowText]
    rw [hrow]
    exact unbroken_append ⟨by decide, by decide⟩ (unbroken_append hfront (ih hcells))

theorem unbroken_cellsOf (fields : List Field) (r : Record) : ∀ cell ∈ cellsOf fields r, Unbroken cell := by
  refine List.forall_mem_cons.mpr ⟨unbroken_escapeCell _, List.forall_mem_map.mpr fun field _ => ?_⟩
  cases r.get? field with
  | none => exact ⟨by decide, by decide⟩
  | some value => exact unbroken_escapeCell _

theorem unbroken_header (field : Field) : Unbroken field.header.toList := by
  cases field <;> exact ⟨by decide, by decide⟩

/-- How a table shows records under the given fields, line by line. -/
structure Tabulates (records : List Record) (fields : List Field) (table : List Char) : Prop where
  lines_eq : table.splitOn '\n' =
    rowText ("name".toList :: fields.map fun field => field.header.toList) ::
      rowText (List.replicate (fields.length + 1) "---".toList) :: records.map fun r => rowText (cellsOf fields r)
  length_eq : (table.splitOn '\n').length = records.length + 2
  unbroken : ∀ line ∈ table.splitOn '\n', Unbroken line
  mem_iff : ∀ field, field ∈ fields ↔ ∃ r ∈ records, (r.get? field).isSome
  /-- Each field has one column, and the columns are in the order in which the fields are first seen. -/
  pairwise : fields.Pairwise fun f g => (fieldsIn records).idxOf f < (fieldsIn records).idxOf g

theorem tabulates_columns {records : List Record} :
    Tabulates records (columns records) (joinLines (tableLines records)) := by
  have hlines : tableLines records = rowText ("name".toList :: (columns records).map fun field => field.header.toList) ::
      rowText (List.replicate ((columns records).length + 1) "---".toList) ::
        records.map fun r => rowText (cellsOf (columns records) r) := by
    simp only [tableLines, tableRow_eq_rowText (List.cons_ne_nil _ _), List.map_cons, List.map_map, Function.comp_def,
      List.map_const', List.replicate_succ, recordCells_eq_cellsOf, cellsOf]
  have hunbroken : ∀ line ∈ tableLines records, Unbroken line := by
    rw [hlines]
    refine List.forall_mem_cons.mpr ⟨unbroken_rowText ?_, List.forall_mem_cons.mpr ⟨unbroken_rowText ?_, ?_⟩⟩
    · exact List.forall_mem_cons.mpr ⟨⟨by decide, by decide⟩, List.forall_mem_map.mpr fun field _ => unbroken_header field⟩
    · intro cell hcell
      rw [List.eq_of_mem_replicate hcell]
      exact ⟨by decide, by decide⟩
    · exact List.forall_mem_map.mpr fun r _ => unbroken_rowText (unbroken_cellsOf _ r)
  have hsplit : (joinLines (tableLines records)).splitOn '\n' = tableLines records :=
    splitOn_joinLines (fun line hline => (hunbroken line hline).1) (List.cons_ne_nil _ _)
  exact {
    lines_eq := hsplit.trans hlines
    length_eq := by rw [hsplit, hlines, List.length_cons, List.length_cons, List.length_map]
    unbroken := hsplit.symm ▸ hunbroken
    mem_iff := fun field => mem_columns
    pairwise := columns_eq records ▸ pairwise_idxOf_eraseDups _ }

/-- A table of records has a line for the header, one for the rule, and one for each record, with a column for each field; the
columns of the first records are the first columns. -/
theorem table?_tabulates {records : List Record} (h : records ≠ []) :
    (∃ table, table? records = some table ∧ Tabulates records (columns records) table.toList) ∧
      ∀ front, front <+: records → columns front <+: columns records := by
  refine ⟨⟨String.ofList (joinLines (tableLines records)), ?_, ?_⟩, fun front => columns_prefix⟩
  · rw [table?, if_neg (by simpa using h)]
  · rw [String.toList_ofList]
    exact tabulates_columns

/-- A declared record and a scraped one behind it, with fields in another order and a text of two lines. -/
theorem table?_tabulates_page :
    let page : Record := ⟨"page", [(.type, "integer"), (.required, "true")]⟩
    let sort : Record := ⟨"sort|by", [(.help, "one of\na|b"), (.type, "string")]⟩
    [page, sort] ≠ [] ∧ columns [page] = [.type, .required] ∧ columns [page, sort] = [.type, .required, .help] ∧
      table? [page, sort] = some ("| name | type | required | help |\n| --- | --- | --- | --- |\n" ++
        "| page | integer | true |  |\n| sort\\|by | string |  | one of a\\|b |") ∧
      (∃ table, table? [page, sort] = some table ∧ Tabulates [page, sort] (columns [page, sort]) table.toList) ∧
      ∀ front, front <+: [page, sort] → columns front <+: columns [page, sort] := by
  intro page sort
  have hne : [page, sort] ≠ [] := List.cons_ne_nil page [sort]
  exact ⟨hne, by decide, by decide, by decide +kernel, table?_tabulates hne⟩

end ApiHandbook.Argument
