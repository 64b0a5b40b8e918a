import ApiHandbook.Argument.Record
import ApiHandbook.Text.Lines

/-! Argument records as a markdown table: one row for each record, one column for each field that some record sets. -/
namespace ApiHandbook.Argument
open Text

/-- The fields of all records, in the order in which they are first seen. -/
def columns (records : List Record) : List Field :=
  (records.flatMap fun r => r.fields.map Prod.fst).foldl
    (fun seen field => if seen.contains field then seen else seen ++ [field]) []

/-- A pipe would end the cell and a line break the row. -/
def escapeCell (value : List Char) : List Char :=
  value.flatMap fun c =>
    if c = '|' then ['\\', '|'] else if c = '\r' ∨ c = '\n' then [' '] else [c]

def tableRow (cells : List (List Char)) : List Char :=
  ['|', ' '] ++ [' ', '|', ' '].intercalate cells ++ [' ', '|']

def recordCells (fields : List Field) (r : Record) : List (List Char) :=
  escapeCell r.name.toList :: fields.map fun field => escapeCell ((r.get? field).getD "").toList

/-- The lines of the table: header, rule, and a row for each record. -/
def tableLines (records : List Record) : List (List Char) :=
  let fields := columns records
  let header := "name".toList :: fields.map fun field => field.header.toList
  tableRow header :: tableRow (header.map fun _ => "---".toList)
    :: records.map fun r => tableRow (recordCells fields r)

/-- The table, unless there is nothing to show. -/
def table? (records : List Record) : Option String :=
  if records.isEmpty then none else some (String.ofList (joinLines (tableLines records)))

end ApiHandbook.Argument
