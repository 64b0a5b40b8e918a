/-! The lines of a text: each ends at a line feed, a carriage return just before that feed belongs to the line ending,
and a text that ends with a line feed has no further empty line. -/
namespace ApiHandbook.Text

/-- A line without the carriage return that precedes its line feed. -/
def dropReturn (line : List Char) : List Char :=
  if line.getLast? = some '\r' then line.dropLast else line

/-- Reads the pieces between line feeds as lines; only the last piece has no line feed after it. -/
def linesOfPieces : List (List Char) → List (List Char)
  | [] => []
  | [last] => if last.isEmpty then [] else [last]
  | line :: next :: rest => dropReturn line :: linesOfPieces (next :: rest)

def lines (s : List Char) : List (List Char) := linesOfPieces (s.splitOn '\n')

/-- Puts a line feed between consecutive lines. -/
def joinLines (ls : List (List Char)) : List Char := ['\n'].intercalate ls

end ApiHandbook.Text
