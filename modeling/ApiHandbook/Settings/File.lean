import ApiHandbook.Files.Disk
import ApiHandbook.Settings.Document

/-! Settings kept in a file, in the format that the name of the file tells. -/
namespace ApiHandbook.Settings

/-- The format of a file, by its extension in any case. -/
def formatOf? (path : String) : Option Format := do
  let extension ← (Files.splitName (← (Files.Path.ofText path.toList).fileName?)).2
  let extension := String.ofList (Text.asciiLower extension)
  if extension = "json" then some .json
  else if extension = "yaml" ∨ extension = "yml" then some .yaml
  else none

/-- Settings from the text of a file. -/
def ofFileText (path text : String) : Except SettingsFault Settings :=
  match formatOf? path with
  | some format => ofText format text
  | none => .error (.unsupportedFile path)

/-- Reads settings from a file. -/
def ofFile (disk : Files.Disk) (path : String) : Except Failure Settings :=
  match disk.read (Files.Path.ofString path) with
  | .error fault => .error (.file fault)
  | .ok text =>
    match ofFileText path text with
    | .error fault => .error (.settings fault)
    | .ok settings => .ok settings

end ApiHandbook.Settings
