import ApiHandbook.Command.Run
import ApiHandbook.Files.Difference

/-! The program. What a command looks at is copied from the real files, the command is run on the copy, and what it has
changed there is written back. -/
namespace ApiHandbook
open Command Files Project

/-- What is printed for a command line that asks for no document. -/
def lineMessage : LineFault → String
  | .helpWanted | .nothingGiven => "Usage: apihandbook [OPTIONS] <html|markdown> [-o OUTPUT] [-f]"
  | .versionWanted => "apihandbook 1.0.0"
  | .missingCommand => "error: a command is required: html or markdown"
  | .unknownCommand => "error: unrecognized command"
  | .unknownOption => "error: unexpected argument"
  | .repeatedOption => "error: an option is given twice"
  | .invalidValue => "error: invalid value for an option"
  | .unexpectedValue => "error: unexpected value for an option"

/-- What is printed for a command that wrote no document. -/
def runMessage (fault : RunFault) : String :=
  "Error: " ++ fault.message ++ match fault with
    | .badSettings _ cause | .badProject _ cause => "\n\nCaused by:\n    " ++ cause.message
    | _ => ""

/-- A path as the functions on real files take it. -/
def realPath (path : String) := (⟨path, ""⟩ : IO.FS.DirEntry).root

/-- The path to a location. -/
def pathTo (location : Location) : String := "/" ++ "/".intercalate location

/-- The location to which a path without links leads from the root. -/
def locationOf (path : String) : Location := (Path.spelled path.toList).steps.map String.ofList

/-- What stands at a location itself, not where a link there leads. -/
def typeAt (location : Location) : IO (Option IO.FS.FileType) := do
  match ← (realPath (pathTo location)).symlinkMetadata.toBaseIO with
  | .ok metadata => return some metadata.type
  | .error _ => return none

def isRealDirectory (location : Location) : IO Bool := return (← typeAt location) == some .dir

/-- The names in a directory; one that cannot be read shows none. -/
def namesIn (location : Location) : IO (List String) := do
  match ← (realPath (pathTo location)).readDir.toBaseIO with
  | .ok entries => return entries.toList.map (·.fileName)
  | .error _ => return []

/-! ### Copying -/

/-- What has been copied so far. -/
abbrev Copying := StateT Node IO

/-- What cannot be read holds no text. -/
def unreadable : ByteArray := ⟨#[0xff]⟩

/-- A link that leads nowhere leads to a name that no file has. -/
def nowhere : String := "\x00"

/-- What stands at a path through all links, a directory without its entries. -/
def nodeAt (path : String) : IO Node := do
  match (← (realPath path).metadata).type with
  | .dir => return .directory []
  | .file =>
    match ← (IO.FS.readBinFile path).toBaseIO with
    | .ok content => return .file content
    | .error _ => return .file unreadable
  | _ => return .file unreadable

/-- Puts a node where nothing has been copied to yet. -/
def keep (location : Location) (node : Node) : Copying Unit := modify (·.insertMissing location node)

/-- Copies what stands at a location, if anything, and what it leads to if it is a link; returns where it leads. -/
def copy (location : Location) : Copying Location := do
  let path := pathTo location
  match ← typeAt location with
  | none => return location
  | some .symlink =>
    match ← (IO.FS.realPath path).toBaseIO with
    | .error _ =>
      keep location (.link nowhere)
      return location
    | .ok target =>
      keep location (.link target.toString)
      keep (locationOf target.toString) (← nodeAt target.toString)
      return locationOf target.toString
  | some _ =>
    keep location (← nodeAt path)
    return location

/-- Copies what stands on the way of a path, also behind a directory that is missing and may be made. -/
def copySteps : Location → List (List Char) → Copying Location
  | here, [] => return here
  | here, step :: rest => do
    if step = ['.'] then copySteps here rest
    else if step = ['.', '.'] then copySteps here.dropLast rest
    else copySteps (← copy (here ++ [String.ofList step])) rest

def copyPath (here : Location) (path : String) : Copying Location :=
  let p := Path.ofString path
  copySteps (startOf here p) p.steps

/-- Copies what a scan of a directory looks at. -/
partial def copySources (location : Location) : Copying Unit := do
  for name in ← namesIn location do
    unless isPassedOver name do
      let entry := location ++ [name]
      if ← isRealDirectory entry then
        keep entry (.directory [])
        copySources entry
      else if isSourceName name then discard (copy entry)

/-- Copies that there are entries in a directory, which is all that is looked at when it is replaced. -/
def copyEntries (location : Location) : Copying Unit := do
  for name in ← namesIn location do
    let entry := location ++ [name]
    keep entry (if ← isRealDirectory entry then .directory [] else .file unreadable)

/-- The real files, as far as a command looks at them. -/
def copyFor (line : Line) : IO Disk := do
  let here := locationOf (← IO.currentDir).toString
  let copying : Copying Unit := do
    keep here (.directory [])
    let project ← copyPath here line.project
    if ← isRealDirectory project then copySources project
    if let some path := line.config then discard (copyPath here path)
    let output ← copyPath here line.output
    if ← isRealDirectory output then copyEntries output
  let ((), root) ← copying.run (.directory [])
  return ⟨root, here⟩

/-! ### Writing back -/

mutual

/-- Writes a node at a path where nothing stands. -/
def write (path : String) : Node → IO Unit
  | .file content => IO.FS.writeBinFile path content
  | .link _ => throw (.userError ("links are not written: " ++ path))
  | .directory entries => do
    IO.FS.createDir path
    writeEntries path entries

def writeEntries (path : String) : List (String × Node) → IO Unit
  | [] => return
  | (name, node) :: rest => do
    write (path ++ "/" ++ name) node
    writeEntries path rest

end

/-- Removes what stands at a location, if anything. -/
def remove (location : Location) : IO Unit := do
  match ← typeAt location with
  | none => return
  | some .dir => IO.FS.removeDirAll (pathTo location)
  | some _ => IO.FS.removeFile (pathTo location)

/-- Moves what was staged to its place. Only a file takes the place of a file at once; whatever else stands there is set
aside, and put back if the move fails. -/
def moveIn (staged aside target : Location) : IO Unit := do
  let replaces := (← typeAt target).isSome
  if replaces && ((← isRealDirectory staged) || (← isRealDirectory target)) then
    IO.FS.rename (pathTo target) (pathTo aside)
    try IO.FS.rename (pathTo staged) (pathTo target)
    catch failure =>
      IO.FS.rename (pathTo aside) (pathTo target)
      throw failure
    remove aside
  else IO.FS.rename (pathTo staged) (pathTo target)

/-- Puts a node at its place among the real files. It is written beside its place and moved there, so that its place
never holds half of it. -/
def writeChange (change : Change) : IO Unit := do
  let number := toString (← IO.rand 0 999999999)
  let beside := fun name => change.location.dropLast ++ [".apihandbook-" ++ name ++ "-" ++ number]
  let staged := beside "new"
  try
    write (pathTo staged) change.node
    moveIn staged (beside "old") change.location
  catch failure =>
    remove staged
    throw failure

def writeBack (before after : Disk) : IO Unit := (changes (some before.root) after.root).forM writeChange

/-- Runs a command on a copy of the real files and writes back what it has changed, also when it fails in the end. -/
def runLine (line : Line) : IO UInt32 := do
  let disk ← copyFor line
  match line.run disk with
  | .ok message changed =>
    writeBack disk changed
    IO.print message
    return 0
  | .error fault changed =>
    writeBack disk changed
    IO.eprintln (runMessage fault)
    return 1

end ApiHandbook

def main (arguments : List String) : IO UInt32 := do
  match ApiHandbook.Command.Line.ofWords arguments with
  | .error fault =>
    IO.eprintln (ApiHandbook.lineMessage fault)
    return if fault = .helpWanted ∨ fault = .versionWanted then 0 else 2
  | .ok line =>
    match ← (ApiHandbook.runLine line).toBaseIO with
    | .ok code => return code
    | .error failure =>
      IO.eprintln ("Error: " ++ toString failure)
      return 1
