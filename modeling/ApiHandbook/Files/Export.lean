import ApiHandbook.Files.Disk

/-! Exports: files, and directories that hold a page, written as a whole and over nothing unless that is forced. -/
namespace ApiHandbook.Files

/-- Work on a disk; what it did before a failure stays done. -/
abbrev Action := EStateM Failure Disk

namespace Disk

/-- Puts a file at a path. With `force` it takes the place of a file or a link that stands there. -/
def placeFile (disk : Disk) (path : String) (content : ByteArray) (force : Bool) : Except FileFault Disk := do
  let p := Path.spelled path.toList
  let asksDirectory := path.toList.getLast? = some '/'
  match ← disk.place false p with
  | .free directory name =>
    if asksDirectory then .error .notADirectory else .ok (disk.insert (directory ++ [name]) (.file content))
  | .taken location =>
    if !force then .error .alreadyExists
    else if p.fileName?.isNone then .error .resourceBusy
    else if asksDirectory then .error .notADirectory
    else match disk.root.find? location with
      | some (.directory _) => .error .isADirectory
      | _ => .ok (disk.insert location (.file content))

/-- Puts a directory at a location, in place of what stands there; a link that leads nowhere cannot be replaced. -/
def placeDirectory (disk : Disk) (target : Location) (entries : List (String × Node)) : Except FileFault Disk := do
  let p : Path := ⟨true, target.map String.toList⟩
  match ← disk.place false p with
  | .free _ _ => .ok (disk.insert target (.directory entries))
  | .taken _ => if disk.exists? p then .ok (disk.insert target (.directory entries)) else .error .notADirectory

end Disk

/-- A change that has no effect when it fails. -/
def change (f : Disk → Except FileFault Disk) : Action Unit := fun disk =>
  match f disk with
  | .ok disk => .ok () disk
  | .error fault => .error (.file fault) disk

/-- Makes a directory; one that is there already is as good. -/
def ensureDirectory (p : Path) : Action Unit :=
  change fun disk => match disk.makeDirectory p with
    | .error fault => if disk.isDirectory p then .ok disk else .error fault
    | made => made

/-- Makes a directory, given its steps from the last, and those above it that are missing. -/
def ensureDirectoriesFrom (absolute : Bool) : List (List Char) → Action Unit
  | [] => pure ()
  | step :: above => do
    let p : Path := ⟨absolute, (step :: above).reverse⟩
    match (← get).makeDirectory p with
    | .error .notFound => do
      ensureDirectoriesFrom absolute above
      ensureDirectory p
    | _ => ensureDirectory p

/-- Makes a directory and those above it that are missing. -/
def ensureDirectories (p : Path) : Action Unit := ensureDirectoriesFrom p.absolute p.steps.reverse

/-- Writes a file. Without `force` nothing may stand at its path. -/
def writeNewFile (path content : String) (force : Bool) : Action Unit := do
  if (← get).exists? (Path.ofString path) && !force then throw (.targetExists path)
  ensureDirectories (Path.ofText path.toList).holder
  match (← get).placeFile path content.toUTF8 force with
  | .ok disk => set disk
  | .error .alreadyExists => throw (.targetExists path)
  | .error fault => throw (.file fault)

/-- Writes a document and returns its path. -/
def exportDocument (path document : String) (force : Bool) : Action String := do
  writeNewFile path document force
  pure path

/-- Where a directory is to stand: where its path leads or, if that is nowhere, under its name in the directory above,
which is made. -/
def destination (path : String) : Action Location := do
  match (← get).locate (Path.ofString path) with
  | .ok location => pure location
  | .error _ =>
    let p := Path.ofText path.toList
    match p.fileName? with
    | none => throw (.unsafeTarget path)
    | some name =>
      ensureDirectories p.holder
      match (← get).locate p.holder with
      | .ok directory => pure (directory ++ [String.ofList name])
      | .error fault => throw (.file fault)

/-- The file that the page is written to. -/
def pageName : String := "index.html"

/-- Writes a directory that holds nothing but the page, and returns the path of the page. Without `force` the path may
lead nowhere yet; a directory that holds the working directory is never replaced. -/
def exportPage (path page : String) (force : Bool) : Action String := do
  if (← get).exists? (Path.ofString path) && !force then throw (.targetExists path)
  let target ← destination path
  if target.isPrefixOf (← get).here then throw (.unsafeTarget path)
  change (·.placeDirectory target [(pageName, .file page.toUTF8)])
  pure (String.ofList (entryPath path.toList pageName.toList))

end ApiHandbook.Files
