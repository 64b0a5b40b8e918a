import ApiHandbook.Files.Export

/-! Exports step by step. What is written stands under a temporary name beside its place until it is moved there, and
what it replaces is set aside before that; nothing of either is left behind. -/
namespace ApiHandbook.Files

namespace Node

/-- The tree with the entries of a directory changed. -/
def edit (change : List (String × Node) → List (String × Node)) : Node → Location → Node
  | .directory entries, [] => .directory (change entries)
  | .directory entries, name :: rest =>
    match entries.lookup name with
    | some node => .directory (put name (node.edit change rest) entries)
    | none => .directory entries
  | node, _ => node

/-- The tree without what stands at a location. The root stays. -/
def remove (root : Node) (location : Location) : Node :=
  match location.getLast? with
  | some name => root.edit (·.filter (·.1 != name)) location.dropLast
  | none => root

end Node

namespace Disk

def remove (disk : Disk) (location : Location) : Disk := { disk with root := disk.root.remove location }

/-- Moves a file to a path that does not lead to it. -/
def moveFile (disk : Disk) (source : Location) (path : String) (force : Bool) : Except FileFault Disk :=
  match disk.root.find? source with
  | some (.file content) => (disk.placeFile path content force).map (·.remove source)
  | _ => .error .notFound

/-- Moves what stands at a location to one where nothing stands. -/
def move (disk : Disk) (source target : Location) : Except FileFault Disk := do
  match ← disk.place false ⟨true, target.map String.toList⟩ with
  | .taken _ => .error .notADirectory
  | .free _ _ =>
    match disk.root.find? source with
    | some node => .ok ((disk.insert target node).remove source)
    | none => .error .notFound

end Disk

/-- How a file that cannot be put at its path is reported. -/
def placingFailure (path : String) (fault : FileFault) : Failure :=
  if fault = .alreadyExists then .targetExists path else .file fault

/-- Writes a file under a temporary name in the directory of its path, and moves it from there. -/
def writeInSteps (temporary path content : String) (force : Bool) : Action Unit := do
  if (← get).exists? (Path.ofString path) && !force then throw (.targetExists path)
  let holder := (Path.ofText path.toList).holder
  ensureDirectories holder
  match (← get).locate holder with
  | .error fault => throw (.file fault)
  | .ok directory =>
    let source := directory ++ [temporary]
    modify (·.insert source (.file ⟨#[]⟩))
    modify (·.insert source (.file content.toUTF8))
    match (← get).moveFile source path force with
    | .ok disk => set disk
    | .error fault =>
      modify (·.remove source)
      throw (placingFailure path fault)

/-- Puts a directory that is complete at its place. What stands there is set aside first, and put back if the directory
cannot take its place. -/
def moveInPlace (staged aside target : Location) : Action Unit := fun disk =>
  let previous := aside ++ ["previous"]
  if disk.exists? ⟨true, target.map String.toList⟩ then
    let ready := disk.insert aside (.directory [])
    match ready.move target previous with
    | .error fault => .error (.file fault) ((ready.remove aside).remove staged)
    | .ok cleared =>
      match cleared.move staged target with
      | .ok disk => .ok () (disk.remove aside)
      | .error fault =>
        let unstaged := cleared.remove staged
        match unstaged.move previous target with
        | .ok disk => .error (.file fault) (disk.remove aside)
        | .error _ => .error (.file fault) unstaged
  else
    match disk.move staged target with
    | .ok disk => .ok () disk
    | .error fault => .error (.file fault) (disk.remove staged)

/-- Assembles the directory of a page under a temporary name beside its place, and moves it from there. -/
def exportInSteps (staging backup path page : String) (force : Bool) : Action String := do
  if (← get).exists? (Path.ofString path) && !force then throw (.targetExists path)
  let target ← destination path
  if target.isPrefixOf (← get).here then throw (.unsafeTarget path)
  let staged := target.dropLast ++ [staging]
  modify (·.insert staged (.directory []))
  modify (·.insert (staged ++ [pageName]) (.file page.toUTF8))
  moveInPlace staged (target.dropLast ++ [backup]) target
  pure (String.ofList (entryPath path.toList pageName.toList))

end ApiHandbook.Files
