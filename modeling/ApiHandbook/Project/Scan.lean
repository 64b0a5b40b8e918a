import ApiHandbook.Files.Disk
import ApiHandbook.Project.Source

/-! The source files below a directory. -/
namespace ApiHandbook.Project
open Files

/-- Whether a walk through a project passes an entry over: what is hidden, and what builds leave behind. -/
def isPassedOver (name : String) : Bool := name.toList.head? = some '.' || name == "target"

/-- Whether a name has the extension of source files. -/
def isSourceName (name : String) : Bool := (splitName name.toList).2 = some "rs".toList

/-- Whether a path leads to a file through all links. -/
def leadsToFile (disk : Disk) (path : List Char) : Bool :=
  match disk.find? (Path.walked path) with
  | some (.file _) => true
  | _ => false

mutual

/-- The paths of the source files at or below an entry of a directory; directories are not entered through links. -/
def sourcesAt (disk : Disk) (name : String) (path : List Char) : Node → List (List Char)
  | .directory entries => inOrder (sourcesIn disk path entries)
  | _ => if isSourceName name && leadsToFile disk path then [path] else []

/-- The paths of the source files at or below each entry of a directory. -/
def sourcesIn (disk : Disk) (path : List Char) : List (String × Node) → List (String × List (List Char))
  | [] => []
  | (name, node) :: rest =>
    (name, if isPassedOver name then [] else sourcesAt disk name (entryPath path name.toList) node) ::
      sourcesIn disk path rest

end

/-- The paths of the source files below a directory: depth first, and by name in each directory. -/
def scan (disk : Disk) (path : String) : Except Failure (List String) :=
  match disk.locate (Path.ofString path) with
  | .error _ => .error (.settings (.notADirectory path))
  | .ok location =>
    match disk.root.find? location with
    | some (.directory entries) => .ok ((inOrder (sourcesIn disk path.toList entries)).map String.ofList)
    | _ => .error (.settings (.notADirectory path))

/-- The module that the file at a path declares. -/
def moduleOf? (path : String) : Option String := (moduleName? path.toList).map String.ofList

/-- Reads the source file at a path. -/
def readSource (disk : Disk) (path : String) : Except Failure SourceFile :=
  match disk.read (Path.ofString path) with
  | .error fault => .error (.file fault)
  | .ok text => SourceFile.ofText path (moduleOf? path) text

end ApiHandbook.Project
