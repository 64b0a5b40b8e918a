import ApiHandbook.Entries
import ApiHandbook.Failure
import ApiHandbook.Files.Path

/-! A tree of directories, files and symbolic links, and the places that paths lead to in it. -/
namespace ApiHandbook.Files

/-- What stands under a name in a directory. -/
inductive Node where
  | file (content : ByteArray)
  | link (target : String)
  | directory (entries : List (String × Node))

/-- The names that lead from the root to a node, with no link among them but the node itself. -/
abbrev Location := List String

namespace Node

/-- The node at a location below this one. -/
def find? : Node → Location → Option Node
  | node, [] => some node
  | .directory entries, name :: rest => (entries.lookup name).bind fun node => node.find? rest
  | _, _ :: _ => none

/-- The tree with a node put at a location, in place of what stands there. -/
def insert : Node → Location → Node → Node
  | _, [], new => new
  | .directory entries, name :: rest, new =>
    .directory (put name (((entries.lookup name).getD (.directory [])).insert rest new) entries)
  | node, _ :: _, _ => node

end Node

/-- What the entries of a directory give, in the order of their names. -/
def inOrder {α : Type} (entries : List (String × List α)) : List α :=
  (entries.mergeSort fun a b => a.1 ≤ b.1).flatMap Prod.snd

/-- A tree of files and the directory that relative paths start from. Of a file system's limits it has those of a name's
length and of the links that a walk follows, but none of the length of a path. It knows no permissions: everything can be
read and changed, and no removal fails. -/
structure Disk where
  root : Node
  /-- The working directory. -/
  here : Location

/-- Where a path leads: to a node, or to a free name in a directory. -/
inductive Place where
  | taken (location : Location)
  | free (directory : Location) (name : String)
  deriving DecidableEq, Repr

/-- The directory that a path starts from. -/
def startOf (here : Location) (p : Path) : Location := if p.absolute then [] else here

/-- Walks the steps of a path. A link is handed to `follow` with the directory it stands in and the steps behind it;
`followLast` says whether that holds for a link in the last step too. -/
def walkSteps (root : Node) (followLast : Bool)
    (follow : Location → List Char → List (List Char) → Except FileFault Place) :
    Location → List (List Char) → Except FileFault Place
  | here, [] => .ok (.taken here)
  | here, step :: rest =>
    let name := String.ofList step
    match root.find? here with
    | some (.directory entries) =>
      if name = "." then walkSteps root followLast follow here rest
      else if name = ".." then walkSteps root followLast follow here.dropLast rest
      else if 255 < name.utf8ByteSize then .error .invalidFilename
      else match entries.lookup name with
        | none => if rest.isEmpty then .ok (.free here name) else .error .notFound
        | some (.link target) =>
          if rest.isEmpty && !followLast then .ok (.taken (here ++ [name]))
          else follow here target.toList rest
        | some _ => walkSteps root followLast follow (here ++ [name]) rest
    | _ => .error .notADirectory

/-- Walks the steps of a path through at most the given number of links. However many steps there are, the path is not
too long. -/
def walk (root : Node) (followLast : Bool) : Nat → Location → List (List Char) → Except FileFault Place
  | 0 => walkSteps root followLast fun _ _ _ => .error .tooManyLinks
  | links + 1 => walkSteps root followLast fun here target rest =>
      let p := Path.walked target
      walk root followLast links (startOf here p) (p.steps ++ rest)

/-- The number of links that a walk follows. -/
def linkLimit : Nat := 40

namespace Disk

/-- Where a path leads. -/
def place (disk : Disk) (followLast : Bool) (p : Path) : Except FileFault Place :=
  if p.steps.any (·.contains '\x00') then .error .invalidInput
  else if !p.absolute && p.steps.isEmpty then .error .notFound
  else walk disk.root followLast linkLimit (startOf disk.here p) p.steps

/-- The location of what a path leads to through all links. -/
def locate (disk : Disk) (p : Path) : Except FileFault Location :=
  match disk.place true p with
  | .ok (.taken location) => .ok location
  | .ok (.free _ _) => .error .notFound
  | .error fault => .error fault

/-- What a path leads to through all links. -/
def find? (disk : Disk) (p : Path) : Option Node :=
  match disk.locate p with
  | .ok location => disk.root.find? location
  | .error _ => none

def exists? (disk : Disk) (p : Path) : Bool := (disk.find? p).isSome

def isDirectory (disk : Disk) (p : Path) : Bool :=
  match disk.find? p with
  | some (.directory _) => true
  | _ => false

/-- The text of a file. -/
def read (disk : Disk) (p : Path) : Except FileFault String := do
  match disk.root.find? (← disk.locate p) with
  | some (.file content) =>
    match String.fromUTF8? content with
    | some text => .ok text
    | none => .error .invalidData
  | some (.directory _) => .error .isADirectory
  | _ => .error .notFound

/-- Puts a node at a location. -/
def insert (disk : Disk) (location : Location) (new : Node) : Disk :=
  { disk with root := disk.root.insert location new }

/-- Makes an empty directory where nothing stands. -/
def makeDirectory (disk : Disk) (p : Path) : Except FileFault Disk := do
  match ← disk.place false p with
  | .taken _ => .error .alreadyExists
  | .free directory name => .ok (disk.insert (directory ++ [name]) (.directory []))

end Disk
end ApiHandbook.Files
