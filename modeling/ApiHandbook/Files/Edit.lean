import ApiHandbook.Files.Export

/-! Plain work on a disk: writing through links, making links, going elsewhere, and listing. -/
namespace ApiHandbook.Files

/-- Writes a file through links, in a directory that is made if it is missing. -/
def writeFile (path : String) (content : ByteArray) : Action Unit := do
  ensureDirectories (Path.ofText path.toList).holder
  change fun disk => do
    let asksDirectory := path.toList.getLast? = some '/'
    let place ← disk.place (!asksDirectory) (Path.spelled path.toList)
    if asksDirectory then throw .isADirectory
    match place with
    | .free directory name => .ok (disk.insert (directory ++ [name]) (.file content))
    | .taken location =>
      match disk.root.find? location with
      | some (.file _) => .ok (disk.insert location (.file content))
      | _ => .error .isADirectory

/-- Makes a link where nothing stands. -/
def makeLink (target path : String) : Action Unit :=
  change fun disk => do
    match ← disk.place false (Path.spelled path.toList) with
    | .free directory name =>
      if path.toList.getLast? = some '/' then .error .notFound
      else .ok (disk.insert (directory ++ [name]) (.link target))
    | .taken _ => .error .alreadyExists

/-- Makes a directory the working directory. -/
def enter (path : String) : Action Unit :=
  change fun disk => do
    let location ← disk.locate (Path.ofString path)
    match disk.root.find? location with
    | some (.directory _) => .ok { disk with here := location }
    | _ => .error .notADirectory

mutual

/-- A node and what stands below it, each with its path. -/
def listingAt (path : List Char) : Node → List (String × Node)
  | .directory entries => (String.ofList path, .directory entries) :: inOrder (listingIn path entries)
  | node => [(String.ofList path, node)]

def listingIn (path : List Char) : List (String × Node) → List (String × List (String × Node))
  | [] => []
  | (name, node) :: rest => (name, listingAt (entryPath path name.toList) node) :: listingIn path rest

end

/-- What stands below the working directory: depth first, and by name in each directory. -/
def Disk.listing (disk : Disk) : List (String × Node) :=
  match disk.root.find? disk.here with
  | some (.directory entries) => inOrder (listingIn [] entries)
  | _ => []

/-- An empty disk with the working directory at a location. -/
def Disk.emptyAt (location : Location) : Disk :=
  ⟨(Node.directory []).insert location (.directory []), location⟩

end ApiHandbook.Files
