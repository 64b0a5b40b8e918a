import ApiHandbook.Files.Disk

/-! Trees that are put together node by node, and the nodes that have to be put in a tree so that it becomes another
one. -/
namespace ApiHandbook.Files

/-- The tree with a node put at a location if nothing stands there yet. -/
def Node.insertMissing (root : Node) (location : Location) (new : Node) : Node :=
  if (root.find? location).isSome then root else root.insert location new

/-- A node that is put at a location. -/
structure Change where
  location : Location
  node : Node

/-- A change in an entry of a directory, as a change in the directory. -/
def Change.under (name : String) (c : Change) : Change := { c with location := name :: c.location }

/-- The tree after some changes. -/
def Node.after (root : Node) (changes : List Change) : Node :=
  changes.foldl (fun root c => root.insert c.location c.node) root

mutual

/-- The changes by which a node comes to stand where the first one stands, if any. A directory is put as a whole only
where one of its entries has to go. -/
def changes : Option Node → Node → List Change
  | some (.file old), .file new => if old.data = new.data then [] else [⟨[], .file new⟩]
  | some (.link old), .link new => if old = new then [] else [⟨[], .link new⟩]
  | some (.directory old), .directory new =>
    if old.all fun entry => (new.lookup entry.1).isSome then changesIn old new else [⟨[], .directory new⟩]
  | _, new => [⟨[], new⟩]

/-- The changes by which the entries of a directory become others. -/
def changesIn (old : List (String × Node)) : List (String × Node) → List Change
  | [] => []
  | (name, node) :: rest => (changes (old.lookup name) node).map (Change.under name) ++ changesIn old rest

end

end ApiHandbook.Files
