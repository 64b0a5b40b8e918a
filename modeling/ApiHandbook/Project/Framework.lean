import ApiHandbook.Project.Source

/-! The web frameworks whose registrations are understood, and which of them a project imports. -/
namespace ApiHandbook.Project
open Code

inductive Framework where
  | axum
  | actixWeb
  deriving DecidableEq, Repr

namespace Framework

def name : Framework → String
  | .axum => "axum"
  | .actixWeb => "actix-web"

def ofName? (word : String) : Option Framework := [axum, actixWeb].find? fun framework => framework.name == word

/-- The framework of a crate. -/
def ofCrate? (crate : String) : Option Framework :=
  if crate = "axum" then some .axum else if crate = "actix_web" then some .actixWeb else none

/-- The crates that a file imports from. -/
def importedCrates : Survey Unit String := { imports := fun _ roots => roots }

/-- The frameworks that a project imports, in the order in which they are first seen. -/
def detect (files : List SourceFile) : List Framework :=
  let crates := files.flatMap fun f => importedCrates.items () f.items
  (crates.filterMap ofCrate?).foldl (fun seen f => if seen.contains f then seen else seen ++ [f]) []

end Framework
end ApiHandbook.Project
