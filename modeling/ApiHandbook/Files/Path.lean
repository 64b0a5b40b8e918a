/-! Paths of files as they are spelled, and the names in them. -/
namespace ApiHandbook.Files

/-- A path: a sequence of names, in which `..` goes up. A relative path may start with `.`. -/
structure Path where
  absolute : Bool
  steps : List (List Char)
  deriving DecidableEq, Repr

namespace Path

/-- The path that a text spells; repeated slashes and later dots add nothing. -/
def ofText (s : List Char) : Path :=
  let pieces := s.splitOn '/'
  let absolute := s.head? = some '/'
  let keeps := fun piece : List Char => !piece.isEmpty && piece != ['.']
  match pieces with
  | [] => ⟨absolute, []⟩
  | first :: rest => ⟨absolute, (if first = ['.'] || keeps first then [first] else []) ++ rest.filter keeps⟩

/-- The path with every name that a text spells. -/
def spelled (s : List Char) : Path := ⟨s.head? = some '/', (s.splitOn '/').filter (!·.isEmpty)⟩

/-- The path as it is walked: a slash at the end asks for a directory, as a last step `.` does. -/
def walked (s : List Char) : Path :=
  let p := spelled s
  if s.getLast? = some '/' then { p with steps := p.steps ++ [['.']] } else p

def ofString (s : String) : Path := walked s.toList

/-- The name of what the path leads to, unless it ends by going up or staying. -/
def fileName? (p : Path) : Option (List Char) :=
  p.steps.getLast?.filter fun name => name != ['.'] && name != ['.', '.']

/-- The path to the directory that holds what the path leads to; a path without steps has none. -/
def parent? (p : Path) : Option Path :=
  if p.steps.isEmpty then none else some { p with steps := p.steps.dropLast }

/-- The path to the directory that holds what the path leads to, the working directory where the path names none. -/
def holder (p : Path) : Path :=
  match p.parent? with
  | some ⟨false, []⟩ => ⟨false, [['.']]⟩
  | some parent => parent
  | none => ⟨false, [['.']]⟩

end Path

/-- Splits a file name at its last dot; a dot in front starts the name rather than an extension. -/
def splitName (name : List Char) : List Char × Option (List Char) :=
  let extension := (name.reverse.takeWhile (· != '.')).reverse
  let before := name.take (name.length - extension.length - 1)
  if name.contains '.' && !before.isEmpty && name != ['.', '.'] then (before, some extension) else (name, none)

/-- The path of an entry inside a directory. -/
def entryPath (directory name : List Char) : List Char :=
  if directory.isEmpty || directory.getLast? = some '/' then directory ++ name else directory ++ '/' :: name

/-- The module that a source file declares: named like the file, or like the directory for a file `mod`; the roots of a
crate declare none. -/
def moduleName? (path : List Char) : Option (List Char) := do
  let p := Path.ofText path
  let stem := (splitName (← p.fileName?)).1
  if stem = "main".toList ∨ stem = "lib".toList then none
  else if stem = "mod".toList then p.parent?.bind Path.fileName?
  else some stem

end ApiHandbook.Files
