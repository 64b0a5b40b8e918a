import ApiHandbook.Failure
import ApiHandbook.Code.Source
import ApiHandbook.Code.Survey
import ApiHandbook.Text.Case
import ApiHandbook.Text.Lines

/-! The source files of a web project, and what single expressions, paths and attributes in them say. -/
namespace ApiHandbook.Project
open Code

/-- A source file that was read. -/
structure SourceFile where
  path : String
  /-- The module that the file declares; the roots of a crate declare none. -/
  module : Option String
  source : String
  items : List Item

/-- Reads a source file. -/
def SourceFile.ofText (path : String) (module : Option String) (source : String) : Except Failure SourceFile :=
  match items? source.toList with
  | some items => .ok ⟨path, module, source, items⟩
  | none => .error (.unparsable path)

/-- The lines from `first` to `last`, counted from 1; the first of them even if the range is empty. -/
def linesBetween (first last : Nat) (s : List Char) : List Char :=
  Text.joinLines (((Text.lines s).drop (first - 1)).take (last - first + 1))

def SourceFile.lines (f : SourceFile) (first last : Nat) : String :=
  Text.mapped (linesBetween first last) f.source

/-- The verbs that routing functions and methods are named after. -/
def verbs : List String := ["GET", "POST", "PUT", "DELETE", "PATCH", "HEAD", "OPTIONS"]

/-- The verb of a routing function or method, in capitals. -/
def verb? (name : String) : Option String :=
  let upper := Text.mapped Text.asciiUpper name
  if verbs.contains upper then some upper else none

/-- The documentation that attributes hold: a line for each, without the blank in front of it. -/
def docComment? (attributes : List Attribute) : Option String :=
  let docLines := attributes.filterMap fun a =>
    match a.value with
    | .text value => if a.path.word? = some "doc" then some value.toList else none
    | _ => none
  let docLines := docLines.map fun line => if line.head? = some ' ' then line.drop 1 else line
  if docLines.isEmpty then none else some (String.ofList (Text.joinLines docLines))

/-- The text of a string literal, seen through references. -/
def textOf? : Expr → Option String
  | .literal (.text value) => some value
  | .reference inner => textOf? inner
  | _ => none

/-- A rule under a mount point, with exactly one slash between them. -/
def joinRules (mount rule : String) : String :=
  if mount.isEmpty then rule
  else
    let mount := Text.dropEndWhile (· == '/') mount.toList
    let rule := rule.toList.dropWhile (· == '/')
    String.ofList (if rule.isEmpty then mount else mount ++ '/' :: rule)

/-- A function by its name and the module that qualifies it. -/
structure FunctionName where
  module : Option String
  name : String
  deriving DecidableEq, Repr

/-- The function that a path names; the words for places in the crate are no modules. -/
def FunctionName.ofPath? (p : Path) : Option FunctionName :=
  p.last?.map fun name =>
    ⟨(p.names.dropLast.reverse.find? fun s => !(["crate", "self", "super"].contains s)), name⟩

/-- What a registration points at. -/
inductive Target where
  | function (name : String)
  | resource (name : String)
  deriving DecidableEq, Repr

/-- A registration of a URL found in a source file. -/
structure FoundRoute where
  path : String
  /-- The verbs, in capitals; a resource brings its own. -/
  methods : List String
  target : Target
  /-- The module that qualifies the handler, or else the module of the file. -/
  module : Option String
  deriving DecidableEq, Repr

end ApiHandbook.Project
