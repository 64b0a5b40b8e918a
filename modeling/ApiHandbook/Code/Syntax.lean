import ApiHandbook.Code.Tree

/-! The parts of a Rust text that registrations and documentation are read from. Constructs of no interest keep only the
expressions and items inside them, in the order of the text. -/
namespace ApiHandbook.Code

structure Segment where
  name : String
  /-- Whether the segment has no arguments. -/
  bare : Bool := true
  deriving DecidableEq, Repr

structure Path where
  /-- Whether the path starts with two colons. -/
  leading : Bool := false
  segments : List Segment
  deriving DecidableEq, Repr

namespace Path

/-- The name of a path that is a plain identifier. -/
def word? (p : Path) : Option String :=
  match p.leading, p.segments with
  | false, [s] => if s.bare then some s.name else none
  | _, _ => none

def names (p : Path) : List String := p.segments.map Segment.name

def last? (p : Path) : Option String := p.names.getLast?

/-- Whether no segment has arguments. -/
def isBare (p : Path) : Bool := p.segments.all Segment.bare

end Path

/-- An identifier without the mark of raw identifiers. -/
def plainName (name : String) : String :=
  if ['r', '#'].isPrefixOf name.toList then String.ofList (name.toList.drop 2) else name

/-- What follows the path of an attribute. -/
inductive AttributeValue where
  | none
  /-- A string after an equals sign. -/
  | text (value : String)
  /-- Any other value after an equals sign. -/
  | value
  /-- What stands between delimiters. -/
  | arguments (inner : List Tree)
  deriving Repr

structure Attribute where
  path : Path
  value : AttributeValue
  deriving Repr

/-- What is known of a definition without its inside. -/
structure Heading where
  name : String
  attributes : List Attribute := []
  /-- The line of its first token, attributes included. -/
  first : Nat := 0
  /-- The line of its last token. -/
  last : Nat := 0
  deriving Repr

mutual

inductive Expr where
  | literal (value : Literal)
  /-- A path, qualified when it starts with a type in angle brackets. -/
  | path (qualified : Bool) (path : Path) (inner : List Expr)
  | negation (operand : Expr)
  | assignment (target value : Expr)
  | array (items : List Expr)
  | tuple (items : List Expr)
  | parenthesized (inner : Expr)
  | reference (inner : Expr)
  | call (function : Expr) (arguments : List Expr)
  | methodCall (receiver : Expr) (method : String) (arguments : List Expr)
  /-- A struct literal with the expressions of its fields. -/
  | construction (path : Path) (fields : List Expr)
  /-- The macro call `vec!`, whose items may be unreadable; nothing is run inside a macro call. -/
  | vector (readable : Bool) (items : List Expr)
  /-- An item among the statements of a block. -/
  | item (item : Item)
  | other (inner : List Expr)

inductive Item where
  | function (heading : Heading) (body : List Expr)
  /-- A function inside an implementation. -/
  | method (heading : Heading) (body : List Expr)
  | struct (heading : Heading) (inner : List Expr)
  /-- An implementation with the last names of the trait and of the type it is for, where these are paths. -/
  | implementation (traitName selfName : Option String) (inner : List Expr) (members : List Item)
  | module (name : String) (inline : Bool) (items : List Item)
  /-- An import, with the first names of the imported paths. -/
  | imports (roots : List String)
  | other (inner : List Expr)

end

end ApiHandbook.Code
