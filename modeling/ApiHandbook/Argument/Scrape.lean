import ApiHandbook.Argument.Record
import ApiHandbook.Argument.Value
import ApiHandbook.Text.Lines

/-! Argument records scraped from the text of a function: every call `.add_argument(…)` is cut out by matching brackets,
and its keyword arguments are evaluated as far as they can be. -/
namespace ApiHandbook.Argument
open Text

/-- The text that opens a declaration. -/
def opening : List Char := ".add_argument(".toList

/-- Whether a line is documentation rather than code. -/
def isDocLine (line : List Char) : Bool :=
  let line := trimStart line
  ['/', '/', '/'].isPrefixOf line || ['/', '/', '!'].isPrefixOf line || "#[doc".toList.isPrefixOf line

/-- A text without the first occurrence of another. -/
def withoutFirst (part s : List Char) : List Char :=
  match cut? part s with
  | some (before, after) => before ++ after
  | none => s

/-- The code of a function: its text without its docstring and without the lines that document something. -/
def codeOf (source : List Char) (doc : Option (List Char)) : List Char :=
  let source := match doc with
    | some doc => if isBlankText doc then source else withoutFirst doc source
    | none => source
  joinLines ((lines source).filter fun line => !isDocLine line)

/-- Where a character stands with respect to quotes. -/
inductive Quoting where
  | outside
  | inside (quote : Char) (escaped : Bool)
  deriving DecidableEq, Repr

def Quoting.step (q : Quoting) (c : Char) : Quoting :=
  match q with
  | .outside => if c = '"' ∨ c = '\'' then .inside c false else .outside
  | .inside quote true => .inside quote false
  | .inside quote false =>
    if c = '\\' then .inside quote true else if c = quote then .outside else .inside quote false

def isOpening (c : Char) : Bool := c == '(' || c == '[' || c == '\x7b'

def isClosing (c : Char) : Bool := c == ')' || c == ']' || c == '\x7d'

/-- The text up to the bracket that closes a declaration, with `depth` further brackets open and quotes as given; nothing
when it is not closed. -/
def argumentsFrom (q : Quoting) (depth : Nat) : List Char → Option (List Char)
  | [] => none
  | c :: rest =>
    let kept := fun depth => (argumentsFrom (q.step c) depth rest).map (c :: ·)
    if q = .outside ∧ isOpening c then kept (depth + 1)
    else if q = .outside ∧ isClosing c then
      match depth with
      | 0 => some []
      | depth + 1 => kept depth
    else kept depth

/-- The text between the parentheses of a declaration, from behind the first of them. -/
def argumentsText? (s : List Char) : Option (List Char) := argumentsFrom .outside 0 s

/-- The text that a field shows for a value. -/
def fieldText (field : Field) (value : Value) : String :=
  match field, value with
  | .location, .text keyword => locationLabel keyword
  | .location, .list items => ", ".intercalate (items.map fun item => locationLabel item.render)
  | .type, .type name => typeLabel name
  | .type, .text name => typeLabel name
  | _, value => value.render

/-- Sets the field of a keyword argument. Values that name something unknown are passed over; any other fault spoils the
declaration. -/
def applyKeyword (r : Record) (keyword : String × Code.Expr) : Option Record :=
  match evaluate keyword.2 with
  | .ok value =>
    match Field.ofKeyword? keyword.1 with
    | some field => some (r.set field (fieldText field value))
    | none => some r
  | .error (.undefinedName _) => some r
  | .error _ => none

/-- The name that a declaration starts with. -/
def declaredName? (arguments : Arguments) : Option String :=
  match arguments.positional with
  | [] => none
  | first :: _ =>
    match evaluate first with
    | .ok (.text name) => if name = "" then none else some name
    | _ => none

/-- The record of a declaration, from the text between its parentheses. -/
def readDeclaration (source : List Char) : Option Record := do
  let arguments ← (Arguments.ofText source).toOption
  let name ← declaredName? arguments
  let r ← arguments.keywords.foldlM applyKeyword ⟨name, []⟩
  return r.withBareDefaults

/-- The records of all declarations in a function's text, in the order of the text. -/
def scrapeDeclarations (source : String) (doc : Option String) : List Record :=
  let code := codeOf source.toList (doc.map String.toList)
  ((splitAtText opening code).drop 1).filterMap fun segment => (argumentsText? segment).bind readDeclaration

end ApiHandbook.Argument
