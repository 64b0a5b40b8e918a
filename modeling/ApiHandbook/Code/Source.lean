import ApiHandbook.Code.Grammar.Statement

/-! Rust texts: single expressions, lists of arguments, and whole files. -/
namespace ApiHandbook.Code

/-- The grammar for texts nested at most `depth` constructs deep. -/
def grammar : Nat → Grammar
  | 0 =>
    { expr := fun _ => refuse
      unary := fun _ => refuse
      climb := fun _ _ _ => refuse
      trailer := fun _ => refuse
      early := refuse
      statements := refuse
      type := fun _ => refuse
      bound := fun _ _ => refuse
      pattern := refuse
      item := refuse }
  | depth + 1 =>
    { expr := fun structs s => expr (grammar depth) structs s
      unary := fun structs s => unary (grammar depth) structs s
      climb := fun left structs base s => climb (grammar depth) left structs base s
      trailer := fun e s => trailer (grammar depth) e s
      early := fun s => early (grammar depth) s
      statements := fun s => statements (grammar depth) s
      type := fun plus s => type (grammar depth) plus s
      bound := fun capture constant s => bound (grammar depth) capture constant s
      pattern := fun s => pattern (grammar depth) s
      item := fun s => item (grammar depth) s }

/-- A grammar deep enough for the given trees: every few steps of it take a tree. -/
def grammarFor (ts : List Tree) : Grammar := grammar (8 * Tree.sizeAll ts + 16)

/-- Reads all of the given trees. -/
def ofTrees? {α : Type} (reader : Grammar → Reader α) (ts : List Tree) : Option α :=
  (reader (grammarFor ts)).whole? ts

/-- Reads a whole text. -/
def ofText? {α : Type} (reader : Grammar → Reader α) (s : List Char) : Option α :=
  (Tree.ofText? s).bind (ofTrees? reader)

/-- The expression that a text consists of. -/
def expression? (s : List Char) : Option Expr :=
  ofText? (fun g => do return (← g.expr true).expr) s

/-- The expressions that a text consists of, separated by commas. -/
def expressions? (s : List Char) : Option (List Expr) := ofText? arguments s

/-- The path that a text consists of. -/
def path? (s : List Char) : Option Path := ofText? (fun g => path g false) s

/-- The function that a text consists of. -/
def function? (s : List Char) : Option Heading :=
  ofText? (fun g => do
    let p ← preamble g
    ensure (atSignature (← beyondVisibility))
    match ← functionItem g p .function with
    | .function heading _ => return heading
    | _ => refuse) s

/-- The expressions between the delimiters of an attribute; `none` when it has none or they cannot be read. -/
def Attribute.arguments? (a : Attribute) : Option (List Expr) :=
  match a.value with
  | .arguments inner => ofTrees? arguments inner
  | _ => none

/-- A text without a byte order mark. -/
def withoutMark (s : List Char) : List Char := if s.head? = some '\ufeff' then s.drop 1 else s

/-- A text without its first line when that names an interpreter; the line break stays, so that lines keep their
numbers. -/
def withoutInterpreter (s : List Char) : List Char :=
  match s with
  | '#' :: '!' :: rest =>
    let (_, after) := Lexical.skipSeparators (rest.length + 1) 1 rest
    if after.head? = some '[' then s else s.dropWhile (· != '\n')
  | _ => s

/-- The items of a file. -/
def items? (s : List Char) : Option (List Item) :=
  ofText? (fun g => do
    let _ ← innerAttributes g
    untilEnd g.item) (withoutInterpreter (withoutMark s))

end ApiHandbook.Code
