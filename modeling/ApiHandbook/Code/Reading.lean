import ApiHandbook.Code.Syntax

/-! Reading token trees from left to right. A reader either takes trees from the front and gives a value, or finds that
they do not have its form. -/
namespace ApiHandbook.Code

/-- What is still to be read, and the expressions met in constructs whose shape is not kept, last first. -/
structure Reading where
  rest : List Tree
  found : List Expr := []

abbrev Reader (α : Type) := StateT Reading Option α

/-! Looking ahead -/

/-- The words that are no identifiers. -/
def keywords : List String :=
  ["_", "abstract", "as", "async", "await", "become", "box", "break", "const", "continue", "crate", "do", "dyn", "else",
    "enum", "extern", "false", "final", "fn", "for", "if", "impl", "in", "let", "loop", "macro", "match", "mod", "move",
    "mut", "override", "priv", "pub", "ref", "return", "Self", "self", "static", "struct", "super", "trait", "true",
    "try", "type", "typeof", "unsafe", "unsized", "use", "virtual", "where", "while", "yield"]

def atWord (name : String) : List Tree → Bool
  | .word w _ :: _ => w == name
  | _ => false

def atAnyWord : List Tree → Bool
  | .word _ _ :: _ => true
  | _ => false

def atIdentifier : List Tree → Bool
  | .word w _ :: _ => !keywords.contains w
  | _ => false

def atMark (c : Char) : List Tree → Bool
  | .mark d _ _ :: _ => c == d
  | _ => false

/-- Whether punctuation characters stand at the front without a gap; what follows the last of them does not matter. -/
def atMarks : List Char → List Tree → Bool
  | [], _ => true
  | [c], ts => atMark c ts
  | c :: cs, .mark d joint _ :: ts => c == d && joint && atMarks cs ts
  | _, _ => false

def atGroup (delimiter : Delimiter) : List Tree → Bool
  | .group d _ _ _ :: _ => d == delimiter
  | _ => false

def atAnyGroup : List Tree → Bool
  | .group _ _ _ _ :: _ => true
  | _ => false

/-- A name with an apostrophe in front. -/
def atLifetime : List Tree → Bool
  | .mark '\'' _ _ :: .word _ _ :: _ => true
  | _ => false

def isNumber : Literal → Bool
  | .integer _ _ => true
  | .float _ => true
  | _ => false

/-- Whether a literal stands at the front; a number may have a minus sign. -/
def atLiteral : List Tree → Bool
  | .literal _ _ _ :: _ => true
  | .word w _ :: _ => w == "true" || w == "false"
  | .mark '-' _ _ :: .literal value _ _ :: _ => isNumber value
  | _ => false

def atTextLiteral : List Tree → Bool
  | .literal (.text _) _ _ :: _ => true
  | _ => false

/-- What follows the first tree; a lifetime counts as one. -/
def beyond : List Tree → List Tree
  | .mark '\'' true _ :: .word _ _ :: ts => ts
  | _ :: ts => ts
  | [] => []

/-- Whether the keywords of a function's heading stand at the front. -/
def atSignature (ts : List Tree) : Bool :=
  let skipWord := fun name (ts : List Tree) => if atWord name ts then ts.drop 1 else ts
  let ts := skipWord "unsafe" (skipWord "async" (skipWord "const" ts))
  let ts := if atWord "extern" ts then (let ts := ts.drop 1; if atTextLiteral ts then ts.drop 1 else ts) else ts
  atWord "fn" ts

/-- Whether a path without arguments can start here. -/
def atPathWord (ts : List Tree) : Bool :=
  atIdentifier ts || atWord "self" ts || atWord "Self" ts || atWord "super" ts || atWord "crate" ts

/-! Taking trees -/

def ahead : Reader (List Tree) := return (← get).rest

def refuse {α : Type} : Reader α := fun _ => none

def ensure (condition : Bool) : Reader Unit := if condition then pure () else refuse

/-- Whether the trees to be read satisfy a condition. -/
def sees (condition : List Tree → Bool) : Reader Bool := return condition (← ahead)

def anyTree : Reader Tree := fun s =>
  match s.rest with
  | t :: rest => some (t, { s with rest })
  | [] => none

/-- Takes `n` trees. -/
def skip (n : Nat) : Reader Unit := modify fun s => { s with rest := s.rest.drop n }

def word (name : String) : Reader Unit := do
  ensure (atWord name (← ahead))
  skip 1

def mark (c : Char) : Reader Unit := do
  ensure (atMark c (← ahead))
  skip 1

def marks (cs : List Char) : Reader Unit := do
  ensure (atMarks cs (← ahead))
  skip cs.length

def anyWord : Reader String := do
  match ← anyTree with
  | .word name _ => return name
  | _ => refuse

def identifier : Reader String := do
  ensure (atIdentifier (← ahead))
  anyWord

def lifetime : Reader Unit := do
  ensure (atLifetime (← ahead))
  skip 2

/-- Takes a word if it comes next. -/
def word? (name : String) : Reader Bool := do
  if ← sees (atWord name) then skip 1; return true else return false

/-- Takes punctuation if it comes next. -/
def marks? (cs : List Char) : Reader Bool := do
  if ← sees (atMarks cs) then skip cs.length; return true else return false

def mark? (c : Char) : Reader Bool := marks? [c]

/-- Whether nothing is left. -/
def atEnd : Reader Bool := return (← ahead).isEmpty

/-- Reads the inside of a group; all of it must be read. -/
def group {α : Type} (delimiter : Delimiter) (inside : Reader α) : Reader α := do
  match ← anyTree with
  | .group d inner _ _ =>
    ensure (d == delimiter)
    let outer ← ahead
    modify fun s => { s with rest := inner }
    let value ← inside
    ensure (← atEnd)
    modify fun s => { s with rest := outer }
    return value
  | _ => refuse

/-- Takes a group of any kind without reading its inside. -/
def anyGroup : Reader (Delimiter × List Tree) := do
  match ← anyTree with
  | .group d inner _ _ => return (d, inner)
  | _ => refuse

/-- Reads only if a condition on the trees ahead holds. -/
def when? (condition : List Tree → Bool) (reader : Reader Unit) : Reader Unit := do
  if ← sees condition then reader

/-! Repetition -/

/-- Reads on while something is left. -/
def untilEnd {α : Type} (reader : Reader α) : Reader (List α) := do
  go (← ahead).length
where
  go : Nat → Reader (List α)
    | 0 => return []
    | fuel + 1 => do
      if ← atEnd then return []
      let a ← reader
      return a :: (← go fuel)

/-- Reads values with a separator after each but perhaps the last, up to a place where `stop` holds. -/
def separatedUntil {α : Type} (stop : List Tree → Bool) (separator : Reader Unit) (reader : Reader α) :
    Reader (List α) := do
  go ((← ahead).length + 1)
where
  go : Nat → Reader (List α)
    | 0 => return []
    | fuel + 1 => do
      if ← sees stop then return []
      let a ← reader
      if ← sees stop then return [a]
      separator
      return a :: (← go fuel)

/-- Reads values separated by commas to the end; a last comma may follow. -/
def commaSeparated {α : Type} (reader : Reader α) : Reader (List α) :=
  separatedUntil List.isEmpty (mark ',') reader

/-- Reads values with a separator between them; a last separator is taken where `goesOn` does not hold behind it. -/
def joined (separator : Char) (goesOn : List Tree → Bool) (reader : Reader Unit) : Reader Unit := do
  go ((← ahead).length + 1)
where
  go : Nat → Reader Unit
    | 0 => return
    | fuel + 1 => do
      reader
      if ← mark? separator then
        if ← sees goesOn then go fuel

/-! Expressions met on the way -/

/-- Keeps an expression met in a construct whose shape is not kept. -/
def note (e : Expr) : Reader Unit := modify fun s => { s with found := e :: s.found }

/-- Reads, and gives the expressions met with the value. -/
def collect {α : Type} (reader : Reader α) : Reader (α × List Expr) := do
  let outer := (← get).found
  modify fun s => { s with found := [] }
  let value ← reader
  let inner := (← get).found.reverse
  modify fun s => { s with found := outer }
  return (value, inner)

/-- The expressions met by a reader whose value does not matter. -/
def parts {α : Type} (reader : Reader α) : Reader (List Expr) := return (← collect reader).2

/-- Reads, and gives the trees that were read with the value. -/
def consumed {α : Type} (reader : Reader α) : Reader (α × List Tree) := do
  let before ← ahead
  let value ← reader
  return (value, before.take (before.length - (← ahead).length))

/-- Reads a whole text. -/
def Reader.whole? {α : Type} (reader : Reader α) (ts : List Tree) : Option α :=
  match reader.run ⟨ts, []⟩ with
  | some (value, s) => if s.rest.isEmpty then some value else none
  | none => none

end ApiHandbook.Code
