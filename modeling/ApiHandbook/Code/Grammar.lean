import ApiHandbook.Code.Reading

/-! The readers of constructs that contain each other, as one record: each part of the grammar is written against the
record and the record is closed later. -/
namespace ApiHandbook.Code

/-- How tightly an operator binds. -/
inductive Precedence where
  /-- No operator at all, as in the operand of a closure or a jump. -/
  | loosest
  | assign
  | range
  | or
  | and
  | compare
  | bitOr
  | bitXor
  | bitAnd
  | shift
  | sum
  | product
  | cast
  deriving DecidableEq, Repr

def Precedence.rank : Precedence → Nat
  | .loosest => 0
  | .assign => 1
  | .range => 2
  | .or => 3
  | .and => 4
  | .compare => 5
  | .bitOr => 6
  | .bitXor => 7
  | .bitAnd => 8
  | .shift => 9
  | .sum => 10
  | .product => 11
  | .cast => 12

/-- What of an expression's form decides how the text may go on. -/
inductive Form where
  | plain
  | range
  | comparison
  /-- A block or a control structure, which ends a statement by itself. -/
  | block
  | macroCall (braced : Bool)
  deriving DecidableEq, Repr

structure Operand where
  expr : Expr
  form : Form := .plain

/-- What of a type's form decides how the text may go on. -/
inductive TypeForm where
  | path (qualified : Bool) (path : Path) (parenthesized : Bool)
  /-- A bare list of exactly one bound. -/
  | bound
  | other
  deriving Repr

structure Grammar where
  /-- An expression; the flag allows struct literals. -/
  expr : Bool → Reader Operand
  /-- An expression without binary operators. -/
  unary : Bool → Reader Operand
  /-- What follows a left operand, as far as operators bind at least as tightly as given. -/
  climb : Operand → Bool → Precedence → Reader Operand
  /-- The calls, fields and indices behind an expression. -/
  trailer : Operand → Reader Operand
  /-- An expression that ends early when it is a control structure. -/
  early : Reader Operand
  /-- The statements up to the end of a block. -/
  statements : Reader Unit
  /-- A type; the flag allows several bounds. -/
  type : Bool → Reader TypeForm
  /-- One bound of a type: whether it names a trait. The flags allow captures and constant traits. -/
  bound : Bool → Bool → Reader Bool
  /-- A pattern without alternatives: whether it is a range with an end missing. -/
  pattern : Reader Bool
  item : Reader Item

/-- The list of arguments inside a call. -/
def arguments (g : Grammar) : Reader (List Expr) :=
  commaSeparated do return (← g.expr true).expr

/-- Reads an expression and keeps it among those met. -/
def noted (reader : Reader Operand) : Reader Unit := do note (← reader).expr

/-- A type whose form does not matter. -/
def someType (g : Grammar) : Reader Unit := do
  let _ ← g.type true

/-- The literal at the front; a number may have a minus sign. -/
def literal : Reader Literal := do
  if ← mark? '-' then
    match ← anyTree with
    | .literal value _ _ => do
      ensure (isNumber value)
      return value
    | _ => refuse
  else
    match ← anyTree with
    | .literal value _ _ => return value
    | .word name _ => do
      ensure (name == "true" || name == "false")
      return .boolean (name == "true")
    | _ => refuse

/-- A path of names only. -/
def namePath : Reader Path := do
  let leading ← marks? [':', ':']
  let names ← go ((← ahead).length + 1)
  return ⟨leading, names.map fun name => ⟨name, true⟩⟩
where
  go : Nat → Reader (List String)
    | 0 => refuse
    | fuel + 1 => do
      ensure (atPathWord (← ahead))
      let name ← anyWord
      if ← marks? [':', ':'] then return name :: (← go fuel)
      return [name]

end ApiHandbook.Code
