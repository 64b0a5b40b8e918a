import ApiHandbook.Code.Source

/-! The values that the arguments of a declaration can have without running anything: literals, lists of them, and names
of primitive types. -/
namespace ApiHandbook.Argument
open Code

inductive Value where
  | text (value : String)
  | integer (value : Int)
  | float (negative : Bool) (magnitude : Binary64)
  | boolean (value : Bool)
  | null
  /-- The name of a primitive type. -/
  | type (name : String)
  | list (items : List Value)
  deriving Repr

/-- The shortest text of a floating-point number with its sign. -/
def floatText (negative : Bool) (magnitude : Binary64) : String :=
  (if negative then "-" else "") ++ magnitude.text

mutual

/-- The text that documentation shows for a value. -/
def Value.render : Value → String
  | .text value => value
  | .integer value => toString value
  | .float negative magnitude => floatText negative magnitude
  | .boolean value => if value then "true" else "false"
  | .null => "null"
  | .type name => name
  | .list items => "[" ++ ", ".intercalate (renderAll items) ++ "]"

def renderAll : List Value → List String
  | [] => []
  | v :: rest => v.render :: renderAll rest

end

/-- Why an expression has no value, or a text no arguments. -/
inductive Fault where
  /-- A name that cannot be resolved from the text alone. -/
  | undefinedName (name : String)
  | keywordName
  | latePositional
  | negatedNonNumber
  | unsupportedMethod (name : String)
  | unsupportedCall
  | unsupportedExpression
  | unsupportedLiteral
  /-- The text is no Rust, or a number is out of range. -/
  | unreadable
  deriving DecidableEq, Repr

def Fault.message : Fault → String
  | .undefinedName name => "name '" ++ name ++ "' is not defined"
  | .keywordName => "invalid syntax: keyword must be a plain name"
  | .latePositional => "invalid syntax: positional argument follows keyword argument"
  | .negatedNonNumber => "invalid syntax: negation of a non-number"
  | .unsupportedMethod name => "invalid syntax: unsupported method call ." ++ name ++ "()"
  | .unsupportedCall => "invalid syntax: unsupported call"
  | .unsupportedExpression => "invalid syntax: unsupported expression"
  | .unsupportedLiteral => "invalid syntax: unsupported literal"
  | .unreadable => "invalid syntax: unreadable"

/-- The type names that stand for themselves. -/
def knownTypes : List String :=
  ["str", "String", "bool", "char", "i8", "i16", "i32", "i64", "i128", "isize", "u8", "u16", "u32", "u64", "u128",
    "usize", "f32", "f64", "Vec", "HashMap"]

/-- The method calls that do not change the value of a literal. -/
def conversions : List String := ["to_string", "to_owned", "into"]

/-- The largest whole number that is evaluated. -/
def maxInteger : Nat := 0x7FFFFFFFFFFFFFFF

def literalValue : Literal → Except Fault Value
  | .text value => .ok (.text value)
  | .character value => .ok (.text (String.singleton value))
  | .integer value _ => if value ≤ maxInteger then .ok (.integer value) else .error .unreadable
  | .float spelling => .ok (.float false (floatValue spelling.toList))
  | .boolean value => .ok (.boolean value)
  | .other => .error .unsupportedLiteral

def Value.negated : Value → Except Fault Value
  | .integer value => .ok (.integer (-value))
  | .float negative magnitude => .ok (.float (!negative) magnitude)
  | _ => .error .negatedNonNumber

/-- The text of a path without arguments. -/
def pathText (p : Path) : String := "::".intercalate (p.names.map plainName)

/-- The value of a path, which has one only if it is a known name. -/
def nameValue (p : Path) : Except Fault Value :=
  match p.word? with
  | none => .error (.undefinedName (pathText p))
  | some word =>
    let name := plainName word
    if name = "None" then .ok .null
    else if knownTypes.contains name then .ok (.type name)
    else .error (.undefinedName name)

mutual

/-- The value of an expression, seen through references, parentheses, conversions and `Some`. -/
def evaluate : Expr → Except Fault Value
  | .literal value => literalValue value
  | .negation operand => (evaluate operand).bind Value.negated
  | .path false p _ => nameValue p
  | .array items => (evaluateAll items).map .list
  | .tuple items => (evaluateAll items).map .list
  | .vector readable items => if readable then (evaluateAll items).map .list else .error .unreadable
  | .methodCall receiver method arguments =>
    if conversions.contains method && arguments.isEmpty then evaluate receiver
    else .error (.unsupportedMethod method)
  | .call (.path _ p _) arguments =>
    match arguments with
    | [argument] =>
      if pathText p = "Some" ∨ pathText p = "String::from" then evaluate argument
      else .error (.undefinedName (pathText p))
    | _ => .error (.undefinedName (pathText p))
  | .call _ _ => .error .unsupportedCall
  | .reference inner => evaluate inner
  | .parenthesized inner => evaluate inner
  | _ => .error .unsupportedExpression

def evaluateAll : List Expr → Except Fault (List Value)
  | [] => .ok []
  | e :: rest => do return (← evaluate e) :: (← evaluateAll rest)

end

/-- The value of the expression that a text consists of. -/
def evaluateText (source : String) : Except Fault Value :=
  match expression? source.toList with
  | some e => evaluate e
  | none => .error .unreadable

/-- The arguments of a declaration. -/
structure Arguments where
  positional : List Expr := []
  keywords : List (String × Expr) := []

/-- The keyword that an assignment's target is. -/
def keyword? : Expr → Option String
  | .path _ p _ => p.word?.map plainName
  | _ => none

/-- Sorts arguments into positional ones and the keywords behind them. -/
def Arguments.ofExpressions (done : Arguments) : List Expr → Except Fault Arguments
  | [] => .ok done
  | .assignment target value :: rest =>
    match keyword? target with
    | some keyword => ofExpressions { done with keywords := done.keywords ++ [(keyword, value)] } rest
    | none => .error .keywordName
  | e :: rest =>
    if done.keywords.isEmpty then ofExpressions { done with positional := done.positional ++ [e] } rest
    else .error .latePositional

/-- Reads the text between the parentheses of a declaration. -/
def Arguments.ofText (source : List Char) : Except Fault Arguments :=
  match expressions? source with
  | some exprs => ofExpressions {} exprs
  | none => .error .unreadable

end ApiHandbook.Argument
