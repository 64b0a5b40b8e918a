import ApiHandbook.Text.Binary64
import ApiHandbook.Text.Identifier

/-! Literals of Rust, and how numbers are written. -/
namespace ApiHandbook.Code
open Text

/-- A literal, with as much of its value as documentation shows. -/
inductive Literal where
  | text (value : String)
  | character (value : Char)
  /-- A whole number; its type suffix does not change the value. -/
  | integer (value : Nat) (suffixed : Bool)
  | float (spelling : String)
  | boolean (value : Bool)
  /-- Bytes, byte strings and C strings. -/
  | other
  deriving DecidableEq, Repr

def isDigitOrGap (c : Char) : Bool := c.isDigit || c == '_'

/-- What follows the digits of an exponent, which may be preceded by one sign; there is at least one digit. -/
def afterExponent (seenSign seenDigit : Bool) : List Char → Option (List Char)
  | [] => if seenDigit then some [] else none
  | c :: rest =>
    if c = '+' ∨ c = '-' then
      if seenDigit then some (c :: rest) else if seenSign then none else afterExponent true false rest
    else if c.isDigit then afterExponent seenSign true rest
    else if c = '_' then afterExponent seenSign seenDigit rest
    else if seenDigit then some (c :: rest) else none

/-- What follows the exponent at the front of a text; `none` when the text starts with none. -/
def exponentAt? : List Char → Option (List Char)
  | c :: rest => if c = 'e' ∨ c = 'E' then afterExponent false false rest else none
  | [] => none

/-- What follows the digits, point and exponent of a floating-point number. A point is part of the number unless an
identifier or a second point follows; a number has a point or an exponent. -/
def afterFloatDigits (s : List Char) : Option (List Char) :=
  if !(s.head?.any Char.isDigit) then none
  else
    match s.dropWhile isDigitOrGap with
    | '.' :: rest =>
      if rest.head?.any fun c => c == '.' || isIdentifierStart c then none
      else
        let rest := rest.dropWhile isDigitOrGap
        some ((exponentAt? rest).getD rest)
    | rest => exponentAt? rest

/-- The base that a number's first two characters give, and what follows them. -/
def baseOf : List Char → Nat × List Char
  | '0' :: 'x' :: rest => (16, rest)
  | '0' :: 'o' :: rest => (8, rest)
  | '0' :: 'b' :: rest => (2, rest)
  | s => (10, s)

/-- The value of a digit in the bases up to 16. -/
def digitValue? (c : Char) : Option Nat :=
  if c.isDigit then some (c.toNat - '0'.toNat)
  else if 'a' ≤ c && c ≤ 'f' then some (c.toNat - 'a'.toNat + 10)
  else if 'A' ≤ c && c ≤ 'F' then some (c.toNat - 'A'.toNat + 10)
  else none

/-- What follows the digits of a whole number. A decimal digit too large for the base is an error, and so is an
underscore in front of a decimal number. -/
def afterDigits (base : Nat) (seenDigit : Bool) : List Char → Option (List Char)
  | [] => if seenDigit then some [] else none
  | c :: rest =>
    if c = '_' then
      if !seenDigit && base = 10 then none else afterDigits base seenDigit rest
    else
      match digitValue? c with
      | some d =>
        if d < base then afterDigits base true rest
        else if c.isDigit then none
        else if seenDigit then some (c :: rest) else none
      | none => if seenDigit then some (c :: rest) else none

/-- Takes the type suffix of a number; no further letter may follow. -/
def afterSuffix (s : List Char) : Option (List Char) :=
  let rest := afterIdentifier s
  if rest.head?.any isIdentifierContinue then none else some rest

/-- What follows the number at the front of a text. -/
def afterNumber (s : List Char) : Option (List Char) :=
  let float := (afterFloatDigits s).bind afterSuffix
  float <|> let (base, digits) := baseOf s; (afterDigits base false digits).bind afterSuffix

/-- Whether what follows an `e` makes it an exponent rather than the start of a suffix. -/
def startsExponent (s : List Char) : Bool :=
  (s.dropWhile (· == '_')).head?.any fun c => c == '+' || c == '-' || c.isDigit

/-- Reads the digits of a whole number: its value and the suffix. A point or an exponent makes it no whole number. -/
def wholeFrom (base value : Nat) : List Char → Option (Nat × List Char)
  | [] => some (value, [])
  | c :: rest =>
    if c = '_' then wholeFrom base value rest
    else if base = 10 ∧ c = '.' then none
    else if base = 10 ∧ (c = 'e' ∨ c = 'E') then
      if startsExponent rest then none else some (value, c :: rest)
    else
      match digitValue? c with
      | some d => if d < base then wholeFrom base (value * base + d) rest else some (value, c :: rest)
      | none => some (value, c :: rest)

/-- The literal that the text of a number denotes. -/
def numberOf (s : List Char) : Literal :=
  let (base, digits) := baseOf s
  match wholeFrom base 0 digits with
  | some (value, suffix) => .integer value !suffix.isEmpty
  | none => .float (String.ofList s)

def decimalValue (digits : List Char) : Nat :=
  (digits.filter Char.isDigit).foldl (fun n c => n * 10 + (c.toNat - '0'.toNat)) 0

/-- The exponent written after an `e`, if there is one. -/
def exponentOf (s : List Char) : Int :=
  match s with
  | c :: rest =>
    if (c = 'e' ∨ c = 'E') ∧ startsExponent rest then
      let rest := rest.dropWhile (· == '_')
      let digits := (rest.drop (if rest.head?.any Char.isDigit then 0 else 1)).takeWhile isDigitOrGap
      if rest.head? = some '-' then -(decimalValue digits : Int) else decimalValue digits
    else 0
  | [] => 0

/-- The number that a floating-point literal denotes. -/
def floatValue (spelling : List Char) : Binary64 :=
  let whole := spelling.takeWhile isDigitOrGap
  let rest := spelling.dropWhile isDigitOrGap
  let (fraction, rest) :=
    match rest with
    | '.' :: after => (after.takeWhile isDigitOrGap, after.dropWhile isDigitOrGap)
    | _ => ([], rest)
  let places := (fraction.filter Char.isDigit).length
  Binary64.ofDecimal (decimalValue (whole ++ fraction)) (exponentOf rest - places)

end ApiHandbook.Code
