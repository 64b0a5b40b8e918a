/-! JSON values, their compact text, and a reader of the whole grammar. -/
namespace ApiHandbook

inductive Json where
  | null
  | bool (value : Bool)
  /-- A number as it is written. -/
  | number (text : String)
  | string (text : String)
  /-- A string, or an object with a key, whose escapes leave a surrogate unpaired: legal, but no text. -/
  | garbled
  | array (items : List Json)
  /-- The fields in the order in which they are written; keys may repeat. -/
  | object (fields : List (String × Json))
  deriving Repr

namespace Json

/-- Four hexadecimal digits of a code unit. -/
def hexUnit (n : Nat) : List Char :=
  let digits := Nat.toDigits 16 n
  List.replicate (4 - digits.length) '0' ++ digits

/-- A character inside a written string. -/
def writeChar (c : Char) : List Char :=
  if c = '"' then ['\\', '"']
  else if c = '\\' then ['\\', '\\']
  else if c = '\n' then ['\\', 'n']
  else if c = '\r' then ['\\', 'r']
  else if c = '\t' then ['\\', 't']
  else if c = '\x08' then ['\\', 'b']
  else if c = '\x0c' then ['\\', 'f']
  else if c.toNat < 32 then ['\\', 'u'] ++ hexUnit c.toNat
  else [c]

def writeText (s : List Char) : List Char := '"' :: s.flatMap writeChar ++ ['"']

mutual

/-- The compact text of a value; a garbled one has no text of its own. -/
def write : Json → List Char
  | .null => ['n', 'u', 'l', 'l']
  | .bool true => ['t', 'r', 'u', 'e']
  | .bool false => ['f', 'a', 'l', 's', 'e']
  | .number text => text.toList
  | .string text => writeText text.toList
  | .garbled => ['n', 'u', 'l', 'l']
  | .array [] => ['[', ']']
  | .array (item :: rest) => '[' :: write item ++ writeItems rest
  | .object [] => ['{', '}']
  | .object ((key, value) :: rest) => '{' :: writeText key.toList ++ ':' :: write value ++ writeFields rest

/-- The items after the first, and the closing bracket. -/
def writeItems : List Json → List Char
  | [] => [']']
  | item :: rest => ',' :: write item ++ writeItems rest

/-- The fields after the first, and the closing brace. -/
def writeFields : List (String × Json) → List Char
  | [] => ['}']
  | (key, value) :: rest => ',' :: writeText key.toList ++ ':' :: write value ++ writeFields rest

end

def compact (j : Json) : String := String.ofList j.write

def isSpace (c : Char) : Bool := c == ' ' || c == '\n' || c == '\t' || c == '\r'

def skipSpace (s : List Char) : List Char := s.dropWhile isSpace

def hexValue? (c : Char) : Option Nat :=
  if '0' ≤ c && c ≤ '9' then some (c.toNat - '0'.toNat)
  else if 'a' ≤ c && c ≤ 'f' then some (c.toNat - 'a'.toNat + 10)
  else if 'A' ≤ c && c ≤ 'F' then some (c.toNat - 'A'.toNat + 10)
  else none

/-- The code unit written by four hexadecimal digits. -/
def unit? (a b c d : Char) : Option Nat := do
  let a ← hexValue? a
  let b ← hexValue? b
  let c ← hexValue? c
  let d ← hexValue? d
  pure (((a * 16 + b) * 16 + c) * 16 + d)

def isHighSurrogate (n : Nat) : Bool := 0xD800 ≤ n && n ≤ 0xDBFF

def isLowSurrogate (n : Nat) : Bool := 0xDC00 ≤ n && n ≤ 0xDFFF

def simpleEscape? (c : Char) : Option Char :=
  if c = '"' ∨ c = '\\' ∨ c = '/' then some c
  else if c = 'b' then some '\x08'
  else if c = 'f' then some '\x0c'
  else if c = 'n' then some '\n'
  else if c = 'r' then some '\r'
  else if c = 't' then some '\t'
  else none

/-- Puts a character in front of a text that was read; no character garbles the text. -/
def emit (c : Option Char) (r : Option (Option (List Char) × List Char)) : Option (Option (List Char) × List Char) :=
  r.map fun (text, rest) => (c.bind fun c => text.map (c :: ·), rest)

/-- A plain character, which must not follow the first half of a pair. -/
def unlessPending (pending : Option Nat) (c : Char) : Option Char :=
  if pending.isSome then none else some c

/-- Reads a string after its opening quote. `pending` is the first half of a surrogate pair just read. The text is
missing when a surrogate is unpaired; nothing is read when the string is not well formed. -/
def readText (pending : Option Nat) : List Char → Option (Option (List Char) × List Char)
  | [] => none
  | '"' :: rest => some (if pending.isSome then none else some [], rest)
  | '\\' :: 'u' :: a :: b :: c :: d :: rest =>
    match unit? a b c d with
    | none => none
    | some n =>
      match pending with
      | some high =>
        if isLowSurrogate n then
          emit (some (Char.ofNat (0x10000 + (high - 0xD800) * 0x400 + (n - 0xDC00)))) (readText none rest)
        else emit none (readText none rest)
      | none =>
        if isHighSurrogate n then readText (some n) rest
        else if isLowSurrogate n then emit none (readText none rest)
        else emit (some (Char.ofNat n)) (readText none rest)
  | '\\' :: e :: rest =>
    match simpleEscape? e with
    | some c => emit (unlessPending pending c) (readText none rest)
    | none => none
  | c :: rest =>
    if c.toNat < 32 || c == '\\' then none else emit (unlessPending pending c) (readText none rest)

/-- A run of decimal digits and what follows it. -/
def digits (s : List Char) : List Char × List Char := (s.takeWhile Char.isDigit, s.dropWhile Char.isDigit)

/-- The digits after a point, with the point; nothing when there is no point. -/
def readFraction : List Char → Option (List Char × List Char)
  | '.' :: rest =>
    let (fraction, rest) := digits rest
    if fraction.isEmpty then none else some ('.' :: fraction, rest)
  | s => some ([], s)

/-- An exponent with its mark and sign; nothing when there is none. -/
def readExponent : List Char → Option (List Char × List Char)
  | mark :: rest =>
    if mark = 'e' ∨ mark = 'E' then
      let (sign, rest) := match rest with
        | '+' :: rest => (['+'], rest)
        | '-' :: rest => (['-'], rest)
        | rest => ([], rest)
      let (exponent, rest) := digits rest
      if exponent.isEmpty then none else some (mark :: sign ++ exponent, rest)
    else some ([], mark :: rest)
  | [] => some ([], [])

/-- A number as it is written, without leading zeros. -/
def readNumber (s : List Char) : Option (Json × List Char) := do
  let (sign, s) := match s with
    | '-' :: rest => (['-'], rest)
    | rest => ([], rest)
  let (whole, s) := digits s
  if whole.isEmpty || (whole.length != 1 && whole.head? == some '0') then none
  let (fraction, s) ← readFraction s
  let (exponent, s) ← readExponent s
  pure (.number (String.ofList (sign ++ whole ++ fraction ++ exponent)), s)

/-- An object from the fields that were read; a garbled key garbles it. -/
def ofFields (fields : List (Option (List Char) × Json)) : Json :=
  if fields.all fun field => field.1.isSome then
    .object (fields.map fun (key, value) => (String.ofList (key.getD []), value))
  else .garbled

mutual

/-- Reads a value that starts at the first character; the fuel bounds the nesting. -/
def readValue : Nat → List Char → Option (Json × List Char)
  | 0, _ => none
  | _ + 1, 'n' :: 'u' :: 'l' :: 'l' :: rest => some (.null, rest)
  | _ + 1, 't' :: 'r' :: 'u' :: 'e' :: rest => some (.bool true, rest)
  | _ + 1, 'f' :: 'a' :: 'l' :: 's' :: 'e' :: rest => some (.bool false, rest)
  | _ + 1, '"' :: rest =>
    (readText none rest).map fun (text, rest) =>
      (match text with | some text => .string (String.ofList text) | none => .garbled, rest)
  | fuel + 1, '[' :: rest =>
    match skipSpace rest with
    | ']' :: rest => some (.array [], rest)
    | rest => (readItems fuel rest).map fun (items, rest) => (.array items, rest)
  | fuel + 1, '{' :: rest =>
    match skipSpace rest with
    | '}' :: rest => some (.object [], rest)
    | rest => (readFields fuel rest).map fun (fields, rest) => (ofFields fields, rest)
  | _ + 1, s => readNumber s

/-- Reads the items of an array, from its first one to the closing bracket. -/
def readItems : Nat → List Char → Option (List Json × List Char)
  | 0, _ => none
  | fuel + 1, s => do
    let (item, rest) ← readValue fuel s
    match skipSpace rest with
    | ']' :: rest => pure ([item], rest)
    | ',' :: rest => do
      let (items, rest) ← readItems fuel (skipSpace rest)
      pure (item :: items, rest)
    | _ => none

/-- Reads the fields of an object, from the first one to the closing brace. -/
def readFields : Nat → List Char → Option (List (Option (List Char) × Json) × List Char)
  | 0, _ => none
  | fuel + 1, '"' :: s => do
    let (key, rest) ← readText none s
    match skipSpace rest with
    | ':' :: rest => do
      let (value, rest) ← readValue fuel (skipSpace rest)
      match skipSpace rest with
      | '}' :: rest => pure ([(key, value)], rest)
      | ',' :: rest => do
        let (fields, rest) ← readFields fuel (skipSpace rest)
        pure ((key, value) :: fields, rest)
      | _ => none
    | _ => none
  | _ + 1, _ => none

end

/-- The value that a text writes, with white space around it. -/
def read? (s : List Char) : Option Json :=
  match readValue (s.length + 1) (skipSpace s) with
  | some (value, rest) => if (skipSpace rest).isEmpty then some value else none
  | none => none

end Json
end ApiHandbook
