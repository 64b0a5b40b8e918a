import ApiHandbook.Code.Literal

/-! Quoted literals of Rust: strings and characters, plain, raw, of bytes and of C. -/
namespace ApiHandbook.Code
open Text

/-- What a string literal may hold. -/
inductive Alphabet where
  | unicode
  /-- Characters below 128; escapes may denote any byte. -/
  | bytes
  /-- Anything but NUL. -/
  | nonzero
  deriving DecidableEq, Repr

def Alphabet.holds (a : Alphabet) (c : Char) : Bool :=
  match a with
  | .unicode => true
  | .bytes => c.toNat < 128
  | .nonzero => c != '\x00'

/-- The character of two hexadecimal digits, within what the alphabet allows. -/
def hexEscape? (a : Alphabet) : List Char → Option (Char × List Char)
  | h :: l :: rest => do
    let n := (← digitValue? h) * 16 + (← digitValue? l)
    let allowed : Bool := match a with
      | .unicode => n < 128
      | .bytes => true
      | .nonzero => n != 0
    if allowed then some (Char.ofNat n, rest) else none
  | _ => none

/-- Reads the code point of an escape after its opening brace: one to six digits, with underscores after the first. -/
def codePoint? (value count : Nat) : List Char → Option (Char × List Char)
  | [] => none
  | c :: rest =>
    if c = '_' ∧ 0 < count then codePoint? value count rest
    else if c = '\x7d' ∧ 0 < count then
      if h : value.isValidChar then some (Char.ofNatAux value h, rest) else none
    else
      match digitValue? c with
      | some d => if count = 6 then none else codePoint? (value * 16 + d) (count + 1) rest
      | none => none

def simpleEscape? : Char → Option Char
  | 'n' => some '\n'
  | 'r' => some '\r'
  | 't' => some '\t'
  | '\\' => some '\\'
  | '\'' => some '\''
  | '"' => some '"'
  | '0' => some '\x00'
  | _ => none

/-- Reads an escape after its backslash. -/
def escape? (a : Alphabet) : List Char → Option (Char × List Char)
  | 'x' :: rest => hexEscape? a rest
  | 'u' :: '\x7b' :: rest =>
    if a = .bytes then none else (codePoint? 0 0 rest).filter fun (c, _) => a.holds c
  | c :: rest => do
    let value ← simpleEscape? c
    if a = .nonzero ∧ c = '0' then none else some (value, rest)
  | [] => none

/-- Passes over the line break after a backslash and the blanks that follow it; some text must follow them. -/
def skipContinuation : List Char → Option (List Char)
  | [] => none
  | '\r' :: '\n' :: rest => skipContinuation rest
  | c :: rest =>
    if c = '\r' then none
    else if c = ' ' ∨ c = '\t' ∨ c = '\n' then skipContinuation rest
    else some (c :: rest)

/-- Reads a string with escapes after its opening quote. -/
def escapedText (a : Alphabet) : Nat → List Char → Option (List Char × List Char)
  | 0, _ => none
  | _ + 1, [] => none
  | _ + 1, '"' :: rest => some ([], rest)
  | fuel + 1, '\r' :: rest =>
    match rest with
    | '\n' :: rest => (escapedText a fuel rest).map fun (text, rest) => ('\n' :: text, rest)
    | _ => none
  | fuel + 1, '\\' :: rest =>
    if rest.head? = some '\n' ∨ rest.head? = some '\r' then (skipContinuation rest).bind (escapedText a fuel)
    else do
      let (c, rest) ← escape? a rest
      let (text, rest) ← escapedText a fuel rest
      some (c :: text, rest)
  | fuel + 1, c :: rest =>
    if a.holds c then (escapedText a fuel rest).map fun (text, rest) => (c :: text, rest) else none

/-- Reads a raw string up to a quote that `hashes` hash signs follow. -/
def rawText (a : Alphabet) (hashes : List Char) : List Char → Option (List Char × List Char)
  | [] => none
  | '\r' :: '\n' :: rest => (rawText a hashes rest).map fun (text, rest) => ('\r' :: '\n' :: text, rest)
  | c :: rest =>
    if c = '"' ∧ hashes.isPrefixOf rest then some ([], rest.drop hashes.length)
    else if c = '\r' || !a.holds c then none
    else (rawText a hashes rest).map fun (text, rest) => (c :: text, rest)

/-- Reads a raw string from its hash signs on; at most 255 of them are allowed. -/
def rawQuotation? (a : Alphabet) (s : List Char) : Option (List Char × List Char) :=
  let hashes := s.takeWhile (· == '#')
  match s.dropWhile (· == '#') with
  | '"' :: rest => if hashes.length ≤ 255 then rawText a hashes rest else none
  | _ => none

def quotation? (a : Alphabet) (s : List Char) : Option (List Char × List Char) :=
  escapedText a (s.length + 1) s

/-- Reads one character and its closing quote. -/
def quotedChar? (a : Alphabet) : List Char → Option (Char × List Char)
  | '\\' :: rest => (escape? a rest).bind closed
  | c :: rest => if a.holds c then closed (c, rest) else none
  | [] => none
where
  closed : Char × List Char → Option (Char × List Char)
    | (c, '\'' :: rest) => some (c, rest)
    | _ => none

/-- Reads a string or character literal without its suffix. -/
def quotedLiteral? (s : List Char) : Option (Literal × List Char) :=
  let textOf := fun (read : Option (List Char × List Char)) =>
    read.map fun (text, rest) => (Literal.text (String.ofList text), rest)
  let opaqueOf := fun (read : Option (List Char × List Char)) => read.map fun (_, rest) => (Literal.other, rest)
  match s with
  | '"' :: rest => textOf (quotation? .unicode rest)
  | 'r' :: rest => textOf (rawQuotation? .unicode rest)
  | 'b' :: '"' :: rest => opaqueOf (quotation? .bytes rest)
  | 'b' :: 'r' :: rest => opaqueOf (rawQuotation? .bytes rest)
  | 'c' :: '"' :: rest => opaqueOf (quotation? .nonzero rest)
  | 'c' :: 'r' :: rest => opaqueOf (rawQuotation? .nonzero rest)
  | 'b' :: '\'' :: rest => (quotedChar? .bytes rest).map fun (_, rest) => (.other, rest)
  | '\'' :: rest => (quotedChar? .unicode rest).map fun (c, rest) => (.character c, rest)
  | _ => none

/-- Reads the literal at the front of a text, with its suffix. -/
def literal? (s : List Char) : Option (Literal × List Char) :=
  match quotedLiteral? s with
  | some (value, rest) => some (value, afterIdentifier rest)
  | none => (afterNumber s).map fun rest => (numberOf (s.take (s.length - rest.length)), rest)

end ApiHandbook.Code
