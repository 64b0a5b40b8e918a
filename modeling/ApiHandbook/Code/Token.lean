import ApiHandbook.Code.Quotation
import ApiHandbook.Text.Blank

/-! The tokens of a Rust text with the lines they stand on. Blanks and ordinary comments separate tokens; a documentation
comment stands for the attribute that it abbreviates. -/
namespace ApiHandbook.Code
open Text

inductive Delimiter where
  | parenthesis
  | bracket
  | brace
  deriving DecidableEq, Repr

inductive Token where
  | opening (delimiter : Delimiter)
  | closing (delimiter : Delimiter)
  /-- An identifier or keyword; a raw identifier keeps its mark. -/
  | word (name : String)
  /-- A punctuation character, joint when another one follows at once. -/
  | mark (c : Char) (joint : Bool)
  | literal (value : Literal)
  deriving DecidableEq, Repr

/-- A token from its first line to its last. -/
structure Located where
  token : Token
  first : Nat
  last : Nat
  deriving DecidableEq, Repr

/-- Whether a token can hold a line break. -/
def Token.spansLines : Token → Bool
  | .literal _ => true
  | _ => false

namespace Lexical

def isSeparator (c : Char) : Bool := isBlank c || c == '\u200e' || c == '\u200f'

/-- The rest of a line, and the text from its line break on. -/
def restOfLine : List Char → List Char × List Char
  | [] => ([], [])
  | '\n' :: rest => ([], '\n' :: rest)
  | '\r' :: '\n' :: rest => ([], '\n' :: rest)
  | c :: rest =>
    let (content, rest) := restOfLine rest
    (c :: content, rest)

/-- Reads a block comment after its opening; comments nest, and `depth` of them are open inside. -/
def blockComment (depth : Nat) : List Char → Option (List Char × List Char)
  | [] => none
  | '/' :: '*' :: rest => (blockComment (depth + 1) rest).map fun (content, rest) => ('/' :: '*' :: content, rest)
  | '*' :: '/' :: rest =>
    if depth = 0 then some ([], rest)
    else (blockComment (depth - 1) rest).map fun (content, rest) => ('*' :: '/' :: content, rest)
  | c :: rest => (blockComment depth rest).map fun (content, rest) => (c :: content, rest)

/-- Whether a text that starts a line comment documents something. -/
def isLineDoc : List Char → Bool
  | '/' :: '/' :: rest => rest.head? = some '!' || (rest.head? = some '/' && rest[1]? != some '/')
  | _ => false

/-- Whether a text that starts a block comment documents something. -/
def isBlockDoc : List Char → Bool
  | '/' :: '*' :: rest =>
    rest.head? = some '!' || (rest.head? = some '*' && rest[1]? != some '*' && rest[1]? != some '/')
  | _ => false

/-- Passes over an ordinary comment: its content and what follows it. -/
def comment? (s : List Char) : Option (List Char × List Char) :=
  match s with
  | '/' :: '/' :: rest => if isLineDoc s then none else some (restOfLine rest)
  | '/' :: '*' :: rest => if isBlockDoc s then none else blockComment 0 rest
  | _ => none

def lineBreaks (s : List Char) : Nat := s.count '\n'

/-- Passes over blanks and ordinary comments, counting lines. -/
def skipSeparators : Nat → Nat → List Char → Nat × List Char
  | 0, line, s => (line, s)
  | _ + 1, line, [] => (line, [])
  | fuel + 1, line, c :: rest =>
    match comment? (c :: rest) with
    | some (content, after) => skipSeparators fuel (line + lineBreaks content) after
    | none =>
      if isSeparator c then skipSeparators fuel (if c = '\n' then line + 1 else line) rest
      else (line, c :: rest)

/-- A carriage return inside a documentation comment belongs to a line break. -/
def hasLoneReturn : List Char → Bool
  | [] => false
  | '\r' :: rest => rest.head? != some '\n' || hasLoneReturn rest
  | _ :: rest => hasLoneReturn rest

/-- A documentation comment: whether it documents what surrounds it, its content, and what follows it. -/
def docComment? (s : List Char) : Option (Bool × List Char × List Char) :=
  let read : Option (Bool × List Char × List Char) := match s with
    | '/' :: '/' :: mark :: rest =>
      if isLineDoc s then
        let (content, rest) := restOfLine rest
        some (mark == '!', content, rest)
      else none
    | '/' :: '*' :: rest =>
      if isBlockDoc s then
        (blockComment 0 rest).map fun (content, after) => (rest.head? == some '!', content.drop 1, after)
      else none
    | _ => none
  read.filter fun (_, content, _) => !hasLoneReturn content

/-- The attribute that a documentation comment abbreviates. -/
def docTokens (inner : Bool) (content : List Char) : List Token :=
  [.mark '#' false] ++ (if inner then [.mark '!' false] else []) ++
    [.opening .bracket, .word "doc", .mark '=' false, .literal (.text (String.ofList content)), .closing .bracket]

/-- The punctuation characters. -/
def marks : List Char :=
  ['~', '!', '@', '#', '$', '%', '^', '&', '*', '-', '=', '+', '|', ';', ':', ',', '<', '.', '>', '/', '?', '\'']

/-- Whether a punctuation character, and not a comment, stands at the front of a text. -/
def startsMark : List Char → Bool
  | [] => false
  | c :: rest => marks.contains c && !(c == '/' && (rest.head? == some '/' || rest.head? == some '*'))

def isRaw (s : List Char) : Bool := ['r', '#'].isPrefixOf s

/-- An identifier at the front of a text, raw or not. Names with a meaning of their own have no raw form. -/
def word? (s : List Char) : Option (String × List Char) :=
  if isRaw s then do
    let (name, rest) ← identifier? (s.drop 2)
    if ["_", "super", "self", "Self", "crate"].contains (String.ofList name) then none
    else some (String.ofList ('r' :: '#' :: name), rest)
  else (identifier? s).map fun (name, rest) => (String.ofList name, rest)

/-- A punctuation character at the front of a text. An apostrophe needs a name behind it that no apostrophe closes. -/
def mark? (s : List Char) : Option (Token × List Char) :=
  match s with
  | [] => none
  | c :: rest =>
    if !startsMark s then none
    else if c = '\'' then do
      let (_, after) ← word? rest
      if after.head? = some '\'' || (after.head? = some '#' && !isRaw rest) then none
      else some (.mark '\'' true, rest)
    else some (.mark c (startsMark rest), rest)

/-- The openings of quoted literals, which are no identifiers even when the literal is malformed. -/
def quotationStarts : List String :=
  ["r\"", "r#\"", "r##", "b\"", "b'", "br\"", "br#", "c\"", "cr\"", "cr#"]

/-- A group that holds nothing but this comment stands for a literal that could not be shown. -/
def unshownLiteral : List Char := "(/*ERROR*/)".toList

/-- A literal, a punctuation character or an identifier, tried in this order. -/
def leaf? (s : List Char) : Option (Token × List Char) :=
  match literal? s with
  | some (value, rest) => some (.literal value, rest)
  | none =>
    match mark? s with
    | some found => some found
    | none =>
      if quotationStarts.any fun start => start.toList.isPrefixOf s then none
      else (word? s).map fun (name, rest) => (.word name, rest)

def delimiter? : Char → Option Token
  | '(' => some (.opening .parenthesis)
  | '[' => some (.opening .bracket)
  | '\x7b' => some (.opening .brace)
  | ')' => some (.closing .parenthesis)
  | ']' => some (.closing .bracket)
  | '\x7d' => some (.closing .brace)
  | _ => none

/-- The token at the front of a text that starts with no separator. -/
def token? : List Char → Option (Token × List Char)
  | [] => none
  | c :: rest =>
    if unshownLiteral.isPrefixOf (c :: rest) then some (.literal .other, (c :: rest).drop unshownLiteral.length)
    else
      match delimiter? c with
      | some token => some (token, rest)
      | none => leaf? (c :: rest)

/-- The tokens of a text whose first character stands on the given line; `none` when some part of it is no token. -/
def tokensFrom : Nat → Nat → List Char → Option (List Located)
  | 0, _, _ => none
  | fuel + 1, line, s =>
    match skipSeparators fuel line s with
    | (_, []) => some []
    | (line, s) =>
      match docComment? s with
      | some (inner, content, rest) =>
        let last := line + lineBreaks content
        (tokensFrom fuel last rest).map ((docTokens inner content).map (⟨·, line, last⟩) ++ ·)
      | none => do
        let (token, rest) ← token? s
        let last := if token.spansLines then line + lineBreaks (s.take (s.length - rest.length)) else line
        (tokensFrom fuel last rest).map (⟨token, line, last⟩ :: ·)

/-- The tokens of a text, after a byte order mark if it starts with one. -/
def tokens? (s : List Char) : Option (List Located) :=
  let s := if s.head? = some '\ufeff' then s.drop 1 else s
  tokensFrom (s.length + 1) 1 s

end Lexical
end ApiHandbook.Code
