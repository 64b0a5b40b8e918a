/-! A place in a YAML text, and the classes of characters that its grammar distinguishes. -/
namespace ApiHandbook.Yaml

def isBreak (c : Char) : Bool :=
  c == '\n' || c == '\r' || c.toNat == 0x85 || c.toNat == 0x2028 || c.toNat == 0x2029

def isSpaceOrTab (c : Char) : Bool := c == ' ' || c == '\t'

/-- The characters of anchors, tag handles and directive names. -/
def isWordChar (c : Char) : Bool := c.isAlphanum || c == '-' || c == '_'

/-- The characters that a document may hold. -/
def isAllowed (c : Char) : Bool :=
  let n := c.toNat
  n == 9 || n == 0xA || n == 0xD || (0x20 ≤ n && n ≤ 0x7E) || n == 0x85 || (0xA0 ≤ n && n ≤ 0xD7FF) ||
    (0xE000 ≤ n && n ≤ 0xFFFD) || 0x10000 ≤ n

/-- What is left of the text, and where its first character stands. -/
structure Cursor where
  rest : List Char
  index : Nat := 0
  line : Nat := 0
  column : Nat := 0

namespace Cursor

/-- The character `n` places ahead. -/
def ahead (c : Cursor) (n : Nat) : Option Char := c.rest[n]?

def next (c : Cursor) : Option Char := c.rest.head?

/-- Whether a blank, a line break or the end stands `n` places ahead. -/
def spaceAhead (c : Cursor) (n : Nat) : Bool :=
  match c.ahead n with
  | none => true
  | some ch => isSpaceOrTab ch || isBreak ch

/-- Whether the next character satisfies `p`. -/
def nextIs (c : Cursor) (p : Char → Bool) : Bool := c.next.any p

def skip (c : Cursor) : Cursor := { c with rest := c.rest.tail, index := c.index + 1, column := c.column + 1 }

def skipMany (n : Nat) (c : Cursor) : Cursor := Nat.repeat skip n c

/-- Passes a line break and tells how it is read: one line feed, but for the two separators of their own. -/
def readBreak (c : Cursor) : List Char × Cursor :=
  match c.rest with
  | '\r' :: '\n' :: rest => (['\n'], ⟨rest, c.index + 2, c.line + 1, 0⟩)
  | ch :: rest =>
    if isBreak ch then
      (if ch.toNat == 0x2028 || ch.toNat == 0x2029 then [ch] else ['\n'], ⟨rest, c.index + 1, c.line + 1, 0⟩)
    else ([], c)
  | [] => ([], c)

/-- Reads the longest run of characters satisfying `p`, none of them a line break. -/
def readWhile (c : Cursor) (p : Char → Bool) : List Char × Cursor :=
  let run := c.rest.takeWhile p
  (run, { c with
    rest := c.rest.drop run.length, index := c.index + run.length, column := c.column + run.length })

/-- Whether a line starts here with three equal marks and then a space or the end. -/
def startsDocument (c : Cursor) (mark : Char) : Bool :=
  c.column == 0 && c.rest.take 3 == [mark, mark, mark] && c.spaceAhead 3

def atDocumentMark (c : Cursor) : Bool := c.startsDocument '-' || c.startsDocument '.'

/-- The rest of a line after a directive or a header: blanks, perhaps a comment, and the line break. -/
def finishLine? (c : Cursor) : Option Cursor :=
  let (_, c) := c.readWhile isSpaceOrTab
  let c := if c.nextIs (· == '#') then (c.readWhile fun ch => !isBreak ch).2 else c
  match c.next with
  | none => some c
  | some ch => if isBreak ch then some c.readBreak.2 else none

end Cursor
end ApiHandbook.Yaml
