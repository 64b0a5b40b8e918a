import ApiHandbook.Data.Yaml.Scalar

/-! The tokens of a YAML text. Indentation opens and closes block collections, and a text before a colon turns out to be
a key only when the colon is met, so tokens are also put in front of earlier ones. -/
namespace ApiHandbook.Yaml

inductive Token where
  | streamStart
  | streamEnd
  | version (major minor : Nat)
  | tagDirective (handle : String)
  | documentStart
  | documentEnd
  | blockSequenceStart
  | blockMappingStart
  | blockEnd
  | flowSequenceStart
  | flowSequenceEnd
  | flowMappingStart
  | flowMappingEnd
  | blockEntry
  | flowEntry
  | key
  | value
  | alias (name : String)
  | anchor (name : String)
  | tag (handle suffix : String)
  | scalar (text : String) (style : Style)
  deriving DecidableEq, Repr

/-- A place that may turn out to be a key: it must, when it stands where a block mapping goes on. -/
structure SimpleKey where
  required : Bool
  /-- The number of the token that would be the key. -/
  number : Nat
  index : Nat
  line : Nat
  column : Nat

structure Scanner where
  cursor : Cursor
  tokens : List Token := []
  /-- The column of the innermost block collection, -1 outside. -/
  indent : Int := -1
  outerIndents : List Int := []
  keyAllowed : Bool := true
  /-- One possible key for each flow level, the innermost first. -/
  keys : List (Option SimpleKey) := [none]

namespace Scanner

def flowLevel (s : Scanner) : Nat := s.keys.length - 1

def inFlow (s : Scanner) : Bool := s.flowLevel != 0

def push (s : Scanner) (t : Token) : Scanner := { s with tokens := s.tokens ++ [t] }

def insertAt (s : Scanner) (number : Nat) (t : Token) : Scanner :=
  { s with tokens := s.tokens.take number ++ t :: s.tokens.drop number }

def advance (s : Scanner) (n : Nat) : Scanner := { s with cursor := s.cursor.skipMany n }

/-- A key must end on its line and within 1024 characters; a required one that does not is refused. -/
def dropStaleKeys (s : Scanner) : Option Scanner :=
  let stale (k : SimpleKey) : Bool := k.line < s.cursor.line || k.index + 1024 < s.cursor.index
  if s.keys.any fun k => k.any fun k => stale k && k.required then none
  else some { s with keys := s.keys.map fun k => k.filter fun k => !stale k }

/-- Gives up the innermost possible key, which must not be a required one. -/
def removeKey (s : Scanner) : Option Scanner :=
  match s.keys with
  | some k :: rest => if k.required then none else some { s with keys := none :: rest }
  | _ => some s

/-- Remembers this place as a possible key where one is allowed. -/
def saveKey (s : Scanner) : Option Scanner :=
  if s.keyAllowed then do
    let s ← s.removeKey
    let key : SimpleKey :=
      { required := !s.inFlow && s.indent == (s.cursor.column : Int)
        number := s.tokens.length
        index := s.cursor.index
        line := s.cursor.line
        column := s.cursor.column }
    pure { s with keys := some key :: s.keys.tail }
  else some s

/-- Opens a block collection at a column deeper than the innermost one. -/
def rollIndent (s : Scanner) (column number : Nat) (t : Token) : Scanner :=
  if s.inFlow then s
  else if s.indent < (column : Int) then
    { s with outerIndents := s.indent :: s.outerIndents, indent := column }.insertAt number t
  else s

/-- Closes the block collections deeper than a column. -/
def unrollIndent (s : Scanner) (column : Int) : Scanner :=
  if s.inFlow then s
  else
    let closed := (s.indent :: s.outerIndents).takeWhile fun i => column < i
    match (s.indent :: s.outerIndents).drop closed.length with
    | indent :: outer =>
      { s with
        tokens := s.tokens ++ closed.map fun _ => Token.blockEnd
        indent := indent, outerIndents := outer }
    | [] => s

/-- Passes blanks, comments and line breaks before a token. -/
def skipToToken : Nat → Scanner → Scanner
  | 0, s => s
  | fuel + 1, s =>
    let c := if s.cursor.index == 0 && s.cursor.nextIs (·.toNat == 0xFEFF) then s.cursor.skip else s.cursor
    let tabs := s.inFlow || !s.keyAllowed
    let (_, c) := c.readWhile fun ch => ch == ' ' || (tabs && ch == '\t')
    let c := if c.nextIs (· == '#') then (c.readWhile fun ch => !isBreak ch).2 else c
    if c.nextIs isBreak then
      skipToToken fuel { s with cursor := c.readBreak.2, keyAllowed := s.keyAllowed || !s.inFlow }
    else { s with cursor := c }

/-- The number in a version directive, of at most nine digits. -/
def readVersionNumber? (c : Cursor) : Option (Nat × Cursor) :=
  let (digits, c) := c.readWhile Char.isDigit
  if digits.isEmpty || 9 < digits.length then none
  else some (digits.foldl (fun n d => n * 10 + (d.toNat - '0'.toNat)) 0, c)

/-- A tag handle; in a directive it must end with a mark unless it is a single one. -/
def readHandle? (inDirective : Bool) (c : Cursor) : Option (List Char × Cursor) :=
  if c.nextIs (· == '!') then
    let (word, after) := c.skip.readWhile isWordChar
    if after.nextIs (· == '!') then some ('!' :: word ++ ['!'], after.skip)
    else if inDirective && !word.isEmpty then none
    else some ('!' :: word, after)
  else none

def isUriMark (c : Char) : Bool := ";/?:@&=+$.!~*'()".toList.contains c

/-- The number of bytes in the UTF-8 form that starts with a byte. -/
def utf8Width? (byte : Nat) : Option Nat :=
  if byte < 0x80 then some 1
  else if 0xC0 ≤ byte && byte < 0xE0 then some 2
  else if 0xE0 ≤ byte && byte < 0xF0 then some 3
  else if 0xF0 ≤ byte && byte < 0xF8 then some 4
  else none

/-- The bytes of an escaped character, each as a percent sign and two digits. -/
def readEscapedBytes? : Nat → Cursor → Option (List Nat × Cursor)
  | 0, c => some ([], c)
  | n + 1, c =>
    match c.rest with
    | '%' :: a :: b :: _ => do
      let high ← Json.hexValue? a
      let low ← Json.hexValue? b
      let (bytes, c) ← readEscapedBytes? n (c.skipMany 3)
      pure ((high * 16 + low) :: bytes, c)
    | _ => none

/-- A character that a tag writes by the bytes of its UTF-8 form. -/
def readUriEscape? (c : Cursor) : Option (Char × Cursor) := do
  let (first, _) ← readEscapedBytes? 1 c
  let width ← utf8Width? (first.headD 0)
  let (bytes, c) ← readEscapedBytes? width c
  let text ← String.fromUTF8? (ByteArray.mk (bytes.map UInt8.ofNat).toArray)
  pure (text.toList.headD ' ', c)

/-- The text of a tag; inside angle brackets it may also hold flow marks. -/
def readUri? (bracketed : Bool) : Nat → List Char → Cursor → Option (List Char × Cursor)
  | 0, text, c => some (text, c)
  | fuel + 1, text, c =>
    match c.next with
    | none => some (text, c)
    | some ch =>
      if ch == '%' then do
        let (escaped, c) ← readUriEscape? c
        readUri? bracketed fuel (text ++ [escaped]) c
      else if isWordChar ch || isUriMark ch || (bracketed && (ch == ',' || ch == '[' || ch == ']')) then
        readUri? bracketed fuel (text ++ [ch]) c.skip
      else some (text, c)

def readWholeUri? (bracketed : Bool) (c : Cursor) : Option (List Char × Cursor) :=
  readUri? bracketed (c.rest.length + 1) [] c

/-- A tag: in brackets, with a handle, or after a single mark. -/
def readTag? (inFlow : Bool) (c : Cursor) : Option (Token × Cursor) := do
  let (handle, suffix, c) ←
    if c.ahead 1 == some '<' then do
      let (uri, c) ← readWholeUri? true (c.skipMany 2)
      if uri.isEmpty || !c.nextIs (· == '>') then none
      pure ([], uri, c.skip)
    else do
      let (handle, c) ← readHandle? false c
      if 1 < handle.length && handle.getLast? == some '!' then do
        let (uri, c) ← readWholeUri? false c
        if uri.isEmpty then none
        pure (handle, uri, c)
      else do
        let (uri, c) ← readWholeUri? false c
        let suffix := handle.tail ++ uri
        if suffix.isEmpty then pure ([], ['!'], c) else pure (['!'], suffix, c)
  if (inFlow && c.nextIs (· == ',')) || c.spaceAhead 0 then
    pure (.tag (String.ofList handle) (String.ofList suffix), c)
  else none

/-- A directive after its percent sign. -/
def readDirective? (c : Cursor) : Option (Token × Cursor) := do
  let (name, c) := c.readWhile isWordChar
  if name.isEmpty || !c.spaceAhead 0 then none
  if name == "YAML".toList then do
    let (major, c) ← readVersionNumber? (c.readWhile isSpaceOrTab).2
    if !c.nextIs (· == '.') then none
    let (minor, c) ← readVersionNumber? c.skip
    let c ← c.finishLine?
    pure (.version major minor, c)
  else if name == "TAG".toList then do
    let (handle, c) ← readHandle? true (c.readWhile isSpaceOrTab).2
    if !c.nextIs isSpaceOrTab then none
    let (uri, c) ← readWholeUri? true (c.readWhile isSpaceOrTab).2
    if uri.isEmpty || !c.spaceAhead 0 then none
    let c ← c.finishLine?
    pure (.tagDirective (String.ofList handle), c)
  else none

/-- The name of an anchor or an alias after its mark. -/
def readAnchorName? (c : Cursor) : Option (String × Cursor) :=
  let (name, c) := c.readWhile isWordChar
  if name.isEmpty then none
  else if c.spaceAhead 0 || c.nextIs fun ch => "?:,]\x7d%@\x60".toList.contains ch then
    some (String.ofList name, c)
  else none

def pushDocumentMark (s : Scanner) (t : Token) : Option Scanner := do
  let s ← (s.unrollIndent (-1)).removeKey
  pure ({ s with keyAllowed := false }.advance 3 |>.push t)

def openFlow (s : Scanner) (t : Token) : Option Scanner := do
  let s ← s.saveKey
  pure ({ s with keys := none :: s.keys, keyAllowed := true }.advance 1 |>.push t)

def closeFlow (s : Scanner) (t : Token) : Option Scanner := do
  let s ← s.removeKey
  let keys := if s.inFlow then s.keys.tail else s.keys
  pure ({ s with keys, keyAllowed := false }.advance 1 |>.push t)

/-- Opens a block collection at this column for an entry or a key that stands alone. -/
def rollHere (s : Scanner) (t : Token) : Option Scanner :=
  if s.inFlow then some s
  else if s.keyAllowed then some (s.rollIndent s.cursor.column s.tokens.length t)
  else none

def scanBlockEntry (s : Scanner) : Option Scanner := do
  let s ← s.rollHere .blockSequenceStart
  let s ← s.removeKey
  pure ({ s with keyAllowed := true }.advance 1 |>.push .blockEntry)

def scanKey (s : Scanner) : Option Scanner := do
  let s ← s.rollHere .blockMappingStart
  let s ← s.removeKey
  pure ({ s with keyAllowed := !s.inFlow }.advance 1 |>.push .key)

/-- A colon makes a key of the place remembered before it, if there is one. -/
def scanValue (s : Scanner) : Option Scanner :=
  match s.keys with
  | some k :: rest =>
    let s := (s.insertAt k.number .key).rollIndent k.column k.number .blockMappingStart
    some ({ s with keys := none :: rest, keyAllowed := false }.advance 1 |>.push .value)
  | _ => do
    let s ← s.rollHere .blockMappingStart
    pure ({ s with keyAllowed := !s.inFlow }.advance 1 |>.push .value)

/-- Reads a token that may be a key. -/
def scanNode (s : Scanner) (read : Cursor → Option (Token × Cursor)) : Option Scanner := do
  let s ← s.saveKey
  let (t, cursor) ← read s.cursor
  pure ({ s with cursor, keyAllowed := false }.push t)

def scanQuoted (s : Scanner) (quote : Char) : Option Scanner :=
  s.scanNode fun c => (readQuoted quote (c.rest.length + 1) [] c.skip).map fun (text, c) =>
    (.scalar (String.ofList text) .other, c)

def scanBlockScalar (s : Scanner) (literal : Bool) : Option Scanner := do
  let s ← s.removeKey
  let (text, cursor) ← readBlock literal s.indent s.cursor.skip
  pure ({ s with cursor, keyAllowed := true }.push
    (.scalar (String.ofList text) (if literal then .literal else .other)))

def scanPlain (s : Scanner) : Option Scanner := do
  let s ← s.saveKey
  let (text, broken, cursor) ← readPlain s.inFlow (s.indent + 1) (s.cursor.rest.length + 1) {} [] s.cursor
  pure ({ s with cursor, keyAllowed := broken }.push (.scalar (String.ofList text) .plain))

/-- Characters that start no plain scalar, whatever follows them. -/
def isIndicator (c : Char) : Bool := "-?:,[]\x7b\x7d#&*!|>'\"%@\x60".toList.contains c

/-- Whether a plain scalar starts here. -/
def startsPlain (s : Scanner) (ch : Char) : Bool :=
  let c := s.cursor
  !(isIndicator ch || isSpaceOrTab ch || isBreak ch) || (ch == '-' && !(c.ahead 1).any isSpaceOrTab) ||
    (!s.inFlow && (ch == '?' || ch == ':') && !c.spaceAhead 1)

/-- Reads the next token, which starts with the given character. -/
def scanToken (s : Scanner) (ch : Char) : Option Scanner :=
  let c := s.cursor
  if c.column == 0 && ch == '%' then do
    let s ← (s.unrollIndent (-1)).removeKey
    let (t, cursor) ← readDirective? s.cursor.skip
    pure ({ s with cursor, keyAllowed := false }.push t)
  else if c.startsDocument '-' then s.pushDocumentMark .documentStart
  else if c.startsDocument '.' then s.pushDocumentMark .documentEnd
  else if ch == '[' then s.openFlow .flowSequenceStart
  else if ch == '{' then s.openFlow .flowMappingStart
  else if ch == ']' then s.closeFlow .flowSequenceEnd
  else if ch == '}' then s.closeFlow .flowMappingEnd
  else if ch == ',' then do
    let s ← s.removeKey
    pure ({ s with keyAllowed := true }.advance 1 |>.push .flowEntry)
  else if ch == '-' && c.spaceAhead 1 then s.scanBlockEntry
  else if ch == '?' && (s.inFlow || c.spaceAhead 1) then s.scanKey
  else if ch == ':' && (s.inFlow || c.spaceAhead 1) then s.scanValue
  else if ch == '*' then s.scanNode fun c => (readAnchorName? c.skip).map fun (name, c) => (.alias name, c)
  else if ch == '&' then s.scanNode fun c => (readAnchorName? c.skip).map fun (name, c) => (.anchor name, c)
  else if ch == '!' then s.scanNode (readTag? s.inFlow)
  else if ch == '|' && !s.inFlow then s.scanBlockScalar true
  else if ch == '>' && !s.inFlow then s.scanBlockScalar false
  else if ch == '\'' || ch == '"' then s.scanQuoted ch
  else if s.startsPlain ch then s.scanPlain
  else none

/-- Reads all tokens. -/
def scanAll : Nat → Scanner → Option (List Token)
  | 0, _ => none
  | fuel + 1, s => do
    let s ← (skipToToken (s.cursor.rest.length + 1) s).dropStaleKeys
    let s := s.unrollIndent s.cursor.column
    match s.cursor.next with
    | some ch => do
      let s ← s.scanToken ch
      scanAll fuel s
    | none => do
      let s ← (s.unrollIndent (-1)).removeKey
      pure (s.push .streamEnd).tokens

end Scanner

/-- The tokens of a text, unless it is none of the language's. -/
def tokens? (text : List Char) : Option (List Token) :=
  if text.all isAllowed then
    Scanner.scanAll (text.length + 2) { cursor := { rest := text }, tokens := [.streamStart] }
  else none

end ApiHandbook.Yaml
