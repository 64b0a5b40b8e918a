import ApiHandbook.Data.Json
import ApiHandbook.Data.Yaml.Cursor

/-! The scalars of a YAML text: quoted, block and plain ones, with the folding of their lines. -/
namespace ApiHandbook.Yaml

/-- How a scalar is written, as far as its reading depends on it. -/
inductive Style where
  | plain
  | literal
  | other
  deriving DecidableEq, Repr

/-- The blanks and line breaks between two runs of a scalar. -/
structure Gap where
  /-- Whether a line break has been met. -/
  broken : Bool := false
  blanks : List Char := []
  firstBreak : List Char := []
  furtherBreaks : List Char := []

/-- What a gap contributes: a single line feed becomes a space, further ones stay. -/
def Gap.folded (g : Gap) : List Char :=
  if g.broken then
    if g.firstBreak == ['\n'] then if g.furtherBreaks.isEmpty then [' '] else g.furtherBreaks
    else g.firstBreak ++ g.furtherBreaks
  else g.blanks

/-- Reads a gap. Below `tabLimit` columns no tab may indent a further line. -/
def readGap (tabLimit : Int) : Nat → Gap → Cursor → Option (Gap × Cursor)
  | 0, g, c => some (g, c)
  | fuel + 1, g, c =>
    match c.next with
    | none => some (g, c)
    | some ch =>
      if isSpaceOrTab ch then
        if g.broken && (c.column : Int) < tabLimit && ch == '\t' then none
        else if g.broken then readGap tabLimit fuel g c.skip
        else readGap tabLimit fuel { g with blanks := g.blanks ++ [ch] } c.skip
      else if isBreak ch then
        let (brk, c) := c.readBreak
        if g.broken then readGap tabLimit fuel { g with furtherBreaks := g.furtherBreaks ++ brk } c
        else readGap tabLimit fuel { g with broken := true, blanks := [], firstBreak := brk } c
      else some (g, c)

/-- The value of `n` hexadecimal digits, if it is a character. -/
def hexChar? (digits : List Char) : Option Char := do
  let values ← digits.mapM Json.hexValue?
  let code := values.foldl (fun n d => n * 16 + d) 0
  if (0xD800 ≤ code && code ≤ 0xDFFF) || 0x10FFFF < code then none else some (Char.ofNat code)

/-- The character of a one-letter escape. -/
def shortEscape? (c : Char) : Option Char :=
  (([('0', 0), ('a', 7), ('b', 8), ('t', 9), ('\t', 9), ('n', 10), ('v', 11), ('f', 12), ('r', 13), ('e', 27),
    (' ', 32), ('"', 34), ('/', 47), ('\\', 92), ('N', 0x85), ('_', 0xA0), ('L', 0x2028), ('P', 0x2029)] :
    List (Char × Nat)).lookup c).map Char.ofNat

/-- The number of hexadecimal digits after an escape letter. -/
def hexLength? (c : Char) : Option Nat := [('x', 2), ('u', 4), ('U', 8)].lookup c

/-- An escape after its backslash. -/
def readEscape? (c : Cursor) : Option (Char × Cursor) := do
  let letter ← c.next
  match shortEscape? letter with
  | some ch => pure (ch, c.skip)
  | none => do
    let n ← hexLength? letter
    let digits := (c.rest.drop 1).take n
    if digits.length != n then none
    let ch ← hexChar? digits
    pure (ch, c.skipMany (n + 1))

/-- Reads a quoted scalar after its opening quote; the quote decides whether backslashes escape. -/
def readQuoted (quote : Char) : Nat → List Char → Cursor → Option (List Char × Cursor)
  | 0, _, _ => none
  | fuel + 1, text, c =>
    if c.atDocumentMark then none
    else match c.next with
      | none => none
      | some ch =>
        if ch == quote then
          if quote == '\'' && c.ahead 1 == some '\'' then readQuoted quote fuel (text ++ ['\'']) (c.skipMany 2)
          else some (text, c.skip)
        else if isSpaceOrTab ch || isBreak ch then do
          let (gap, c) ← readGap 0 (c.rest.length + 1) {} c
          readQuoted quote fuel (text ++ gap.folded) c
        else if quote == '"' && ch == '\\' then
          if (c.ahead 1).any isBreak then do
            let (gap, c) ← readGap 0 (c.rest.length + 1) { broken := true } c.skip.readBreak.2
            readQuoted quote fuel (text ++ gap.folded) c
          else do
            let (escaped, c) ← readEscape? c.skip
            readQuoted quote fuel (text ++ [escaped]) c
        else readQuoted quote fuel (text ++ [ch]) c.skip

/-- Whether a character separates entries of a flow collection. -/
def isFlowMark (c : Char) : Bool := c == ',' || c == '[' || c == ']' || c == '{' || c == '}'

/-- Reads one run of a plain scalar without blanks. A colon before a flow mark is refused inside flow collections. -/
def readPlainRun (inFlow : Bool) : Nat → List Char → Cursor → Option (List Char × Cursor)
  | 0, run, c => some (run, c)
  | fuel + 1, run, c =>
    match c.next with
    | none => some (run, c)
    | some ch =>
      if isSpaceOrTab ch || isBreak ch then some (run, c)
      else if inFlow && ch == ':' && (c.ahead 1).any fun d => isFlowMark d || d == '?' then none
      else if (ch == ':' && c.spaceAhead 1) || (inFlow && isFlowMark ch) then some (run, c)
      else readPlainRun inFlow fuel (run ++ [ch]) c.skip

/-- Reads a plain scalar, of several lines if they are indented deep enough. Tells also whether the last gap broke
the line. -/
def readPlain (inFlow : Bool) (indent : Int) : Nat → Gap → List Char → Cursor → Option (List Char × Bool × Cursor)
  | 0, gap, text, c => some (text, gap.broken, c)
  | fuel + 1, gap, text, c =>
    if c.atDocumentMark || c.nextIs (· == '#') then some (text, gap.broken, c)
    else do
      let (run, c) ← readPlainRun inFlow (c.rest.length + 1) [] c
      let text := if run.isEmpty then text else text ++ gap.folded ++ run
      let gap := if run.isEmpty then gap else {}
      if !(c.nextIs fun ch => isSpaceOrTab ch || isBreak ch) then pure (text, gap.broken, c)
      else
        let (gap, c) ← readGap indent (c.rest.length + 1) gap c
        if !inFlow && (c.column : Int) < indent then pure (text, gap.broken, c)
        else readPlain inFlow indent fuel gap text c

/-- The line breaks before the next line of a block scalar, and the indentation if it is still to be found. -/
def readBlockBreaks (parentIndent : Int) (indent : Nat) : Nat → Nat → List Char → Cursor →
    Option (Nat × List Char × Cursor)
  | 0, _, _, _ => none
  | fuel + 1, widest, breaks, c =>
    let spaces := (c.rest.takeWhile (· == ' ')).length
    let c := c.skipMany (if indent == 0 then spaces else min spaces (indent - c.column))
    let widest := max widest c.column
    if (indent == 0 || c.column < indent) && c.nextIs (· == '\t') then none
    else if c.nextIs isBreak then
      let (brk, c) := c.readBreak
      readBlockBreaks parentIndent indent fuel widest (breaks ++ brk) c
    else
      let found := max (max widest (parentIndent + 1).toNat) 1
      some (if indent == 0 then found else indent, breaks, c)

/-- What happens to the line breaks at the end of a block scalar. -/
inductive Chomping where
  | strip
  | clip
  | keep
  deriving DecidableEq

/-- Reads the lines of a block scalar. `held` is the break after the line before, `breaks` the empty lines after it. -/
def readBlockLines (literal : Bool) (chomping : Chomping) (parentIndent : Int) (indent : Nat) :
    Nat → Bool → List Char → List Char → List Char → Cursor → Option (List Char × Cursor)
  | 0, _, _, _, _, _ => none
  | fuel + 1, blankBefore, held, breaks, text, c =>
    if c.column == indent && !c.rest.isEmpty then
      let blankHere := c.nextIs isSpaceOrTab
      let joint :=
        if !literal && held == ['\n'] && !blankBefore && !blankHere then if breaks.isEmpty then [' '] else []
        else held
      let (line, c) := c.readWhile fun ch => !isBreak ch
      let (held, c) := c.readBreak
      do
        let (_, further, c) ← readBlockBreaks parentIndent indent (c.rest.length + 1) 0 [] c
        readBlockLines literal chomping parentIndent indent fuel blankHere held further
          (text ++ joint ++ breaks ++ line) c
    else
      let ending := match chomping with
        | .strip => []
        | .clip => held
        | .keep => held ++ breaks
      some (text ++ ending, c)

def chomping? (c : Char) : Option Chomping :=
  if c = '+' then some .keep else if c = '-' then some .strip else none

/-- The chomping and indentation indicators of a block scalar, in either order; an indentation of zero is refused. -/
def readBlockHeader? (c : Cursor) : Option (Chomping × Nat × Cursor) :=
  let chompingAt (c : Cursor) : Option Chomping × Cursor :=
    match c.next.bind chomping? with
    | some mode => (some mode, c.skip)
    | none => (none, c)
  let digitAt (c : Cursor) : Option Nat × Cursor :=
    match c.next with
    | some ch => if ch.isDigit then (some (ch.toNat - '0'.toNat), c.skip) else (none, c)
    | none => (none, c)
  let (first, c) := chompingAt c
  let (digit, c) := digitAt c
  let (second, c) := if first.isNone && digit.isSome then chompingAt c else (none, c)
  if digit == some 0 then none
  else some ((first.or second).getD .clip, digit.getD 0, c)

/-- Reads a block scalar after its opening mark. -/
def readBlock (literal : Bool) (parentIndent : Int) (c : Cursor) : Option (List Char × Cursor) := do
  let (chomping, increment, c) ← readBlockHeader? c
  let c ← c.finishLine?
  let wanted := if increment == 0 then 0 else (max parentIndent 0).toNat + increment
  let (indent, breaks, c) ← readBlockBreaks parentIndent wanted (c.rest.length + 1) 0 [] c
  readBlockLines literal chomping parentIndent indent (c.rest.length + 2) false [] breaks [] c

end ApiHandbook.Yaml
