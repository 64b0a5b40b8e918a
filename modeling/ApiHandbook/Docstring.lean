import ApiHandbook.Text.Blank
import ApiHandbook.Text.Lines
import ApiHandbook.Text.Split

/-! A docstring is a summary line, free prose, and a markdown block between two delimiters. The block loses the
indentation of its opening delimiter. -/
namespace ApiHandbook

/-- The parts of a docstring as the documentation shows them. -/
structure Docstring where
  /-- The first line of the prose that is not blank, trimmed. -/
  summary : String
  /-- The prose without its summary line. -/
  body : String
  /-- The whole prose. -/
  prose : String
  /-- The markdown block, empty when there is none. -/
  markdown : String
  deriving DecidableEq, Repr

namespace Docstring
open Text

/-- Opens and closes the markdown block. -/
def delimiter : List Char := ['@', '@', '@']

/-- Removes exactly `n` bytes of UTF-8 from the front, unless that would cut a character or exceed the text. -/
def dropBytes? : Nat → List Char → Option (List Char)
  | 0, s => some s
  | _ + 1, [] => none
  | n + 1, c :: rest => if c.utf8Size ≤ n + 1 then dropBytes? (n + 1 - c.utf8Size) rest else none

def leadingSpaces (line : List Char) : Nat := (line.takeWhile (· == ' ')).length

/-- The least indentation of the lines that are not blank. -/
def commonIndent (ls : List (List Char)) : Nat :=
  (((ls.filter fun line => !isBlankText line).map leadingSpaces).min?).getD 0

/-- Removes the indentation shared by all lines that are not blank. -/
def dedent (s : List Char) : List Char :=
  joinLines ((lines s).map fun line => (dropBytes? (commonIndent (lines s)) line).getD (trimStart line))

def summaryOf (prose : List Char) : List Char :=
  (((lines prose).map trim).find? fun line => !line.isEmpty).getD []

/-- The prose without the first line that reads as the summary. -/
def withoutSummary (prose summary : List Char) : List Char :=
  let kept := if summary.isEmpty then lines prose else (lines prose).eraseP fun line => trim line == summary
  trim (dedent (joinLines kept))

/-- The number of spaces on the last line of the prose, where the opening delimiter stands. -/
def delimiterIndent (prose : List Char) : Nat :=
  ((prose.splitOn '\n').getLastD []).count ' '

def isLineBreak (c : Char) : Bool := c == '\n' || c == '\r'

/-- Takes `indent` spaces from each line that starts with as many, then tidies both ends. -/
def unindentBlock (indent : Nat) (block : List Char) : List Char :=
  let pad := List.replicate indent ' '
  trimEnd (stripWhile isLineBreak
    (joinLines ((block.splitOn '\n').map fun line => (after? pad line).getD line)))

/-- Tabs count as four spaces. -/
def expandTabs (s : List Char) : List Char :=
  s.flatMap fun c => if c == '\t' then [' ', ' ', ' ', ' '] else [c]

/-- The parts of a raw docstring. `fallback` stands for an empty body or prose; with `allMarkdown` a docstring without
delimiters reads as if its body were delimited. -/
def split (fallback : String) (allMarkdown : Bool) (raw : String) : Docstring :=
  let sections := splitAtText delimiter (expandTabs raw.toList)
  let proseSection := sections.headD []
  let summary := summaryOf proseSection
  let body := withoutSummary proseSection summary
  let prose := trim (dedent proseSection)
  let orFallback (s : List Char) : String := if s.isEmpty then fallback else String.ofList s
  match sections with
  | _ :: block :: _ =>
    ⟨String.ofList summary, orFallback body, orFallback prose,
      String.ofList (unindentBlock (delimiterIndent proseSection) block)⟩
  | _ =>
    if allMarkdown && !body.isEmpty then
      ⟨String.ofList summary, fallback, orFallback summary, String.ofList body⟩
    else ⟨String.ofList summary, orFallback body, orFallback prose, ""⟩

/-- Replaces every occurrence of each key by its text, one key after the other. -/
def fillIn (replacements : List (String × String)) (doc : String) : String :=
  replacements.foldl (fun text (key, value) => mapped (replace key.toList value.toList) text) doc

end Docstring
end ApiHandbook
