import ApiHandbook.Markdown.Fence

/-! Pushing the headings of a markdown text down, outside its fenced blocks; a block left open at the end is closed. -/
namespace ApiHandbook.Markdown
open Text

/-- A heading of level `level` pushed down, capped at six hashes. -/
def demotedHeading (levels level : Nat) (line : List Char) : List Char :=
  List.replicate (min (level + levels) 6) '#' ++ line.drop level

/-- The lines of a text after demotion, given the block that is open before them. -/
def demotedLines (levels : Nat) (opened : Option Fence) : List (List Char) → List (List Char)
  | [] => match opened with
    | some fence => [fence.text]
    | none => []
  | line :: rest =>
    match Fence.ofLine? (trimStart line) with
    | some fence => line :: demotedLines levels (afterFence opened fence) rest
    | none =>
      match opened, headingLevel? (trimStart line) with
      | none, some level => demotedHeading levels level (trimStart line) :: demotedLines levels opened rest
      | _, _ => line :: demotedLines levels opened rest

def demoteHeadings (levels : Nat) (s : List Char) : List Char :=
  joinLines (demotedLines levels none (lines s))

end ApiHandbook.Markdown
