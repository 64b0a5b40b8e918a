import ApiHandbook.Text.Blank
import ApiHandbook.Text.Lines

/-! Lines of markdown that open or close a fenced block, and lines that are headings. -/
namespace ApiHandbook.Markdown

/-- What a fence is made of: a run of at least three equal characters. -/
structure Fence where
  char : Char
  length : Nat
  deriving DecidableEq, Repr

/-- The fence with which a line starts. -/
def Fence.ofLine? (line : List Char) : Option Fence :=
  match line with
  | c :: _ =>
    let length := (line.takeWhile (· == c)).length
    if (c.toNat == 0x60 || c == '~') && 3 ≤ length then some ⟨c, length⟩ else none
  | [] => none

/-- Whether a fence ends the block that `opening` began. -/
def Fence.closes (f opening : Fence) : Bool := f.char == opening.char && opening.length ≤ f.length

def Fence.text (f : Fence) : List Char := List.replicate f.length f.char

/-- The block that is open after a line that starts with a fence. -/
def afterFence (opened : Option Fence) (f : Fence) : Option Fence :=
  match opened with
  | none => some f
  | some opening => if f.closes opening then none else some opening

/-- The level of the heading that a line is: one to six hashes, then a space or the end. -/
def headingLevel? (line : List Char) : Option Nat :=
  let level := (line.takeWhile (· == '#')).length
  match line.drop level with
  | [] => if 1 ≤ level && level ≤ 6 then some level else none
  | c :: _ => if 1 ≤ level && level ≤ 6 && c == ' ' then some level else none

/-- Backticks that no run inside the text is as long as. -/
def fenceAround (content : List Char) : List Char :=
  let runs := (content.splitOnP fun c => c.toNat != 0x60).map List.length
  List.replicate (max (runs.max?.getD 0) 2 + 1) (Char.ofNat 0x60)

end ApiHandbook.Markdown
