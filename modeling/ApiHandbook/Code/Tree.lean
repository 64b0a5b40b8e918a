import ApiHandbook.Code.Token

/-! Token trees: tokens with what stands between two delimiters gathered into one group. -/
namespace ApiHandbook.Code

inductive Tree where
  | word (name : String) (line : Nat)
  | mark (c : Char) (joint : Bool) (line : Nat)
  | literal (value : Literal) (first last : Nat)
  | group (delimiter : Delimiter) (inner : List Tree) (first last : Nat)
  deriving Repr

namespace Tree

/-- The line on which a tree starts. -/
def first : Tree → Nat
  | .word _ line => line
  | .mark _ _ line => line
  | .literal _ first _ => first
  | .group _ _ first _ => first

/-- The line on which a tree ends. -/
def last : Tree → Nat
  | .word _ line => line
  | .mark _ _ line => line
  | .literal _ _ last => last
  | .group _ _ _ last => last

mutual

/-- The number of trees in a tree, itself included. -/
def size : Tree → Nat
  | .group _ inner _ _ => sizeAll inner + 1
  | _ => 1

def sizeAll : List Tree → Nat
  | [] => 0
  | t :: rest => t.size + sizeAll rest

end

/-- A group still open: its delimiter, the line of it, and the trees in front of the group, last first. -/
structure Opening where
  delimiter : Delimiter
  first : Nat
  before : List Tree

/-- Gathers tokens into groups; `done` holds the trees of the innermost open group, last first. -/
def gather (opened : List Opening) (done : List Tree) : List Located → Option (List Tree)
  | [] => if opened.isEmpty then some done.reverse else none
  | ⟨token, first, last⟩ :: rest =>
    match token with
    | .opening delimiter => gather (⟨delimiter, first, done⟩ :: opened) [] rest
    | .closing delimiter =>
      match opened with
      | [] => none
      | o :: opened =>
        if o.delimiter = delimiter then gather opened (.group delimiter done.reverse o.first last :: o.before) rest
        else none
    | .word name => gather opened (.word name first :: done) rest
    | .mark c joint => gather opened (.mark c joint first :: done) rest
    | .literal value => gather opened (.literal value first last :: done) rest

/-- The trees of a text; `none` when it has no tokens or its delimiters do not match. -/
def ofText? (s : List Char) : Option (List Tree) :=
  (Lexical.tokens? s).bind (gather [] [])

end Tree
end ApiHandbook.Code
