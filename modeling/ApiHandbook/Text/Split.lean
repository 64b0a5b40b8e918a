/-! Splitting a text at the occurrences of another text, from the left and without overlaps, and replacing them. -/
namespace ApiHandbook.Text

/-- What follows `start` in a text that begins with it. -/
def after? (start s : List Char) : Option (List Char) :=
  if start.isPrefixOf s then some (s.drop start.length) else none

/-- What stands before `ending` in a text that ends with it. -/
def before? (ending s : List Char) : Option (List Char) :=
  if ending.isSuffixOf s then some (s.take (s.length - ending.length)) else none

/-- The piece up to the first occurrence of `sep` and the pieces after it; `skip` characters of an occurrence just met
are still to be passed over. -/
def piecesFrom (sep : List Char) : Nat → List Char → List Char × List (List Char)
  | _, [] => ([], [])
  | skip + 1, _ :: rest => piecesFrom sep skip rest
  | 0, c :: rest =>
    if sep.isPrefixOf (c :: rest) then
      let (head, tail) := piecesFrom sep (sep.length - 1) rest
      ([], head :: tail)
    else
      let (head, tail) := piecesFrom sep 0 rest
      (c :: head, tail)

/-- The pieces of a text between the occurrences of a non-empty separator. -/
def splitAtText (sep s : List Char) : List (List Char) :=
  let (head, tail) := piecesFrom sep 0 s
  head :: tail

/-- Replaces every occurrence of `key`; the empty key stands before, after and between all characters. -/
def replace (key value s : List Char) : List Char :=
  if key.isEmpty then value ++ s.flatMap fun c => c :: value
  else value.intercalate (splitAtText key s)

/-- The parts before and after the first occurrence of a non-empty separator. -/
def cut? (sep s : List Char) : Option (List Char × List Char) :=
  match splitAtText sep s with
  | head :: next :: rest => some (head, sep.intercalate (next :: rest))
  | _ => none

end ApiHandbook.Text
