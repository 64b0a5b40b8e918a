import ApiHandbook.Text.CaseTable
import ApiHandbook.Text.IdentifierTable

/-! The characters of identifiers: an underscore or a character with the property XID_Start, followed by characters with
the property XID_Continue. -/
namespace ApiHandbook.Text

def isIdentifierStart (c : Char) : Bool :=
  if c.toNat < 128 then c.isAlpha || c == '_' else inRanges identifierStartRanges c.toNat

def isIdentifierContinue (c : Char) : Bool :=
  if c.toNat < 128 then c.isAlphanum || c == '_' else inRanges identifierContinueRanges c.toNat

/-- The identifier at the front of a text, and what follows it. -/
def identifier? : List Char → Option (List Char × List Char)
  | [] => none
  | c :: rest =>
    if isIdentifierStart c then
      some (c :: rest.takeWhile isIdentifierContinue, rest.dropWhile isIdentifierContinue)
    else none

/-- What follows the identifier at the front of a text, if there is one. -/
def afterIdentifier (s : List Char) : List Char :=
  match identifier? s with
  | some (_, rest) => rest
  | none => s

end ApiHandbook.Text
