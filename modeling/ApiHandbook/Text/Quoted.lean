import ApiHandbook.Text.CaseTable
import ApiHandbook.Text.PrintableTable

/-! A text in double quotes, as error messages show it: characters that would be invisible, or would join the character
before them, are written by their code point. -/
namespace ApiHandbook.Text

/-- Whether quoted text writes the character by its code point. -/
def needsCodePoint (c : Char) : Bool :=
  if c.toNat < 128 then c.toNat < 32 || c.toNat == 127
  else inRanges extendingRanges c.toNat || inRanges invisibleRanges c.toNat

def quotedChar (c : Char) : List Char :=
  if c = '\x00' then ['\\', '0']
  else if c = '\t' then ['\\', 't']
  else if c = '\n' then ['\\', 'n']
  else if c = '\r' then ['\\', 'r']
  else if c = '"' ∨ c = '\\' then ['\\', c]
  else if needsCodePoint c then ['\\', 'u', '\x7b'] ++ Nat.toDigits 16 c.toNat ++ ['\x7d']
  else [c]

def quoted (s : String) : String :=
  String.ofList ('"' :: s.toList.flatMap quotedChar ++ ['"'])

end ApiHandbook.Text
