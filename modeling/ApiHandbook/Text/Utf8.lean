/-! Text out of bytes that need not be well formed. -/
namespace ApiHandbook.Text

/-- A character that is being read: the bits so far, the bytes that are still to come, and the range that the next one
must lie in. -/
structure PartialChar where
  bits : Nat
  missing : Nat
  low : Nat
  high : Nat

/-- What stands for bytes that are no text. -/
def replacement : Char := '\uFFFD'

/-- Reads the first byte of a character: a whole one, the start of a longer one, or neither. -/
def leadByte (b : Nat) : List Char × Option PartialChar :=
  if b < 0x80 then ([Char.ofNat b], none)
  else if 0xC2 ≤ b ∧ b ≤ 0xDF then ([], some ⟨b - 0xC0, 1, 0x80, 0xBF⟩)
  else if 0xE0 ≤ b ∧ b ≤ 0xEF then
    ([], some ⟨b - 0xE0, 2, if b = 0xE0 then 0xA0 else 0x80, if b = 0xED then 0x9F else 0xBF⟩)
  else if 0xF0 ≤ b ∧ b ≤ 0xF4 then
    ([], some ⟨b - 0xF0, 3, if b = 0xF0 then 0x90 else 0x80, if b = 0xF4 then 0x8F else 0xBF⟩)
  else ([replacement], none)

/-- Reads a byte after those of an unfinished character; one that does not continue it starts anew. -/
def nextByte (started : Option PartialChar) (b : Nat) : List Char × Option PartialChar :=
  match started with
  | none => leadByte b
  | some c =>
    if c.low ≤ b ∧ b ≤ c.high then
      let bits := c.bits * 64 + (b - 0x80)
      if c.missing = 1 then ([Char.ofNat bits], none) else ([], some ⟨bits, c.missing - 1, 0x80, 0xBF⟩)
    else
      let (cs, started) := leadByte b
      (replacement :: cs, started)

def lossyChars (started : Option PartialChar) : List UInt8 → List Char
  | [] => if started.isSome then [replacement] else []
  | b :: rest =>
    let (cs, started) := nextByte started b.toNat
    cs ++ lossyChars started rest

/-- The text of bytes; what is no text in them shows as replacement characters. -/
def lossyText (bytes : ByteArray) : String :=
  (String.fromUTF8? bytes).getD (String.ofList (lossyChars none bytes.toList))

end ApiHandbook.Text
