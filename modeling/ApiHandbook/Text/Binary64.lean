/-! Floating-point numbers of 64 bits: the one nearest to a decimal fraction, and the shortest decimal that reads back as
it, both in exact arithmetic. -/
namespace ApiHandbook

/-- A number without its sign: `mantissa · 2 ^ exponent`, or beyond every finite number. -/
inductive Binary64 where
  | finite (mantissa : Nat) (exponent : Int)
  | infinite
  deriving DecidableEq, Repr

namespace Binary64

/-- The quotient rounded to the nearest natural number, a half to the even neighbour. -/
def roundHalfEven (num den : Nat) : Nat :=
  let q := num / den
  let twice := 2 * (num % den)
  if twice < den then q
  else if den < twice then q + 1
  else if q % 2 = 0 then q else q + 1

/-- `base ^ e` for a non-negative exponent and 1 for a negative one. -/
def powerAbove (base : Nat) (e : Int) : Nat := Nat.pow base e.toNat

/-- `⌊log₂ (num / den)⌋` for positive arguments. -/
def logTwo (num den : Nat) : Int :=
  let guess : Int := (Nat.log2 num : Int) - (Nat.log2 den : Int)
  if num * powerAbove 2 (-guess) < den * powerAbove 2 guess then guess - 1 else guess

/-- The number nearest to a positive fraction: 53 bits of precision, no bit below `2 ^ -1074`. -/
def ofFraction (num den : Nat) : Binary64 :=
  let exponent := max (logTwo num den - 52) (-1074)
  let mantissa := roundHalfEven (num * powerAbove 2 (-exponent)) (den * powerAbove 2 exponent)
  let (mantissa, exponent) := if mantissa = 0x20000000000000 then (0x10000000000000, exponent + 1) else (mantissa, exponent)
  if 971 < exponent then .infinite else .finite mantissa exponent

/-- The number nearest to `digits · 10 ^ exponent`; exponents far outside the range are settled without computing the
power. -/
def ofDecimal (digits : Nat) (exponent : Int) : Binary64 :=
  if digits = 0 then .finite 0 (-1074)
  else
    let magnitude := (Nat.toDigits 10 digits).length + exponent
    if 400 < magnitude then .infinite
    else if magnitude < -400 then .finite 0 (-1074)
    else ofFraction (digits * powerAbove 10 exponent) (powerAbove 10 (-exponent))

/-- The multiple of `10 ^ place` nearest to the number, if one lies among the decimals that read back as the number; a
tie goes up. -/
def onGrid? (mantissa : Nat) (exponent place : Int) : Option Nat :=
  let scale := powerAbove 2 exponent * powerAbove 10 (-place)
  let num := 4 * mantissa * scale
  let den := 4 * powerAbove 2 (-exponent) * powerAbove 10 place
  let gapBelow := if mantissa = 0x10000000000000 ∧ -1074 < exponent then scale else 2 * scale
  let inside (candidate : Nat) : Bool :=
    let point := candidate * den
    if mantissa % 2 = 0 then num - gapBelow ≤ point && point ≤ num + 2 * scale
    else num - gapBelow < point && point < num + 2 * scale
  let floor := num / den
  let downFits := 0 < floor && inside floor
  let upFits := inside (floor + 1)
  if upFits && (!downFits || den ≤ 2 * (num % den)) then some (floor + 1)
  else if downFits then some floor
  else none

/-- The coarsest grid, from `place` down, on which the number has a decimal of its own. -/
def coarsest (mantissa : Nat) (exponent : Int) : Nat → Int → Nat × Int
  | 0, place => (0, place)
  | fuel + 1, place =>
    match onGrid? mantissa exponent place with
    | some digits => (digits, place)
    | none => coarsest mantissa exponent fuel (place - 1)

/-- Writes `digits · 10 ^ place` without an exponent. -/
def positional (digits : Nat) (place : Int) : List Char :=
  let written := Nat.toDigits 10 digits
  if 0 ≤ place then written ++ List.replicate place.toNat '0'
  else
    let fraction := (-place).toNat
    let padded := List.replicate (fraction + 1 - written.length) '0' ++ written
    padded.take (padded.length - fraction) ++ '.' :: padded.drop (padded.length - fraction)

/-- The fewest digits that read back as the number, without an exponent and without a point for whole numbers. -/
def text : Binary64 → String
  | .infinite => "inf"
  | .finite mantissa exponent =>
    if mantissa = 0 then "0"
    else
      let (digits, place) := coarsest mantissa exponent 700 310
      String.ofList (positional digits place)

end Binary64
end ApiHandbook
