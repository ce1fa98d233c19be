namespace Offload

/-- Where a value half way between two decimal neighbours goes. -/
inductive Tie
  | up
  | even
  deriving DecidableEq

/-- A positive finite double as `mantissa * 2 ^ exponent`. The gap to the next lower double is half
as wide as the gap to the next higher one exactly when `narrow` holds. -/
structure Binary where
  mantissa : Nat
  exponent : Int
  narrow : Bool

/-- The decomposition of the magnitude of a finite double: the low 52 bits are the fraction, and the 11 bits
above them are the exponent, which is zero if there is no hidden bit. -/
def Binary.ofBits (bits : UInt64) : Binary :=
  let fraction : Nat := bits.toNat % 4503599627370496
  let biased : Nat := bits.toNat / 4503599627370496 % 2048
  if biased = 0 then ⟨fraction, -1074, false⟩
  else ⟨fraction + 4503599627370496, biased - 1075, fraction = 0 ∧ 1 < biased⟩

/-- The decimal number `digits * 10 ^ exponent`. -/
structure Decimal where
  digits : Nat
  exponent : Int
  deriving DecidableEq

namespace Decimal

/-- Moves trailing zeros of the digits into the exponent, for at most `fuel` digits. -/
def strip : Nat → Decimal → Decimal
  | 0, d => d
  | fuel + 1, d =>
    if d.digits ≠ 0 ∧ d.digits % 10 = 0 then strip fuel ⟨d.digits / 10, d.exponent + 1⟩ else d

def leading (d : Decimal) : Int :=
  d.exponent + ((Nat.toDigits 10 d.digits).length - 1)

end Decimal

namespace Binary

/-- The value is `4 * mantissa` quarters of a unit in the last place, and the interval of reals that
round to it reaches from `low` to `high` quarters. -/
def low (b : Binary) : Nat :=
  if b.narrow then 4 * b.mantissa - 1 else 4 * b.mantissa - 2

/-- The upper end of the interval of reals that round to the value, in quarters. -/
def high (b : Binary) : Nat :=
  4 * b.mantissa + 2

/-- One quarter of a unit in the last place is the quotient of these two numbers. -/
def quarter (b : Binary) : Nat × Nat :=
  (Nat.pow 2 (b.exponent - 2).toNat, Nat.pow 2 (2 - b.exponent).toNat)

/-- The exponent of ten of the leading decimal digit of the value. -/
def magnitude (b : Binary) : Int :=
  let num := 4 * b.mantissa * b.quarter.1
  let den := b.quarter.2
  if den ≤ num then (Nat.toDigits 10 (num / den)).length - 1
  else -((Nat.toDigits 10 ((den - 1) / num)).length : Int)

/-- The decimal neighbour of the value on the grid of step `10 ^ place` that reads back as the value:
the nearer one if both do, and none if neither does. -/
def neighbour? (tie : Tie) (b : Binary) (place : Int) : Option Decimal :=
  let value := b.quarter.1 * Nat.pow 10 (-place).toNat
  let step := b.quarter.2 * Nat.pow 10 place.toNat
  let centre := 4 * b.mantissa * value
  let below := centre / step
  let above := below + 1
  let closed := b.mantissa % 2 == 0
  let reachesBelow := b.low * value < below * step || (closed && b.low * value == below * step)
  let reachesAbove := above * step < b.high * value || (closed && above * step == b.high * value)
  let nearerBelow := 2 * (centre % step) < step ||
    (2 * (centre % step) == step && tie == .even && below % 2 == 0)
  if reachesBelow && (!reachesAbove || nearerBelow) then some ⟨below, place⟩
  else if reachesAbove then some ⟨above, place⟩
  else none

/-- The fewest digits that read back as the value; seventeen always do. -/
def shortest (tie : Tie) (b : Binary) : Decimal :=
  let found := (List.range 17).findSome? fun (i : Nat) => b.neighbour? tie (b.magnitude - i)
  Decimal.strip 17 (found.getD ⟨0, 0⟩)

end Binary

end Offload
