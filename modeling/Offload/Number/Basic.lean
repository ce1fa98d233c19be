import Offload.Text.Digits

namespace Offload

/-- A double, infinite or finite, that is not NaN. -/
structure Number where
  value : Float
  ordered : value.isNaN = false
  deriving DecidableEq

namespace Number

/-- The number of a double, unless the double is NaN. -/
def ofFloat? (x : Float) : Option Number :=
  if ordered : x.isNaN = false then some ⟨x, ordered⟩ else none

/-- Numeric equality, for which the two zeros are one. -/
def same (a b : Number) : Bool :=
  a.value == b.value

end Number

def infiniteDouble : Float :=
  Float.ofBits 0x7FF0000000000000

def signedDouble (negative : Bool) (magnitude : Float) : Float :=
  if negative then -magnitude else magnitude

/-- The double nearest to `digits * 10 ^ exponent`: infinite above the range of finite doubles, zero
below it. Magnitudes far outside the range are settled without computing the power. -/
def nearestDouble (digits : Nat) (exponent : Int) : Float :=
  let size := (decimal digits).length + exponent
  if digits = 0 ∨ size < -400 then 0
  else if 400 < size then infiniteDouble
  else if 0 ≤ exponent then Float.ofScientific digits false exponent.toNat
  else Float.ofScientific digits true (-exponent).toNat

/-- An exponent mark with a signed number that ends the text; no text at all is exponent zero. -/
def decimalExponent? : List Char → Option Int
  | [] => some 0
  | mark :: rest =>
    let (negative, digits) := spanSign rest
    if (mark == 'e' || mark == 'E') && !digits.isEmpty && digits.all Char.isDigit then
      some (if negative then -(digitsValue digits : Int) else digitsValue digits)
    else none

/-- The magnitude of an unsigned decimal text such as 12, 0.5, .5, 5. or 1e-7. -/
def decimalMagnitude? (cs : List Char) : Option Float := do
  let (whole, rest) := spanDigits cs
  let (fraction, rest) := match rest with
    | '.' :: rest => spanDigits rest
    | rest => ([], rest)
  let exponent ← decimalExponent? rest
  if whole.isEmpty && fraction.isEmpty then none
  else some (nearestDouble (digitsValue (whole ++ fraction)) (exponent - fraction.length))

/-- The double that a text denotes: a decimal text with an optional sign, or one of the words inf,
infinity and nan in any case. -/
def doubleOfText? (text : String) : Option Float :=
  let (negative, cs) := spanSign text.toList
  let magnitude := match String.ofList (cs.map Char.toLower) with
    | "inf" => some infiniteDouble
    | "infinity" => some infiniteDouble
    | "nan" => some (infiniteDouble - infiniteDouble)
    | _ => decimalMagnitude? cs
  magnitude.map (signedDouble negative)

end Offload
