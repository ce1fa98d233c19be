import Offload.Number.Basic
import Offload.Number.Shortest

namespace Offload

/-- The choices that turn decimal digits into text. -/
structure NumberLayout where
  /-- Where a value half way between two shortest texts goes. -/
  tie : Tie
  /-- Is a number written without exponent when its leading digit has this exponent of ten? -/
  positional : Int → Bool
  /-- Does a whole number written without exponent keep a zero after the point? -/
  pointZero : Bool

/-- Digits without exponent: zeros fill up to the point on either side. -/
def positionalText (pointZero : Bool) (d : Decimal) : List Char :=
  let digits := decimal d.digits
  let whole := digits.length + d.exponent
  if 0 ≤ d.exponent then
    digits ++ List.replicate d.exponent.toNat '0' ++ (if pointZero then ['.', '0'] else [])
  else if 0 < whole then
    digits.take whole.toNat ++ '.' :: digits.drop whole.toNat
  else
    '0' :: '.' :: List.replicate (-whole).toNat '0' ++ digits

/-- Digits with an exponent: the point follows the first digit, and the exponent has its sign. -/
def exponentText (d : Decimal) : List Char :=
  let digits := decimal d.digits
  let fraction := digits.drop 1
  digits.take 1 ++ (if fraction.isEmpty then [] else '.' :: fraction) ++ 'e' ::
    (if 0 ≤ d.leading then '+' :: signedDecimal d.leading else signedDecimal d.leading)

/-- The text of a finite double's magnitude. -/
def magnitudeText (layout : NumberLayout) (bits : UInt64) : List Char :=
  let b := Binary.ofBits bits
  if b.mantissa = 0 then positionalText layout.pointZero ⟨0, 0⟩
  else
    let d := b.shortest layout.tie
    if layout.positional d.leading then positionalText layout.pointZero d else exponentText d

namespace Number

def isInfinite (x : Number) : Bool :=
  x.value.isInf

/-- Is the sign bit set? Zero has a sign too. -/
def isNegative (x : Number) : Bool :=
  9223372036854775808 ≤ x.value.toBits.toNat

def layout (form : NumberLayout) (x : Number) : List Char :=
  (if x.isNegative then ['-'] else []) ++
    (if x.isInfinite then "inf".toList else magnitudeText form x.value.toBits)

/-- Numbers shown to a reader never have an exponent, whole ones have no point, and a tie goes up. -/
def display (x : Number) : List Char :=
  x.layout ⟨.up, fun _ => true, false⟩

/-- Numbers in JSON text have an exponent below `10 ^ -5` and from `10 ^ 16` on, always show a
fraction otherwise, and a tie goes to the even digit. -/
def json (x : Number) : List Char :=
  x.layout ⟨.even, fun leading => -5 ≤ leading ∧ leading ≤ 15, true⟩

end Number

end Offload
