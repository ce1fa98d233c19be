import Offload.Json.Basic
import Offload.Json.Raw
import Offload.Table

namespace Offload

namespace Numeral

/-- The whole number that a literal without fraction and exponent denotes, if it fits a signed or an
unsigned word of 64 bits. A negative zero is not a whole number. -/
def int? (literal : Numeral) : Option Int :=
  let size := digitsValue literal.whole
  if !literal.fraction.isEmpty || literal.exponent.isSome then none
  else if literal.negative then
    if 0 < size ∧ size ≤ 9223372036854775808 then some (-(size : Int)) else none
  else if size < 18446744073709551616 then some size else none

/-- Appends digits to a number as long as it fits an unsigned word of 64 bits, and returns the digits
that are left. -/
def appendDigits (size : Nat) : List Char → Nat × List Char
  | [] => (size, [])
  | digit :: rest =>
    let next := size * 10 + (digit.toNat - '0'.toNat)
    if next < 18446744073709551616 then appendDigits next rest else (size, digit :: rest)

/-- The power of ten that the exponent adds. -/
def scale (literal : Numeral) : Int :=
  match literal.exponent with
  | none => 0
  | some (true, digits) => -(digitsValue digits : Int)
  | some (false, digits) => digitsValue digits

/-- The product of a size and a power of ten, by one multiplication or division that is rounded, with one
more division below the smallest power. A result that is too large has no value. -/
def scaled? (size : Float) (exponent : Int) : Option Float :=
  if exponent < -616 then some 0
  else if exponent < -308 then
    some (size / nearestDouble 1 308 / nearestDouble 1 (-308 - exponent))
  else if exponent < 0 then some (size / nearestDouble 1 (-exponent))
  else if size == 0 then some 0
  else if 308 < exponent then none
  else
    let product := size * nearestDouble 1 exponent
    if product.isInf then none else some product

/-- The double that a literal denotes. Digits are taken, first before and then after the point, as long as
the number fits a word of 64 bits. A digit before the point that is not taken still moves the point. -/
def double? (literal : Numeral) : Option Float :=
  let (size, dropped) := appendDigits 0 literal.whole
  let (size, unused) := appendDigits size literal.fraction
  let places : Int := literal.fraction.length - unused.length
  (scaled? (nearestDouble size 0) (dropped.length - places + literal.scale)).map
    (signedDouble literal.negative)

/-- The number that a literal denotes: the nearest one to a whole number, otherwise the double. -/
def number? (literal : Numeral) : Option Number :=
  match literal.int? with
  | some n => Number.ofFloat? (signedDouble (n < 0) (nearestDouble n.natAbs 0))
  | none => literal.double?.bind Number.ofFloat?

end Numeral

namespace Piece

/-- The text of a string; surrogate halves must come in pairs, the high one first. -/
def text? : List Piece → Option (List Char)
  | [] => some []
  | .char c :: rest => (text? rest).map (c :: ·)
  | .half high :: .half low :: rest =>
    if high < 0xDC00 ∧ 0xDC00 ≤ low then
      (text? rest).map (Char.ofNat (0x10000 + (high - 0xD800) * 0x400 + (low - 0xDC00)) :: ·)
    else none
  | .half _ :: _ => none

end Piece

namespace RawJson

/-- A signed or unsigned whole number of 64 bits. -/
def int? : RawJson → Option Int
  | .number literal => literal.int?
  | _ => none

def number? : RawJson → Option Number
  | .number literal => literal.number?
  | _ => none

def bool? : RawJson → Option Bool
  | .bool value => some value
  | _ => none

def string? : RawJson → Option String
  | .string pieces => (Piece.text? pieces).map String.ofList
  | _ => none

def strings? : RawJson → Option (List String)
  | .array items => items.mapM string?
  | _ => none

/-- The members of an object under their names, which have to be texts. -/
def namedMembers? (entries : List (List Piece × RawJson)) : Option (List (String × RawJson)) :=
  entries.mapM fun entry => (Piece.text? entry.1).map fun name => (String.ofList name, entry.2)

/-- The member of a name, if there is one; a name must not come twice. -/
def member? (entries : List (String × RawJson)) (name : String) : Option (Option RawJson) :=
  match entries.filter fun entry => entry.1 == name with
  | [] => some none
  | [entry] => some (some entry.2)
  | _ => none

mutual

/-- The value of a JSON text: whole numbers of 64 bits are kept apart from doubles, and the last member
of a name counts. -/
def json? : RawJson → Option Json
  | .null => some .null
  | .bool value => some (.bool value)
  | .number literal =>
    match literal.int? with
    | some n => some (.int n)
    | none => literal.number?.map .double
  | .string pieces => (Piece.text? pieces).map fun text => .string (String.ofList text)
  | .array items => (jsonItems? items).map .array
  | .object entries => (jsonMembers? entries).map fun found => .object (Table.ofList found).entries

def jsonItems? : List RawJson → Option (List Json)
  | [] => some []
  | item :: rest => do
    let value ← item.json?
    return value :: (← jsonItems? rest)

def jsonMembers? : List (List Piece × RawJson) → Option (List (String × Json))
  | [] => some []
  | (name, value) :: rest => do
    let name ← Piece.text? name
    let value ← value.json?
    return (String.ofList name, value) :: (← jsonMembers? rest)

end

end RawJson

end Offload
