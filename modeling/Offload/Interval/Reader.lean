import Offload.Interval.Basic
import Offload.Text.Blank

namespace Offload

/-- What a unit of time counts, and how many of it make one unit. -/
inductive Measure
  | millis (size : Nat)
  | months (size : Nat)
  deriving DecidableEq

namespace Measure

/-- The units. Case counts: m is a minute and M is a month. -/
def ofUnit? : String → Option Measure
  | "ms" | "millisecond" | "milliseconds" => some (.millis 1)
  | "s" | "sec" | "second" | "seconds" => some (.millis 1000)
  | "m" | "min" | "minute" | "minutes" => some (.millis 60000)
  | "h" | "hour" | "hours" => some (.millis 3600000)
  | "d" | "day" | "days" => some (.millis 86400000)
  | "w" | "week" | "weeks" => some (.millis 604800000)
  | "M" | "month" | "months" => some (.months 1)
  | "y" | "year" | "years" => some (.months 12)
  | _ => none

/-- The interval of a number of units, unless it is out of range. -/
def times? : Measure → Nat → Option Interval
  | .millis size, count => (int64? (count * size)).map fun millis => ⟨0, millis⟩
  | .months size, count => (uint32? (count * size)).map fun months => ⟨months, 0⟩

end Measure

inductive IntervalFault
  | malformed (text : String)
  | unknownUnit (unit : String)
  deriving DecidableEq

def IntervalFault.message : IntervalFault → String
  | .malformed text => s!"IntervalError: malformed interval '{text}'"
  | .unknownUnit unit => s!"IntervalError: unknown unit '{unit}'"

namespace Interval

/-- The digits and the letters of a text: white space, an optional run of digits, white space, letters
and white space. -/
def shape? (cs : List Char) : Option (List Char × List Char) :=
  let (digits, rest) := spanDigits (skipBlank cs)
  let rest := skipBlank rest
  let letters := rest.takeWhile Char.isAlpha
  if letters.isEmpty || !(skipBlank (rest.dropWhile Char.isAlpha)).isEmpty then none
  else some (digits, letters)

/-- The interval that a text denotes. The count is one if it is left out, and it has to fit a signed
word of 64 bits. A bad count is noticed before an unknown unit. -/
def parse (text : String) : Except IntervalFault Interval :=
  match shape? text.toList with
  | none => .error (.malformed text)
  | some (digits, letters) =>
    let count := if digits.isEmpty then 1 else digitsValue digits
    if 9223372036854775808 ≤ count then .error (.malformed text)
    else
      match Measure.ofUnit? (String.ofList letters) with
      | none => .error (.unknownUnit (String.ofList letters))
      | some measure =>
        match measure.times? count with
        | none => .error (.malformed text)
        | some interval => .ok interval

end Interval

end Offload
