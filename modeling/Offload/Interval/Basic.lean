import Offload.Json.Reader

namespace Offload

/-- A length of time. Months have no fixed length, so they are kept apart from milliseconds. -/
structure Interval where
  months : UInt32
  millis : Int64
  deriving DecidableEq

inductive Span
  | calendar
  | fixed (millis : Int64)
  /-- The length has no opposite, so no duration stands for it. -/
  | tooLong
  deriving DecidableEq

namespace Interval

/-- The interval of a number of days, unless its milliseconds are out of range. -/
def ofDays? (days : Int64) : Option Interval :=
  (int64? (days.toInt * 86400000)).map fun millis => ⟨0, millis⟩

def ofMonths (months : UInt32) : Interval :=
  ⟨months, 0⟩

def isCalendar (i : Interval) : Bool :=
  i.months != 0

def span (i : Interval) : Span :=
  if i.isCalendar then .calendar
  else if i.millis.toInt = -9223372036854775808 then .tooLong
  else .fixed i.millis

/-- The text shown to a reader. A part that is zero is left out, but not both. -/
def display (i : Interval) : List Char :=
  let months := decimal i.months.toNat ++ ['M']
  let millis := signedDecimal i.millis.toInt ++ ['m', 's']
  if i.months = 0 then millis
  else if i.millis = 0 then months
  else months ++ '+' :: millis

def toJson (i : Interval) : Json :=
  .object [("months", .int i.months.toNat), ("millis", .int i.millis.toInt)]

def ofParts? (months millis : RawJson) : Option Interval := do
  let months ← uint32? (← months.int?)
  let millis ← int64? (← millis.int?)
  return ⟨months, millis⟩

/-- An object with both parts, whose other members do not count, or a list of the two parts. -/
def ofRaw? : RawJson → Option Interval
  | .array [months, millis] => ofParts? months millis
  | .object entries => do
    let entries ← RawJson.namedMembers? entries
    let months ← RawJson.member? entries "months"
    let millis ← RawJson.member? entries "millis"
    ofParts? (← months) (← millis)
  | _ => none

def ofJsonText? (text : String) : Option Interval :=
  (RawJson.parse? text.toList).bind ofRaw?

end Interval

end Offload
