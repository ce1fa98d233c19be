import Offload.Moment.Calendar
import Offload.Text.Digits

namespace Offload

/-- A point in time: seconds since 1970-01-01T00:00:00 in universal time, and nanoseconds after
that second. From `10 ^ 9` on the nanoseconds lie in a leap second that follows it. -/
structure Moment where
  seconds : Int
  nanos : Nat
  deriving DecidableEq

namespace Moment

/-- The year: four digits from 0 to 9999, otherwise a sign and at least four digits. -/
def yearText (year : Int) : List Char :=
  if 0 ≤ year ∧ year ≤ 9999 then paddedDecimal 4 year.toNat
  else (if year < 0 then '-' else '+') :: paddedDecimal 4 year.natAbs

/-- The fraction of a second, in the fewest of zero, three, six and nine digits that lose nothing. -/
def fractionText (nanos : Nat) : List Char :=
  if nanos = 0 then []
  else if nanos % 1000000 = 0 then '.' :: paddedDecimal 3 (nanos / 1000000)
  else if nanos % 1000 = 0 then '.' :: paddedDecimal 6 (nanos / 1000)
  else '.' :: paddedDecimal 9 nanos

/-- Date and time of day in universal time. A leap second is second 60 of its minute. -/
def dateTimeText (m : Moment) : List Char :=
  let date := Date.ofDayNumber (m.seconds / 86400)
  let clock := (m.seconds % 86400).toNat
  let leap := m.nanos / 1000000000
  yearText date.year ++ '-' :: paddedDecimal 2 date.month ++ '-' :: paddedDecimal 2 date.day ++
    'T' :: paddedDecimal 2 (clock / 3600) ++ ':' :: paddedDecimal 2 (clock / 60 % 60) ++
    ':' :: paddedDecimal 2 (clock % 60 + leap) ++ fractionText (m.nanos % 1000000000)

/-- The text shown to a reader, with a numeric offset and between colons. -/
def display (m : Moment) : List Char :=
  ':' :: m.dateTimeText ++ "+00:00:".toList

/-- The text inside JSON, with the letter for universal time. -/
def json (m : Moment) : List Char :=
  m.dateTimeText ++ ['Z']

end Moment

end Offload
