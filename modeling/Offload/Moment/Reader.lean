import Offload.Moment.Basic
import Offload.Text.Blank

namespace Offload

namespace Moment

/-- A number of at least one and at most `most` digits. -/
def number? (most : Nat) (cs : List Char) : Option (Nat × List Char) :=
  let digits := (cs.take most).takeWhile Char.isDigit
  if digits.isEmpty then none else some (digitsValue digits, cs.drop digits.length)

/-- A number of one or two digits after white space. -/
def field? (cs : List Char) : Option (Nat × List Char) :=
  number? 2 (skipBlank cs)

/-- A mark after white space. -/
def mark? (mark : Char) (cs : List Char) : Option (List Char) :=
  match skipBlank cs with
  | c :: rest => if c = mark then some rest else none
  | [] => none

/-- A year: at most four digits, or a sign and any number of digits. -/
def year? (cs : List Char) : Option (Int × List Char) :=
  match skipBlank cs with
  | '-' :: rest => (number? rest.length rest).map fun (n, rest) => (-(n : Int), rest)
  | '+' :: rest => (number? rest.length rest).map fun (n, rest) => ((n : Int), rest)
  | cs => (number? 4 cs).map fun (n, rest) => ((n : Int), rest)

def date? (cs : List Char) : Option (Date × List Char) := do
  let (year, cs) ← year? cs
  let cs ← mark? '-' cs
  let (month, cs) ← field? cs
  let cs ← mark? '-' cs
  let (day, cs) ← field? cs
  let date : Date := ⟨year, month, day⟩
  if date.isValid && date.isRepresentable then some (date, cs) else none

def timeMark? : List Char → Option (List Char)
  | c :: rest => if c == 'T' || c == 't' || c == ' ' then some rest else none
  | [] => none

/-- An optional fraction of a second, in nanoseconds; digits after the ninth do not count. -/
def fraction? (cs : List Char) : Option (Nat × List Char) :=
  match cs with
  | '.' :: rest =>
    let (digits, rest) := spanDigits rest
    let kept := digits.take 9
    if digits.isEmpty then none
    else some (digitsValue (kept ++ List.replicate (9 - kept.length) '0'), rest)
  | cs => some (0, cs)

/-- The time of day as seconds since midnight and nanoseconds. Second 60 is the leap second after
second 59. -/
def clock? (cs : List Char) : Option ((Nat × Nat) × List Char) := do
  let (hour, cs) ← field? cs
  let cs ← mark? ':' cs
  let (minute, cs) ← field? cs
  let cs ← mark? ':' cs
  let (second, cs) ← field? cs
  let (nanos, cs) ← fraction? cs
  if hour ≤ 23 ∧ minute ≤ 59 ∧ second ≤ 60 then
    if second = 60 then
      some ((hour * 3600 + minute * 60 + 59, nanos + 1000000000), cs)
    else some ((hour * 3600 + minute * 60 + second, nanos), cs)
  else none

def twoDigits? : List Char → Option (Nat × List Char)
  | a :: b :: rest =>
    if a.isDigit && b.isDigit then some (digitsValue [a, b], rest) else none
  | _ => none

/-- Hours and minutes of an offset, with any colons and white space between them, in seconds. -/
def offsetSize? (cs : List Char) : Option (Nat × List Char) := do
  let (hours, cs) ← twoDigits? cs
  let (minutes, cs) ← twoDigits? (cs.dropWhile fun c => c == ':' || isBlank c)
  if hours < 24 ∧ minutes < 60 then some (hours * 3600 + minutes * 60, cs) else none

/-- The offset from universal time in seconds: a letter Z, the letters UTC, or a signed size, for
which the minus may be U+2212. -/
def offset? (cs : List Char) : Option (Int × List Char) :=
  match cs with
  | '+' :: rest => (offsetSize? rest).map fun (n, rest) => ((n : Int), rest)
  | '-' :: rest => (offsetSize? rest).map fun (n, rest) => (-(n : Int), rest)
  | '−' :: rest => (offsetSize? rest).map fun (n, rest) => (-(n : Int), rest)
  | 'Z' :: rest => some (0, rest)
  | 'z' :: rest => some (0, rest)
  | u :: t :: c :: rest =>
    if [u, t, c].map Char.toUpper = ['U', 'T', 'C'] then some (0, rest) else none
  | _ => none

def parse? (text : String) : Option Moment := do
  let (date, cs) ← date? text.toList
  let cs ← timeMark? cs
  let ((clock, nanos), cs) ← clock? cs
  let (offset, cs) ← offset? (skipBlank cs)
  let seconds := date.dayNumber * 86400 + clock - offset
  if (skipBlank cs).isEmpty && (Date.ofDayNumber (seconds / 86400)).isRepresentable then
    some ⟨seconds, nanos⟩
  else none

end Moment

end Offload
