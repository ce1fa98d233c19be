import Offload.Number.Layout

namespace Offload

/-- A JSON value. Whole numbers and doubles are kept apart, and the members of an object are in the
order in which they are written. -/
inductive Json
  | null
  | bool (value : Bool)
  | int (value : Int)
  | double (value : Number)
  | string (value : String)
  | array (items : List Json)
  | object (members : List (String × Json))

namespace Json

/-- The text of one character inside a string. Only the quote, the backslash and the control
characters below U+0020 are escaped. -/
def escape (c : Char) : List Char :=
  match c with
  | '"' => ['\\', '"']
  | '\\' => ['\\', '\\']
  | '\x08' => ['\\', 'b']
  | '\t' => ['\\', 't']
  | '\n' => ['\\', 'n']
  | '\x0c' => ['\\', 'f']
  | '\r' => ['\\', 'r']
  | c =>
    if c.toNat < 0x20 then
      ['\\', 'u', '0', '0', Nat.digitChar (c.toNat / 16), Nat.digitChar (c.toNat % 16)]
    else [c]

/-- The escaped characters of a text, followed by more text. -/
def writeEscaped : List Char → List Char → List Char
  | [], more => more
  | c :: rest, more => escape c ++ writeEscaped rest more

def writeString (text : String) (more : List Char) : List Char :=
  '"' :: writeEscaped text.toList ('"' :: more)

mutual

/-- The compact text of a value, followed by more text. Infinite numbers are written as null. -/
def write : Json → List Char → List Char
  | .null, more => "null".toList ++ more
  | .bool true, more => "true".toList ++ more
  | .bool false, more => "false".toList ++ more
  | .int n, more => signedDecimal n ++ more
  | .double x, more => (if x.isInfinite then "null".toList else x.json) ++ more
  | .string s, more => writeString s more
  | .array [], more => '[' :: ']' :: more
  | .array (item :: rest), more => '[' :: item.write (writeItems rest more)
  | .object [], more => '\x7b' :: '\x7d' :: more
  | .object ((key, value) :: rest), more =>
    '\x7b' :: writeString key (':' :: value.write (writeMembers rest more))

def writeItems : List Json → List Char → List Char
  | [], more => ']' :: more
  | item :: rest, more => ',' :: item.write (writeItems rest more)

def writeMembers : List (String × Json) → List Char → List Char
  | [], more => '\x7d' :: more
  | (key, value) :: rest, more =>
    ',' :: writeString key (':' :: value.write (writeMembers rest more))

end

mutual

/-- The same value with the members of every object in increasing order of their names. -/
def sorted : Json → Json
  | .array items => .array (sortedItems items)
  | .object members =>
    .object ((sortedMembers members).mergeSort fun a b => decide (a.1 ≤ b.1))
  | value => value

def sortedItems : List Json → List Json
  | [] => []
  | item :: rest => item.sorted :: sortedItems rest

def sortedMembers : List (String × Json) → List (String × Json)
  | [] => []
  | (key, value) :: rest => (key, value.sorted) :: sortedMembers rest

end

def text (value : Json) : String :=
  String.ofList (value.write [])

/-- The compact text of a value with the members of every object sorted by name. -/
def sortedText (value : Json) : String :=
  value.sorted.text

end Json

end Offload
