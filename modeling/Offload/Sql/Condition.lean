import Offload.Sql.Operand

namespace Offload

/-- How an entry is joined to the entries before it. -/
inductive Connector
  | and
  | or
  deriving DecidableEq

/-- An entry of a condition: a comparison, or a group of entries in parentheses. The connector of the
first entry of a group has no effect. -/
inductive Entry
  | compare (connector : Connector) (negated : Bool) (left : Operand) (token : String)
      (right : Operand)
  | group (connector : Connector) (negated : Bool) (members : List Entry)

structure Condition where
  entries : List Entry := []

namespace Connector

def name : Connector → String
  | .and => "and"
  | .or => "or"

def sql (c : Connector) : List Char :=
  ' ' :: c.name.toList ++ [' ']

end Connector

namespace Entry

def connector : Entry → Connector
  | .compare connector .. => connector
  | .group connector .. => connector

/-- What stands before a negated entry. -/
def negation (negated : Bool) : List Char :=
  if negated then "not ".toList else []

mutual

/-- The SQL text of an entry without its connector, followed by more text. -/
def write : Entry → List Char → List Char
  | .compare _ negated left token right, more =>
    negation negated ++ left.write (' ' :: (token.toList ++ ' ' :: right.write more))
  | .group _ negated [], more => negation negated ++ '(' :: ')' :: more
  | .group _ negated (first :: rest), more =>
    negation negated ++ '(' :: first.write (writeJoined rest (')' :: more))

/-- The SQL text of entries that follow another one, followed by more text. -/
def writeJoined : List Entry → List Char → List Char
  | [], more => more
  | entry :: rest, more => entry.connector.sql ++ entry.write (writeJoined rest more)

end

mutual

/-- The values of the placeholders of an entry, from left to right. -/
def bindings : Entry → List Operand
  | .compare _ _ left _ right => left.bindings ++ right.bindings
  | .group _ _ members => membersBindings members

def membersBindings : List Entry → List Operand
  | [] => []
  | entry :: rest => entry.bindings ++ membersBindings rest

end

/-- The object that describes an entry. -/
def describe (connector : Connector) (negated : Bool) (clause : String × Json) : Json :=
  .object [("connector", .string connector.name), ("negated", .bool negated),
    ("clause", .object [clause])]

mutual

def toJson : Entry → Json
  | .compare connector negated left token right =>
    describe connector negated ("compare", .object
      [("left", left.toJson), ("operator", .string token), ("right", right.toJson)])
  | .group connector negated members =>
    describe connector negated ("group", .object [("entries", .array (membersToJson members))])

def membersToJson : List Entry → List Json
  | [] => []
  | entry :: rest => entry.toJson :: membersToJson rest

end

mutual

/-- Equality of entries, for which the two zeros are one number. -/
def same : Entry → Entry → Bool
  | .compare c n l token r, .compare c' n' l' token' r' =>
    c = c' && n == n' && l.same l' && token == token' && r.same r'
  | .group c n members, .group c' n' members' => c = c' && n == n' && sameMembers members members'
  | _, _ => false

def sameMembers : List Entry → List Entry → Bool
  | [], [] => true
  | a :: as, b :: bs => a.same b && sameMembers as bs
  | _, _ => false

end

end Entry

namespace Condition

def isEmpty (c : Condition) : Bool :=
  c.entries.isEmpty

/-- The SQL text; an empty condition has none. -/
def sql (c : Condition) : String :=
  match c.entries with
  | [] => ""
  | first :: rest => String.ofList (first.write (Entry.writeJoined rest []))

/-- The values of the placeholders, from left to right. -/
def bindings (c : Condition) : List Operand :=
  Entry.membersBindings c.entries

def toJson (c : Condition) : Json :=
  .object [("entries", .array (Entry.membersToJson c.entries))]

def same (a b : Condition) : Bool :=
  Entry.sameMembers a.entries b.entries

end Condition

end Offload
