import Offload.Expr
import Offload.Json.Basic
import Offload.Sql.Identifier

namespace Offload

inductive Operand
  | column (name : String)
  | string (value : String)
  | timestamp (value : Moment)
  | null
  | boolean (value : Bool)
  | number (value : Number)
  | array (items : List Operand)

namespace Operand

mutual

/-- An object whose only member is named for the kind of the operand; null is a word. -/
def toJson : Operand → Json
  | .column name => .object [("column", .string name)]
  | .string value => .object [("string", .string value)]
  | .timestamp value => .object [("timestamp", .string (String.ofList value.json))]
  | .null => .string "null"
  | .boolean value => .object [("boolean", .bool value)]
  | .number value => .object [("number", .double value)]
  | .array items => .object [("array", .array (itemsToJson items))]

def itemsToJson : List Operand → List Json
  | [] => []
  | item :: rest => item.toJson :: itemsToJson rest

end

mutual

/-- The SQL text, followed by more text: a column is quoted, a value is a placeholder, and a list is in
parentheses. -/
def write : Operand → List Char → List Char
  | .column name, more => writeIdentifier name.toList more
  | .array [], more => '(' :: ')' :: more
  | .array (item :: rest), more => '(' :: item.write (writeItems rest more)
  | _, more => '?' :: more

def writeItems : List Operand → List Char → List Char
  | [], more => ')' :: more
  | item :: rest, more => ',' :: ' ' :: item.write (writeItems rest more)

end

mutual

/-- The values of the placeholders, from left to right. -/
def bindings : Operand → List Operand
  | .column _ => []
  | .array items => itemsBindings items
  | value => [value]

def itemsBindings : List Operand → List Operand
  | [] => []
  | item :: rest => item.bindings ++ itemsBindings rest

end

mutual

/-- Equality of operands, for which the two zeros are one number. -/
def same : Operand → Operand → Bool
  | .column a, .column b => a == b
  | .string a, .string b => a == b
  | .timestamp a, .timestamp b => a = b
  | .null, .null => true
  | .boolean a, .boolean b => a == b
  | .number a, .number b => a.same b
  | .array as, .array bs => sameItems as bs
  | _, _ => false

def sameItems : List Operand → List Operand → Bool
  | [], [] => true
  | a :: as, b :: bs => a.same b && sameItems as bs
  | _, _ => false

end

end Operand

end Offload
