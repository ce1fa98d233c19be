import Offload.Moment.Basic
import Offload.Number.Layout

namespace Offload

/-- An expression. Operators are kept as they are written. -/
inductive Expr
  | binary (operator : String) (left right : Expr)
  | unary (operator : String) (argument : Expr)
  | field (name : String)
  | string (value : String)
  | moment (value : Moment)
  | null
  | boolean (value : Bool)
  | number (value : Number)
  | array (items : List Expr)

namespace Expr

/-- The name of the kind of an expression, as messages give it. -/
def nodeName : Expr → String
  | .binary .. => "BinaryExpression"
  | .unary .. => "UnaryExpression"
  | .field _ => "Field"
  | .string _ => "StringLiteral"
  | .moment _ => "MomentLiteral"
  | .null => "NullLiteral"
  | .boolean _ => "BooleanLiteral"
  | .number _ => "NumberLiteral"
  | .array _ => "ArrayLiteral"

mutual

/-- The text shown to a reader, followed by more text. -/
def write : Expr → List Char → List Char
  | .binary operator left right, more =>
    '(' :: left.write (' ' :: (operator.toList ++ ' ' :: right.write (')' :: more)))
  | .unary operator argument, more => operator.toList ++ ' ' :: argument.write more
  | .field name, more => name.toList ++ more
  | .string value, more => '"' :: (value.toList ++ '"' :: more)
  | .moment value, more => value.display ++ more
  | .null, more => "null".toList ++ more
  | .boolean true, more => "true".toList ++ more
  | .boolean false, more => "false".toList ++ more
  | .number value, more => value.display ++ more
  | .array [], more => '[' :: ']' :: more
  | .array (item :: rest), more => '[' :: item.write (writeItems rest more)

def writeItems : List Expr → List Char → List Char
  | [], more => ']' :: more
  | item :: rest, more => ',' :: ' ' :: item.write (writeItems rest more)

end

def display (e : Expr) : String :=
  String.ofList (e.write [])

mutual

/-- Equality of expressions, for which the two zeros are one number. -/
def same : Expr → Expr → Bool
  | .binary op l r, .binary op' l' r' => op == op' && l.same l' && r.same r'
  | .unary op e, .unary op' e' => op == op' && e.same e'
  | .field a, .field b => a == b
  | .string a, .string b => a == b
  | .moment a, .moment b => a = b
  | .null, .null => true
  | .boolean a, .boolean b => a == b
  | .number a, .number b => a.same b
  | .array as, .array bs => sameItems as bs
  | _, _ => false

def sameItems : List Expr → List Expr → Bool
  | [], [] => true
  | a :: as, b :: bs => a.same b && sameItems as bs
  | _, _ => false

end

/-- The text shown to a programmer: the kind of the expression and its text. -/
def debug (e : Expr) : String :=
  e.nodeName ++ "(" ++ e.display ++ ")"

end Expr

end Offload
