import Offload.Filter.Compile
import Offload.Sql.Truth

namespace Offload

namespace Expr

/-- What SQL calls a comparison. Four of them have another name in filters. -/
def comparisonToken : String → String
  | "==" => "="
  | "!=" => "<>"
  | "=~" => "LIKE"
  | "!~" => "NOT LIKE"
  | op => op

/-- The truth of a filter by the shape of its tree. An expression that is no filter has none. -/
def truth? (v : Valuation) : Expr → Option Truth
  | .binary op left right =>
    if op = "AND" then do return (← left.truth? v).and (← right.truth? v)
    else if op = "OR" then do return (← left.truth? v).or (← right.truth? v)
    else
      match left.operand, right.rightOperand (.compare (comparisonToken op)) with
      | .ok l, .ok r => some (v l (comparisonToken op) r)
      | _, _ => none
  | .unary op argument => if op = "NOT" then (argument.truth? v).map Truth.not else none
  | _ => none

/-- An operand: a field, a literal, or an array of operands. -/
inductive IsOperand : Expr → Prop
  | field (name : String) : IsOperand (.field name)
  | string (value : String) : IsOperand (.string value)
  | moment (value : Moment) : IsOperand (.moment value)
  | null : IsOperand .null
  | boolean (value : Bool) : IsOperand (.boolean value)
  | number (value : Number) : IsOperand (.number value)
  | array {items : List Expr} : (∀ item ∈ items, IsOperand item) → IsOperand (.array items)

/-- A predicate: comparisons of operands under conjunction, disjunction and negation. -/
inductive IsPredicate : Expr → Prop
  | and {left right : Expr} : IsPredicate left → IsPredicate right →
    IsPredicate (.binary "AND" left right)
  | or {left right : Expr} : IsPredicate left → IsPredicate right →
    IsPredicate (.binary "OR" left right)
  | not {argument : Expr} : IsPredicate argument → IsPredicate (.unary "NOT" argument)
  | compare {op : String} {left right : Expr} : op ≠ "AND" → op ≠ "OR" →
    IsOperand left → IsOperand right → IsPredicate (.binary op left right)

end Expr

end Offload
