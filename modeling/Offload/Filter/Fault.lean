import Offload.Expr

namespace Offload

inductive Fault
  | unsupported (operator : String)
  /-- An expression of this kind stands where a predicate has to be. -/
  | notPredicate (node : String)
  /-- An expression of this kind stands where an operand has to be. -/
  | notOperand (node : String)
  deriving DecidableEq

def Fault.message : Fault → String
  | .unsupported operator => s!"FilterError: operator '{operator}' is not supported in SQL filters"
  | .notPredicate node => s!"FilterError: expected a filter predicate, found {node}"
  | .notOperand node => s!"FilterError: expected a field or literal operand, found {node}"

end Offload
