import Offload.Plan.Decision

namespace Offload

inductive Refusal
  /-- The decision so far cannot become one of the attempted kind. -/
  | incompatible (prior attempted : DecisionKind)
  /-- There is no way to do such a stage in the backend. -/
  | unsupported (tag : String)
  | missingLimit
  | dynamicLimit
  | invalidLimit
  /-- The last rows have to lie in one page of a read. -/
  | smallFetch (limit fetchSize : Nat)
  /-- Options that a reduction in the backend cannot have. -/
  | disallowed (names : List String)
  | forgetDisabled
  | groupByTime
  | malformedOption (name : String)
  /-- The left-hand side of an assignment is not a plain field. -/
  | unsupportedTarget
  | timeTarget
  /-- The right-hand side of an assignment is not the call of a reducer. -/
  | notReducerCall
  | unknownReducer (name : String)
  | wrongArity (reducer : String) (arity : Nat)
  | nonLiteralArgument (reducer : String)
  | duplicateTarget (name : String)
  | calendarWindow
  | missingBounds
  deriving DecidableEq

def Refusal.message : Refusal → String
  | .incompatible prior attempted =>
    "cannot append " ++ attempted.name ++ " optimization to prior " ++ prior.name ++ " optimization"
  | .unsupported tag => s!"operator '{tag}' has no pushdown"
  | .missingLimit => "limit argument missing"
  | .dynamicLimit => "limit is not a constant"
  | .invalidLimit => "limit is not a non-negative integer"
  | .smallFetch limit fetchSize =>
    s!"fetchSize {fetchSize} cannot be less than tail limit {limit}"
  | .disallowed names => "cannot optimize reduce with options " ++ ", ".intercalate names
  | .forgetDisabled => "cannot optimize -forget false"
  | .groupByTime => "cannot optimize group by time"
  | .malformedOption name => s!"option '{name}' has an unexpected value"
  | .unsupportedTarget => "unexpected reduce left-hand side"
  | .timeTarget => "cannot optimize reduce on time"
  | .notReducerCall => "cannot optimize non-reducer-call expression"
  | .unknownReducer name => s!"unoptimizable reducer '{name}'"
  | .wrongArity reducer arity => s!"cannot optimize {reducer} with {arity} arguments"
  | .nonLiteralArgument reducer => s!"argument of {reducer} is not a field name literal"
  | .duplicateTarget name => s!"reduce target '{name}' assigned twice"
  | .calendarWindow => "cannot optimize calendar -every"
  | .missingBounds => "cannot reduce -every without -from and -to"

end Offload
