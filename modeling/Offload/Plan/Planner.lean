import Offload.Config
import Offload.Plan.Refusal
import Offload.Stage

namespace Offload

/-- A planner has a configuration and knows what each reducer of the pipeline yields on a group without
rows. -/
structure Planner where
  config : Config := {}
  emptyResult : String → EmptyResult := Reducer.standardEmpty

structure Output where
  target : String
  reducer : Reducer
  aggregate : Aggregate

structure Stop where
  index : Nat
  refusal : Refusal
  deriving DecidableEq

/-- The decision for the stages that were absorbed, their number, and where absorbing stopped if it did
not reach the end. -/
structure Plan where
  decision : Decision
  absorbed : Nat
  stopped : Option Stop
  deriving DecidableEq

namespace Stage

def limit (stage : Stage) : Except Refusal Nat :=
  match stage.setting? limitOption with
  | none => .error .missingLimit
  | some setting =>
    if !setting.isConstant then .error .dynamicLimit
    else
      match setting.integer? with
      | some n => if 0 ≤ n.toInt then .ok n.toInt.toNat else .error .invalidLimit
      | none => .error .invalidLimit

/-- Is the time of the rows bounded on both sides? -/
def isBounded (read : Stage) : Bool :=
  read.hasSetting "from" && read.hasSetting "to"

end Stage

namespace Decision

/-- Refuses a kind that the decision cannot become. -/
def allow (d : Decision) (attempted : DecisionKind) : Except Refusal Unit :=
  if d.kind.canBecome attempted then .ok () else .error (.incompatible d.kind attempted)

end Decision

namespace Aggregate

/-- The aggregate for the call of a reducer. A count needs no argument; otherwise there is one, the name
of a field as a literal. -/
def ofCall (reducer : Reducer) (arguments : List Expr) : Except Refusal Aggregate :=
  match reducer, arguments with
  | .count, [] => .ok countAll
  | .countUnique, [.string field] => .ok (countDistinct field)
  | reducer, [.string field] => .ok (.function reducer field)
  | reducer, [_] => .error (.nonLiteralArgument reducer.name)
  | reducer, arguments => .error (.wrongArity reducer.name arguments.length)

end Aggregate

namespace Summary

/-- Adds an output, whose name must be new. -/
def addOutput (s : Summary) (output : Output) (expected : EmptyResult) : Except Refusal Summary :=
  if s.outputs.contains output.target then .error (.duplicateTarget output.target)
  else .ok { s with
    outputs := s.outputs.insert output.target output.aggregate
    emptyGroup := s.emptyGroup.insert output.target expected output.reducer.backendEmpty }

end Summary

namespace Planner

/-- The options that a reduction in the backend can have. -/
def reduceOptions : List String :=
  ["forget", "groupby", "every", "on"]

/-- The option of a read that overrides the configured number of rows to fetch at once. -/
def fetchOption : String := "fetchSize"

/-- The number of rows that a read fetches at once. A number that is not positive counts as not set. -/
def fetchSize (p : Planner) (read : Stage) : Except Refusal Nat :=
  match read.setting? fetchOption with
  | none => .ok p.config.fetchSize
  | some setting =>
    match setting.integer? with
    | some n => .ok (if 0 < n.toInt then n.toInt.toNat else p.config.fetchSize)
    | none => .error (.malformedOption fetchOption)

def absorbHead (d : Decision) (stage : Stage) : Except Refusal Decision := do
  d.allow .head
  let limit ← stage.limit
  return .head (d.tighten limit)

/-- The last rows can only be taken from one page of the read. -/
def absorbTail (p : Planner) (read : Stage) (d : Decision) (stage : Stage) :
    Except Refusal Decision := do
  d.allow .tail
  let limit := d.tighten (← stage.limit)
  let fetchSize ← p.fetchSize read
  if fetchSize < limit then .error (.smallFetch limit fetchSize) else return .tail limit

/-- Refuses options other than those of a reduction. -/
def checkOptions (stage : Stage) : Except Refusal Unit :=
  if stage.hasOnly reduceOptions then .ok () else .error (.disallowed (stage.outside reduceOptions))

/-- A reduction that does not forget its rows between windows cannot run in the backend. -/
def checkForget (stage : Stage) : Except Refusal Unit :=
  match stage.setting? "forget" with
  | none => .ok ()
  | some setting =>
    match setting.boolean? with
    | some true => .ok ()
    | some false => .error .forgetDisabled
    | none => .error (.malformedOption "forget")

/-- The fields by which a reduction is declared to group the rows. -/
def groupFields (stage : Stage) : Except Refusal (List String) :=
  match stage.setting? "groupby" with
  | none => .ok []
  | some setting =>
    match setting.fields? with
    | some names => .ok names
    | none => .error (.malformedOption "groupby")

/-- The fields that group the rows. The time of a row is not one of them. -/
def groupBy (p : Planner) (stage : Stage) : Except Refusal (List String) := do
  let names ← groupFields stage
  if names.contains p.config.timeField then .error .groupByTime else return names

def output (p : Planner) (a : Assignment) : Except Refusal Output :=
  match a.targetName? with
  | none => .error .unsupportedTarget
  | some target =>
    if target = p.config.timeField then .error .timeTarget
    else
      match a.value with
      | .expr _ => .error .notReducerCall
      | .call name arguments =>
        match Reducer.ofName? name with
        | none => .error (.unknownReducer name)
        | some reducer =>
          match Aggregate.ofCall reducer arguments with
          | .error refusal => .error refusal
          | .ok aggregate => .ok ⟨target, reducer, aggregate⟩

def addAssignment (p : Planner) (s : Summary) (a : Assignment) : Except Refusal Summary := do
  let output ← p.output a
  s.addOutput output (p.emptyResult output.reducer.name)

/-- Adds the outputs of assignments, from left to right. -/
def addAssignments (p : Planner) : Summary → List Assignment → Except Refusal Summary
  | s, [] => .ok s
  | s, a :: rest => do
    let s ← p.addAssignment s a
    p.addAssignments s rest

/-- The windows of a reduction. They need a fixed positive length and a read that is bounded in time. -/
def window (read stage : Stage) : Except Refusal (Option Window) :=
  match stage.setting? "every" with
  | none => .ok none
  | some setting =>
    match setting.interval? with
    | none => .error (.malformedOption "every")
    | some every =>
      if every.isCalendar then .error .calendarWindow
      else if every.millis.toInt ≤ 0 then .error (.malformedOption "every")
      else if !read.isBounded then .error .missingBounds
      else .ok (some ⟨every, stage.setting? "on"⟩)

def absorbReduce (p : Planner) (read : Stage) (d : Decision) (stage : Stage) :
    Except Refusal Decision := do
  d.allow .aggregate
  checkOptions stage
  checkForget stage
  let groupBy ← p.groupBy stage
  let summary ← p.addAssignments { groupBy } stage.assignments
  let window ← window read stage
  return .aggregate { summary with window }

/-- The decision after a stage has been absorbed. -/
def absorb (p : Planner) (read : Stage) (d : Decision) (stage : Stage) : Except Refusal Decision :=
  match stage.kind with
  | .head => absorbHead d stage
  | .tail => p.absorbTail read d stage
  | .reduce => p.absorbReduce read d stage
  | kind => .error (.unsupported kind.tag)

/-- Offers a stage to a decision, which stays as it is if the stage is refused. -/
def offer (p : Planner) (read : Stage) (d : Decision) (stage : Stage) : Decision × Option Refusal :=
  match p.absorb read d stage with
  | .ok next => (next, none)
  | .error refusal => (d, some refusal)

/-- Absorbs stages up to the first one that is refused, after a number of earlier ones. -/
def absorbAll (p : Planner) (read : Stage) : Decision → Nat → List Stage → Plan
  | d, count, [] => ⟨d, count, none⟩
  | d, count, stage :: rest =>
    match p.offer read d stage with
    | (d, none) => p.absorbAll read d (count + 1) rest
    | (d, some refusal) => ⟨d, count, some ⟨count, refusal⟩⟩

/-- The plan for the stages after a read. Stages cannot change places, so none is tried after the first
refusal. -/
def plan (p : Planner) (read : Stage) (stages : List Stage) : Plan :=
  p.absorbAll read .none 0 stages

end Planner

end Offload
