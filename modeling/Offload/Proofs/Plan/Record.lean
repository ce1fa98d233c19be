import Offload.Plan.Session
import Offload.Proofs.Outcome

namespace Offload

/-- A decision as a flat record, in which any part can be set whatever the kind is. -/
structure DecisionRecord where
  kind : DecisionKind := .none
  limit : Option Nat := none
  groupBy : List String := []
  every : Option Interval := none
  anchor : Option Setting := none
  outputs : Table Aggregate := .empty
  emptyGroup : EmptyGroup := {}

namespace DecisionRecord

def allow (r : DecisionRecord) (attempted : DecisionKind) : Except Refusal Unit :=
  if r.kind.canBecome attempted then .ok () else .error (.incompatible r.kind attempted)

def tighten (r : DecisionRecord) (limit : Nat) : Nat :=
  match r.limit with
  | some prior => min prior limit
  | none => limit

/-- A new record that has only a kind and a limit, which is not above the one before. -/
def withLimit (r : DecisionRecord) (kind : DecisionKind) (limit : Nat) :
    Except Refusal DecisionRecord := do
  r.allow kind
  return { kind, limit := some (r.tighten limit) }

/-- The parts of an aggregate as a new record, without a limit. -/
def withAggregate (r parts : DecisionRecord) : Except Refusal DecisionRecord := do
  r.allow .aggregate
  return { parts with kind := .aggregate, limit := none }

def absorbHead (r : DecisionRecord) (stage : Stage) : Except Refusal DecisionRecord := do
  r.allow .head
  let limit ← stage.limit
  r.withLimit .head limit

def absorbTail (p : Planner) (read : Stage) (r : DecisionRecord) (stage : Stage) :
    Except Refusal DecisionRecord := do
  r.allow .tail
  let limit := r.tighten (← stage.limit)
  let fetchSize ← p.fetchSize read
  if fetchSize < limit then .error (.smallFetch limit fetchSize) else r.withLimit .tail limit

def absorbReduce (p : Planner) (read : Stage) (r : DecisionRecord) (stage : Stage) :
    Except Refusal DecisionRecord := do
  r.allow .aggregate
  Planner.checkOptions stage
  Planner.checkForget stage
  let groupBy ← p.groupBy stage
  let filled ← p.addAssignments { groupBy } stage.assignments
  let window ← Planner.window read stage
  r.withAggregate {
    groupBy := filled.groupBy
    every := window.map Window.every
    anchor := window.bind Window.anchor
    outputs := filled.outputs
    emptyGroup := filled.emptyGroup }

def absorb (p : Planner) (read : Stage) (r : DecisionRecord) (stage : Stage) :
    Except Refusal DecisionRecord :=
  match stage.kind with
  | .head => r.absorbHead stage
  | .tail => r.absorbTail p read stage
  | .reduce => r.absorbReduce p read stage
  | kind => .error (.unsupported kind.tag)

end DecisionRecord

/-- A session that keeps its decision as a record. -/
structure RecordSession where
  record : DecisionRecord := {}
  lastRead : Option Stage := none

namespace RecordSession

/-- Makes an offer. One that is refused changes nothing. -/
def take (p : Planner) (s : RecordSession) (o : Offer) : RecordSession :=
  match s.record.absorb p o.read o.stage with
  | .ok next => ⟨next, some o.read⟩
  | .error _ => s

def run (p : Planner) (offers : List Offer) : RecordSession :=
  offers.foldl (take p) {}

end RecordSession

/-- The record of a decision: its own parts are set, and all others are empty. -/
def Decision.record (d : Decision) : DecisionRecord :=
  ⟨d.kind, d.limit?, d.groupBy, d.every?, d.anchor?, d.outputs, d.emptyGroup⟩

def Session.record (s : Session) : RecordSession :=
  ⟨s.decision.record, s.lastRead⟩

namespace Decision

variable {d : Decision}

theorem allow_record (d : Decision) (attempted : DecisionKind) :
    d.record.allow attempted = d.allow attempted := rfl

theorem tighten_record (d : Decision) (limit : Nat) : d.record.tighten limit = d.tighten limit := rfl

theorem tighten_tighten (d : Decision) (limit : Nat) :
    d.tighten (d.tighten limit) = d.tighten limit := by
  unfold tighten
  cases d.limit? with
  | none => rfl
  | some prior =>
    change min prior (min prior limit) = min prior limit
    omega

theorem withLimit_record {kind : DecisionKind} (ha : d.allow kind = .ok ()) (limit : Nat) :
    d.record.withLimit kind limit = .ok { kind, limit := some (d.tighten limit) } := by
  rw [DecisionRecord.withLimit, allow_record, ha]
  rfl

theorem withAggregate_record (ha : d.allow .aggregate = .ok ()) (parts : DecisionRecord) :
    d.record.withAggregate parts = .ok { parts with kind := .aggregate, limit := Option.none } := by
  rw [DecisionRecord.withAggregate, allow_record, ha]
  rfl

end Decision

namespace Planner

theorem absorbHead_record (d : Decision) (stage : Stage) :
    d.record.absorbHead stage = (absorbHead d stage).map Decision.record := by
  refine bind_eq_map_bind fun _ ha => ?_
  refine bind_eq_map_bind fun limit _ => ?_
  exact Decision.withLimit_record ha limit

/-- The limit is tightened for the check and once more for the record, which changes nothing. -/
theorem absorbTail_record (p : Planner) (read : Stage) (d : Decision) (stage : Stage) :
    d.record.absorbTail p read stage = (p.absorbTail read d stage).map Decision.record := by
  refine bind_eq_map_bind fun _ ha => ?_
  refine bind_eq_map_bind fun limit _ => ?_
  refine bind_eq_map_bind fun size _ => ?_
  rw [Decision.tighten_record]
  split
  next => rfl
  next =>
    have hw := Decision.withLimit_record ha (d.tighten limit)
    rw [Decision.tighten_tighten] at hw
    exact hw

theorem absorbReduce_record (p : Planner) (read : Stage) (d : Decision) (stage : Stage) :
    d.record.absorbReduce p read stage = (p.absorbReduce read d stage).map Decision.record := by
  refine bind_eq_map_bind fun _ ha => ?_
  refine bind_eq_map_bind fun _ _ => ?_
  refine bind_eq_map_bind fun _ _ => ?_
  refine bind_eq_map_bind fun groupBy _ => ?_
  refine bind_eq_map_bind fun filled _ => ?_
  refine bind_eq_map_bind fun window _ => ?_
  exact Decision.withAggregate_record ha _

/-- A stage is absorbed into the record of a decision as it is into the decision. -/
theorem absorb_record (p : Planner) (read : Stage) (d : Decision) (stage : Stage) :
    d.record.absorb p read stage = (p.absorb read d stage).map Decision.record := by
  unfold DecisionRecord.absorb absorb
  cases stage.kind with
  | head => exact absorbHead_record d stage
  | tail => exact absorbTail_record p read d stage
  | reduce => exact absorbReduce_record p read d stage
  | _ => rfl

end Planner

namespace Session

theorem take_record (p : Planner) (s : Session) (o : Offer) :
    s.record.take p o = (s.take p o).record := by
  have ha := Planner.absorb_record p o.read s.decision o.stage
  unfold RecordSession.take take Planner.offer
  change (match s.decision.record.absorb p o.read o.stage with
    | .ok next => _
    | .error _ => _) = _
  rw [ha]
  cases p.absorb o.read s.decision o.stage <;> rfl

theorem foldl_record (p : Planner) (s : Session) (offers : List Offer) :
    offers.foldl (RecordSession.take p) s.record = (offers.foldl (take p) s).record := by
  induction offers generalizing s with
  | nil => rfl
  | cons o rest ih => rw [List.foldl_cons, List.foldl_cons, take_record, ih]

theorem run_record (p : Planner) (offers : List Offer) :
    RecordSession.run p offers = (run p offers).record :=
  foldl_record p {} offers

end Session

end Offload
