import Offload.Proofs.Plan.Reduce

namespace Offload

/-- What is checked of an assignment. -/
inductive AssignmentCheck
  | plainTarget
  | timeTarget
  | reducerCall
  | knownReducer
  | literalArgument
  | argumentCount
  | newTarget

/-- What is checked of a reduction. An assignment is checked together with those before it. -/
inductive ReduceCheck
  | prior
  | optionNames
  | forgetKind
  | forgetSet
  | groupKind
  | groupTime
  | assignment (earlier : List Assignment) (a : Assignment) (check : AssignmentCheck)
  | everyKind
  | everyCalendar
  | everyPositive
  | everyBounds

namespace AssignmentCheck

/-- The checks of an assignment, in order. -/
def all : List AssignmentCheck :=
  [plainTarget, timeTarget, reducerCall, knownReducer, literalArgument, argumentCount, newTarget]

/-- Why a check refuses an assignment, if it does. It does not depend on the other checks. -/
def refusal? (timeField : String) (earlier : List Assignment) (a : Assignment) :
    AssignmentCheck → Option Refusal
  | plainTarget =>
    match a.target with
    | .field _ => none
    | _ => some .unsupportedTarget
  | timeTarget =>
    match a.target with
    | .field target => if target = timeField then some .timeTarget else none
    | _ => none
  | reducerCall =>
    match a.value with
    | .call .. => none
    | .expr _ => some .notReducerCall
  | knownReducer =>
    match a.value with
    | .call name _ =>
      if name ∈ ["count", "avg", "sum", "min", "max", "count_unique"] then none
      else some (.unknownReducer name)
    | .expr _ => none
  | literalArgument =>
    match a.value with
    | .call _ [.string _] => none
    | .call name [_] => some (.nonLiteralArgument name)
    | _ => none
  | argumentCount =>
    match a.value with
    | .call name arguments =>
      if arguments.length = 1 ∨ name = "count" ∧ arguments.length = 0 then none
      else some (.wrongArity name arguments.length)
    | .expr _ => none
  | newTarget =>
    match a.target with
    | .field target =>
      if some target ∈ earlier.map Assignment.targetName? then some (.duplicateTarget target)
      else none
    | _ => none

end AssignmentCheck

namespace ReduceCheck

/-- The checks of assignments from left to right, each with all those before it. -/
def ofAssignments (earlier : List Assignment) : List Assignment → List ReduceCheck
  | [] => []
  | a :: rest =>
    AssignmentCheck.all.map (assignment earlier a) ++ ofAssignments (earlier ++ [a]) rest

/-- The checks of a reduction, in order. -/
def all (stage : Stage) : List ReduceCheck :=
  [prior, optionNames, forgetKind, forgetSet, groupKind, groupTime] ++
    ofAssignments [] stage.assignments ++ [everyKind, everyCalendar, everyPositive, everyBounds]

/-- Why a check refuses a reduction, if it does. It does not depend on the other checks. -/
def refusal? (p : Planner) (read : Stage) (d : Decision) (stage : Stage) :
    ReduceCheck → Option Refusal
  | prior => if d.kind = .none then none else some (.incompatible d.kind .aggregate)
  | optionNames =>
    match stage.settings.keys.filter (· ∉ ["forget", "groupby", "every", "on"]) with
    | [] => none
    | names => some (.disallowed names)
  | forgetKind =>
    match stage.setting? "forget" with
    | none | some (.boolean _) => none
    | some _ => some (.malformedOption "forget")
  | forgetSet =>
    if stage.setting? "forget" = some (.boolean false) then some .forgetDisabled else none
  | groupKind =>
    match stage.setting? "groupby" with
    | none | some (.fields _) => none
    | some _ => some (.malformedOption "groupby")
  | groupTime =>
    match stage.setting? "groupby" with
    | some (.fields names) => if p.config.timeField ∈ names then some .groupByTime else none
    | _ => none
  | assignment earlier a check => check.refusal? p.config.timeField earlier a
  | everyKind =>
    match stage.setting? "every" with
    | none | some (.interval _) => none
    | some _ => some (.malformedOption "every")
  | everyCalendar =>
    match stage.setting? "every" with
    | some (.interval every) => if every.months = 0 then none else some .calendarWindow
    | _ => none
  | everyPositive =>
    match stage.setting? "every" with
    | some (.interval every) =>
      if 0 < every.millis.toInt then none else some (.malformedOption "every")
    | _ => none
  | everyBounds =>
    match stage.setting? "every" with
    | some _ =>
      if "from" ∈ read.settings.keys ∧ "to" ∈ read.settings.keys then none
      else some .missingBounds
    | none => none

end ReduceCheck

namespace Summary

/-- The outputs of a summary have the names that these assignments assign, in order. -/
def NamedBy (s : Summary) (earlier : List Assignment) : Prop :=
  s.outputs.keys.map some = earlier.map Assignment.targetName?

theorem NamedBy.contains_iff {s : Summary} {earlier : List Assignment} (h : s.NamedBy earlier)
    {target : String} :
    s.outputs.contains target = true ↔ some target ∈ earlier.map Assignment.targetName? := by
  rw [← h, Table.contains_iff]
  simp

end Summary

theorem Reducer.mem_names_iff {name : String} :
    name ∈ all.map Reducer.name ↔ (ofName? name).isSome = true := by
  simp [ofName?]

namespace Planner

variable {p : Planner} {read stage : Stage} {d : Decision}

/-- Why the first of some checks that fails refuses a reduction. -/
def firstRefusal? (p : Planner) (read : Stage) (d : Decision) (stage : Stage)
    (checks : List ReduceCheck) : Option Refusal :=
  checks.findSome? (ReduceCheck.refusal? p read d stage)

theorem refusal?_allow : refusal? (d.allow .aggregate) = firstRefusal? p read d stage [.prior] := by
  cases d <;> rfl

theorem refusal?_checkOptions :
    refusal? (checkOptions stage) = firstRefusal? p read d stage [.optionNames] := by
  have houtside : stage.outside reduceOptions =
      stage.settings.keys.filter (· ∉ ["forget", "groupby", "every", "on"]) := by
    simp [Stage.outside, reduceOptions]
  have hnone : stage.hasOnly reduceOptions = true ↔ stage.outside reduceOptions = [] := by
    simp [Stage.hasOnly, Stage.outside]
  simp only [firstRefusal?, List.findSome?_cons, List.findSome?_nil, ReduceCheck.refusal?,
    ← houtside, checkOptions]
  cases hnames : stage.outside reduceOptions with
  | nil => simp [hnone.mpr hnames, refusal?]
  | cons name rest =>
    have hsome : ¬stage.hasOnly reduceOptions = true := fun h => by simp [hnone.mp h] at hnames
    simp [hsome, refusal?]

theorem refusal?_checkForget :
    refusal? (checkForget stage) = firstRefusal? p read d stage [.forgetKind, .forgetSet] := by
  simp only [checkForget, firstRefusal?, List.findSome?_cons, List.findSome?_nil,
    ReduceCheck.refusal?]
  cases stage.setting? "forget" with
  | none => rfl
  | some setting =>
    cases setting with
    | boolean value => cases value <;> rfl
    | _ => rfl

theorem refusal?_groupBy :
    refusal? (p.groupBy stage) = firstRefusal? p read d stage [.groupKind, .groupTime] := by
  simp only [groupBy, groupFields, firstRefusal?, List.findSome?_cons, List.findSome?_nil,
    ReduceCheck.refusal?]
  cases stage.setting? "groupby" with
  | none => rfl
  | some setting =>
    cases setting with
    | fields names =>
      by_cases ht : p.config.timeField ∈ names
      · simp [Setting.fields?, ht, refusal?, bind, Except.bind]
      · simp [Setting.fields?, ht, refusal?, bind, Except.bind, pure, Except.pure]
    | _ => rfl

theorem refusal?_window :
    refusal? (window read stage) =
      firstRefusal? p read d stage [.everyKind, .everyCalendar, .everyPositive, .everyBounds] := by
  simp only [window, firstRefusal?, List.findSome?_cons, List.findSome?_nil, ReduceCheck.refusal?,
    ← isBounded_iff]
  cases stage.setting? "every" with
  | none => rfl
  | some setting =>
    cases setting with
    | interval every =>
      simp only [Setting.interval?, Interval.isCalendar]
      by_cases hmonths : every.months = 0
      · by_cases hmillis : 0 < every.millis.toInt
        · have hpositive : ¬every.millis.toInt ≤ 0 := by omega
          cases read.isBounded <;> simp [hmonths, hmillis, hpositive, refusal?]
        · have hnegative : every.millis.toInt ≤ 0 := by omega
          simp [hmonths, hmillis, hnegative, refusal?]
      · simp [hmonths, refusal?]
    | _ => rfl

/-- A call of a known reducer is refused for its arguments only. -/
theorem refusal?_ofCall (reducer : Reducer) (arguments : List Expr) (target : Expr)
    (timeField : String) (earlier : List Assignment) :
    refusal? (Aggregate.ofCall reducer arguments) =
      [AssignmentCheck.literalArgument, .argumentCount].findSome?
        (AssignmentCheck.refusal? timeField earlier ⟨target, .call reducer.name arguments⟩) := by
  have hcount : reducer.name = "count" ↔ reducer = .count := by cases reducer <;> decide
  simp only [List.findSome?_cons, List.findSome?_nil, AssignmentCheck.refusal?, hcount]
  cases arguments with
  | nil => cases reducer <;> rfl
  | cons argument others =>
    cases others with
    | nil => cases argument <;> cases reducer <;> rfl
    | cons second others => cases reducer <;> simp [Aggregate.ofCall, refusal?]

theorem refusal?_output_call {target : String} (ht : target ≠ p.config.timeField)
    (reducer : Reducer) (arguments : List Expr) :
    refusal? (p.output ⟨.field target, .call reducer.name arguments⟩) =
      refusal? (Aggregate.ofCall reducer arguments) := by
  have hr : Reducer.ofName? reducer.name = some reducer := Reducer.ofName?_eq_some_iff.mpr rfl
  simp only [Planner.output, Assignment.targetName?, if_neg ht, hr]
  cases Aggregate.ofCall reducer arguments <;> rfl

/-- The checks of an assignment before the one that its target is new. -/
theorem refusal?_output (a : Assignment) (earlier : List Assignment) :
    refusal? (p.output a) =
      [AssignmentCheck.plainTarget, .timeTarget, .reducerCall, .knownReducer, .literalArgument,
        .argumentCount].findSome? (AssignmentCheck.refusal? p.config.timeField earlier a) := by
  obtain ⟨left, right⟩ := a
  cases left with
  | field target =>
    by_cases ht : target = p.config.timeField
    · simp [Planner.output, Assignment.targetName?, AssignmentCheck.refusal?, List.findSome?_cons, ht,
        refusal?]
    · cases right with
      | expr value =>
        simp [Planner.output, Assignment.targetName?, AssignmentCheck.refusal?, List.findSome?_cons, ht,
          refusal?]
      | call name arguments =>
        have hknown : name ∈ ["count", "avg", "sum", "min", "max", "count_unique"] ↔
            (Reducer.ofName? name).isSome = true := Reducer.mem_names_iff
        cases hr : Reducer.ofName? name with
        | none =>
          have hunknown := hknown.not.mpr (by simp [hr])
          simp only [Planner.output, Assignment.targetName?, AssignmentCheck.refusal?,
            List.findSome?_cons, ht, hr, hunknown, refusal?, ↓reduceIte]
        | some reducer =>
          have hmem := hknown.mpr (by simp [hr])
          obtain rfl := Reducer.ofName?_eq_some_iff.mp hr
          have hcall := refusal?_ofCall reducer arguments (.field target) p.config.timeField earlier
          rw [refusal?_output_call ht, hcall]
          simp only [List.findSome?_cons, AssignmentCheck.refusal?, ht, hmem, ↓reduceIte]
  | _ => rfl

theorem refusal?_addOutput {s : Summary} {earlier : List Assignment} {output : Output}
    {a : Assignment} (hs : s.NamedBy earlier) (ha : a.targetName? = some output.target)
    (timeField : String) (expected : EmptyResult) :
    refusal? (s.addOutput output expected) =
      [AssignmentCheck.newTarget].findSome? (AssignmentCheck.refusal? timeField earlier a) := by
  obtain ⟨left, right⟩ := a
  cases left with
  | field target =>
    obtain rfl : target = output.target := Option.some.inj ha
    simp only [Summary.addOutput, hs.contains_iff, List.findSome?_cons, List.findSome?_nil,
      AssignmentCheck.refusal?]
    split <;> rfl
  | _ => cases ha

theorem refusal?_addAssignment {s : Summary} {earlier : List Assignment} (hs : s.NamedBy earlier)
    (a : Assignment) :
    refusal? (p.addAssignment s a) =
      firstRefusal? p read d stage (AssignmentCheck.all.map (.assignment earlier a)) := by
  have hadd : ∀ output, p.output a = .ok output →
      refusal? (s.addOutput output (p.emptyResult output.reducer.name)) =
        [AssignmentCheck.newTarget].findSome?
          (AssignmentCheck.refusal? p.config.timeField earlier a) := by
    intro output ho
    exact refusal?_addOutput hs (output_eq_ok_iff.mp ho).1.targetName _ _
  rw [addAssignment, refusal?_bind hadd, refusal?_output a earlier, ← List.findSome?_append]
  rfl

theorem namedBy_addAssignment {s next : Summary} {earlier : List Assignment} {a : Assignment}
    (hs : s.NamedBy earlier) (h : p.addAssignment s a = .ok next) : next.NamedBy (earlier ++ [a]) := by
  obtain ⟨output, ho, hadd⟩ := bind_eq_ok_iff.mp h
  obtain ⟨hnew, rfl⟩ := Summary.addOutput_eq_ok_iff.mp hadd
  have ht := (output_eq_ok_iff.mp ho).1.targetName
  have hs : s.outputs.keys.map some = earlier.map Assignment.targetName? := hs
  simp [Summary.NamedBy, Table.keys_insert, hnew, hs, ht]

/-- Some checks in one computation, and the later ones in what follows it. -/
theorem refusal?_bind_checks {α β : Type} {x : Except Refusal α} {f : α → Except Refusal β}
    {checks later : List ReduceCheck} (hx : refusal? x = firstRefusal? p read d stage checks)
    (hf : ∀ a, x = .ok a → refusal? (f a) = firstRefusal? p read d stage later) :
    refusal? (x >>= f) = firstRefusal? p read d stage (checks ++ later) := by
  rw [refusal?_bind hf, hx, firstRefusal?, firstRefusal?, firstRefusal?, List.findSome?_append]

theorem refusal?_addAssignments {s : Summary} {earlier : List Assignment}
    (hs : s.NamedBy earlier) (rest : List Assignment) :
    refusal? (p.addAssignments s rest) =
      firstRefusal? p read d stage (ReduceCheck.ofAssignments earlier rest) := by
  -- A target is new if it is no output so far, so the outputs have to be those assigned so far.
  induction rest generalizing s earlier with
  | nil => rfl
  | cons a rest ih =>
    exact refusal?_bind_checks (refusal?_addAssignment hs a) fun next h =>
      ih (namedBy_addAssignment hs h)

theorem refusal?_absorbReduce :
    refusal? (p.absorbReduce read d stage) = firstRefusal? p read d stage (ReduceCheck.all stage) := by
  have hchecks : ReduceCheck.all stage =
      [ReduceCheck.prior] ++ ([ReduceCheck.optionNames] ++
        ([ReduceCheck.forgetKind, ReduceCheck.forgetSet] ++
          ([ReduceCheck.groupKind, ReduceCheck.groupTime] ++
            (ReduceCheck.ofAssignments [] stage.assignments ++
              ([ReduceCheck.everyKind, ReduceCheck.everyCalendar, ReduceCheck.everyPositive,
                ReduceCheck.everyBounds] ++ []))))) := by
    simp [ReduceCheck.all]
  rw [hchecks, absorbReduce]
  -- Each computation makes its own checks, and those of the ones after it follow.
  refine refusal?_bind_checks refusal?_allow fun _ _ => ?_
  refine refusal?_bind_checks refusal?_checkOptions fun _ _ => ?_
  refine refusal?_bind_checks refusal?_checkForget fun _ _ => ?_
  refine refusal?_bind_checks refusal?_groupBy fun groupBy _ => ?_
  have hstart : Summary.NamedBy { groupBy } [] := rfl
  refine refusal?_bind_checks (refusal?_addAssignments hstart stage.assignments) fun _ _ => ?_
  exact refusal?_bind_checks refusal?_window fun _ _ => rfl

theorem offer_refusal? (hk : stage.kind = .reduce) :
    (p.offer read d stage).2 = refusal? (p.absorbReduce read d stage) := by
  simp only [offer, absorb_reduce hk]
  cases p.absorbReduce read d stage <;> rfl

/-- Only one check refuses a reduction for the names of its options. -/
theorem disallowed_of_refusal? {check : ReduceCheck} {names : List String}
    (h : check.refusal? p read d stage = some (.disallowed names)) :
    names ≠ [] ∧ names = stage.settings.keys.filter (· ∉ ["forget", "groupby", "every", "on"]) := by
  cases check with
  | optionNames =>
    simp only [ReduceCheck.refusal?] at h
    split at h
    next => cases h
    next hsome =>
      cases h
      exact ⟨hsome, rfl⟩
  | assignment earlier a check =>
    cases check <;> simp only [ReduceCheck.refusal?, AssignmentCheck.refusal?] at h <;> grind
  | _ =>
    simp only [ReduceCheck.refusal?] at h
    grind

/-- A reduction is refused for the reason of the first check that fails, from left to right. The options
that are refused are those that no reduction in the backend can have, in the order of their declaration. -/
theorem offer_first_refusal (p : Planner) (read : Stage) (d : Decision) {stage : Stage}
    (hk : stage.kind = .reduce) :
    (p.offer read d stage).2 =
        (ReduceCheck.all stage).findSome? (ReduceCheck.refusal? p read d stage) ∧
      ∀ names, (p.offer read d stage).2 = some (.disallowed names) →
        names ≠ [] ∧ names.Nodup ∧ names.Sublist stage.settings.keys ∧
          ∀ name, name ∈ names ↔
            name ∈ stage.settings.keys ∧ name ∉ ["forget", "groupby", "every", "on"] := by
  have hfirst : (p.offer read d stage).2 = firstRefusal? p read d stage (ReduceCheck.all stage) := by
    rw [offer_refusal? hk, refusal?_absorbReduce]
  refine ⟨hfirst, ?_⟩
  intro names hnames
  rw [hfirst] at hnames
  obtain ⟨check, _, hcheck⟩ := List.exists_of_findSome?_eq_some hnames
  obtain ⟨hsome, rfl⟩ := disallowed_of_refusal? hcheck
  refine ⟨hsome, stage.settings.distinct.sublist List.filter_sublist, List.filter_sublist, ?_⟩
  intro name
  simp

/-- Of several checks that fail, the first one counts: a target that is assigned again comes before one that
is the time, and both come before the windows. Options come before everything that they say. -/
theorem offer_first_refusal_assigned_again :
    let read : Stage := { kind := .read }
    let twice := (Stage.reduce [⟨.field "n", .call "count" []⟩,
      ⟨.field "n", .call "sum" [.string "bytes"]⟩,
      ⟨.field "time", .call "max" [.field "at"]⟩]).withSetting "every" (.interval ⟨1, 0⟩)
    let limited := (((Stage.reduce []).withSetting "limit" (.integer 1)).withSetting
      "forget" (.boolean false)).withSetting "from" (.integer 0)
    (ReduceCheck.all twice).filterMap (ReduceCheck.refusal? {} read .none twice) =
        [.duplicateTarget "n", .timeTarget, .nonLiteralArgument "max", .calendarWindow,
          .malformedOption "every", .missingBounds] ∧
      (Planner.offer {} read .none twice).2 = some (.duplicateTarget "n") ∧
      (Planner.offer {} read .none limited).2 = some (.disallowed ["limit", "from"]) := by
  intro read twice limited
  have hall : (ReduceCheck.all twice).filterMap (ReduceCheck.refusal? {} read .none twice) =
      [.duplicateTarget "n", .timeTarget, .nonLiteralArgument "max", .calendarWindow,
        .malformedOption "every", .missingBounds] := by decide
  have htwice : twice.kind = .reduce := rfl
  have hlimited : limited.kind = .reduce := rfl
  refine ⟨hall, ?_, ?_⟩
  · rw [(offer_first_refusal {} read .none htwice).1, ← List.head?_filterMap, hall]
    rfl
  · rw [(offer_first_refusal {} read .none hlimited).1]
    decide

end Planner

end Offload
