import Mathlib.Data.List.Nodup
import Mathlib.Data.Option.Basic
import Offload.Proofs.Plan.Outputs
import Offload.Proofs.Plan.Transition

namespace Offload

/-- An assignment that the backend can compute: a plain field other than the time becomes the result of a
known reducer on the field that a literal names, or the number of all rows. -/
def Assignment.Computable (timeField : String) (a : Assignment) : Prop :=
  ∃ target reducer arguments,
    a = ⟨.field target, .call reducer arguments⟩ ∧ target ≠ timeField ∧
    reducer ∈ ["count", "avg", "sum", "min", "max", "count_unique"] ∧
    ((∃ field, arguments = [.string field]) ∨ reducer = "count" ∧ arguments = [])

namespace Planner

variable {p : Planner} {read stage : Stage}

theorem checkOptions_eq_ok_iff :
    checkOptions stage = .ok () ↔ ∀ name ∈ stage.settings.keys, name ∈ reduceOptions := by
  have ho : stage.hasOnly reduceOptions = true ↔
      ∀ name ∈ stage.settings.keys, name ∈ reduceOptions := by
    simp [Stage.hasOnly]
  unfold checkOptions
  split
  next h => simpa using ho.mp h
  next h => simpa using fun hall => h (ho.mpr hall)

theorem checkForget_eq_ok_iff :
    checkForget stage = .ok () ↔
      ∀ value, stage.setting? "forget" = some value → value = .boolean true := by
  unfold checkForget
  cases stage.setting? "forget" with
  | none => simp
  | some setting =>
    cases setting with
    | boolean value => cases value <;> simp [Setting.boolean?]
    | _ => simp [Setting.boolean?]

theorem groupFields_eq_ok_iff {names : List String} :
    groupFields stage = .ok names ↔
      stage.setting? "groupby" = none ∧ names = [] ∨
        stage.setting? "groupby" = some (.fields names) := by
  unfold groupFields
  cases stage.setting? "groupby" with
  | none => simp only [Except.ok.injEq, true_and, reduceCtorEq, or_false, eq_comm]
  | some setting =>
    cases setting with
    | fields found => simp [Setting.fields?]
    | _ => simp [Setting.fields?]

theorem groupBy_eq_ok_iff {names : List String} :
    p.groupBy stage = .ok names ↔
      groupFields stage = .ok names ∧ p.config.timeField ∉ names := by
  constructor
  · intro h
    obtain ⟨found, hf, h⟩ := bind_eq_ok_iff.mp h
    split at h
    next => cases h
    next ht =>
      cases h
      exact ⟨hf, fun hm => ht (List.contains_iff_mem.mpr hm)⟩
  · rintro ⟨hf, ht⟩
    have hc : ¬names.contains p.config.timeField = true := fun hc =>
      ht (List.contains_iff_mem.mp hc)
    exact bind_eq_ok_iff.mpr ⟨names, hf, if_neg hc⟩

theorem isBounded_iff :
    read.isBounded = true ↔ "from" ∈ read.settings.keys ∧ "to" ∈ read.settings.keys := by
  simp [Stage.isBounded, Stage.hasSetting, Table.contains_iff]

theorem window_eq_ok_iff {found : Option Window} :
    window read stage = .ok found ↔
      stage.setting? "every" = none ∧ found = none ∨
      ∃ every, stage.setting? "every" = some (.interval every) ∧ every.months = 0 ∧
        0 < every.millis.toInt ∧ read.isBounded = true ∧
        found = some ⟨every, stage.setting? "on"⟩ := by
  unfold window
  cases stage.setting? "every" with
  | none =>
    constructor
    · intro h
      cases h
      exact Or.inl ⟨rfl, rfl⟩
    · rintro (⟨_, rfl⟩ | ⟨_, h, _⟩)
      · rfl
      · cases h
  | some setting =>
    cases setting with
    | interval every =>
      constructor
      · intro h
        simp only [Setting.interval?] at h
        split at h
        next => cases h
        next hcalendar =>
          split at h
          next => cases h
          next hmillis =>
            split at h
            next => cases h
            next hbounded =>
              cases h
              refine Or.inr ⟨every, rfl, ?_, by omega, by simpa using hbounded, rfl⟩
              simpa [Interval.isCalendar] using hcalendar
      · rintro (⟨hs, _⟩ | ⟨found, hs, hmonths, hmillis, hbounded, rfl⟩)
        · cases hs
        · cases hs
          simp [Setting.interval?, Interval.isCalendar, hmonths, hmillis, hbounded]
    | _ => simp [Setting.interval?]

theorem output_exists_iff {a : Assignment} :
    (∃ output, p.output a = .ok output) ↔ a.Computable p.config.timeField := by
  constructor
  · rintro ⟨output, ho⟩
    obtain ⟨hy, ht⟩ := output_eq_ok_iff.mp ho
    cases hy with
    | countAll target => exact ⟨target, _, _, rfl, ht, by simp, Or.inr ⟨rfl, rfl⟩⟩
    | countDistinct target field => exact ⟨target, _, _, rfl, ht, by simp, Or.inl ⟨field, rfl⟩⟩
    | @function target field reducer =>
      have hn : reducer.name ∈ Reducer.all.map Reducer.name :=
        List.mem_map_of_mem (by cases reducer <;> decide)
      exact ⟨target, _, _, rfl, ht, hn, Or.inl ⟨field, rfl⟩⟩
  · rintro ⟨target, name, arguments, rfl, ht, hn, ha⟩
    have hn : name ∈ Reducer.all.map Reducer.name := hn
    obtain ⟨reducer, _, rfl⟩ := List.mem_map.mp hn
    rcases ha with ⟨field, rfl⟩ | ⟨hcount, rfl⟩
    · by_cases hu : reducer = .countUnique
      · subst hu
        exact ⟨_, output_eq_ok_iff.mpr ⟨.countDistinct target field, ht⟩⟩
      · exact ⟨_, output_eq_ok_iff.mpr ⟨.function target field hu, ht⟩⟩
    · rw [hcount]
      exact ⟨_, output_eq_ok_iff.mpr ⟨.countAll target, ht⟩⟩

/-- What a reduction has to be for the empty decision to absorb it. -/
structure Reducible (p : Planner) (read stage : Stage) : Prop where
  options : ∀ name ∈ stage.settings.keys, name ∈ ["forget", "groupby", "every", "on"]
  forget : ∀ value, stage.setting? "forget" = some value → value = .boolean true
  groupBy : ∀ value, stage.setting? "groupby" = some value →
    ∃ names, value = .fields names ∧ p.config.timeField ∉ names
  assignments : ∀ a ∈ stage.assignments, a.Computable p.config.timeField
  distinct : (stage.assignments.map Assignment.targetName?).Nodup
  every : ∀ value, stage.setting? "every" = some value →
    ∃ every, value = .interval every ∧ every.months = 0 ∧ 0 < every.millis.toInt ∧
      "from" ∈ read.settings.keys ∧ "to" ∈ read.settings.keys

/-- The summary that a reduction becomes, with its outputs in the order of the assignments. -/
structure Reduces (p : Planner) (read stage : Stage) (summary : Summary) (outputs : List Output) :
    Prop where
  options : ∀ name ∈ stage.settings.keys, name ∈ reduceOptions
  forget : ∀ value, stage.setting? "forget" = some value → value = .boolean true
  fields : groupFields stage = .ok summary.groupBy
  timeless : p.config.timeField ∉ summary.groupBy
  yields : List.Forall₂ (fun a output => p.output a = .ok output) stage.assignments outputs
  lists : summary.Lists p outputs
  window : window read stage = .ok summary.window

theorem lists_nil (p : Planner) (groupBy : List String) : Summary.Lists p { groupBy } [] :=
  ⟨rfl, rfl, rfl⟩

theorem reduces_of_absorbReduce {d : Decision}
    (h : p.absorbReduce read .none stage = .ok d) :
    ∃ summary outputs, d = .aggregate summary ∧ Reduces p read stage summary outputs := by
  obtain ⟨_, hoptions, hforget, groupBy, filled, found, hgroup, hfilled, hwindow, rfl⟩ :=
    absorbReduce_eq_ok_iff.mp h
  obtain ⟨hsame, outputs, hyields, hlists⟩ := addAssignments_lists (lists_nil p groupBy) hfilled
  obtain ⟨hfields, htime⟩ := groupBy_eq_ok_iff.mp hgroup
  obtain rfl : filled.groupBy = groupBy := hsame
  exact ⟨_, outputs, rfl, checkOptions_eq_ok_iff.mp hoptions, checkForget_eq_ok_iff.mp hforget,
    hfields, htime, hyields, ⟨hlists.aggregates, hlists.expected, hlists.actual⟩, hwindow⟩

theorem Reduces.reducible {summary : Summary} {outputs : List Output}
    (h : Reduces p read stage summary outputs) : Reducible p read stage := by
  refine ⟨h.options, h.forget, ?_, ?_, ?_, ?_⟩
  · intro value hvalue
    rcases groupFields_eq_ok_iff.mp h.fields with ⟨hs, _⟩ | hs
    · simp [hvalue] at hs
    · exact ⟨summary.groupBy, Option.some.inj (hvalue.symm.trans hs), h.timeless⟩
  · intro a ha
    obtain ⟨output, _, ho⟩ := forall₂_mem_left h.yields a ha
    exact output_exists_iff.mp ⟨output, ho⟩
  · rw [Assignment.targetNames_of_yields (yields_of_outputs h.yields)]
    exact h.lists.targets_distinct.map (Option.some_injective _)
  · intro value hvalue
    rcases window_eq_ok_iff.mp h.window with ⟨hs, _⟩ | ⟨every, hs, hmonths, hmillis, hbounded, _⟩
    · simp [hvalue] at hs
    · exact ⟨every, Option.some.inj (hvalue.symm.trans hs), hmonths, hmillis,
        isBounded_iff.mp hbounded⟩

theorem Reducible.groupBy_ok (h : Reducible p read stage) :
    ∃ names, p.groupBy stage = .ok names := by
  cases hs : stage.setting? "groupby" with
  | none =>
    exact ⟨[], groupBy_eq_ok_iff.mpr ⟨groupFields_eq_ok_iff.mpr (Or.inl ⟨hs, rfl⟩), by simp⟩⟩
  | some value =>
    obtain ⟨names, rfl, ht⟩ := h.groupBy value hs
    exact ⟨names, groupBy_eq_ok_iff.mpr ⟨groupFields_eq_ok_iff.mpr (Or.inr hs), ht⟩⟩

theorem Reducible.window_ok (h : Reducible p read stage) :
    ∃ found, window read stage = .ok found := by
  cases hs : stage.setting? "every" with
  | none => exact ⟨none, window_eq_ok_iff.mpr (Or.inl ⟨hs, rfl⟩)⟩
  | some value =>
    obtain ⟨every, rfl, hmonths, hmillis, hbounds⟩ := h.every value hs
    exact ⟨_, window_eq_ok_iff.mpr
      (Or.inr ⟨every, hs, hmonths, hmillis, isBounded_iff.mpr hbounds, rfl⟩)⟩

theorem Reducible.addAssignments_ok (h : Reducible p read stage) (groupBy : List String) :
    ∃ filled, p.addAssignments { groupBy } stage.assignments = .ok filled := by
  obtain ⟨outputs, hyields⟩ :=
    exists_forall₂ (fun a ha => output_exists_iff.mpr (h.assignments a ha))
  have hdistinct := h.distinct
  rw [Assignment.targetNames_of_yields (yields_of_outputs hyields)] at hdistinct
  exact Planner.addAssignments_ok (lists_nil p groupBy) hyields (List.Nodup.of_map some hdistinct)

theorem absorbReduce_of_reducible (h : Reducible p read stage) :
    ∃ d, p.absorbReduce read .none stage = .ok d := by
  obtain ⟨groupBy, hgroup⟩ := h.groupBy_ok
  obtain ⟨filled, hfilled⟩ := h.addAssignments_ok groupBy
  obtain ⟨found, hwindow⟩ := h.window_ok
  exact ⟨_, absorbReduce_eq_ok_iff.mpr ⟨rfl, checkOptions_eq_ok_iff.mpr h.options,
    checkForget_eq_ok_iff.mpr h.forget, groupBy, filled, found, hgroup, hfilled, hwindow, rfl⟩⟩

theorem absorb_reduce (hk : stage.kind = .reduce) (d : Decision) :
    p.absorb read d stage = p.absorbReduce read d stage := by
  simp only [absorb, hk]

/-- A reduction is absorbed with the summary that it becomes, or it is refused. -/
theorem offer_reduce_cases (p : Planner) (read : Stage) {stage : Stage}
    (hk : stage.kind = .reduce) :
    (∃ summary outputs, p.offer read .none stage = (.aggregate summary, none) ∧
      Reduces p read stage summary outputs) ∨
    ∃ refusal, p.offer read .none stage = (.none, some refusal) ∧ ¬Reducible p read stage := by
  cases h : p.absorbReduce read .none stage with
  | ok next =>
    obtain ⟨summary, outputs, rfl, hr⟩ := reduces_of_absorbReduce h
    exact Or.inl ⟨summary, outputs, by simp only [offer, absorb_reduce hk, h], hr⟩
  | error refusal =>
    refine Or.inr ⟨refusal, by simp only [offer, absorb_reduce hk, h], ?_⟩
    intro hr
    obtain ⟨d, hd⟩ := absorbReduce_of_reducible hr
    simp [h] at hd

/-- The decision that a reduction becomes. Its outputs and their results on empty groups are in the order
of the assignments. -/
structure Becomes (p : Planner) (stage : Stage) (d : Decision) : Prop where
  kind : d.kind = .aggregate
  limit : d.limit? = none
  groupBy : stage.setting? "groupby" = none ∧ d.groupBy = [] ∨
    stage.setting? "groupby" = some (.fields d.groupBy)
  every : stage.setting? "every" = d.every?.map .interval
  anchor : d.anchor? = if (stage.setting? "every").isSome then stage.setting? "on" else none
  outputs : ∃ outputs, List.Forall₂ Assignment.Yields stage.assignments outputs ∧
    d.outputs.entries = (outputs.map fun output => (output.target, output.aggregate)) ∧
    d.emptyGroup.expected.entries =
      (outputs.map fun output => (output.target, p.emptyResult output.reducer.name)) ∧
    d.emptyGroup.actual.entries =
      outputs.map fun output => (output.target, output.reducer.backendEmpty)

theorem Reduces.becomes {summary : Summary} {outputs : List Output}
    (h : Reduces p read stage summary outputs) : Becomes p stage (.aggregate summary) := by
  have hw := window_eq_ok_iff.mp h.window
  refine ⟨rfl, rfl, ?_, ?_, ?_, ?_⟩
  · exact groupFields_eq_ok_iff.mp h.fields
  · change _ = (summary.window.map Window.every).map Setting.interval
    rcases hw with ⟨hs, hnone⟩ | ⟨every, hs, _, _, _, hsome⟩
    · simp [hs, hnone]
    · simp [hs, hsome]
  · change summary.window.bind Window.anchor = _
    rcases hw with ⟨hs, hnone⟩ | ⟨every, hs, _, _, _, hsome⟩
    · simp [hs, hnone]
    · simp [hs, hsome]
  · exact ⟨outputs, yields_of_outputs h.yields, h.lists.aggregates, h.lists.expected, h.lists.actual⟩

/-- The empty decision absorbs exactly the reductions that the backend can compute, and what it becomes
is fixed by the reduction. -/
theorem offer_reduce_iff (p : Planner) (read : Stage) {stage : Stage}
    (hk : stage.kind = .reduce) :
    ((p.offer read .none stage).2 = none ↔ Reducible p read stage) ∧
      (Reducible p read stage → Becomes p stage (p.offer read .none stage).1) := by
  rcases offer_reduce_cases p read hk with ⟨summary, outputs, ho, hr⟩ | ⟨refusal, ho, hr⟩
  · rw [ho]
    exact ⟨⟨fun _ => hr.reducible, fun _ => rfl⟩, fun _ => hr.becomes⟩
  · rw [ho]
    exact ⟨⟨fun h => (Option.some_ne_none refusal h).elim, fun h => (hr h).elim⟩,
      fun h => (hr h).elim⟩

/-- Counts and sums by host and hour, with windows that start at an anchor. -/
theorem offer_reduce_iff_hourly :
    let read := (Stage.withSetting { kind := .read } "from" (.integer 0)).withSetting "to" (.integer 9)
    let stage := (((Stage.reduce [⟨.field "n", .call "count" []⟩, .ofField "sum" "bytes"]).withSetting
      "groupby" (.fields ["host"])).withSetting "every" (.interval ⟨0, 3600000⟩)).withSetting
        "on" (.string "host")
    (Planner.offer {} read .none stage).2 = none ∧ Reducible {} read stage ∧
      Becomes {} stage (Planner.offer {} read .none stage).1 := by
  intro read stage
  have hk : stage.kind = .reduce := rfl
  have h := offer_reduce_iff {} read hk
  have ha : (Planner.offer {} read .none stage).2 = none := by decide
  exact ⟨ha, h.1.mp ha, h.2 (h.1.mp ha)⟩

end Planner

end Offload
