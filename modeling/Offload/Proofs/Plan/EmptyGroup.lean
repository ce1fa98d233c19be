import Offload.Proofs.Aggregate.Repair
import Offload.Proofs.Plan.Reduce

namespace Offload

/-- A reducer that is called, and the field that its result is assigned to. -/
structure Call where
  target : String
  reducer : Reducer
  deriving DecidableEq

/-- The cell in which the backend returns the result of a call on a group without rows. -/
def Call.backendCell (call : Call) : Json :=
  match call.reducer with
  | .count | .countUnique => .int 0
  | .avg | .sum | .min | .max => .null

def Assignment.call? (a : Assignment) : Option Call :=
  match a.target, a.value with
  | .field target, .call name _ => (Reducer.ofName? name).map (Call.mk target)
  | _, _ => none

/-- The calls of a reduction, from left to right. -/
def Stage.calls (stage : Stage) : List Call :=
  stage.assignments.filterMap Assignment.call?

theorem Call.holds_backendCell (call : Call) :
    call.reducer.backendEmpty.holds (some call.backendCell) = true := by
  obtain ⟨target, reducer⟩ := call
  cases reducer <;> rfl

theorem Call.writtenAs_backendCell (call : Call) :
    call.reducer.backendEmpty.WrittenAs (some call.backendCell) := by
  obtain ⟨target, reducer⟩ := call
  cases reducer with
  | count => exact .integer 0
  | countUnique => exact .integer 0
  | _ => exact .null

theorem Assignment.Yields.call {a : Assignment} {output : Output} (h : a.Yields output) :
    a.call? = some ⟨output.target, output.reducer⟩ := by
  cases h with
  | countAll target => rfl
  | countDistinct target field => rfl
  | @function target field reducer _ =>
    have hr : Reducer.ofName? reducer.name = some reducer := Reducer.ofName?_eq_some_iff.mpr rfl
    simp only [Assignment.call?, hr, Option.map_some]

theorem calls_of_yields {assignments : List Assignment} {outputs : List Output}
    (h : List.Forall₂ Assignment.Yields assignments outputs) :
    assignments.map Assignment.call? =
      (outputs.map fun output => Call.mk output.target output.reducer).map some := by
  induction h with
  | nil => rfl
  | cons hy _ ih => simp only [List.map_cons, hy.call, ih]

/-- The results on empty groups are listed call by call, those of the pipeline and those of the backend. -/
structure EmptyGroup.Lists (p : Planner) (group : EmptyGroup) (calls : List Call) : Prop where
  expected : group.expected.entries =
    calls.map fun call => (call.target, p.emptyResult call.reducer.name)
  actual : group.actual.entries = calls.map fun call => (call.target, call.reducer.backendEmpty)

/-- What a row of an empty group becomes: the result that the pipeline defines for every call, and no other
change. -/
structure IsRepair (p : Planner) (calls : List Call) (row : Row) (result : Row × Nat) : Prop where
  targets : ∀ call ∈ calls,
    (p.emptyResult call.reducer.name).WrittenAs (result.1.find? call.target)
  others : ∀ field, field ∉ calls.map Call.target → result.1.find? field = row.find? field
  count : result.2 =
    calls.countP fun call => p.emptyResult call.reducer.name ≠ call.reducer.backendEmpty

namespace EmptyGroup.Lists

variable {p : Planner} {group : EmptyGroup} {calls : List Call}

theorem find?_expected (h : group.Lists p calls) {call : Call} (hc : call ∈ calls) :
    group.expected.find? call.target = some (p.emptyResult call.reducer.name) := by
  rw [Table.find?_eq_some_iff, h.expected]
  exact List.mem_map.mpr ⟨call, hc, rfl⟩

theorem find?_actual (h : group.Lists p calls) {call : Call} (hc : call ∈ calls) :
    group.actual.find? call.target = some call.reducer.backendEmpty := by
  rw [Table.find?_eq_some_iff, h.actual]
  exact List.mem_map.mpr ⟨call, hc, rfl⟩

theorem mismatched_eq (h : group.Lists p calls) :
    group.mismatched =
      (calls.filter fun call => p.emptyResult call.reducer.name ≠ call.reducer.backendEmpty).map
        Call.target := by
  have hdiffers : ∀ call ∈ calls,
      (group.actual.find? call.target != some (p.emptyResult call.reducer.name)) =
        decide (p.emptyResult call.reducer.name ≠ call.reducer.backendEmpty) := by
    intro call hc
    rw [h.find?_actual hc]
    by_cases same : p.emptyResult call.reducer.name = call.reducer.backendEmpty
    · simp [same]
    · simp [same, Ne.symm same]
  unfold mismatched
  rw [h.expected, List.filter_map, List.map_map]
  simp only [Function.comp_def]
  rw [List.filter_congr hdiffers]

/-- A cell that holds the backend's result is replaced by what the pipeline defines. -/
theorem repair?_eq (h : group.Lists p calls) {call : Call} (hc : call ∈ calls) :
    group.repair? call.target (some call.backendCell) =
      some (p.emptyResult call.reducer.name) := by
  simp only [repair?, h.find?_expected hc, h.find?_actual hc, call.holds_backendCell, ↓reduceIte]

theorem isRepair (h : group.Lists p calls) {row : Row}
    (hrow : ∀ call ∈ calls, row.find? call.target = some call.backendCell) :
    IsRepair p calls row (group.patch row) := by
  refine ⟨?_, ?_, ?_⟩
  · intro call hc
    rw [find?_patch, hrow call hc]
    split
    next =>
      simp only [repaired, h.repair?_eq hc]
      exact EmptyResult.writtenAs_iff.mpr rfl
    next hm =>
      -- A field that is not repaired holds the same result in the backend and in the pipeline.
      have hsame : p.emptyResult call.reducer.name = call.reducer.backendEmpty := by
        by_contra hne
        have hactual := h.find?_actual hc
        exact hm (mem_mismatched_iff.mpr ⟨_, h.find?_expected hc, fun he =>
          hne (Option.some.inj (he.symm.trans hactual))⟩)
      rw [hsame]
      exact call.writtenAs_backendCell
  · intro field hf
    have hm : field ∉ group.mismatched := by
      rw [h.mismatched_eq]
      exact fun hm => hf ((List.filter_sublist.map Call.target).subset hm)
    rw [find?_patch, if_neg hm]
  · have hall : ∀ field ∈ group.mismatched,
        (group.repair? field (row.find? field)).isSome = true := by
      intro field hm
      rw [h.mismatched_eq] at hm
      obtain ⟨call, hc, rfl⟩ := List.mem_map.mp hm
      have hc := (List.mem_filter.mp hc).1
      rw [hrow call hc, h.repair?_eq hc, Option.isSome_some]
    rw [count_patch, List.countP_eq_length.mpr hall, h.mismatched_eq, List.length_map,
      List.countP_eq_length_filter]

/-- The standard results are those of the backend for the two counts only. -/
theorem mismatched_standard (h : group.Lists p calls) (hp : p.emptyResult = Reducer.standardEmpty) :
    group.mismatched =
      (calls.filter fun call => call.reducer ∈ [.avg, .sum, .min, .max]).map Call.target := by
  have hreducer : ∀ reducer : Reducer,
      (decide (Reducer.standardEmpty reducer.name ≠ reducer.backendEmpty)) =
        decide (reducer ∈ [.avg, .sum, .min, .max]) := by
    intro reducer
    cases reducer <;> decide
  rw [h.mismatched_eq, hp]
  simp only [hreducer]

end EmptyGroup.Lists

namespace Planner

variable {p : Planner} {read stage : Stage}

theorem absorb_of_offer {d next : Decision} (h : p.offer read d stage = (next, none)) :
    p.absorb read d stage = .ok next := by
  unfold offer at h
  cases ha : p.absorb read d stage with
  | ok found =>
    rw [ha] at h
    exact congrArg Except.ok (Prod.mk.inj h).1
  | error refusal =>
    rw [ha] at h
    cases (Prod.mk.inj h).2

/-- Every assignment of a reduction that is absorbed is a call. -/
theorem Reduces.calls {summary : Summary} {outputs : List Output}
    (h : Reduces p read stage summary outputs) :
    stage.calls = outputs.map fun output => Call.mk output.target output.reducer := by
  have hcalls := calls_of_yields (yields_of_outputs h.yields)
  have hkept := congrArg (List.filterMap id) hcalls
  simpa [Stage.calls, List.filterMap_map] using hkept

theorem Reduces.lists_calls {summary : Summary} {outputs : List Output}
    (h : Reduces p read stage summary outputs) : summary.emptyGroup.Lists p stage.calls := by
  rw [h.calls]
  refine ⟨?_, ?_⟩
  · rw [h.lists.expected, List.map_map]
    rfl
  · rw [h.lists.actual, List.map_map]
    rfl

/-- A reduction that is absorbed repairs the rows of its empty groups: every target holds what the pipeline
defines, and nothing else changes. With the standard results, the fields that differ are the averages, sums,
minima and maxima. -/
theorem offer_repairs {prior d : Decision} (hk : stage.kind = .reduce)
    (ha : p.offer read prior stage = (d, none)) :
    stage.assignments.map Assignment.call? = stage.calls.map some ∧
    (∀ row : Row, (∀ call ∈ stage.calls, row.find? call.target = some call.backendCell) →
      IsRepair p stage.calls row (d.emptyGroup.patch row)) ∧
    (p.emptyResult = Reducer.standardEmpty →
      d.emptyGroup.mismatched =
        (stage.calls.filter fun call => call.reducer ∈ [.avg, .sum, .min, .max]).map
          Call.target) := by
  have h := absorb_of_offer ha
  rw [absorb_reduce hk] at h
  obtain ⟨rfl, _⟩ := absorbReduce_eq_ok_iff.mp h
  obtain ⟨summary, outputs, rfl, hr⟩ := reduces_of_absorbReduce h
  have hl : summary.emptyGroup.Lists p stage.calls := hr.lists_calls
  refine ⟨?_, fun row hrow => hl.isRepair hrow, hl.mismatched_standard⟩
  rw [hr.calls]
  exact calls_of_yields (yields_of_outputs hr.yields)

/-- A sum that becomes five and a count that is taken away, in a row with a field that groups the rows. With
the standard results the count is not repaired. -/
theorem offer_repairs_idle_host :
    let stage := (Stage.reduce [⟨.field "n", .call "count" []⟩, .ofField "sum" "bytes",
      .ofField "avg" "bytes"]).withSetting "groupby" (.fields ["host"])
    let row : Row := .ofList [("host", .string "a"), ("n", .int 0), ("sum", .null), ("avg", .null)]
    let p : Planner := { emptyResult := fun name => if name = "sum" then .integer 5 else .absent }
    let group := (p.offer { kind := .read } .none stage).1.emptyGroup
    (∀ call ∈ stage.calls, row.find? call.target = some call.backendCell) ∧
      IsRepair p stage.calls row (group.patch row) ∧
      (group.patch row).1.find? "sum" = some (.int 5) ∧ (group.patch row).1.find? "n" = none ∧
      (group.patch row).1.find? "host" = some (.string "a") ∧ (group.patch row).2 = 3 ∧
      (Planner.offer {} { kind := .read } .none stage).1.emptyGroup.mismatched = ["sum", "avg"] := by
  intro stage row p group
  have hk : stage.kind = .reduce := rfl
  have ha : p.offer { kind := .read } .none stage =
      ((p.offer { kind := .read } .none stage).1, none) := Prod.ext rfl (by decide)
  have hs : Planner.offer {} { kind := .read } .none stage =
      ((Planner.offer {} { kind := .read } .none stage).1, none) := Prod.ext rfl (by decide)
  obtain ⟨_, hrepair, _⟩ := offer_repairs hk ha
  obtain ⟨_, _, hstandard⟩ := offer_repairs hk hs
  have hcalls : stage.calls = [⟨"n", .count⟩, ⟨"sum", .sum⟩, ⟨"avg", .avg⟩] := by decide
  have hrow : ∀ call ∈ stage.calls, row.find? call.target = some call.backendCell := by
    rw [hcalls]
    simp only [List.forall_mem_cons, List.not_mem_nil, false_imp_iff, implies_true, and_true]
    exact ⟨rfl, rfl, rfl⟩
  have hr := hrepair row hrow
  have hsum := EmptyResult.writtenAs_iff.mp (hr.targets ⟨"sum", .sum⟩ (by decide))
  have hcount := EmptyResult.writtenAs_iff.mp (hr.targets ⟨"n", .count⟩ (by decide))
  have hhost := hr.others "host" (by decide)
  exact ⟨hrow, hr, hsum, hcount, hhost, hr.count.trans (by decide),
    (hstandard rfl).trans (by decide)⟩

end Planner

end Offload
