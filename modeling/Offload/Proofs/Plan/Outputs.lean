import Mathlib.Data.List.Forall2
import Offload.Plan.Planner
import Offload.Proofs.Outcome

namespace Offload

theorem exists_forall₂ {α β : Type} {R : α → β → Prop} {as : List α} (h : ∀ a ∈ as, ∃ b, R a b) :
    ∃ bs, List.Forall₂ R as bs := by
  induction as with
  | nil => exact ⟨[], .nil⟩
  | cons a rest ih =>
    obtain ⟨b, hb⟩ := h a (by simp)
    obtain ⟨bs, hbs⟩ := ih (fun other ho => h other (by simp [ho]))
    exact ⟨b :: bs, .cons hb hbs⟩

theorem forall₂_mem_left {α β : Type} {R : α → β → Prop} {as : List α} {bs : List β}
    (h : List.Forall₂ R as bs) : ∀ a ∈ as, ∃ b ∈ bs, R a b := by
  induction h with
  | nil => simp
  | cons hr _ ih =>
    intro a ha
    rcases List.mem_cons.mp ha with rfl | ha
    · exact ⟨_, by simp, hr⟩
    · obtain ⟨b, hb, hr⟩ := ih a ha
      exact ⟨b, by simp [hb], hr⟩

namespace Assignment

/-- The outputs that assignments yield. A count of all rows has no argument, and the other calls have
one, the name of a field as a literal. -/
inductive Yields : Assignment → Output → Prop
  | countAll (target : String) :
    Yields ⟨.field target, .call "count" []⟩ ⟨target, .count, .countAll⟩
  | countDistinct (target field : String) :
    Yields ⟨.field target, .call "count_unique" [.string field]⟩
      ⟨target, .countUnique, .countDistinct field⟩
  | function (target field : String) {reducer : Reducer} : reducer ≠ .countUnique →
    Yields ⟨.field target, .call reducer.name [.string field]⟩
      ⟨target, reducer, .function reducer field⟩

theorem Yields.targetName {a : Assignment} {output : Output} (h : a.Yields output) :
    a.targetName? = some output.target := by
  cases h <;> rfl

theorem targetNames_of_yields {assignments : List Assignment} {outputs : List Output}
    (h : List.Forall₂ Yields assignments outputs) :
    assignments.map targetName? = (outputs.map Output.target).map some := by
  induction h with
  | nil => rfl
  | cons hy _ ih => simp only [List.map_cons, hy.targetName, ih]

end Assignment

namespace Reducer

theorem ofName?_eq_some_iff {name : String} {reducer : Reducer} :
    ofName? name = some reducer ↔ reducer.name = name := by
  constructor
  · intro h
    unfold ofName? at h
    simpa using List.find?_some h
  · rintro rfl
    cases reducer <;> rfl

end Reducer

namespace Aggregate

theorem yields_of_ofCall {reducer : Reducer} {arguments : List Expr} {aggregate : Aggregate}
    (h : ofCall reducer arguments = .ok aggregate) (target : String) :
    Assignment.Yields ⟨.field target, .call reducer.name arguments⟩
      ⟨target, reducer, aggregate⟩ := by
  unfold ofCall at h
  split at h
  next =>
    cases h
    exact .countAll target
  next field =>
    cases h
    exact .countDistinct target field
  next field hu =>
    cases h
    exact .function target field hu
  next => cases h
  next => cases h

end Aggregate

namespace Planner

theorem output_call {p : Planner} {target : String} {reducer : Reducer} {arguments : List Expr}
    {aggregate : Aggregate} (ht : target ≠ p.config.timeField)
    (h : Aggregate.ofCall reducer arguments = .ok aggregate) :
    p.output ⟨.field target, .call reducer.name arguments⟩ = .ok ⟨target, reducer, aggregate⟩ := by
  have hr : Reducer.ofName? reducer.name = some reducer := Reducer.ofName?_eq_some_iff.mpr rfl
  simp only [Planner.output, Assignment.targetName?, if_neg ht, hr, h]

theorem output_eq_ok_iff {p : Planner} {a : Assignment} {output : Output} :
    p.output a = .ok output ↔ a.Yields output ∧ output.target ≠ p.config.timeField := by
  constructor
  · intro h
    obtain ⟨left, right⟩ := a
    cases left with
    | field target =>
      simp only [Planner.output, Assignment.targetName?] at h
      split at h
      next => cases h
      next ht =>
        cases right with
        | expr value => cases h
        | call name arguments =>
          cases hr : Reducer.ofName? name with
          | none => simp [hr] at h
          | some reducer =>
            obtain rfl := Reducer.ofName?_eq_some_iff.mp hr
            cases hc : Aggregate.ofCall reducer arguments with
            | error refusal => simp [hr, hc] at h
            | ok aggregate =>
              simp only [hr, hc] at h
              cases h
              exact ⟨Aggregate.yields_of_ofCall hc target, ht⟩
    | _ => cases h
  · rintro ⟨hy, ht⟩
    cases hy with
    | countAll target =>
      have hc : Aggregate.ofCall .count [] = .ok .countAll := rfl
      exact output_call ht hc
    | countDistinct target field =>
      have hc : Aggregate.ofCall .countUnique [.string field] = .ok (.countDistinct field) := rfl
      exact output_call ht hc
    | @function target field reducer hr =>
      refine output_call ht ?_
      cases reducer with
      | countUnique => exact (hr rfl).elim
      | _ => rfl

theorem yields_of_outputs {p : Planner} {assignments : List Assignment} {outputs : List Output}
    (h : List.Forall₂ (fun a output => p.output a = .ok output) assignments outputs) :
    List.Forall₂ Assignment.Yields assignments outputs :=
  h.imp fun _ _ ho => (output_eq_ok_iff.mp ho).1

end Planner

namespace Summary

/-- A summary whose tables list these outputs in order. -/
structure Lists (p : Planner) (s : Summary) (outputs : List Output) : Prop where
  aggregates : s.outputs.entries = outputs.map fun output => (output.target, output.aggregate)
  expected : s.emptyGroup.expected.entries =
    outputs.map fun output => (output.target, p.emptyResult output.reducer.name)
  actual : s.emptyGroup.actual.entries =
    outputs.map fun output => (output.target, output.reducer.backendEmpty)

variable {p : Planner} {s : Summary} {outputs : List Output}

theorem Lists.keys (h : s.Lists p outputs) :
    s.outputs.keys = outputs.map Output.target ∧
      s.emptyGroup.expected.keys = outputs.map Output.target ∧
      s.emptyGroup.actual.keys = outputs.map Output.target := by
  refine ⟨?_, ?_, ?_⟩
  · simp [Table.keys, h.aggregates, Function.comp_def]
  · simp [Table.keys, h.expected, Function.comp_def]
  · simp [Table.keys, h.actual, Function.comp_def]

theorem Lists.targets_distinct (h : s.Lists p outputs) : (outputs.map Output.target).Nodup :=
  h.keys.1 ▸ s.outputs.distinct

theorem addOutput_eq_ok_iff {output : Output} {expected : EmptyResult} {next : Summary} :
    s.addOutput output expected = .ok next ↔
      output.target ∉ s.outputs.keys ∧
        { s with
          outputs := s.outputs.insert output.target output.aggregate
          emptyGroup :=
            s.emptyGroup.insert output.target expected output.reducer.backendEmpty } = next := by
  by_cases hm : output.target ∈ s.outputs.keys
  · simp [addOutput, Table.contains_iff.mpr hm, hm]
  · have hc : ¬s.outputs.contains output.target = true := fun hc => hm (Table.contains_iff.mp hc)
    simp [addOutput, hc, hm]

/-- An output that is added has a new name, and is listed last. -/
theorem Lists.addOutput {output : Output} {next : Summary} (h : s.Lists p outputs)
    (ha : s.addOutput output (p.emptyResult output.reducer.name) = .ok next) :
    next.groupBy = s.groupBy ∧ next.Lists p (outputs ++ [output]) := by
  obtain ⟨hnew, rfl⟩ := addOutput_eq_ok_iff.mp ha
  obtain ⟨hk, he, hb⟩ := h.keys
  have hexpected : output.target ∉ s.emptyGroup.expected.keys := by rwa [he, ← hk]
  have hactual : output.target ∉ s.emptyGroup.actual.keys := by rwa [hb, ← hk]
  refine ⟨rfl, ?_, ?_, ?_⟩
  · simp [Table.entries_insert_new hnew, h.aggregates]
  · simp [EmptyGroup.insert, Table.entries_insert_new hexpected, h.expected]
  · simp [EmptyGroup.insert, Table.entries_insert_new hactual, h.actual]

end Summary

namespace Planner

variable {p : Planner} {s next : Summary} {outputs : List Output}

/-- Adding assignments lists their outputs, in order. -/
theorem addAssignments_lists {assignments : List Assignment} (h : s.Lists p outputs)
    (ha : p.addAssignments s assignments = .ok next) :
    next.groupBy = s.groupBy ∧ ∃ added,
      List.Forall₂ (fun a output => p.output a = .ok output) assignments added ∧
        next.Lists p (outputs ++ added) := by
  induction assignments generalizing s outputs with
  | nil =>
    cases ha
    exact ⟨rfl, [], .nil, by simpa using h⟩
  | cons a rest ih =>
    obtain ⟨middle, hfirst, hrest⟩ := bind_eq_ok_iff.mp ha
    obtain ⟨output, ho, hadd⟩ := bind_eq_ok_iff.mp hfirst
    obtain ⟨hgroup, hmiddle⟩ := h.addOutput hadd
    obtain ⟨hgroup', added, hyields, hlists⟩ := ih hmiddle hrest
    exact ⟨hgroup'.trans hgroup, output :: added, .cons ho hyields, by simpa using hlists⟩

/-- Assignments whose outputs have new and distinct names are all added. -/
theorem addAssignments_ok {assignments : List Assignment} {added : List Output}
    (h : s.Lists p outputs)
    (hyields : List.Forall₂ (fun a output => p.output a = .ok output) assignments added)
    (hdistinct : ((outputs ++ added).map Output.target).Nodup) :
    ∃ next, p.addAssignments s assignments = .ok next := by
  induction hyields generalizing s outputs with
  | nil => exact ⟨s, rfl⟩
  | @cons a output rest added ho hrest ih =>
    have hnew : output.target ∉ s.outputs.keys := by
      rw [h.keys.1]
      intro hm
      simp only [List.map_append, List.map_cons] at hdistinct
      exact (List.nodup_append.mp hdistinct).2.2 _ hm _ (List.mem_cons_self ..) rfl
    obtain ⟨middle, hadd⟩ :
        ∃ middle, s.addOutput output (p.emptyResult output.reducer.name) = .ok middle :=
      ⟨_, Summary.addOutput_eq_ok_iff.mpr ⟨hnew, rfl⟩⟩
    obtain ⟨_, hmiddle⟩ := h.addOutput hadd
    obtain ⟨next, hn⟩ := ih hmiddle (by simpa using hdistinct)
    refine ⟨next, ?_⟩
    exact bind_eq_ok_iff.mpr ⟨_, bind_eq_ok_iff.mpr ⟨output, ho, hadd⟩, hn⟩

end Planner

end Offload
