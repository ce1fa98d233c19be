import Offload.Proofs.Plan.Record
import Offload.Proofs.Plan.Reduce

namespace Offload

namespace DecisionRecord

/-- All parts that only an aggregate has are empty. -/
def HasNoSummary (r : DecisionRecord) : Prop :=
  r.groupBy = [] ∧ r.every = none ∧ r.anchor = none ∧ r.outputs = .empty ∧ r.emptyGroup = {}

/-- The parts of an aggregate fit together, and the windows fit the read. -/
structure IsGrouped (p : Planner) (read : Option Stage) (r : DecisionRecord) : Prop where
  limit : r.limit = none
  expected : r.emptyGroup.expected.keys = r.outputs.keys
  actual : r.emptyGroup.actual.keys = r.outputs.keys
  distinct : r.outputs.keys.Nodup
  timeTarget : p.config.timeField ∉ r.outputs.keys
  timeGroup : p.config.timeField ∉ r.groupBy
  countUnique : ∀ entry ∈ r.outputs.entries, ∀ field, entry.2 ≠ .function .countUnique field
  anchor : r.anchor.isSome → r.every.isSome
  every : ∀ every, r.every = some every →
    every.months = 0 ∧ 0 < every.millis.toInt ∧ every.span = .fixed every.millis ∧
      ∃ bounded, read = some bounded ∧ "from" ∈ bounded.settings.keys ∧
        "to" ∈ bounded.settings.keys

end DecisionRecord

namespace RecordSession

/-- The parts of the decision that its kind has are set, and the others are empty. The limit of a tail and
the windows of an aggregate fit the read of the stage that was absorbed last. -/
def Valid (p : Planner) (s : RecordSession) : Prop :=
  match s.record.kind with
  | .none => s.record.limit = none ∧ s.record.HasNoSummary
  | .head => (∃ limit, s.record.limit = some limit) ∧ s.record.HasNoSummary
  | .tail =>
    s.record.HasNoSummary ∧ ∃ limit read size, s.record.limit = some limit ∧
      s.lastRead = some read ∧ read.fetchRows? p.config.fetchSize = some size ∧ limit ≤ size
  | .aggregate => s.record.IsGrouped p s.lastRead

end RecordSession

theorem Decision.hasNoSummary_record {d : Decision} (hd : d.summary = {}) :
    d.record.HasNoSummary := by
  unfold DecisionRecord.HasNoSummary record groupBy every? anchor? outputs emptyGroup
  rw [hd]
  exact ⟨rfl, rfl, rfl, rfl, rfl⟩

theorem Interval.span_fixed {i : Interval} (hmonths : i.months = 0) (hmillis : 0 < i.millis.toInt) :
    i.span = .fixed i.millis := by
  have hc : i.isCalendar = false := by simp [Interval.isCalendar, hmonths]
  have hlong : ¬i.millis.toInt = -9223372036854775808 := by omega
  simp [Interval.span, hc, hlong]

theorem Assignment.Yields.aggregate_ne {a : Assignment} {output : Output} (h : a.Yields output)
    (field : String) : output.aggregate ≠ .function .countUnique field := by
  cases h with
  | countAll target => simp [Aggregate.countAll]
  | countDistinct target field => simp [Aggregate.countDistinct]
  | function target field hr =>
    intro he
    exact hr (Aggregate.function.inj he).1

namespace Planner

variable {p : Planner} {read stage : Stage}

theorem Reduces.output {summary : Summary} {outputs : List Output}
    (h : Reduces p read stage summary outputs) {output : Output} (hm : output ∈ outputs) :
    ∃ a : Assignment, a.Yields output ∧ output.target ≠ p.config.timeField := by
  obtain ⟨a, _, ho⟩ := forall₂_mem_left h.yields.flip output hm
  exact ⟨a, output_eq_ok_iff.mp ho⟩

theorem Reduces.isGrouped {summary : Summary} {outputs : List Output}
    (h : Reduces p read stage summary outputs) :
    (Decision.aggregate summary).record.IsGrouped p (some read) := by
  obtain ⟨hk, he, ha⟩ := h.lists.keys
  refine ⟨rfl, he.trans hk.symm, ha.trans hk.symm, summary.outputs.distinct, ?_, h.timeless, ?_, ?_,
    ?_⟩
  · change p.config.timeField ∉ summary.outputs.keys
    rw [hk]
    intro hm
    obtain ⟨output, ho, ht⟩ := List.mem_map.mp hm
    obtain ⟨_, _, hne⟩ := h.output ho
    exact hne ht
  · change ∀ entry ∈ summary.outputs.entries, _
    rw [h.lists.aggregates]
    intro entry hm
    obtain ⟨output, ho, rfl⟩ := List.mem_map.mp hm
    obtain ⟨a, hy, _⟩ := h.output ho
    exact hy.aggregate_ne
  · change (summary.window.bind Window.anchor).isSome → (summary.window.map Window.every).isSome
    cases summary.window with
    | none => simp
    | some window => simp
  · intro every hevery
    change summary.window.map Window.every = some every at hevery
    rcases window_eq_ok_iff.mp h.window with ⟨_, hw⟩ | ⟨found, _, hmonths, hmillis, hbounded, hw⟩
    · simp [hw] at hevery
    · obtain rfl : found = every := by simpa [hw] using hevery
      exact ⟨hmonths, hmillis, Interval.span_fixed hmonths hmillis, read, rfl,
        isBounded_iff.mp hbounded⟩

end Planner

namespace Session

variable {p : Planner}

/-- Whatever the decision was before, a stage that is absorbed leaves a valid one. -/
theorem valid_of_transition {read stage : Stage} {d next : Decision}
    (h : Planner.Transition p read stage d next) : (record ⟨next, some read⟩).Valid p := by
  cases h with
  | head => exact ⟨⟨_, rfl⟩, Decision.hasNoSummary_record rfl⟩
  | headAgain => exact ⟨⟨_, rfl⟩, Decision.hasNoSummary_record rfl⟩
  | tail _ _ hs hle => exact ⟨Decision.hasNoSummary_record rfl, _, read, _, rfl, rfl, hs, hle⟩
  | tailAgain _ _ hs hle => exact ⟨Decision.hasNoSummary_record rfl, _, read, _, rfl, rfl, hs, hle⟩
  | aggregate _ ha =>
    obtain ⟨summary, outputs, hd, hr⟩ := Planner.reduces_of_absorbReduce ha
    cases hd
    exact hr.isGrouped

theorem take_cases (p : Planner) (s : Session) (o : Offer) :
    s.take p o = s ∨ ∃ next, Planner.Transition p o.read o.stage s.decision next ∧
      s.take p o = ⟨next, some o.read⟩ := by
  cases h : p.absorb o.read s.decision o.stage with
  | error refusal => exact Or.inl (by simp only [take, Planner.offer, h])
  | ok next =>
    exact Or.inr ⟨next, Planner.absorb_eq_ok_iff.mp h, by simp only [take, Planner.offer, h]⟩

theorem valid_take {s : Session} (h : s.record.Valid p) (o : Offer) :
    (s.take p o).record.Valid p := by
  rcases take_cases p s o with hs | ⟨next, ht, hs⟩
  · rw [hs]
    exact h
  · rw [hs]
    exact valid_of_transition ht

theorem valid_foldl {s : Session} (h : s.record.Valid p) (offers : List Offer) :
    (offers.foldl (take p) s).record.Valid p := by
  induction offers generalizing s with
  | nil => exact h
  | cons o rest ih => exact ih (valid_take h o)

/-- The record that a session reaches is valid, and it is the record of the decision that the session
reaches. -/
theorem valid_run (p : Planner) (offers : List Offer) :
    (RecordSession.run p offers).Valid p ∧ RecordSession.run p offers = (run p offers).record := by
  have start : (record {}).Valid p := ⟨rfl, Decision.hasNoSummary_record rfl⟩
  have hrun := run_record p offers
  refine ⟨?_, hrun⟩
  rw [hrun]
  exact valid_foldl start offers

/-- On a read of two rows a page, a tail of five rows is refused and a tail of two rows is absorbed. -/
theorem valid_run_small_page :
    let read := Stage.withSetting { kind := .read } "fetchSize" (.integer 2)
    let s := RecordSession.run {} [⟨read, .tail 5⟩, ⟨read, .tail 2⟩]
    s.Valid {} ∧ s.record.kind = .tail ∧ s.record.limit = some 2 ∧
      read.fetchRows? ({} : Planner).config.fetchSize = some 2 ∧
      (RecordSession.run {} [⟨read, .tail 5⟩]).record.kind = .none := by
  intro read s
  obtain ⟨hvalid, _⟩ := valid_run {} [⟨read, .tail 5⟩, ⟨read, .tail 2⟩]
  exact ⟨hvalid, by decide, by decide, by decide, by decide⟩

end Session

end Offload
