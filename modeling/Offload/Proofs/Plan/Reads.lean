import Offload.Proofs.Plan.Reduce

namespace Offload

namespace Planner

/-- Two reads that fetch as many rows at once, or neither of which says how many, and that are both bounded
in time or both not. -/
structure Alike (p : Planner) (read other : Stage) : Prop where
  fetch : read.fetchRows? p.config.fetchSize = other.fetchRows? p.config.fetchSize
  bounds : ("from" ∈ read.settings.keys ∧ "to" ∈ read.settings.keys) ↔
    ("from" ∈ other.settings.keys ∧ "to" ∈ other.settings.keys)

namespace Alike

variable {p : Planner} {read other : Stage}

theorem fetchSize (h : Alike p read other) : p.fetchSize read = p.fetchSize other := by
  rw [fetchSize_eq, fetchSize_eq, h.fetch]

theorem isBounded (h : Alike p read other) : read.isBounded = other.isBounded := by
  rw [Bool.eq_iff_iff, isBounded_iff, isBounded_iff]
  exact h.bounds

theorem window (h : Alike p read other) (stage : Stage) :
    Planner.window read stage = Planner.window other stage := by
  simp only [Planner.window, h.isBounded]

theorem absorbTail (h : Alike p read other) (d : Decision) (stage : Stage) :
    p.absorbTail read d stage = p.absorbTail other d stage := by
  simp only [Planner.absorbTail, h.fetchSize]

theorem absorbReduce (h : Alike p read other) (d : Decision) (stage : Stage) :
    p.absorbReduce read d stage = p.absorbReduce other d stage := by
  simp only [Planner.absorbReduce, h.window]

theorem offer (h : Alike p read other) (d : Decision) (stage : Stage) :
    p.offer read d stage = p.offer other d stage := by
  have ha : p.absorb read d stage = p.absorb other d stage := by
    unfold absorb
    split
    next => rfl
    next => exact h.absorbTail d stage
    next => exact h.absorbReduce d stage
    next => rfl
  simp only [Planner.offer, ha]

/-- The two scans hold the same decision at every stage, so they stop at the same one. -/
theorem absorbAll (h : Alike p read other) (d : Decision) (count : Nat) (stages : List Stage) :
    p.absorbAll read d count stages = p.absorbAll other d count stages := by
  induction stages generalizing d count with
  | nil => rfl
  | cons stage rest ih =>
    have ho := h.offer d stage
    rcases hr : p.offer read d stage with ⟨next, _ | refusal⟩
    · simp only [Planner.absorbAll, ← ho, hr]
      exact ih next (count + 1)
    · simp only [Planner.absorbAll, ← ho, hr]

end Alike

/-- Reads that fetch as many rows at once and are bounded alike have the same plan for all stages, whatever
else they say and of whatever kind they are. -/
theorem plan_eq_of_alike {p : Planner} {read other : Stage} (h : Alike p read other)
    (stages : List Stage) : p.plan read stages = p.plan other stages :=
  h.absorbAll .none 0 stages

/-- A read that sets no number of rows and one that sets the default, in another order and of another
kind. The tails tell small pages apart, and the windows need bounds. -/
theorem plan_eq_of_alike_default :
    let read := ((Stage.withSetting { kind := .read } "fetchSize" (.integer 0)).withSetting
      "from" (.integer 1)).withSetting "to" (.integer 9)
    let other := (((Stage.withSetting { kind := .other "load" } "to" (.string "now")).withSetting
      "table" (.string "logs")).withSetting "fetchSize" (.integer 10000)).withSetting
        "from" (.dynamic "start")
    let hourly := (Stage.reduce [.ofField "sum" "bytes"]).withSetting "every" (.interval ⟨0, 3600000⟩)
    Alike {} read other ∧
      (Planner.plan {} read [.tail 10, .tail 20000, .head 5]).absorbed = 2 ∧
      Planner.plan {} read [.tail 10, .tail 20000, .head 5] =
        Planner.plan {} other [.tail 10, .tail 20000, .head 5] ∧
      (Planner.plan {} read [hourly]).absorbed = 1 ∧
      Planner.plan {} read [hourly] = Planner.plan {} other [hourly] := by
  intro read other hourly
  have h : Alike {} read other := ⟨by decide, by decide⟩
  exact ⟨h, by decide, plan_eq_of_alike h _, by decide, plan_eq_of_alike h _⟩

end Planner

end Offload
