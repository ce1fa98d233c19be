import Offload.Plan.Rows
import Offload.Proofs.Outcome
import Offload.Proofs.Plan.Scan

namespace Offload

namespace Stage

theorem limit_eq_ok_iff {stage : Stage} {limit : Nat} :
    stage.limit = .ok limit ↔ stage.declaredRows? = some limit := by
  unfold Stage.limit declaredRows? limitOption
  cases stage.setting? "arg" with
  | none => simp
  | some setting =>
    cases setting with
    | integer n =>
      by_cases hn : 0 ≤ n.toInt
      · simp [Setting.isConstant, Setting.integer?, hn]
      · simp [Setting.isConstant, Setting.integer?, hn]
    | _ => simp [Setting.isConstant, Setting.integer?]

end Stage

namespace Decision

theorem allow_eq_ok_iff {d : Decision} {attempted : DecisionKind} :
    d.allow attempted = .ok () ↔ d.kind.canBecome attempted = true := by
  unfold allow
  split <;> simp_all

end Decision

namespace Planner

theorem fetchSize_eq (p : Planner) (read : Stage) :
    p.fetchSize read =
      match read.fetchRows? p.config.fetchSize with
      | some size => .ok size
      | none => .error (.malformedOption fetchOption) := by
  unfold fetchSize Stage.fetchRows? fetchOption
  cases read.setting? "fetchSize" with
  | none => rfl
  | some setting => cases setting <;> rfl

theorem fetchSize_eq_ok_iff {p : Planner} {read : Stage} {size : Nat} :
    p.fetchSize read = .ok size ↔ read.fetchRows? p.config.fetchSize = some size := by
  rw [fetchSize_eq]
  cases read.fetchRows? p.config.fetchSize with
  | none => simp
  | some found => simp

/-- The ways in which a stage is absorbed. Only the empty decision becomes an aggregate. -/
inductive Transition (p : Planner) (read stage : Stage) : Decision → Decision → Prop
  | head {limit : Nat} : stage.kind = .head → stage.declaredRows? = some limit →
    Transition p read stage .none (.head limit)
  | headAgain {prior limit : Nat} : stage.kind = .head → stage.declaredRows? = some limit →
    Transition p read stage (.head prior) (.head (min prior limit))
  | tail {limit size : Nat} : stage.kind = .tail → stage.declaredRows? = some limit →
    read.fetchRows? p.config.fetchSize = some size → limit ≤ size →
    Transition p read stage .none (.tail limit)
  | tailAgain {prior limit size : Nat} : stage.kind = .tail → stage.declaredRows? = some limit →
    read.fetchRows? p.config.fetchSize = some size → min prior limit ≤ size →
    Transition p read stage (.tail prior) (.tail (min prior limit))
  | aggregate {summary : Summary} : stage.kind = .reduce →
    p.absorbReduce read .none stage = .ok (.aggregate summary) →
    Transition p read stage .none (.aggregate summary)

theorem absorbHead_eq_ok_iff {d next : Decision} {stage : Stage} :
    absorbHead d stage = .ok next ↔
      d.kind.canBecome .head = true ∧
        ∃ limit, stage.declaredRows? = some limit ∧ next = .head (d.tighten limit) := by
  unfold absorbHead
  constructor
  · intro h
    obtain ⟨_, ha, h⟩ := bind_eq_ok_iff.mp h
    obtain ⟨limit, hl, h⟩ := bind_eq_ok_iff.mp h
    cases h
    exact ⟨Decision.allow_eq_ok_iff.mp ha, limit, Stage.limit_eq_ok_iff.mp hl, rfl⟩
  · rintro ⟨ha, limit, hl, rfl⟩
    rw [Decision.allow_eq_ok_iff.mpr ha, Stage.limit_eq_ok_iff.mpr hl]
    rfl

theorem absorbTail_eq_ok_iff {p : Planner} {read stage : Stage} {d next : Decision} :
    p.absorbTail read d stage = .ok next ↔
      d.kind.canBecome .tail = true ∧
        ∃ limit size, stage.declaredRows? = some limit ∧
          read.fetchRows? p.config.fetchSize = some size ∧
          d.tighten limit ≤ size ∧ next = .tail (d.tighten limit) := by
  unfold absorbTail
  constructor
  · intro h
    obtain ⟨_, ha, h⟩ := bind_eq_ok_iff.mp h
    obtain ⟨limit, hl, h⟩ := bind_eq_ok_iff.mp h
    obtain ⟨size, hs, h⟩ := bind_eq_ok_iff.mp h
    split at h
    next => cases h
    next hle =>
      cases h
      exact ⟨Decision.allow_eq_ok_iff.mp ha, limit, size, Stage.limit_eq_ok_iff.mp hl,
        fetchSize_eq_ok_iff.mp hs, by omega, rfl⟩
  · rintro ⟨ha, limit, size, hl, hs, hle, rfl⟩
    rw [Decision.allow_eq_ok_iff.mpr ha, Stage.limit_eq_ok_iff.mpr hl, fetchSize_eq_ok_iff.mpr hs]
    change (if size < d.tighten limit then _ else _) = _
    rw [if_neg (by omega)]
    rfl

theorem absorbReduce_eq_ok_iff {p : Planner} {read stage : Stage} {d next : Decision} :
    p.absorbReduce read d stage = .ok next ↔
      d = .none ∧ checkOptions stage = .ok () ∧ checkForget stage = .ok () ∧
        ∃ groupBy filled found, p.groupBy stage = .ok groupBy ∧
          p.addAssignments { groupBy } stage.assignments = .ok filled ∧
          window read stage = .ok found ∧ next = .aggregate { filled with window := found } := by
  constructor
  · intro h
    obtain ⟨_, ha, h⟩ := bind_eq_ok_iff.mp h
    obtain ⟨_, hoptions, h⟩ := bind_eq_ok_iff.mp h
    obtain ⟨_, hforget, h⟩ := bind_eq_ok_iff.mp h
    obtain ⟨groupBy, hgroup, h⟩ := bind_eq_ok_iff.mp h
    obtain ⟨filled, hfilled, h⟩ := bind_eq_ok_iff.mp h
    obtain ⟨found, hwindow, h⟩ := bind_eq_ok_iff.mp h
    cases h
    have hd : d = .none := by
      have hk := Decision.allow_eq_ok_iff.mp ha
      cases d with
      | none => rfl
      | _ => cases hk
    exact ⟨hd, hoptions, hforget, groupBy, filled, found, hgroup, hfilled, hwindow, rfl⟩
  · rintro ⟨rfl, hoptions, hforget, groupBy, filled, found, hgroup, hfilled, hwindow, rfl⟩
    apply bind_eq_ok_iff.mpr
    refine ⟨(), rfl, bind_eq_ok_iff.mpr ⟨(), hoptions, bind_eq_ok_iff.mpr ⟨(), hforget, ?_⟩⟩⟩
    apply bind_eq_ok_iff.mpr
    refine ⟨groupBy, hgroup, bind_eq_ok_iff.mpr ⟨filled, hfilled, ?_⟩⟩
    exact bind_eq_ok_iff.mpr ⟨found, hwindow, rfl⟩

theorem absorb_eq_ok_iff {p : Planner} {read stage : Stage} {d next : Decision} :
    p.absorb read d stage = .ok next ↔ Transition p read stage d next := by
  constructor
  · intro h
    unfold absorb at h
    split at h
    next hk =>
      obtain ⟨ha, limit, hl, rfl⟩ := absorbHead_eq_ok_iff.mp h
      cases d with
      | none => exact .head hk hl
      | head prior => exact .headAgain hk hl
      | _ => cases ha
    next hk =>
      obtain ⟨ha, limit, size, hl, hs, hle, rfl⟩ := absorbTail_eq_ok_iff.mp h
      cases d with
      | none => exact .tail hk hl hs hle
      | tail prior => exact .tailAgain hk hl hs hle
      | _ => cases ha
    next hk =>
      obtain ⟨rfl, _, _, _, _, _, _, _, _, rfl⟩ := absorbReduce_eq_ok_iff.mp h
      exact .aggregate hk h
    next => cases h
  · intro h
    cases h with
    | head hk hl =>
      simp only [absorb, hk]
      exact absorbHead_eq_ok_iff.mpr ⟨rfl, _, hl, rfl⟩
    | headAgain hk hl =>
      simp only [absorb, hk]
      exact absorbHead_eq_ok_iff.mpr ⟨rfl, _, hl, rfl⟩
    | tail hk hl hs hle =>
      simp only [absorb, hk]
      exact absorbTail_eq_ok_iff.mpr ⟨rfl, _, _, hl, hs, hle, rfl⟩
    | tailAgain hk hl hs hle =>
      simp only [absorb, hk]
      exact absorbTail_eq_ok_iff.mpr ⟨rfl, _, _, hl, hs, hle, rfl⟩
    | aggregate hk h => simp only [absorb, hk, h]

theorem offer_of_transition {p : Planner} {read stage : Stage} {d next : Decision}
    (h : Transition p read stage d next) : p.offer read d stage = (next, none) := by
  rw [offer, absorb_eq_ok_iff.mpr h]

/-- The decisions that stages lead to when all of them are absorbed, from the first to the last. -/
inductive Absorbs (p : Planner) (read : Stage) : List Stage → Decision → Prop
  | start : Absorbs p read [] .none
  | next {stages : List Stage} {d next : Decision} {stage : Stage} : Absorbs p read stages d →
    Transition p read stage d next → Absorbs p read (stages ++ [stage]) next

theorem absorbs_append {p : Planner} {read : Stage} {absorbed stages : List Stage}
    {d next : Decision} (hd : Absorbs p read absorbed d)
    (h : p.absorbedAll? read d stages = some next) : Absorbs p read (absorbed ++ stages) next := by
  induction stages generalizing absorbed d with
  | nil =>
    obtain rfl : d = next := by simpa [absorbedAll?] using h
    simpa using hd
  | cons stage rest ih =>
    cases ha : p.absorb read d stage with
    | error refusal =>
      have ho : p.offer read d stage = (d, some refusal) := by rw [offer, ha]
      rw [absorbedAll?_refused ho] at h
      cases h
    | ok after =>
      have ho : p.offer read d stage = (after, none) := by rw [offer, ha]
      rw [absorbedAll?_taken ho] at h
      simpa using ih (hd.next (absorb_eq_ok_iff.mp ha)) h

/-- A plan absorbs a prefix of the stages, and its decision is what they lead to. -/
theorem plan_absorbs (p : Planner) (read : Stage) (stages : List Stage) :
    (p.plan read stages).absorbed ≤ stages.length ∧
      Absorbs p read (stages.take (p.plan read stages).absorbed) (p.plan read stages).decision := by
  have h := plan_scans p read stages
  exact ⟨h.absorbed_le, absorbs_append .start h.taken⟩

end Planner

end Offload
