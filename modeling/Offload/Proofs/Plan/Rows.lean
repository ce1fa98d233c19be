import Offload.Proofs.Plan.Transition

namespace Offload

variable {α : Type}

theorem firstRows_firstRows (outer inner : Nat) (rows : List α) :
    firstRows outer (firstRows inner rows) = firstRows (min inner outer) rows := by
  simp only [firstRows, List.take_take, Nat.min_comm]

theorem lastRows_lastRows (outer inner : Nat) (rows : List α) :
    lastRows outer (lastRows inner rows) = lastRows (min inner outer) rows := by
  simp only [lastRows, List.drop_drop, List.length_drop]
  congr 1
  omega

namespace Stage

theorem rowsAfter?_concat (stages : List Stage) (stage : Stage) (rows : List α) :
    rowsAfter? (stages ++ [stage]) rows = (rowsAfter? stages rows).bind stage.rows? := by
  induction stages generalizing rows with
  | nil => simp [rowsAfter?]
  | cons first rest ih =>
    cases hf : first.rows? rows with
    | none => simp [rowsAfter?, hf]
    | some kept => simpa [rowsAfter?, hf] using ih kept

/-- There are stages, and they are all of one kind. -/
def AllOf (kind : StageKind) (stages : List Stage) : Prop :=
  stages ≠ [] ∧ ∀ stage ∈ stages, stage.kind = kind

theorem allOf_singleton {kind : StageKind} {stage : Stage} (hk : stage.kind = kind) :
    AllOf kind [stage] :=
  ⟨by simp, by simpa using hk⟩

theorem allOf_concat {kind : StageKind} {stages : List Stage} {stage : Stage}
    (h : AllOf kind stages) (hk : stage.kind = kind) : AllOf kind (stages ++ [stage]) := by
  refine ⟨by simp, ?_⟩
  intro other ho
  rcases List.mem_append.mp ho with ho | ho
  · exact h.2 other ho
  · obtain rfl := List.mem_singleton.mp ho
    exact hk

end Stage

namespace Decision

/-- The stages that a decision can be made of. -/
def MadeOf (stages : List Stage) : Decision → Prop
  | .none => stages = []
  | .head _ => Stage.AllOf .head stages
  | .tail _ => Stage.AllOf .tail stages
  | .aggregate _ => ∃ stage, stages = [stage] ∧ stage.kind = .reduce

end Decision

namespace Planner

/-- A stage that is absorbed keeps, of the rows of the decision before, those of the decision after. -/
theorem rows?_transition {p : Planner} {read stage : Stage} {d next : Decision}
    (h : Transition p read stage d next) (hn : next.kind ≠ .aggregate) (rows : List α) :
    (d.rows? rows).bind stage.rows? = next.rows? rows := by
  cases h with
  | head hk hl => simp [Decision.rows?, Stage.rows?, hk, hl]
  | headAgain hk hl => simp [Decision.rows?, Stage.rows?, hk, hl, firstRows_firstRows]
  | tail hk hl => simp [Decision.rows?, Stage.rows?, hk, hl]
  | tailAgain hk hl => simp [Decision.rows?, Stage.rows?, hk, hl, lastRows_lastRows]
  | aggregate => exact (hn rfl).elim

/-- Nothing is absorbed after an aggregate. -/
theorem transition_prior_kind {p : Planner} {read stage : Stage} {d next : Decision}
    (h : Transition p read stage d next) : d.kind ≠ .aggregate := by
  cases h <;> simp [Decision.kind]

theorem madeOf_transition {p : Planner} {read stage : Stage} {stages : List Stage}
    {d next : Decision} (hd : d.MadeOf stages) (h : Transition p read stage d next) :
    next.MadeOf (stages ++ [stage]) := by
  cases h with
  | head hk =>
    obtain rfl : stages = [] := hd
    exact Stage.allOf_singleton hk
  | headAgain hk => exact Stage.allOf_concat hd hk
  | tail hk =>
    obtain rfl : stages = [] := hd
    exact Stage.allOf_singleton hk
  | tailAgain hk => exact Stage.allOf_concat hd hk
  | aggregate hk =>
    obtain rfl : stages = [] := hd
    exact ⟨stage, rfl, hk⟩

theorem absorbs_madeOf {p : Planner} {read : Stage} {stages : List Stage} {d : Decision}
    (h : Absorbs p read stages d) : d.MadeOf stages := by
  induction h with
  | start => rfl
  | next _ ht ih => exact madeOf_transition ih ht

theorem absorbs_rows {p : Planner} {read : Stage} {stages : List Stage} {d : Decision}
    (h : Absorbs p read stages d) (hn : d.kind ≠ .aggregate) (rows : List α) :
    Stage.rowsAfter? stages rows = d.rows? rows := by
  induction h with
  | start => rfl
  | next _ ht ih =>
    rw [Stage.rowsAfter?_concat, ih (transition_prior_kind ht)]
    exact rows?_transition ht hn rows

/-- The limit of a tail was compared with the size of a page when it was set. -/
theorem transition_tail_fits {p : Planner} {read stage : Stage} {d : Decision} {limit : Nat}
    (h : Transition p read stage d (.tail limit)) :
    ∃ size, read.fetchRows? p.config.fetchSize = some size ∧ limit ≤ size := by
  cases h with
  | tail _ _ hs hle => exact ⟨_, hs, hle⟩
  | tailAgain _ _ hs hle => exact ⟨_, hs, hle⟩

theorem absorbs_tail_fits {p : Planner} {read : Stage} {stages : List Stage} {limit : Nat}
    (h : Absorbs p read stages (.tail limit)) :
    ∃ size, read.fetchRows? p.config.fetchSize = some size ∧ limit ≤ size := by
  cases h with
  | next _ ht => exact transition_tail_fits ht

/-- A plan does not change the rows. The stages that it absorbs are all heads, all tails or a single
reduction, and heads and tails keep as many first or last rows as its decision says; the last rows come
from one page of the read. -/
theorem plan_keeps_rows (p : Planner) (read : Stage) (stages : List Stage) :
    (p.plan read stages).absorbed ≤ stages.length ∧
    (p.plan read stages).decision.MadeOf (stages.take (p.plan read stages).absorbed) ∧
    (∀ limit, (p.plan read stages).decision = .head limit → ∀ (α : Type) (rows : List α),
      Stage.rowsAfter? (stages.take (p.plan read stages).absorbed) rows =
        some (firstRows limit rows)) ∧
    ∀ limit, (p.plan read stages).decision = .tail limit →
      ∃ size, read.fetchRows? p.config.fetchSize = some size ∧ ∀ (α : Type) (rows : List α),
        Stage.rowsAfter? (stages.take (p.plan read stages).absorbed) rows =
          some (lastRows limit rows) ∧
        Stage.rowsAfter? (stages.take (p.plan read stages).absorbed) (lastRows size rows) =
          some (lastRows limit rows) ∧
        lastRows limit (lastRows size rows) = lastRows limit rows := by
  obtain ⟨hlength, h⟩ := plan_absorbs p read stages
  refine ⟨hlength, absorbs_madeOf h, ?_, ?_⟩
  · intro limit hd α rows
    rw [hd] at h
    exact absorbs_rows h (by simp [Decision.kind]) rows
  · intro limit hd
    rw [hd] at h
    obtain ⟨size, hs, hle⟩ := absorbs_tail_fits h
    refine ⟨size, hs, ?_⟩
    intro α rows
    have hkept := absorbs_rows (α := α) h (by simp [Decision.kind])
    have hpage : lastRows limit (lastRows size rows) = lastRows limit rows := by
      rw [lastRows_lastRows, Nat.min_eq_right hle]
    refine ⟨hkept rows, ?_, hpage⟩
    rw [hkept]
    exact congrArg some hpage

/-- Tails on a read of three rows a page: a later tail of more rows than a page is absorbed, and the rows
come from the last page. A first tail of more rows than a page stays in the pipeline. -/
theorem plan_keeps_rows_small_page :
    let read := Stage.withSetting { kind := .read } "fetchSize" (.integer 3)
    let plan := Planner.plan {} read [.tail 2, .tail 5, .head 1]
    plan.decision = .tail 2 ∧ plan.absorbed = 2 ∧
      read.fetchRows? ({} : Planner).config.fetchSize = some 3 ∧
      Stage.rowsAfter? [.tail 2, .tail 5] [1, 2, 3, 4, 5] = some [4, 5] ∧
      Stage.rowsAfter? [.tail 2, .tail 5] [3, 4, 5] = some [4, 5] ∧
      (Planner.plan {} read [.tail 5]).decision = .none := by
  intro read plan
  have hd : plan.decision = .tail 2 := by decide
  obtain ⟨_, _, _, htail⟩ := plan_keeps_rows {} read [.tail 2, .tail 5, .head 1]
  obtain ⟨size, hsize, hrows⟩ := htail 2 hd
  obtain ⟨hall, hpage, _⟩ := hrows Nat [1, 2, 3, 4, 5]
  obtain rfl : size = 3 := Option.some.inj (hsize.symm.trans (by decide))
  exact ⟨hd, by decide, hsize, hall, hpage, by decide⟩

end Planner

end Offload
