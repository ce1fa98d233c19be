import Offload.Plan.Planner

namespace Offload

namespace Planner

variable {p : Planner} {read : Stage}

/-- The decision after a stage that is absorbed. A stage that is refused leads to none. -/
def absorbed? (p : Planner) (read : Stage) (d : Decision) (stage : Stage) : Option Decision :=
  match p.offer read d stage with
  | (next, none) => some next
  | (_, some _) => none

/-- The decision after stages that are absorbed one after another, every one of them. -/
def absorbedAll? (p : Planner) (read : Stage) (d : Decision) (stages : List Stage) :
    Option Decision :=
  stages.foldlM (p.absorbed? read) d

/-- A scan that comes to the end has absorbed all stages, and one that stops has absorbed all stages
before the one that is refused. -/
inductive Scans (p : Planner) (read : Stage) : List Stage → Plan → Prop
  | complete {taken : List Stage} {d : Decision} : p.absorbedAll? read .none taken = some d →
    Scans p read taken ⟨d, taken.length, none⟩
  | stopped {taken later : List Stage} {stage : Stage} {d : Decision} {refusal : Refusal} :
    p.absorbedAll? read .none taken = some d → p.offer read d stage = (d, some refusal) →
    Scans p read (taken ++ stage :: later) ⟨d, taken.length, some ⟨taken.length, refusal⟩⟩

theorem offer_cases (p : Planner) (read : Stage) (d : Decision) (stage : Stage) :
    (∃ next, p.offer read d stage = (next, none)) ∨
      ∃ refusal, p.offer read d stage = (d, some refusal) := by
  unfold offer
  cases p.absorb read d stage with
  | ok next => exact Or.inl ⟨next, rfl⟩
  | error refusal => exact Or.inr ⟨refusal, rfl⟩

theorem absorbedAll?_append (d : Decision) (taken rest : List Stage) :
    p.absorbedAll? read d (taken ++ rest) =
      (p.absorbedAll? read d taken).bind fun next => p.absorbedAll? read next rest :=
  List.foldlM_append

theorem absorbedAll?_taken {d next : Decision} {stage : Stage}
    (h : p.offer read d stage = (next, none)) (rest : List Stage) :
    p.absorbedAll? read d (stage :: rest) = p.absorbedAll? read next rest := by
  simp [absorbedAll?, absorbed?, h]

theorem absorbedAll?_refused {d : Decision} {stage : Stage} {refusal : Refusal}
    (h : p.offer read d stage = (d, some refusal)) (later : List Stage) :
    p.absorbedAll? read d (stage :: later) = none := by
  simp [absorbedAll?, absorbed?, h]

theorem absorbAll_append {taken : List Stage} {d next : Decision}
    (h : p.absorbedAll? read d taken = some next) (count : Nat) (rest : List Stage) :
    p.absorbAll read d count (taken ++ rest) =
      p.absorbAll read next (count + taken.length) rest := by
  induction taken generalizing d count with
  | nil =>
    obtain rfl : d = next := by simpa [absorbedAll?] using h
    rfl
  | cons stage taken ih =>
    rcases offer_cases p read d stage with ⟨after, ho⟩ | ⟨refusal, ho⟩
    · rw [absorbedAll?_taken ho] at h
      simp only [List.cons_append, absorbAll, ho, ih h, List.length_cons]
      congr 1
      omega
    · rw [absorbedAll?_refused ho] at h
      cases h

theorem plan_of_scans {stages : List Stage} {found : Plan} (h : Scans p read stages found) :
    p.plan read stages = found := by
  cases h with
  | complete ht =>
    have ha := absorbAll_append ht 0 []
    simpa [plan, absorbAll] using ha
  | @stopped taken later stage d refusal ht ho =>
    have ha := absorbAll_append ht 0 (stage :: later)
    simpa [plan, absorbAll, ho] using ha

/-- What is left of the stages is scanned from where the stages before it lead. -/
theorem scans_append {taken : List Stage} {d : Decision}
    (h : p.absorbedAll? read .none taken = some d) (rest : List Stage) :
    ∃ found, Scans p read (taken ++ rest) found := by
  induction rest generalizing taken d with
  | nil => exact ⟨_, by simpa using Scans.complete h⟩
  | cons stage rest ih =>
    rcases offer_cases p read d stage with ⟨next, ho⟩ | ⟨refusal, ho⟩
    · have ht : p.absorbedAll? read .none (taken ++ [stage]) = some next := by
        rw [absorbedAll?_append, h, Option.bind_some, absorbedAll?_taken ho]
        rfl
      simpa using ih ht
    · exact ⟨_, .stopped h ho⟩

theorem plan_scans (p : Planner) (read : Stage) (stages : List Stage) :
    Scans p read stages (p.plan read stages) := by
  obtain ⟨found, h⟩ := scans_append (rfl : p.absorbedAll? read .none [] = some .none) stages
  rw [List.nil_append] at h
  rw [plan_of_scans h]
  exact h

namespace Scans

variable {stages : List Stage} {found : Plan}

theorem absorbed_le (h : Scans p read stages found) : found.absorbed ≤ stages.length := by
  cases h with
  | complete => exact Nat.le_refl _
  | stopped => simp

theorem taken (h : Scans p read stages found) :
    p.absorbedAll? read .none (stages.take found.absorbed) = some found.decision := by
  cases h with
  | complete ht => simpa using ht
  | stopped ht => simpa using ht

/-- Every prefix of stages that are all absorbed is absorbed, and none that goes beyond a refusal. -/
theorem taken_iff (h : Scans p read stages found) {n : Nat} (hn : n ≤ stages.length) :
    (p.absorbedAll? read .none (stages.take n)).isSome ↔ n ≤ found.absorbed := by
  constructor
  · intro hs
    cases h with
    | complete => exact hn
    | @stopped taken later stage d refusal ht ho =>
      -- A longer prefix holds the stage that was refused.
      apply Nat.le_of_not_lt
      intro hlt
      obtain ⟨extra, hextra⟩ := Nat.exists_eq_add_of_lt hlt
      rw [hextra, Nat.add_assoc, List.take_length_add_append, List.take_succ_cons,
        absorbedAll?_append, ht, Option.bind_some, absorbedAll?_refused ho] at hs
      cases hs
  · intro hle
    have ht := h.taken
    rw [← List.take_append_drop n (stages.take found.absorbed), List.take_take,
      Nat.min_eq_left hle, absorbedAll?_append] at ht
    obtain ⟨d, hd, _⟩ := Option.bind_eq_some_iff.mp ht
    rw [hd]
    rfl

theorem stopped_cases (h : Scans p read stages found) :
    (found.absorbed = stages.length ∧ found.stopped = none) ∨
      ∃ stage refusal, stages[found.absorbed]? = some stage ∧
        p.offer read found.decision stage = (found.decision, some refusal) ∧
        found.stopped = some ⟨found.absorbed, refusal⟩ := by
  cases h with
  | complete => exact Or.inl ⟨rfl, rfl⟩
  | @stopped taken later stage d refusal ht ho =>
    exact Or.inr ⟨stage, refusal, by simp, ho, rfl⟩

theorem taken_scans (h : Scans p read stages found) :
    Scans p read (stages.take found.absorbed) ⟨found.decision, found.absorbed, none⟩ := by
  have hs := Scans.complete h.taken
  rwa [List.length_take, Nat.min_eq_left h.absorbed_le] at hs

theorem replace_scans (h : Scans p read stages found) (hs : found.stopped ≠ none)
    (others : List Stage) :
    Scans p read (stages.take (found.absorbed + 1) ++ others) found := by
  cases h with
  | complete => exact (hs rfl).elim
  | stopped ht ho =>
    simp only [List.take_length_add_append, List.take_succ_cons, List.take_zero, List.append_assoc,
      List.singleton_append]
    exact .stopped ht ho

end Scans

/-- A plan absorbs the longest prefix of the stages that can be absorbed. Its decision is the one that the
prefix leads to, and it stops at the stage after the prefix, if there is one, for the reason for which that
stage is refused. The prefix alone has the same decision, and what stands after the refused stage has no
effect on the plan. -/
theorem plan_absorbs_longest (p : Planner) (read : Stage) (stages : List Stage) :
    let plan := p.plan read stages
    plan.absorbed ≤ stages.length ∧
    p.absorbedAll? read .none (stages.take plan.absorbed) = some plan.decision ∧
    (∀ n ≤ stages.length,
      (p.absorbedAll? read .none (stages.take n)).isSome ↔ n ≤ plan.absorbed) ∧
    ((plan.absorbed = stages.length ∧ plan.stopped = none) ∨
      ∃ stage refusal, stages[plan.absorbed]? = some stage ∧
        p.offer read plan.decision stage = (plan.decision, some refusal) ∧
        plan.stopped = some ⟨plan.absorbed, refusal⟩) ∧
    p.plan read (stages.take plan.absorbed) = ⟨plan.decision, plan.absorbed, none⟩ ∧
    (plan.stopped ≠ none →
      ∀ others, p.plan read (stages.take (plan.absorbed + 1) ++ others) = plan) := by
  intro plan
  have h : Scans p read stages plan := plan_scans p read stages
  refine ⟨h.absorbed_le, h.taken, fun n hn => h.taken_iff hn, h.stopped_cases, ?_, ?_⟩
  · exact plan_of_scans h.taken_scans
  · exact fun hs others => plan_of_scans (h.replace_scans hs others)

end Planner

end Offload
