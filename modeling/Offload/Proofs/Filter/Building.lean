import Offload.Filter.Step
import Offload.Proofs.Filter.Shape

namespace Offload

/-- Entries in which every group has members. A comparison is joined by AND and not negated, and an entry
that is negated is a group joined by AND. -/
inductive Entry.WellBuilt : Entry → Prop
  | compare (left : Operand) (token : String) (right : Operand) :
    WellBuilt (.compare .and false left token right)
  | group {connector : Connector} {members : List Entry} : members ≠ [] →
    (∀ entry ∈ members, WellBuilt entry) → WellBuilt (.group connector false members)
  | negated {members : List Entry} : members ≠ [] → (∀ entry ∈ members, WellBuilt entry) →
    WellBuilt (.group .and true members)

theorem Entry.WellBuilt.ofKind (kind : Grouping) {members : List Entry} (hne : members ≠ [])
    (hall : ∀ entry ∈ members, entry.WellBuilt) :
    (Entry.group kind.connector kind.negated members).WellBuilt := by
  cases kind with
  | not => exact .negated hne hall
  | _ => exact .group hne hall

theorem Entry.FromFilter.wellBuilt {P : String → Prop} {e : Entry} (h : e.FromFilter P) :
    e.WellBuilt := by
  induction h with
  | compare => exact .compare ..
  | @joined connector left right _ _ ihl ihr =>
    have hright : (Entry.group connector false [right]).WellBuilt :=
      .group (by simp) (by simpa using ihr)
    exact .group (by simp) (by simpa using ⟨ihl, hright⟩)
  | negated _ ih => exact .negated (by simp) (by simpa using ih)

namespace Condition

def WellBuilt (c : Condition) : Prop :=
  ∀ entry ∈ c.entries, entry.WellBuilt

theorem wellBuilt_empty : ({} : Condition).WellBuilt := by
  intro entry he
  cases he

theorem WellBuilt.push {c : Condition} (hc : c.WellBuilt) {entry : Entry} (he : entry.WellBuilt) :
    (c.push entry).WellBuilt := by
  intro other ho
  rcases List.mem_append.mp ho with ho | ho
  · exact hc other ho
  · obtain rfl := List.mem_singleton.mp ho
    exact he

theorem WellBuilt.group {c : Condition} (hc : c.WellBuilt) (kind : Grouping)
    {body : Build Condition} (hb : (body {}).1.WellBuilt) :
    (Sink.group kind body c).1.WellBuilt := by
  rcases hbody : body {} with ⟨content, _ | fault⟩
  · rw [hbody] at hb
    rw [group_built hbody]
    split
    next => exact hc
    next hempty =>
      have hne : content.entries ≠ [] := by simpa [isEmpty] using hempty
      exact hc.push (.ofKind kind hne hb)
  · rw [group_stopped hbody]
    exact hc

end Condition

theorem Expr.wellBuilt_compile (e : Expr) {c : Condition} (hc : c.WellBuilt) :
    (e.compile c).1.WellBuilt := by
  rw [compile_eq]
  cases he : e.entry with
  | error fault => exact hc
  | ok found =>
    have hf : found.FromFilter fun _ => True :=
      entry_fromFilter (fun _ _ => trivial) (fun _ _ => trivial) he
    exact hc.push hf.wellBuilt

namespace Step

mutual

theorem wellBuilt_run (step : Step) {c : Condition} (hc : c.WellBuilt) :
    (step.run c).1.WellBuilt := by
  match step with
  | .compile filter => exact filter.wellBuilt_compile hc
  | .compare left token right => exact hc.push (.compare left token right)
  | .group kind body =>
    -- The content is built from nothing, so what is around the group does not count.
    exact hc.group kind (wellBuilt_runAll body Condition.wellBuilt_empty)

theorem wellBuilt_runAll (steps : List Step) {c : Condition} (hc : c.WellBuilt) :
    (runAll steps c).1.WellBuilt := by
  match steps with
  | [] => exact hc
  | step :: rest =>
    have hstep : (step.run c).1.WellBuilt := wellBuilt_run step hc
    rw [runAll]
    cases hf : (step.run c).2 with
    | none =>
      rw [Build.andThen_built hf]
      exact wellBuilt_runAll rest hstep
    | some fault =>
      rw [Build.andThen_stopped hf]
      exact hstep

end

/-- The state after the last step. -/
def lastState {σ : Type} [Sink σ] (steps : List Step) (start : σ) : σ :=
  ((trace steps start).map Prod.fst).getLastD start

theorem lastState_cons {σ : Type} [Sink σ] (step : Step) (rest : List Step) (start : σ) :
    lastState (step :: rest) start = lastState rest (step.run start).1 := by
  simp only [lastState, trace, List.map_cons, List.getLastD_cons]

theorem wellBuilt_lastState (steps : List Step) {c : Condition} (hc : c.WellBuilt) :
    (lastState steps c).WellBuilt := by
  induction steps generalizing c with
  | nil => exact hc
  | cons step rest ih =>
    rw [lastState_cons]
    exact ih (wellBuilt_run step hc)

/-- A condition that steps have built from nothing is well built, and a group whose content is stopped then
leaves it as it is. -/
theorem lastState_invariant (steps : List Step) :
    (lastState steps ({} : Condition)).WellBuilt ∧
      ∀ (kind : Grouping) (body : List Step) (content : Condition) (fault : Fault),
        runAll body {} = (content, some fault) →
          (group kind body).run (lastState steps ({} : Condition)) =
            (lastState steps {}, some fault) := by
  refine ⟨wellBuilt_lastState steps Condition.wellBuilt_empty, ?_⟩
  intro kind body content fault hb
  rw [run]
  exact Condition.group_stopped hb _

/-- A group that is stopped after its first entry, on a condition that an empty group was offered to. -/
theorem lastState_invariant_stopped :
    let steps : List Step := [.compare (.column "a") "<" (.column "b"), .group .not [.group .or []]]
    let body : List Step := [.compare (.column "c") "=" .null, .compile (.unary "-" (.field "d"))]
    (lastState steps ({} : Condition)).entries = [.compare .and false (.column "a") "<" (.column "b")] ∧
      runAll body ({} : Condition) =
        (⟨[.compare .and false (.column "c") "=" .null]⟩, some (.unsupported "-")) ∧
      (lastState steps ({} : Condition)).WellBuilt ∧
      (group .or body).run (lastState steps ({} : Condition)) =
        (lastState steps {}, some (.unsupported "-")) := by
  intro steps body
  have hb : runAll body ({} : Condition) =
      (⟨[.compare .and false (.column "c") "=" .null]⟩, some (.unsupported "-")) := rfl
  have h := lastState_invariant steps
  exact ⟨rfl, hb, h.1, h.2 .or body _ _ hb⟩

end Step

end Offload
