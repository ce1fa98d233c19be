import Offload.Filter.Compile
import Offload.Filter.Replay

namespace Offload

namespace Event

/-- Events in which every group is closed after what it holds, and no group is closed twice. -/
inductive Bracketed : List Event → Prop
  | nil : Bracketed []
  | compare (left : Operand) (token : String) (right : Operand) {rest : List Event} :
    Bracketed rest → Bracketed (.compare left token right :: rest)
  | group (kind : Grouping) {inner rest : List Event} : Bracketed inner → Bracketed rest →
    Bracketed (.opened kind :: inner ++ .closed :: rest)

theorem Bracketed.append {first second : List Event} (hf : Bracketed first)
    (hs : Bracketed second) : Bracketed (first ++ second) := by
  induction hf with
  | nil => exact hs
  | compare left token right _ ih => exact .compare left token right ih
  | group kind hi _ _ ih => simpa using Bracketed.group kind hi ih

theorem replayAll_append (first second : List Event) (state : OpenGroups × Condition) :
    replayAll (first ++ second) state = (replayAll first state).bind (replayAll second) := by
  induction first generalizing state with
  | nil => rfl
  | cons event rest ih =>
    have hrest : replayAll (rest ++ second) = fun next =>
        (replayAll rest next).bind (replayAll second) := funext ih
    simp only [List.cons_append, replayAll, hrest, Option.bind_assoc]

end Event

/-- Two ways to build that agree. Either both are stopped by one fault, whatever they start from, or
neither is, and replaying the events that one of them records is the other one. -/
inductive Agrees (build : Build Condition) (record : Build Recording) : Prop
  | stopped (fault : Fault) : (∀ c, (build c).2 = some fault) →
    (∀ r, (record r).2 = some fault) → Agrees build record
  | built (events : List Event) : Event.Bracketed events → (∀ c, (build c).2 = none) →
    (∀ r, record r = (⟨r.events ++ events⟩, none)) →
    (∀ outer c, Event.replayAll events (outer, c) = some (outer, (build c).1)) →
    Agrees build record

namespace Agrees

theorem fail (fault : Fault) : Agrees (Build.fail fault) (Build.fail fault) :=
  .stopped fault (fun _ => rfl) (fun _ => rfl)

theorem compare (left : Operand) (token : String) (right : Operand) :
    Agrees (fun c => (Sink.compare left token right c, none))
      (fun r => (Sink.compare left token right r, none)) :=
  .built [.compare left token right] (.compare left token right .nil) (fun _ => rfl) (fun _ => rfl)
    (fun _ _ => rfl)

theorem andThen {first second : Build Condition} {firstRecord secondRecord : Build Recording}
    (hf : Agrees first firstRecord) (hs : Agrees second secondRecord) :
    Agrees (Build.andThen first second) (Build.andThen firstRecord secondRecord) := by
  cases hf with
  | stopped fault hc hr =>
    refine .stopped fault (fun c => ?_) (fun r => ?_)
    · rw [Build.andThen_stopped (hc c)]
      exact hc c
    · rw [Build.andThen_stopped (hr r)]
      exact hr r
  | built events hb hc hr hreplay =>
    have hbuild : ∀ c, Build.andThen first second c = second (first c).1 := fun c =>
      Build.andThen_built (hc c) second
    have hrecord : ∀ r, Build.andThen firstRecord secondRecord r =
        secondRecord ⟨r.events ++ events⟩ := by
      intro r
      have hn : (firstRecord r).2 = none := by rw [hr]
      rw [Build.andThen_built hn, hr]
    cases hs with
    | stopped fault hc' hr' =>
      refine .stopped fault (fun c => ?_) (fun r => ?_)
      · rw [hbuild]
        exact hc' _
      · rw [hrecord]
        exact hr' _
    | built events' hb' hc' hr' hreplay' =>
      refine .built (events ++ events') (hb.append hb') (fun c => ?_) (fun r => ?_) (fun outer c => ?_)
      · rw [hbuild]
        exact hc' _
      · rw [hrecord, hr', List.append_assoc]
      · rw [Event.replayAll_append, hreplay, Option.bind_some, hreplay', hbuild]

/-- The content of a group is replayed on an empty condition, with what stands outside kept for the end. -/
theorem group (kind : Grouping) {body : Build Condition} {record : Build Recording}
    (h : Agrees body record) : Agrees (Sink.group kind body) (Sink.group kind record) := by
  cases h with
  | stopped fault hc hr =>
    have hbody : body {} = ((body {}).1, some fault) := Prod.ext rfl (hc {})
    refine .stopped fault (fun c => ?_) (fun r => ?_)
    · rw [Condition.group_stopped hbody]
    · have hrecord : record (r.push (.opened kind)) =
          ((record (r.push (.opened kind))).1, some fault) := Prod.ext rfl (hr _)
      rw [Recording.group_stopped hrecord]
  | built events hb hc hr hreplay =>
    have hbody : body {} = ((body {}).1, none) := Prod.ext rfl (hc {})
    refine .built (.opened kind :: events ++ [.closed]) (.group kind hb .nil)
      (fun c => ?_) (fun r => ?_) (fun outer c => ?_)
    · rw [Condition.group_built hbody]
      split <;> rfl
    · rw [Recording.group_built (hr _)]
      simp [Recording.push]
    · rw [List.cons_append, Event.replayAll, Event.replay, Option.bind_some, Event.replayAll_append,
        hreplay, Option.bind_some, Event.replayAll, Event.replay, Option.bind_some, Event.replayAll]
      have hcontent : Sink.group kind (fun _ => ((body {}).1, none)) c = Sink.group kind body c :=
        (Condition.group_built rfl c).trans (Condition.group_built hbody c).symm
      exact congrArg (fun result => some (outer, result.1)) hcontent

end Agrees

namespace Expr

/-- A filter asks the same of a condition and of a recording. -/
theorem agrees_compile (e : Expr) : Agrees e.compile e.compile := by
  induction e using Expr.compile.induct with
  | case1 op left right hop ihl ihr =>
    simp only [compile, hop]
    exact .group .plain (.andThen ihl (.group .and ihr))
  | case2 op left right hop ihl ihr =>
    simp only [compile, hop]
    exact .group .plain (.andThen ihl (.group .or ihr))
  | case3 op left right token hop =>
    simp only [compile, hop, compileCompare]
    cases left.operand with
    | error fault => exact .fail fault
    | ok l =>
      cases right.rightOperand (.compare token) with
      | error fault => exact .fail fault
      | ok r => exact .compare l token r
  | case4 argument ih =>
    simp only [compile, ↓reduceIte]
    exact .group .not ih
  | case5 op argument hop =>
    simp only [compile, hop, ↓reduceIte]
    exact .fail (.unsupported op)
  | case6 e hb hu =>
    cases e with
    | binary op left right => exact (hb op left right rfl).elim
    | unary op argument => exact (hu op argument rfl).elim
    | _ => exact .fail _

/-- Compiling agrees across sinks. A filter has the same fault in every condition and in every recording.
Without one, its recording is bracketed and rebuilds the condition that it is compiled into. -/
theorem compile_replays (e : Expr) :
    (∀ (c : Condition) (r : Recording), (e.compile r).2 = (e.compile c).2) ∧
      ((e.compile ({} : Condition)).2 = none →
        Event.Bracketed (e.compile ({} : Recording)).1.events ∧
          (e.compile ({} : Recording)).1.replay? = some (e.compile ({} : Condition)).1) := by
  cases e.agrees_compile with
  | stopped fault hc hr =>
    refine ⟨fun c r => (hr r).trans (hc c).symm, ?_⟩
    intro hn
    cases (hc {}).symm.trans hn
  | built events hb hc hr hreplay =>
    refine ⟨fun c r => ?_, fun _ => ?_⟩
    · rw [hr, hc]
    · have hevents : (e.compile ({} : Recording)).1.events = events := by simp [hr]
      refine ⟨by rwa [hevents], ?_⟩
      simp only [Recording.replay?, hevents, hreplay]

/-- A disjunction with a negation, whose groups are nested to the right. -/
theorem compile_replays_disjunction :
    let filter : Expr := .binary "OR" (.binary "==" (.field "a") .null)
      (.unary "NOT" (.binary "=~" (.field "b") (.string "x*")))
    (filter.compile ({} : Condition)).2 = none ∧
      (filter.compile ({} : Recording)).1.events =
        [.opened .plain, .compare (.column "a") "=" .null, .opened .or, .opened .not,
          .compare (.column "b") "LIKE" (.string "x%"), .closed, .closed, .closed] ∧
      Event.Bracketed (filter.compile ({} : Recording)).1.events ∧
      (filter.compile ({} : Recording)).1.replay? = some (filter.compile ({} : Condition)).1 := by
  intro filter
  have hn : (filter.compile ({} : Condition)).2 = none := by decide
  exact ⟨hn, rfl, (compile_replays filter).2 hn⟩

end Expr

end Offload
