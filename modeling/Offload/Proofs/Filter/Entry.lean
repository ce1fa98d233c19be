import Offload.Filter.Compile
import Offload.Proofs.Outcome

namespace Offload

/-- The entry of a conjunction or disjunction: the left side, and a group of the right side. -/
def Entry.joined (connector : Connector) (left right : Entry) : Entry :=
  .group .and false [left, .group connector false [right]]

namespace Expr

/-- The one entry that a filter becomes, or the fault that it has first. -/
def entry : Expr → Except Fault Entry
  | .binary op left right =>
    match FilterOperator.ofText op with
    | .and => do return .joined .and (← left.entry) (← right.entry)
    | .or => do return .joined .or (← left.entry) (← right.entry)
    | .compare token => do
      return .compare .and false (← left.operand) token (← right.rightOperand (.compare token))
  | .unary op argument =>
    if op = "NOT" then argument.entry.map fun content => .group .and true [content]
    else .error (.unsupported op)
  | e => .error (.notPredicate e.nodeName)

end Expr

namespace Condition

/-- Adds an entry, or reports why there is none. -/
def append (c : Condition) : Except Fault Entry → Condition × Option Fault
  | .ok entry => (c.push entry, none)
  | .error fault => (c, some fault)

@[simp]
theorem push_entries (c : Condition) (entry : Entry) :
    (c.push entry).entries = c.entries ++ [entry] := rfl

/-- A group of one entry becomes one entry, and a group whose building is stopped becomes nothing. -/
theorem group_append {kind : Grouping} {body : Build Condition} {content : Except Fault Entry}
    (hb : ∀ c, body c = append c content) (c : Condition) :
    Sink.group kind body c =
      c.append (content.map fun entry => .group kind.connector kind.negated [entry]) := by
  change pushGroup kind body c = _
  unfold pushGroup
  rw [hb]
  cases content with
  | ok entry => rfl
  | error fault => rfl

/-- A left side that is built stays in the common group only if the right side is built as well. -/
theorem group_joined {kind : Grouping} (hk : kind.negated = false) {first second : Build Condition}
    {left right : Except Fault Entry} (hl : ∀ c, first c = append c left)
    (hr : ∀ c, second c = append c right) (c : Condition) :
    Sink.group .plain (Build.andThen first (Sink.group kind second)) c =
      c.append (do return .joined kind.connector (← left) (← right)) := by
  change pushGroup .plain _ c = _
  unfold pushGroup Build.andThen
  rw [hl]
  cases left with
  | error fault => rfl
  | ok l =>
    have hg : Sink.group kind second (push {} l) = _ := group_append hr (push {} l)
    simp only [append, hg]
    cases right with
    | error fault => rfl
    | ok r => simp only [Except.map, hk]; rfl

end Condition

namespace Expr

theorem compile_eq (e : Expr) (c : Condition) : e.compile c = c.append e.entry := by
  fun_induction Expr.entry e generalizing c with
  | case1 op left right hop ihl ihr =>
    simp only [compile, hop]
    exact Condition.group_joined rfl ihl ihr c
  | case2 op left right hop ihl ihr =>
    simp only [compile, hop]
    exact Condition.group_joined rfl ihl ihr c
  | case3 op left right token hop =>
    simp only [compile, hop, compileCompare]
    cases left.operand with
    | error fault => rfl
    | ok l =>
      cases right.rightOperand (.compare token) with
      | error fault => rfl
      | ok r => rfl
  | case4 argument ih =>
    simp only [compile, ↓reduceIte]
    exact Condition.group_append ih c
  | case5 op argument hop =>
    simp only [compile, hop, ↓reduceIte]
    rfl
  | case6 e hb hu =>
    cases e with
    | binary op left right => exact (hb op left right rfl).elim
    | unary op argument => exact (hu op argument rfl).elim
    | _ => rfl

theorem compile_eq_ok_iff {e : Expr} {c next : Condition} :
    e.compile c = (next, none) ↔ ∃ found, e.entry = .ok found ∧ next = c.push found := by
  rw [compile_eq]
  cases e.entry with
  | error fault => simp [Condition.append]
  | ok found => simp [Condition.append, eq_comm]

/-- Only the right side of a disjunction is joined by OR, and it stands inside of a group. -/
theorem entry_connector {e : Expr} {found : Entry} (h : e.entry = .ok found) :
    found.connector = .and := by
  revert h
  fun_cases Expr.entry e with
  | case1 op left right hop =>
    intro h
    obtain ⟨l, r, _, _, rfl⟩ := both_eq_ok_iff.mp h
    rfl
  | case2 op left right hop =>
    intro h
    obtain ⟨l, r, _, _, rfl⟩ := both_eq_ok_iff.mp h
    rfl
  | case3 op left right token hop =>
    intro h
    obtain ⟨l, r, _, _, rfl⟩ := both_eq_ok_iff.mp h
    rfl
  | case4 argument =>
    intro h
    obtain ⟨content, _, rfl⟩ := map_eq_ok_iff.mp h
    rfl
  | case5 op argument hop => intro h; cases h
  | case6 => intro h; cases h

/-- Compiling is atomic. A filter either has a fault and changes no condition, or it adds one and the same
entry at the end of every condition. -/
theorem compile_atomic (e : Expr) :
    (∃ fault, ∀ c : Condition, e.compile c = (c, some fault)) ∨
      ∃ found : Entry, found.connector = .and ∧
        ∀ c : Condition, e.compile c = (⟨c.entries ++ [found]⟩, none) := by
  cases he : e.entry with
  | error fault =>
    left
    refine ⟨fault, fun c => ?_⟩
    rw [compile_eq, he]
    rfl
  | ok found =>
    right
    refine ⟨found, entry_connector he, fun c => ?_⟩
    exact compile_eq_ok_iff.mpr ⟨found, he, rfl⟩

end Expr

end Offload
