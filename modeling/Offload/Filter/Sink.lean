import Offload.Filter.Fault
import Offload.Sql.Condition

namespace Offload

inductive Grouping
  | plain
  | and
  | or
  | not
  deriving DecidableEq

/-- A step that builds on a state: the new state, and the fault that stopped it, if any. -/
def Build (σ : Type) : Type :=
  σ → σ × Option Fault

namespace Build

variable {σ : Type}

def fail (fault : Fault) : Build σ :=
  fun state => (state, some fault)

/-- Runs a second step unless the first one was stopped. -/
def andThen (first second : Build σ) : Build σ :=
  fun state =>
    match first state with
    | (state, none) => second state
    | (state, some fault) => (state, some fault)

theorem andThen_built {first : Build σ} {state : σ} (h : (first state).2 = none) (second : Build σ) :
    andThen first second state = second (first state).1 := by
  rcases hf : first state with ⟨next, _ | fault⟩
  · simp only [andThen, hf]
  · rw [hf] at h
    cases h

theorem andThen_stopped {first : Build σ} {state : σ} {fault : Fault}
    (h : (first state).2 = some fault) (second : Build σ) :
    andThen first second state = first state := by
  rcases hf : first state with ⟨next, _ | found⟩
  · rw [hf] at h
    cases h
  · simp only [andThen, hf]

end Build

/-- A state that filters are compiled into. -/
class Sink (σ : Type) where
  compare : Operand → String → Operand → σ → σ
  group : Grouping → Build σ → Build σ

namespace Grouping

def connector : Grouping → Connector
  | .or => .or
  | _ => .and

def negated : Grouping → Bool
  | .not => true
  | _ => false

end Grouping

namespace Condition

def push (c : Condition) (entry : Entry) : Condition :=
  ⟨c.entries ++ [entry]⟩

/-- The content of a group is built from nothing. It becomes one entry, unless it is empty or its
building was stopped. -/
def pushGroup (kind : Grouping) (body : Build Condition) : Build Condition :=
  fun c =>
    match body {} with
    | (_, some fault) => (c, some fault)
    | (content, none) =>
      if content.isEmpty then (c, none)
      else (c.push (.group kind.connector kind.negated content.entries), none)

instance : Sink Condition where
  compare left token right c := c.push (.compare .and false left token right)
  group := pushGroup

theorem group_built {kind : Grouping} {body : Build Condition} {content : Condition}
    (hb : body {} = (content, none)) (c : Condition) :
    Sink.group kind body c =
      if content.isEmpty then (c, none)
      else (c.push (.group kind.connector kind.negated content.entries), none) := by
  change pushGroup kind body c = _
  simp only [pushGroup, hb]

/-- A group that is stopped adds nothing, whatever its content was by then. -/
theorem group_stopped {kind : Grouping} {body : Build Condition} {content : Condition}
    {fault : Fault} (hb : body {} = (content, some fault)) (c : Condition) :
    Sink.group kind body c = (c, some fault) := by
  change pushGroup kind body c = _
  simp only [pushGroup, hb]

end Condition

end Offload
