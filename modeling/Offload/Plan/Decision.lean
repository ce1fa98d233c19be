import Offload.Aggregate.Basic
import Offload.Setting

namespace Offload

inductive DecisionKind
  | none
  | head
  | tail
  | aggregate
  deriving DecidableEq

namespace DecisionKind

def name : DecisionKind → String
  | .none => "none"
  | .head => "head"
  | .tail => "tail"
  | .aggregate => "aggregate"

/-- A query without decision can become anything, a head or a tail can only get shorter, and an aggregate
is final. -/
def canBecome : DecisionKind → DecisionKind → Bool
  | .none, _ => true
  | .head, .head => true
  | .tail, .tail => true
  | _, _ => false

end DecisionKind

/-- Windows of time that rows are grouped by, all of one length. The anchor says where they begin. -/
structure Window where
  every : Interval
  anchor : Option Setting
  deriving DecidableEq

/-- A grouped query: the fields and windows that group the rows, the outputs, and the results on empty
groups. -/
structure Summary where
  groupBy : List String := []
  window : Option Window := none
  outputs : Table Aggregate := .empty
  emptyGroup : EmptyGroup := {}
  deriving DecidableEq

/-- What the backend query does beyond reading rows. -/
inductive Decision
  | none
  | head (limit : Nat)
  | tail (limit : Nat)
  | aggregate (summary : Summary)
  deriving DecidableEq

namespace Summary

/-- Do two summaries say the same, in whatever order their tables are? -/
def agrees (a b : Summary) : Bool :=
  a.groupBy = b.groupBy && a.window = b.window && a.outputs.agrees b.outputs &&
    a.emptyGroup.expected.agrees b.emptyGroup.expected &&
    a.emptyGroup.actual.agrees b.emptyGroup.actual

end Summary

namespace Decision

def kind : Decision → DecisionKind
  | .none => .none
  | .head _ => .head
  | .tail _ => .tail
  | .aggregate _ => .aggregate

def isEmpty (d : Decision) : Bool :=
  d.kind = .none

def limit? : Decision → Option Nat
  | .head limit => some limit
  | .tail limit => some limit
  | _ => Option.none

/-- The grouped query of an aggregate; all parts of the others are empty. -/
def summary : Decision → Summary
  | .aggregate summary => summary
  | _ => {}

def groupBy (d : Decision) : List String :=
  d.summary.groupBy

def every? (d : Decision) : Option Interval :=
  d.summary.window.map Window.every

def anchor? (d : Decision) : Option Setting :=
  d.summary.window.bind Window.anchor

def outputs (d : Decision) : Table Aggregate :=
  d.summary.outputs

def emptyGroup (d : Decision) : EmptyGroup :=
  d.summary.emptyGroup

/-- Do two decisions say the same, in whatever order their tables are? -/
def agrees (a b : Decision) : Bool :=
  a.kind = b.kind && a.limit? = b.limit? && a.summary.agrees b.summary

/-- The smaller of a number of rows and the number that the decision already keeps. -/
def tighten (d : Decision) (limit : Nat) : Nat :=
  match d.limit? with
  | some prior => min prior limit
  | Option.none => limit

/-- A member of an object that is left out if it has no value. -/
def optionalMember {α : Type} (name : String) (write : α → Json) : Option α → List (String × Json)
  | some value => [(name, write value)]
  | Option.none => []

/-- The members of a description; what is not set or empty is left out. -/
def members (d : Decision) : List (String × Json) :=
  ("kind", .string d.kind.name) ::
    optionalMember "limit" (fun limit => .int (limit : Nat)) d.limit? ++
    (if d.groupBy.isEmpty then [] else [("group_by", .array (d.groupBy.map .string))]) ++
    optionalMember "window_every" Interval.toJson d.every? ++
    optionalMember "window_anchor" Setting.toJson d.anchor? ++
    (if d.outputs.isEmpty then []
      else [("aggregations",
        .object (d.outputs.entries.map fun entry => (entry.1, entry.2.toJson)))]) ++
    (if d.emptyGroup.isEmpty then [] else [("empty_group", d.emptyGroup.toJson)])

def toJson (d : Decision) : Json :=
  .object d.members

end Decision

end Offload
