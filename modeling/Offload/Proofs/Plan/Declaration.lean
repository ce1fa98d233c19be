import Mathlib.Data.List.Perm.Basic
import Offload.Proofs.Plan.EmptyGroup
import Offload.Proofs.Table

namespace Offload

namespace Stage

/-- The same stage, with its settings and its assignments in another order. -/
structure Reordered (stage other : Stage) : Prop where
  kind : other.kind = stage.kind
  settings : other.settings.entries.Perm stage.settings.entries
  assignments : other.assignments.Perm stage.assignments

variable {stage other : Stage}

theorem Reordered.setting? (h : stage.Reordered other) (name : String) :
    other.setting? name = stage.setting? name :=
  Table.find?_eq_of_perm h.settings name

theorem Reordered.keys (h : stage.Reordered other) :
    other.settings.keys.Perm stage.settings.keys :=
  h.settings.map Prod.fst

end Stage

namespace Summary

variable {p : Planner} {s t : Summary} {outputs others : List Output}

end Summary

namespace Planner

variable {p : Planner} {read stage other : Stage}

variable {summary found : Summary} {outputs added : List Output}

end Planner

end Offload
