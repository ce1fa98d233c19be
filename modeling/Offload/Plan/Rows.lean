import Offload.Plan.Planner

namespace Offload

def firstRows {α : Type} (limit : Nat) (rows : List α) : List α :=
  rows.take limit

def lastRows {α : Type} (limit : Nat) (rows : List α) : List α :=
  rows.drop (rows.length - limit)

namespace Stage

/-- The number of rows in the declaration of a head or a tail. -/
def declaredRows? (stage : Stage) : Option Nat :=
  match stage.setting? "arg" with
  | some (.integer n) => if 0 ≤ n.toInt then some n.toInt.toNat else none
  | _ => none

/-- The number of rows that a read fetches at once. A number that is not positive counts as not set, and
anything but a whole number is no answer. -/
def fetchRows? (default : Nat) (read : Stage) : Option Nat :=
  match read.setting? "fetchSize" with
  | none => some default
  | some (.integer n) => some (if 0 < n.toInt then n.toInt.toNat else default)
  | some _ => none

/-- The rows that a head or a tail keeps, if it says how many. -/
def rows? {α : Type} (stage : Stage) (rows : List α) : Option (List α) :=
  match stage.kind, stage.declaredRows? with
  | .head, some limit => some (firstRows limit rows)
  | .tail, some limit => some (lastRows limit rows)
  | _, _ => none

/-- The rows that heads and tails keep one after another. -/
def rowsAfter? {α : Type} : List Stage → List α → Option (List α)
  | [], rows => some rows
  | stage :: rest, rows => (stage.rows? rows).bind (rowsAfter? rest)

end Stage

namespace Decision

/-- The rows that a query with this decision returns, if it returns rows as they are. -/
def rows? {α : Type} (d : Decision) (rows : List α) : Option (List α) :=
  match d with
  | .none => some rows
  | .head limit => some (firstRows limit rows)
  | .tail limit => some (lastRows limit rows)
  | .aggregate _ => Option.none

end Decision

end Offload
