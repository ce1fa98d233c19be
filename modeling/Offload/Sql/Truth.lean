import Offload.Sql.Condition

namespace Offload

inductive Truth
  | holds
  | fails
  | unknown
  deriving DecidableEq

namespace Truth

def and : Truth → Truth → Truth
  | .fails, _ => .fails
  | _, .fails => .fails
  | .holds, .holds => .holds
  | _, _ => .unknown

def or : Truth → Truth → Truth
  | .holds, _ => .holds
  | _, .holds => .holds
  | .fails, .fails => .fails
  | _, _ => .unknown

def not : Truth → Truth
  | .holds => .fails
  | .fails => .holds
  | .unknown => .unknown

/-- The conjunction of any number of truth values. -/
def all : List Truth → Truth
  | [] => .holds
  | t :: rest => t.and (all rest)

end Truth

/-- A truth value for every comparison of two operands by an operator. -/
abbrev Valuation := Operand → String → Operand → Truth

/-- The opposite of a truth value if an entry is negated. -/
def negateIf (negated : Bool) (t : Truth) : Truth :=
  if negated then t.not else t

namespace Entry

mutual

/-- The truth of an entry without its connector. A group without members holds. -/
def truth (v : Valuation) : Entry → Truth
  | .compare _ negated left token right => negateIf negated (v left token right)
  | .group _ negated [] => negateIf negated .holds
  | .group _ negated (first :: rest) => negateIf negated (joinedTruth v (first.truth v) rest)

/-- The truth of entries after a conjunction that has the given truth so far. -/
def joinedTruth (v : Valuation) : Truth → List Entry → Truth
  | run, [] => run
  | run, entry :: rest =>
    match entry.connector with
    | .and => joinedTruth v (run.and (entry.truth v)) rest
    | .or => run.or (joinedTruth v (entry.truth v) rest)

end

end Entry

namespace Condition

/-- The truth of a condition; the empty one holds. -/
def truth (v : Valuation) (c : Condition) : Truth :=
  match c.entries with
  | [] => .holds
  | first :: rest => Entry.joinedTruth v (first.truth v) rest

end Condition

end Offload
