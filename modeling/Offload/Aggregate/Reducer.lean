import Offload.Aggregate.EmptyGroup

namespace Offload

inductive Reducer
  | count
  | avg
  | sum
  | min
  | max
  | countUnique
  deriving DecidableEq

namespace Reducer

def all : List Reducer :=
  [.count, .avg, .sum, .min, .max, .countUnique]

def name : Reducer → String
  | .count => "count"
  | .avg => "avg"
  | .sum => "sum"
  | .min => "min"
  | .max => "max"
  | .countUnique => "count_unique"

/-- The reducer of a name; case counts. -/
def ofName? (name : String) : Option Reducer :=
  all.find? fun reducer => reducer.name == name

def sqlFunction : Reducer → String
  | .count => "COUNT"
  | .avg => "AVG"
  | .sum => "SUM"
  | .min => "MIN"
  | .max => "MAX"
  | .countUnique => "COUNT"

/-- What the SQL function yields on a group without rows. -/
def backendEmpty : Reducer → EmptyResult
  | .count => .integer 0
  | .countUnique => .integer 0
  | _ => .null

/-- What the pipeline yields on a group without rows, by the name of a reducer: zero for the two counts
and the sum, and nothing for all others. -/
def standardEmpty : String → EmptyResult
  | "count" => .integer 0
  | "count_unique" => .integer 0
  | "sum" => .integer 0
  | _ => .absent

end Reducer

end Offload
