import Offload.Aggregate.Reducer
import Offload.Sql.Identifier

namespace Offload

/-- An aggregate of the backend. The name of its output is kept elsewhere. -/
inductive Aggregate
  /-- A function on a field, or on all rows if the field is an asterisk. -/
  | function (reducer : Reducer) (field : String)
  /-- An SQL expression as it stands. -/
  | raw (expression : String)
  deriving DecidableEq

namespace Aggregate

/-- The field that stands for all rows. -/
def allRows : String := "*"

def countAll : Aggregate :=
  .function .count allRows

def countDistinct (field : String) : Aggregate :=
  .raw ("COUNT(DISTINCT " ++ identifier field ++ ")")

def isCountAll : Aggregate → Bool
  | .function .count field => field == allRows
  | _ => false

def reducer? : Aggregate → Option Reducer
  | .function reducer _ => some reducer
  | .raw _ => none

/-- The SQL expression. The asterisk is the only field that is not quoted. -/
def expression : Aggregate → String
  | .function reducer field =>
    reducer.sqlFunction ++ "(" ++ (if field = allRows then field else identifier field) ++ ")"
  | .raw expression => expression

/-- The item of the select list that binds the aggregate to an output name. -/
def sql (a : Aggregate) (target : String) : String :=
  a.expression ++ " AS " ++ identifier target

def toJson : Aggregate → Json
  | .function reducer field =>
    .object [("function", .object [("name", .string reducer.name), ("field", .string field)])]
  | .raw expression => .object [("raw", .object [("expression", .string expression)])]

end Aggregate

end Offload
