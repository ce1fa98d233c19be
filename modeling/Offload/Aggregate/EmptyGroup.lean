import Offload.Json.Reader

namespace Offload

/-- The result of a reducer on a group without rows. -/
inductive EmptyResult
  | integer (value : Int64)
  | null
  /-- The row has no such field. -/
  | absent
  deriving DecidableEq

namespace EmptyResult

/-- The cell that holds the result, if there is one. -/
def cell : EmptyResult → Option Json
  | .integer n => some (.int n.toInt)
  | .null => some .null
  | .absent => none

/-- Does a cell hold the result? A missing cell counts as null. -/
def holds : EmptyResult → Option Json → Bool
  | .integer n, some (.int m) => n.toInt = m
  | .null, none => true
  | .null, some .null => true
  | .absent, none => true
  | _, _ => false

def toJson : EmptyResult → Json
  | .integer n => .object [("integer", .int n.toInt)]
  | .null => .string "null"
  | .absent => .string "no_value"

end EmptyResult

/-- A row of a result: cells under their field names. -/
abbrev Row := Table Json

namespace Row

def parse? (text : String) : Option Row := do
  match ← (← RawJson.parse? text.toList).json? with
  | .object members => return Table.ofList members
  | _ => none

/-- The text of a row, with its fields in increasing order of their names. -/
def text (row : Row) : String :=
  (Json.object row.entries).sortedText

end Row

/-- The results on empty groups that the pipeline defines, and those that the backend returns, for each
output field. -/
structure EmptyGroup where
  expected : Table EmptyResult := .empty
  actual : Table EmptyResult := .empty
  deriving DecidableEq

namespace EmptyGroup

def insert (group : EmptyGroup) (field : String) (expected actual : EmptyResult) : EmptyGroup :=
  ⟨group.expected.insert field expected, group.actual.insert field actual⟩

/-- The fields whose expected result the backend does not return. -/
def mismatched (group : EmptyGroup) : List String :=
  (group.expected.entries.filter fun entry => group.actual.find? entry.1 != some entry.2).map
    Prod.fst

def isConsistent (group : EmptyGroup) : Bool :=
  group.mismatched.isEmpty

def isEmpty (group : EmptyGroup) : Bool :=
  group.expected.isEmpty && group.actual.isEmpty

def write (row : Row) (field : String) (result : EmptyResult) : Row :=
  match result.cell with
  | some cell => row.insert field cell
  | none => row.erase field

/-- Replaces the backend's result of one field by the expected one, and says whether it did. -/
def patchField (group : EmptyGroup) (row : Row) (field : String) : Row × Bool :=
  match group.expected.find? field, group.actual.find? field with
  | some expected, some actual =>
    if actual.holds (row.find? field) then (write row field expected, true) else (row, false)
  | _, _ => (row, false)

/-- Repairs fields one after another and counts the repairs. -/
def patchFields (group : EmptyGroup) : List String → Row → Row × Nat
  | [], row => (row, 0)
  | field :: rest, row =>
    let (row, repaired) := group.patchField row field
    let (row, count) := group.patchFields rest row
    (row, count + if repaired then 1 else 0)

/-- Repairs a row that comes from an empty group. Cells that do not hold the backend's result stay. -/
def patch (group : EmptyGroup) (row : Row) : Row × Nat :=
  group.patchFields group.mismatched row

def resultsToJson (results : Table EmptyResult) : Json :=
  .object (results.entries.map fun entry => (entry.1, entry.2.toJson))

def toJson (group : EmptyGroup) : Json :=
  .object [("expected", resultsToJson group.expected), ("actual", resultsToJson group.actual)]

end EmptyGroup

end Offload
