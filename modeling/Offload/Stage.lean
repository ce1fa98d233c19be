import Offload.Expr
import Offload.Setting
import Offload.Table

namespace Offload

inductive StageKind
  | read
  | head
  | tail
  | reduce
  | other (tag : String)
  deriving DecidableEq

namespace StageKind

def tag : StageKind → String
  | .read => "read"
  | .head => "head"
  | .tail => "tail"
  | .reduce => "reduce"
  | .other tag => tag

def ofTag : String → StageKind
  | "read" => .read
  | "head" => .head
  | "tail" => .tail
  | "reduce" => .reduce
  | tag => .other tag

end StageKind

/-- The right-hand side of an assignment in a reduction. -/
inductive RightSide
  | call (reducer : String) (arguments : List Expr)
  /-- Anything that is not the call of a reducer. -/
  | expr (value : Expr)

structure Assignment where
  target : Expr
  value : RightSide

namespace Assignment

/-- The call of a reducer on a field, assigned to the name of the reducer. -/
def ofField (reducer field : String) : Assignment :=
  ⟨.field reducer, .call reducer [.string field]⟩

/-- The field that is assigned, if the left-hand side is a plain field. -/
def targetName? (a : Assignment) : Option String :=
  match a.target with
  | .field name => some name
  | _ => none

end Assignment

/-- A stage of a pipeline, with its settings in the order of their declaration. Only a reduction has
assignments. -/
structure Stage where
  kind : StageKind
  settings : Table Setting := .empty
  assignments : List Assignment := []

namespace Stage

/-- The option that holds the number of rows of a head or a tail. -/
def limitOption : String := "arg"

def withSetting (stage : Stage) (name : String) (value : Setting) : Stage :=
  { stage with settings := stage.settings.insert name value }

def head (limit : Int64) : Stage :=
  withSetting { kind := .head } limitOption (.integer limit)

def tail (limit : Int64) : Stage :=
  withSetting { kind := .tail } limitOption (.integer limit)

def reduce (assignments : List Assignment) : Stage :=
  { kind := .reduce, assignments }

def setting? (stage : Stage) (name : String) : Option Setting :=
  stage.settings.find? name

def hasSetting (stage : Stage) (name : String) : Bool :=
  stage.settings.contains name

/-- Are all options among the allowed ones? -/
def hasOnly (stage : Stage) (allowed : List String) : Bool :=
  stage.settings.keys.all allowed.contains

/-- The options that are not among the allowed ones, in the order of their declaration. -/
def outside (stage : Stage) (allowed : List String) : List String :=
  stage.settings.keys.filter fun name => !allowed.contains name

end Stage

end Offload
