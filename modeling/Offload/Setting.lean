import Offload.Interval.Basic
import Offload.Moment.Reader

namespace Offload

/-- The value of an option. A dynamic setting is known only by the source text that computes it. -/
inductive Setting
  | integer (value : Int64)
  | number (value : Number)
  | boolean (value : Bool)
  | string (value : String)
  | fields (names : List String)
  | interval (value : Interval)
  | moment (value : Moment)
  | dynamic (source : String)
  deriving DecidableEq

namespace Setting

/-- Equality of settings, for which the two zeros are one number. -/
def same : Setting → Setting → Bool
  | .number a, .number b => a.same b
  | a, b => a = b

def integer? : Setting → Option Int64
  | .integer n => some n
  | _ => none

def boolean? : Setting → Option Bool
  | .boolean b => some b
  | _ => none

def fields? : Setting → Option (List String)
  | .fields names => some names
  | _ => none

def interval? : Setting → Option Interval
  | .interval i => some i
  | _ => none

/-- Is the value known before the pipeline runs? -/
def isConstant : Setting → Bool
  | .dynamic _ => false
  | _ => true

def display : Setting → String
  | .integer n => String.ofList (signedDecimal n.toInt)
  | .number x => String.ofList x.display
  | .boolean b => if b then "true" else "false"
  | .string s => "\"" ++ s ++ "\""
  | .fields names => ", ".intercalate names
  | .interval i => String.ofList (':' :: i.display ++ [':'])
  | .moment m => String.ofList m.display
  | .dynamic source => "<" ++ source ++ ">"

/-- An object whose only member is named for the kind of the setting. -/
def toJson : Setting → Json
  | .integer n => .object [("integer", .int n.toInt)]
  | .number x => .object [("number", .double x)]
  | .boolean b => .object [("boolean", .bool b)]
  | .string s => .object [("string", .string s)]
  | .fields names => .object [("fields", .array (names.map .string))]
  | .interval i => .object [("interval", i.toJson)]
  | .moment m => .object [("moment", .string (String.ofList m.json))]
  | .dynamic source => .object [("dynamic", .string source)]

/-- The setting of a kind with the value that a JSON text gives it. -/
def ofTagged? (tag : String) (value : RawJson) : Option Setting :=
  match tag with
  | "integer" => (value.int?.bind int64?).map .integer
  | "number" => value.number?.map .number
  | "boolean" => value.bool?.map .boolean
  | "string" => value.string?.map .string
  | "fields" => value.strings?.map .fields
  | "interval" => (Interval.ofRaw? value).map .interval
  | "moment" => (value.string?.bind Moment.parse?).map .moment
  | "dynamic" => value.string?.map .dynamic
  | _ => none

def ofRaw? : RawJson → Option Setting
  | .object [(name, value)] =>
    (Piece.text? name).bind fun tag => ofTagged? (String.ofList tag) value
  | _ => none

def ofJsonText? (text : String) : Option Setting :=
  (RawJson.parse? text.toList).bind ofRaw?

end Setting

end Offload
