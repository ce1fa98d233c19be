import Offload.Json.Reader

namespace Offload

/-- How many rows a read fetches at once unless it says otherwise, and the name of the field that
holds the time of a row. -/
structure Config where
  fetchSize : Nat := 10000
  timeField : String := "time"
  deriving DecidableEq

inductive ConfigFault
  | unreadable (detail : String)
  | badJson (detail : String)
  | invalid (detail : String)
  deriving DecidableEq

def ConfigFault.message : ConfigFault → String
  | .unreadable detail => s!"ConfigError: cannot read config ({detail})"
  | .badJson detail => s!"ConfigError: invalid JSON ({detail})"
  | .invalid detail => s!"ConfigError: {detail}"

namespace Config

def size? (value : RawJson) : Option Nat := do
  let n ← value.int?
  if 0 ≤ n then some n.toNat else none

def part? {α : Type} (default : α) (read : RawJson → Option α) : Option RawJson → Option α
  | none => some default
  | some value => read value

/-- The configuration with the parts that are given, and defaults for the others. -/
def ofParts? (size field : Option RawJson) : Option Config := do
  let fetchSize ← part? ({} : Config).fetchSize size? size
  let timeField ← part? ({} : Config).timeField RawJson.string? field
  return { fetchSize, timeField }

/-- An object with named parts, whose other members do not count, or a list of the parts. -/
def ofRaw? : RawJson → Option Config
  | .array items =>
    match items with
    | [] => ofParts? none none
    | [size] => ofParts? size none
    | [size, field] => ofParts? size field
    | _ => none
  | .object entries => do
    let entries ← RawJson.namedMembers? entries
    ofParts? (← RawJson.member? entries "default_fetch_size")
      (← RawJson.member? entries "time_field")
  | _ => none

/-- A configuration that fetches no rows is of no use. -/
def validate (config : Config) : Except ConfigFault Config :=
  if config.fetchSize = 0 then .error (.invalid "default_fetch_size must be positive")
  else .ok config

def ofJsonText (text : String) : Except ConfigFault Config :=
  match (RawJson.parse? text.toList).bind ofRaw? with
  | none => .error (.badJson "the text is not a configuration")
  | some config => config.validate

/-- The configuration in the content of a file, if there is such a file. -/
def ofFile (content : Option ByteArray) : Except ConfigFault Config :=
  match content with
  | none => .error (.unreadable "there is no such file")
  | some bytes =>
    match String.fromUTF8? bytes with
    | none => .error (.unreadable "the content is not valid UTF-8")
    | some text => ofJsonText text

end Config

end Offload
