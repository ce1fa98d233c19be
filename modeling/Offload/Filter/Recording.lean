import Offload.Filter.Sink

namespace Offload

/-- Something that a filter asks of its sink. -/
inductive Event
  | compare (left : Operand) (token : String) (right : Operand)
  | opened (kind : Grouping)
  | closed

structure Recording where
  events : List Event := []

namespace Grouping

def name : Grouping → String
  | .plain => "where"
  | .and => "and"
  | .or => "or"
  | .not => "not"

end Grouping

def Event.text : Event → String
  | .compare left token right => left.toJson.text ++ " " ++ token ++ " " ++ right.toJson.text
  | .opened kind => kind.name ++ "["
  | .closed => "]"

namespace Recording

def push (r : Recording) (event : Event) : Recording :=
  ⟨r.events ++ [event]⟩

/-- The content of a group goes into the same recording, between the events that open and close the
group. A group whose building was stopped is not closed. -/
def pushGroup (kind : Grouping) (body : Build Recording) : Build Recording :=
  fun r =>
    match body (r.push (.opened kind)) with
    | (r, none) => (r.push .closed, none)
    | (r, some fault) => (r, some fault)

instance : Sink Recording where
  compare left token right r := r.push (.compare left token right)
  group := pushGroup

theorem group_built {kind : Grouping} {body : Build Recording} {r content : Recording}
    (hb : body (r.push (.opened kind)) = (content, none)) :
    Sink.group kind body r = (content.push .closed, none) := by
  change pushGroup kind body r = _
  simp only [pushGroup, hb]

/-- A group that is stopped stays open, with what its content recorded by then. -/
theorem group_stopped {kind : Grouping} {body : Build Recording} {r content : Recording}
    {fault : Fault} (hb : body (r.push (.opened kind)) = (content, some fault)) :
    Sink.group kind body r = (content, some fault) := by
  change pushGroup kind body r = _
  simp only [pushGroup, hb]

end Recording

end Offload
