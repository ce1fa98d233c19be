import Offload.Filter.Recording

namespace Offload

/-- A condition under construction: what stands outside of the group that is open last, with the kind of
each open group. -/
abbrev OpenGroups := List (Grouping × Condition)

namespace Event

/-- One step of a replay: the open groups and the content of the last one. Closing a group adds it to what
stands outside, unless it is empty. -/
def replay : Event → OpenGroups × Condition → Option (OpenGroups × Condition)
  | .compare left token right, (outer, c) => some (outer, Sink.compare left token right c)
  | .opened kind, (outer, c) => some ((kind, c) :: outer, {})
  | .closed, ((kind, c) :: outer, content) =>
    some (outer, (Condition.pushGroup kind (fun _ => (content, none)) c).1)
  | .closed, ([], _) => none

def replayAll : List Event → OpenGroups × Condition → Option (OpenGroups × Condition)
  | [], state => some state
  | event :: rest, state => (event.replay state).bind (replayAll rest)

end Event

namespace Recording

/-- The condition that a recording builds, if its groups are opened and closed in pairs. -/
def replay? (r : Recording) : Option Condition :=
  match Event.replayAll r.events ([], {}) with
  | some ([], c) => some c
  | _ => none

end Recording

end Offload
