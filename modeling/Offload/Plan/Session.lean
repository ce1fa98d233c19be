import Offload.Plan.Planner

namespace Offload

/-- A stage that is offered, and the read that its rows come from. -/
structure Offer where
  read : Stage
  stage : Stage

/-- The decision so far, and the read of the stage that was absorbed last. -/
structure Session where
  decision : Decision := .none
  lastRead : Option Stage := none

namespace Session

/-- Makes an offer. One that is refused changes nothing. -/
def take (p : Planner) (s : Session) (o : Offer) : Session :=
  match p.offer o.read s.decision o.stage with
  | (d, none) => ⟨d, some o.read⟩
  | (d, some _) => ⟨d, s.lastRead⟩

/-- The session after offers one after another, which go on after a refusal. -/
def run (p : Planner) (offers : List Offer) : Session :=
  offers.foldl (take p) {}

end Session

end Offload
