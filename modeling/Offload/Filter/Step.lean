import Offload.Filter.Compile

namespace Offload

/-- A step on a sink: compiling a filter, adding a comparison, or adding a group that further steps
build. -/
inductive Step
  | compile (filter : Expr)
  | compare (left : Operand) (token : String) (right : Operand)
  | group (kind : Grouping) (body : List Step)

namespace Step

variable {σ : Type} [Sink σ]

mutual

def run : Step → Build σ
  | .compile filter => filter.compile
  | .compare left token right => fun state => (Sink.compare left token right state, none)
  | .group kind body => Sink.group kind (runAll body)

/-- Runs steps up to the first one that is stopped. -/
def runAll : List Step → Build σ
  | [] => fun state => (state, none)
  | step :: rest => Build.andThen step.run (runAll rest)

end

/-- The states after each of the steps, which go on after a fault. -/
def trace : List Step → σ → List (σ × Option Fault)
  | [], _ => []
  | step :: rest, state =>
    let after := step.run state
    after :: trace rest after.1

end Step

end Offload
