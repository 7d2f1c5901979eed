import EventLoop.Machine.Drive

/-!
Scenarios: steps carried out one after the other, with what can be seen after each.
-/
namespace EventLoop

/-- Steps to carry out, and the clock to carry them out by. -/
structure Scenario where
  clock : Clock
  /-- How often one step may wait. -/
  maxWaits : Nat
  steps : List Command

/-- What is reported of a step. -/
inductive Report where
  /-- The step is done: its answer, the time after it, and what can be seen of the contexts. -/
  | done (answer : Answer) (time : Nat) (contexts : List (Option ContextView))
  /-- The step ended the scenario: why, the calls that had returned in the outermost run, and the
  time. -/
  | aborted (abort : Abort) (calls : List (CallRecord Answer)) (time : Nat)

namespace Scenario

/-- The calls that have returned in the outermost run. -/
def outermostCalls (m : Machine) : List (CallRecord Answer) :=
  match m.stack.getLast? with
  | some a => a.calls
  | none => []

/-- Carries out steps from the state `m` on, each with at most `maxWaits` waits. Nothing is carried
out after a step that aborts. -/
def reports (maxWaits : Nat) (m : Machine) : List Command → List Report
  | [] => []
  | command :: rest =>
    let m := (m.submit command).drive maxWaits
    match m.abort, m.answer with
    | some abort, _ => [.aborted abort (outermostCalls m) m.world.clock.time]
    | none, some answer => .done answer m.world.clock.time m.world.views :: reports maxWaits m rest
    | none, none => []

/-- Carries out a scenario. -/
def run (s : Scenario) : List Report :=
  reports s.maxWaits (Machine.create (World.create s.clock .standIn)) s.steps

end Scenario
end EventLoop
