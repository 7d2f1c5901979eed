import EventLoop.Machine.Basic

/-!
Making small steps until a step of the scenario is done.

Between two waits the number of small steps is bounded by what the callbacks in progress have still
to do and what those of the linked watchers would do if they were called. A watcher that is linked
meanwhile is not visited before the next wait. The number of waits is bounded by the scenario.
-/
namespace EventLoop
namespace Machine

/-- An upper bound on the small steps that carry out so many steps of a callback and its return. A
step that is a run takes a second small step if it ends without a wait. -/
def callCost (commands : Nat) : Nat := 2 * commands + 2

/-- What the callbacks in progress have still to do. -/
def stackCost (m : Machine) : Nat :=
  (m.stack.map fun a =>
    match a.phase with
    | .calling _ call => callCost call.rest.length + 2
    | _ => 2).foldl (· + ·) 0

/-- What the callback of the watcher in a slot would do. -/
def slotCost (c : Context) (index : Nat) : Nat :=
  match c.watchers.at? index with
  | some (_, e) => 1 + callCost ((e.callback.map fun f => f.actions.length).getD 0)
  | none => 1

/-- What the callbacks of all linked watchers would do. -/
def linkedCost (m : Machine) : Nat :=
  (m.world.contexts.map fun c =>
    match c with
    | some c => (c.roster.toList.map (slotCost c)).foldl (· + ·) 0
    | none => 0).foldl (· + ·) 0

/-- An upper bound on the small steps until the next wait. -/
def cost (m : Machine) : Nat := 1 + m.stackCost + m.linkedCost

/-- Whether the next small step is a wait. -/
def isAtWait (m : Machine) : Bool :=
  match m.stack with
  | [] => false
  | a :: _ =>
    match a.phase, m.world.loop? a.context with
    | .waiting, some l => l.context.running && !l.context.roster.isEmpty
    | _, _ => false

/-- Makes small steps, at most `steps` of them, until the next one is a wait or nothing is left to
do. -/
def driveToWait : Nat → Machine → Machine
  | 0, m => m
  | steps + 1, m => if m.isDone || m.isAtWait then m else driveToWait steps m.step

/-- Makes small steps until the current step of the scenario is done or aborts. One wait more than
is allowed aborts it. -/
def drive : Nat → Machine → Machine
  | 0, m =>
    let m := driveToWait m.cost m
    if m.isDone then m else { m with abort := some .runLimit }
  | waits + 1, m =>
    let m := driveToWait m.cost m
    if m.isDone then m else drive waits m.step

end Machine
end EventLoop
