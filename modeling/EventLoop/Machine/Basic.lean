import EventLoop.World.Perform

/-!
Execution of a step of a scenario, in small steps.

A run waits, then makes a pass over the linked watchers, and calls those that are due. A callback
carries out steps of its own, and one of them may be a run of another context. So the state of
execution is the world together with a stack of runs, the innermost first. Each small step does one
thing: a wait, the visit of one watcher, one step of a callback, or the return of a callback.
-/
namespace EventLoop

/-- A callback that is being called. -/
structure Call where
  watcher : Handle
  events : Events
  /-- When the call started. -/
  time : Nat
  /-- The callback, lent out by its watcher. -/
  callback : Callback
  /-- What it has still to do. -/
  rest : List Command
  /-- What its steps have answered so far. -/
  answers : List Answer

/-- The record of a call that has returned. -/
def Call.record (c : Call) : CallRecord Answer where
  label := c.callback.label
  watcher := c.watcher
  events := c.events
  time := c.time
  answers := c.answers

/-- A pass that is being made. Its place in the list of watchers is the cursor of the roster. -/
structure Pass where
  /-- What woke the dispatcher. -/
  signals : Signals
  /-- Number of watchers called so far. -/
  served : Nat
  /-- The earliest deadline among the timers visited so far. -/
  deadline : Option Nat

/-- Where a run stands. -/
inductive Phase where
  /-- Before a wait. -/
  | waiting
  /-- In a pass, between two watchers. -/
  | passing (pass : Pass)
  /-- In a pass, in the callback of a watcher. -/
  | calling (pass : Pass) (call : Call)

/-- A run of a context. -/
structure Activation where
  context : Nat
  flags : RunFlags
  /-- The earliest deadline known, by which the next wait is bounded. -/
  deadline : Option Nat
  phase : Phase
  /-- The calls that have returned. -/
  calls : List (CallRecord Answer)

/-- A scenario in execution. -/
structure Machine where
  world : World
  /-- The runs that are going on, the innermost first. -/
  stack : List Activation
  /-- What the current step of the scenario has answered, once it is done. -/
  answer : Option Answer
  abort : Option Abort

namespace Machine

/-- No step has been made. -/
def create (world : World) : Machine := ⟨world, [], none, none⟩

/-- Neither a run is going on nor anything left to do. -/
def isDone (m : Machine) : Bool := m.stack.isEmpty || m.abort.isSome

/-- Hands the answer of a step to where it was made, a callback or the top level, and settles the
pollers. -/
def conclude (m : Machine) (answer : Answer) : Machine :=
  let m := { m with world := m.world.settle }
  match m.stack with
  | [] => { m with answer := some answer }
  | a :: below =>
    match a.phase with
    | .calling pass call =>
      let call := { call with answers := call.answers ++ [answer] }
      { m with stack := { a with phase := .calling pass call } :: below }
    | _ => m

/-- Carries out a step of the scenario or of the innermost callback. -/
def perform (m : Machine) (current : Option Nat) (command : Command) : Machine :=
  match m.world.perform current command with
  | (world, .answered answer) => { m with world }.conclude answer
  | (world, .entered context flags deadline) =>
    { m with world, stack := ⟨context, flags, deadline, .waiting, []⟩ :: m.stack }

/-- Starts a step of the scenario. -/
def submit (m : Machine) (command : Command) : Machine :=
  { m with world := { m.world with waits := 0 }, answer := none }.perform none command

/-- Ends the innermost run. -/
def leave (m : Machine) (a : Activation) (below : List Activation) (l : Loop) : Machine :=
  let l := l.mapContext fun c => { c with busy := false }
  { m with world := m.world.putLoop a.context l, stack := below }.conclude (.ran none a.calls)

/-- How long the next wait of a run may last. -/
def waitTimeout (w : World) (a : Activation) (c : Context) : Option Nat :=
  if a.flags.has .nonblock then some 0 else timeUntilDue (w.now c) a.deadline

/-- Begins a pass, unless the run was woken to exit. -/
def enterPass (m : Machine) (a : Activation) (below : List Activation) (l : Loop)
    (signals : Signals) : Machine :=
  if signals.has .exit && l.context.exitAsked then m.leave a below l.exit
  else
    let c := { l.context with roster := l.context.roster.rewind }
    { m with
      world := m.world.putContext a.context c
      stack := { a with phase := .passing ⟨signals, 0, none⟩ } :: below }

/-- The innermost run waits for a signal or the earliest deadline, and begins a pass. It ends if
the loop has exited or nothing is linked. -/
def stepWaiting (m : Machine) (a : Activation) (below : List Activation) (l : Loop) : Machine :=
  if !l.context.running || l.context.roster.isEmpty then m.leave a below l
  else
    let timeout := waitTimeout m.world a l.context
    let m := { m with world := { m.world with waits := m.world.waits + 1 } }
    let (wakeups, wait) := l.context.wakeups.wait (Mask.full Signal) timeout
    let l := l.mapContext fun c => { c with wakeups }
    let clock := m.world.clock.beginWait
    match wait with
    | .forever => { m with world := { m.world with clock }, abort := some .blocked }
    | .elapsed us =>
      { m with world := { m.world with clock := clock.elapse us } }.enterPass a below l ∅
    | .woken signals => { m with world := { m.world with clock } }.enterPass a below l signals

/-- Ends a pass. The run ends with it if it was to be made once, and either called a watcher or may
not wait. -/
def endPass (m : Machine) (a : Activation) (below : List Activation) (l : Loop) (pass : Pass) :
    Machine :=
  if a.flags.has .once && (pass.served > 0 || a.flags.has .nonblock) then m.leave a below l
  else { m with stack := { a with phase := .waiting, deadline := pass.deadline } :: below }

/-- Calls a watcher. The pollers are settled first. -/
def beginCall (m : Machine) (a : Activation) (below : List Activation) (c : Context) (pass : Pass)
    (h : Handle) (events : Events) : Machine :=
  let (c, callback) := c.lendCallback h
  let world := m.world.putContext a.context c
  match callback with
  | none =>
    let pass := { pass with served := pass.served + 1 }
    { m with world, stack := { a with phase := .passing pass } :: below }
  | some callback =>
    let call : Call := ⟨h, events, world.clock.time, callback, callback.actions, []⟩
    { m with world := world.settle, stack := { a with phase := .calling pass call } :: below }

/-- The innermost run visits the next watcher of its pass. The pass ends after the last one, or if
the loop has exited. -/
def stepPassing (m : Machine) (a : Activation) (below : List Activation) (l : Loop) (pass : Pass) :
    Machine :=
  let (roster, next) := l.context.roster.next
  let l := l.mapContext fun c => { c with roster }
  match next with
  | none => m.endPass a below l pass
  | some index =>
    let m := { m with world := m.world.putContext a.context l.context }
    if l.context.running then
      let visit := l.context.visit (m.world.now l.context) pass.signals index
      let pass := { pass with deadline := sooner pass.deadline visit.deadline }
      match visit.call with
      | some (h, events) => m.beginCall a below visit.context pass h events
      | none =>
        { m with
          world := m.world.putContext a.context visit.context
          stack := { a with phase := .passing pass } :: below }
    else m.endPass a below l pass

/-- The innermost callback returns. -/
def endCall (m : Machine) (a : Activation) (below : List Activation) (l : Loop) (pass : Pass)
    (call : Call) : Machine :=
  let callback := { call.callback with called := call.callback.called + 1 }
  let c := l.context.returnCallback call.watcher callback
  let pass := { pass with served := pass.served + 1 }
  { m with
    world := m.world.putContext a.context c
    stack := { a with phase := .passing pass, calls := a.calls ++ [call.record] } :: below }

/-- One small step. -/
def step (m : Machine) : Machine :=
  match m.stack with
  | [] => m
  | a :: below =>
    match m.world.loop? a.context with
    | none => m
    | some l =>
      match a.phase with
      | .waiting => m.stepWaiting a below l
      | .passing pass => m.stepPassing a below l pass
      | .calling pass call =>
        match call.rest with
        | [] => m.endCall a below l pass call
        | command :: rest =>
          let call := { call with rest }
          { m with stack := { a with phase := .calling pass call } :: below }.perform
            (some a.context) command

end Machine
end EventLoop
