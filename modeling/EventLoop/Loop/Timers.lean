import EventLoop.Loop.Basic

/-!
Operations on timers.

A timer that is set while its loop is running is armed at once, and otherwise by the next run.
A remote timer may also be set, started and stopped by those who share it, and refuses that for good
once it has been cut off.
-/
namespace EventLoop

/-- Timeout and period as unsigned numbers; neither may be negative. -/
def checkTimes (timeout period : Int64) : Except LoopError (Nat × Nat) :=
  if timeout < 0 || period < 0 then .error (.outOfRange timeout period)
  else .ok (timeout.toNatClampNeg, period.toNatClampNeg)

namespace Loop

/-- Sets a timer. A plain timer is active, and linked, if it has something to fire for; a remote
timer is linked in any case. -/
def timerSet (l : Loop) (now : Nat) (h : Handle) (timeout period : Int64) : Outcome Unit :=
  match checkTimes timeout period with
  | .error e => (l, .error e)
  | .ok (timeout, period) =>
    match l.context.find h with
    | .error e => (l, .error e)
    | .ok e =>
      match e.payload with
      | .timer t =>
        let t := t.set timeout period (l.context.armingTime now)
        let c := l.context.update h { e with payload := .timer t, active := t.isSet }
        let c := if t.isSet then c.linkSlot h.key.index else c.unlinkSlot h.key.index
        ({ l with context := c.raise .timer }, .ok ())
      | .remote r =>
        match r.set? timeout period (l.context.armingTime now) with
        | none => (l, .error .invalidWatcher)
        | some r =>
          let c := l.context.update h { e with payload := .remote r }
          ({ l with context := (c.linkSlot h.key.index).raise .timer }, .ok ())
      | _ => (l, .error (.wrongKind .timer))

/-- Creates a timer and sets it. -/
def timerInit (l : Loop) (now : Nat) (callback : Callback) (timeout period : Int64) :
    Outcome Handle :=
  match checkTimes timeout period with
  | .error e => (l, .error e)
  | .ok _ =>
    let (context, h) := l.context.insert (.timer Timer.unset) callback
    match { l with context }.timerSet now h timeout period with
    | (l, .error e) => (l, .error e)
    | (l, .ok _) => (l, .ok h)

/-- Creates a remote timer, links it and sets it. -/
def remoteInit (l : Loop) (now : Nat) (callback : Callback) (timeout period : Int64) :
    Outcome Handle :=
  match checkTimes timeout period with
  | .error e => (l, .error e)
  | .ok _ =>
    let (context, h) := l.context.insert (.remote RemoteTimer.create) callback
    let context := context.linkSlot h.key.index
    match { l with context }.timerSet now h timeout period with
    | (l, .error e) => (l, .error e)
    | (l, .ok _) => (l, .ok h)

/-- Sets a timer to the timeout and period that it has. -/
def timerStart (l : Loop) (now : Nat) (h : Handle) : Outcome Unit :=
  match l.context.find h with
  | .error e => (l, .error e)
  | .ok e =>
    match e.payload.timer? with
    | some t => l.timerSet now h (Int64.ofNat t.timeout) (Int64.ofNat t.period)
    | none => (l, .error (.wrongKind .timer))

/-- Stops a timer. -/
def timerStop (l : Loop) (h : Handle) : Outcome Unit :=
  l.stopKind h (fun p => p.timer?.isSome) .timer

/-- The deadline of a timer. -/
def timerDeadline (l : Loop) (h : Handle) : Except LoopError (Option Nat) :=
  match l.context.find h with
  | .error e => .error e
  | .ok e =>
    match e.payload.timer? with
    | some t => .ok t.deadline
    | none => .error (.wrongKind .timer)

/-- A reference to a remote timer. -/
def timerHandle (l : Loop) (h : Handle) : Except LoopError WatcherRef :=
  match l.context.find h with
  | .error e => .error e
  | .ok e =>
    match e.payload with
    | .remote _ => .ok (l.context.refTo h.key.index e)
    | _ => .error (.wrongKind .remoteTimer)

end Loop

namespace RemoteTimer

/-- The timer set to these times by its context or through a handle. -/
def assign (t : RemoteTimer) (now : Option Nat) (timeout period : Nat) :
    Except LoopError RemoteTimer :=
  match t.set? timeout period now with
  | none => .error .invalidWatcher
  | some t => .ok t

/-- The timer set through a handle. -/
def setTo (t : RemoteTimer) (now : Option Nat) (timeout period : Int64) :
    Except LoopError RemoteTimer :=
  match checkTimes timeout period with
  | .error e => .error e
  | .ok (timeout, period) => t.assign now timeout period

/-- The timer set, through a handle, to the timeout and period that it has. -/
def restart (t : RemoteTimer) (now : Option Nat) : Except LoopError RemoteTimer :=
  t.assign now t.timer.timeout t.timer.period

end RemoteTimer

end EventLoop
