/-!
Deadlines of timers, in milliseconds.

A timer without a deadline is dormant: it is disarmed, or waits to be armed when its loop starts.
It fires only once the clock is past its deadline, and a periodic timer is armed again from the
moment it fires. A clock reading of zero means that the time is unknown, and fires nothing.
-/
namespace EventLoop

/-- A timer, in milliseconds. -/
structure Timer where
  /-- Delay of the first expiry. -/
  timeout : Nat
  /-- Interval between expiries; zero for a timer that fires once. -/
  period : Nat
  /-- Time of the next expiry. -/
  deadline : Option Nat
  deriving DecidableEq

/-- What a visit to a timer finds. -/
inductive Firing where
  /-- The timer is not due. -/
  | idle
  /-- The timer fires, and is armed again one period from now. -/
  | rearmed
  /-- The timer fires for the last time. -/
  | expired
  deriving DecidableEq

namespace Timer

/-- A timer that has nothing to fire for. -/
def unset : Timer := ⟨0, 0, none⟩

instance : Inhabited Timer := ⟨unset⟩

/-- Whether the timer has something to fire for, a timeout or a period. -/
def isSet (t : Timer) : Bool := t.timeout > 0 || t.period > 0

/-- The deadline of the timer if it is armed at `now`. A periodic timer without a timeout is due at
once. -/
def deadlineFrom (t : Timer) (now : Nat) : Option Nat :=
  if t.timeout > 0 then some (now + t.timeout)
  else if t.period > 0 then some now
  else none

/-- Sets timeout and period, and arms the timer if the time is given. -/
def set (t : Timer) (timeout period : Nat) (now : Option Nat) : Timer :=
  let t := { t with timeout, period }
  { t with deadline := now.bind t.deadlineFrom }

/-- Arms a dormant timer, and leaves an armed one alone. -/
def arm (t : Timer) (now : Nat) : Timer :=
  if t.deadline.isNone then { t with deadline := t.deadlineFrom now } else t

/-- Whether the timer fires at `now`: the time is known and past the deadline. -/
def isDue (t : Timer) (now : Nat) : Bool :=
  match t.deadline with
  | none => false
  | some d => now > 0 && now > d

/-- Fires the timer if it is due. -/
def fire (t : Timer) (now : Nat) : Timer × Firing :=
  if t.isDue now then
    if t.period = 0 then ({ t with timeout := 0, deadline := none }, .expired)
    else ({ t with deadline := some (now + t.period) }, .rearmed)
  else (t, .idle)

end Timer

/-- A timer that the holders of a handle may set, start and stop besides its own context. It carries
its own active flag, and is out of their reach once its watcher has left the context for good. -/
structure RemoteTimer where
  timer : Timer
  active : Bool
  /-- Whether handles still reach the timer. -/
  reachable : Bool
  deriving DecidableEq

namespace RemoteTimer

/-- A stopped timer that handles reach. -/
def create : RemoteTimer := ⟨Timer.unset, false, true⟩

/-- A stopped timer that no handle reaches. -/
def unreachable : RemoteTimer := ⟨Timer.unset, false, false⟩

/-- Sets timeout and period, which makes the timer active if it then has something to fire for. A
timer out of reach cannot be set. -/
def set? (r : RemoteTimer) (timeout period : Nat) (now : Option Nat) : Option RemoteTimer :=
  if r.reachable then
    let timer := r.timer.set timeout period now
    some { r with timer, active := timer.isSet }
  else none

/-- Stops the timer. Its deadline stays. -/
def stop (r : RemoteTimer) : RemoteTimer := { r with active := false }

/-- Stops the timer and puts it out of the reach of handles. -/
def cutOff (r : RemoteTimer) : RemoteTimer := { r with active := false, reachable := false }

end RemoteTimer
end EventLoop
