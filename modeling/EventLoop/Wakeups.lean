import EventLoop.Mask

/-!
What wakes the dispatcher of a context.

Anyone may raise signals; they stay raised until the dispatcher takes them. The dispatcher waits
for the signals of a mask: it takes those that are raised, and otherwise sleeps for the given time,
or for ever.
-/
namespace EventLoop

/-- A reason to wake the dispatcher. -/
inductive Signal where
  /-- An I/O watcher became ready. -/
  | readiness
  /-- An event was posted. -/
  | event
  /-- A timer was set, so the nearest deadline has to be found again. -/
  | timer
  /-- The loop was asked to exit. -/
  | exit
  deriving DecidableEq

instance : Flag Signal where
  bit
    | .readiness => 0
    | .event => 1
    | .timer => 2
    | .exit => 3
  all := [.readiness, .event, .timer, .exit]

/-- A set of reasons to wake the dispatcher. -/
abbrev Signals := Mask Signal

/-- Signals that were raised and not yet taken. -/
structure Wakeups where
  raised : Signals
  deriving DecidableEq

/-- How a wait ends. -/
inductive Wait where
  /-- Signals were raised; they are now taken. -/
  | woken (signals : Signals)
  /-- Nothing was raised, and the timeout of so many microseconds has passed. -/
  | elapsed (timeout : Nat)
  /-- Nothing was raised, and the wait has no bound. -/
  | forever
  deriving DecidableEq

namespace Wakeups

/-- Nothing is raised. -/
def empty : Wakeups := ⟨∅⟩

instance : Inhabited Wakeups := ⟨empty⟩

/-- Raises signals besides those already raised. -/
def add (w : Wakeups) (signals : Signals) : Wakeups := ⟨w.raised ∪ signals⟩

/-- Raises one signal. -/
def raise (w : Wakeups) (s : Signal) : Wakeups := w.add (Mask.only s)

/-- Removes the bits of the mask, and answers those of them that are signals. -/
def take (w : Wakeups) (mask : Signals) : Wakeups × Signals :=
  (⟨w.raised \ mask⟩, (w.raised ∩ mask).known)

/-- Waits for the signals of a mask. The bits of the mask are removed however the wait ends, and
only a signal ends it early. -/
def wait (w : Wakeups) (mask : Signals) (timeout : Option Nat) : Wakeups × Wait :=
  let (rest, taken) := w.take mask
  if taken.isEmpty then
    match timeout with
    | none => (rest, .forever)
    | some us => (rest, .elapsed us)
  else (rest, .woken taken)

end Wakeups
end EventLoop
