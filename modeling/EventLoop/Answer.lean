import EventLoop.Failure
import EventLoop.Watcher

/-!
What the steps of a scenario answer, and what can be seen of a context.
-/
namespace EventLoop

/-- The deadline of a named watcher, as it is shown. -/
inductive DeadlineView where
  /-- The timer is dormant. -/
  | dormant
  /-- The timer is due after this many milliseconds of the scenario's clock. -/
  | at (ms : Nat)
  /-- The timer is due at some time of the host's clock. -/
  | armed
  /-- The watcher is no timer. -/
  | notTimer
  /-- The watcher was released. -/
  | stale
  deriving DecidableEq

/-- A named watcher, as it is shown. -/
structure WatcherView where
  name : String
  active : Bool
  deadline : DeadlineView
  deriving DecidableEq

/-- A context, as it is shown. -/
structure ContextView where
  size : Nat
  /-- The slots of the linked watchers, in the order of a pass. -/
  order : List Nat
  running : Bool
  /-- The watchers of the context that have a name, released ones included. -/
  watchers : List WatcherView
  deriving DecidableEq

/-- What a successful step answers. -/
inductive Value where
  | nothing
  | bool (b : Bool)
  | number (n : Nat)
  | key (key : SlotKey)
  | size (n : Nat) (isEmpty : Bool)
  | endpoints (a b : Nat)
  | text (s : String)
  | deadline (d : DeadlineView)
  | state (view : ContextView)
  deriving DecidableEq

/-- The record of one call of a callback. -/
structure CallRecord (α : Type) where
  label : String
  watcher : Handle
  events : Events
  /-- When the call started, in microseconds. -/
  time : Nat
  /-- What the steps of the callback answered. -/
  answers : List α

/-- What a step answers. -/
inductive Answer where
  | ok (value : Value)
  | failed (error : LoopError)
  | refused (refusal : Refusal)
  /-- The step was a run, which made these calls, and failed if there is an error. -/
  | ran (error : Option LoopError) (calls : List (CallRecord Answer))

end EventLoop
