import EventLoop.Events

/-!
Why an operation fails.
-/
namespace EventLoop

/-- The kinds of watchers. -/
inductive WatcherKind where
  | io
  | timer
  | remoteTimer
  | event
  deriving DecidableEq

/-- How messages call a kind of watcher. -/
def WatcherKind.label : WatcherKind → String
  | .io => "I/O"
  | .timer => "timer"
  | .remoteTimer => "thread-safe timer"
  | .event => "event"

/-- A failure that an operation of an event loop reports to its caller. -/
inductive LoopError where
  /-- The handle is stale, or belongs to another context. -/
  | invalidWatcher
  /-- The operation applies to watchers of another kind. -/
  | wrongKind (expected : WatcherKind)
  /-- I/O watchers need a descriptor that is not negative. -/
  | invalidDescriptor (fd : Int)
  /-- The interest is empty, or asks for what cannot be asked. -/
  | invalidEvents (events : Events)
  /-- A timeout or period is negative. -/
  | outOfRange (timeout period : Int64)
  /-- The context has no poller. -/
  | noPoller
  /-- The poller has died. -/
  | pollerTerminated
  /-- The loop was run from one of its own callbacks. -/
  | reentrant
  deriving DecidableEq

/-- A number in hexadecimal, with lower-case digits. -/
def hexText (n : Nat) : String := String.ofList (Nat.toDigits 16 n)

/-- The text that describes the failure. -/
def LoopError.message : LoopError → String
  | .invalidWatcher => "watcher handle is stale or owned by another context"
  | .wrongKind expected => "operation requires a " ++ expected.label ++ " watcher"
  | .invalidDescriptor fd => "invalid file descriptor " ++ toString fd
  | .invalidEvents events => "unsupported event mask 0x" ++ hexText events.toNat
  | .outOfRange timeout period =>
    "timer value out of range (timeout=" ++ toString timeout.toInt
      ++ ", period=" ++ toString period.toInt ++ ")"
  | .noPoller => "no I/O poller attached to this context"
  | .pollerTerminated => "I/O poller thread has terminated"
  | .reentrant => "event loop is already running"

/-- Why a step of a scenario cannot be carried out at all. -/
inductive Refusal where
  /-- No watcher or handle has the name. -/
  | noSuchName
  /-- The context does not exist, was dropped, or is running further up the stack. -/
  | noContext
  /-- No poller has the number. -/
  | noPollerNumber
  /-- The step makes no sense. -/
  | badStep
  /-- The endpoint is not open. -/
  | badDescriptor
  /-- The peer of the endpoint is closed. -/
  | brokenPipe
  /-- Nothing has been received. -/
  | wouldBlock
  /-- The host cannot provide what a new poller needs. -/
  | outOfResources
  deriving DecidableEq

/-- Why a scenario ends early. -/
inductive Abort where
  /-- One step waited more often than the scenario allows. -/
  | runLimit
  /-- A wait without a bound has nothing to wake it. -/
  | blocked
  deriving DecidableEq

end EventLoop
