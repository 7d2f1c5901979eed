import EventLoop.Clock
import EventLoop.Events

/-!
What a scenario can do, at its top level and in callbacks.
-/
namespace EventLoop

/-- How a run may wait, and when it may end early. -/
inductive RunFlag where
  /-- Return after the first pass that called a watcher. -/
  | once
  /-- Never wait; with `once`, return after a single pass. -/
  | nonblock
  deriving DecidableEq

instance : Flag RunFlag where
  bit
    | .once => 0
    | .nonblock => 1
  all := [.once, .nonblock]

/-- The flags of a run. -/
abbrev RunFlags := Mask RunFlag

/-- What the calls of one callback do, in turn. -/
structure Script (α : Type) where
  calls : List (List α)
  /-- Whether the last call is repeated for ever. -/
  repeats : Bool

/-- What the call with number `n`, counted from zero, does. -/
def Script.call {α : Type} (s : Script α) (n : Nat) : List α :=
  match s.calls[n]? with
  | some actions => actions
  | none => if s.repeats then s.calls.getLast?.getD [] else []

/-- The watcher to create. -/
inductive WatcherSpec where
  | timer (timeout period : Int64)
  | remoteTimer (timeout period : Int64)
  | event
  | io (fd : Int) (interest : Events)
  deriving DecidableEq

/-- What is done to a named watcher. -/
inductive WatcherAction where
  | release
  | isActive
  | ioStart
  | ioStop
  | ioSet (fd : Int) (interest : Events)
  | timerStart
  | timerStop
  | timerSet (timeout period : Int64)
  | deadline
  | eventPost
  | eventStop
  /-- Makes a handle of a remote timer and names it. -/
  | timerHandle (handle : String)
  /-- Makes a poster of an event and names it. -/
  | eventPoster (handle : String)
  deriving DecidableEq

/-- What is done to a context as a whole. -/
inductive ContextAction where
  | exit
  | running
  | size
  | state
  | watched
  /-- Makes a handle of the loop and names it. -/
  | loopHandle (handle : String)
  deriving DecidableEq

/-- Where a new context takes its poller from. -/
inductive PollerChoice where
  | none
  | own
  | numbered (number : Nat)
  deriving DecidableEq

/-- What is done to a numbered poller. -/
inductive PollerAction where
  | watched
  | isAlive
  /-- Wakes the poller, which polls once more than it would have. -/
  | interrupt
  | kill
  /-- Makes polls fail for a while; the poller tries again until they succeed. -/
  | fail
  /-- Gives up the number; contexts keep the poller. -/
  | drop
  deriving DecidableEq

/-- What is done through a named handle of a remote timer. -/
inductive TimerHandleAction where
  | set (timeout period : Int64)
  | start
  | stop
  | isActive
  deriving DecidableEq

/-- What is done to the stream sockets of a scenario. -/
inductive SocketAction where
  | pair
  | write (fd : Int) (data : String)
  | read (fd : Int) (max : Nat)
  | close (fd : Int)
  deriving DecidableEq

/-- One step of a scenario. A step on a context that names none is about context 0 at the top
level, and about the running context in a callback. -/
inductive Command where
  | create (context : Option Nat) (name : String) (spec : WatcherSpec) (script : Script Command)
  | watcher (context : Option Nat) (name : String) (action : WatcherAction)
  | context (context : Option Nat) (action : ContextAction)
  | run (context : Option Nat) (flags : RunFlags)
  | newContext (poller : PollerChoice) (clock : ClockSource)
  | dropContext (context : Nat)
  | newPoller (stack : Nat)
  | poller (number : Nat) (action : PollerAction)
  | timerHandle (handle : String) (action : TimerHandleAction)
  | post (handle : String)
  | requestExit (handle : String)
  | isRunning (handle : String)
  | socket (action : SocketAction)
  | setClock (us : Nat)
  | advance (us : Nat)
  | unknown

instance : Inhabited Command := ⟨.unknown⟩

end EventLoop
