import EventLoop.Arena
import EventLoop.Command
import EventLoop.Failure
import EventLoop.Readiness
import EventLoop.Timer

/-!
Watchers: what a context keeps for each of them, and how they are addressed.

A handle is a plain key. It finds its watcher until the watcher is released, and again only if the
slot's generation has wrapped. A reference is for those who must never take another watcher for
theirs: each watcher of a context has a serial number of its own.
-/
namespace EventLoop

/-- The key of a watcher together with the context that handed it out. -/
structure Handle where
  owner : Nat
  key : SlotKey
  deriving DecidableEq

/-- A watcher by its place and serial number, held by handles of remote timers, posters, and
pollers. -/
structure WatcherRef where
  owner : Nat
  index : Nat
  serial : Nat
  deriving DecidableEq

/-- An I/O watcher. -/
structure IoState where
  fd : Int
  interest : Events
  ready : Readiness
  /-- Marks the watcher's entry in the watch list of the poller; drawn anew by every start. -/
  ticket : Nat
  deriving DecidableEq

/-- What a watcher watches. -/
inductive Payload where
  | io (io : IoState)
  | timer (timer : Timer)
  | remote (remote : RemoteTimer)
  | event (flag : PostFlag)
  deriving DecidableEq

namespace Payload

/-- The kind of the watcher. -/
def kind : Payload → WatcherKind
  | .io _ => .io
  | .timer _ => .timer
  | .remote _ => .remoteTimer
  | .event _ => .event

/-- The timer of either kind of timer. -/
def timer? : Payload → Option Timer
  | .timer t => some t
  | .remote r => some r.timer
  | _ => none

/-- Whether the watcher is a remote timer. -/
def isRemote : Payload → Bool
  | .remote _ => true
  | _ => false

end Payload

/-- A callback: the name under which its calls are reported, and what the calls do. -/
structure Callback where
  label : String
  script : Script Command
  /-- How often it has been called. -/
  called : Nat

/-- What the next call of a callback does. -/
def Callback.actions (c : Callback) : List Command := c.script.call c.called

/-- A watcher in its slot. -/
structure Entry where
  serial : Nat
  /-- Whether the watcher takes part in dispatch. A remote timer keeps a flag of its own instead. -/
  active : Bool
  /-- Absent while the callback is being called. -/
  callback : Option Callback
  payload : Payload

/-- Whether the watcher is started. -/
def Entry.isActive (e : Entry) : Bool :=
  match e.payload with
  | .remote r => r.active
  | _ => e.active

end EventLoop
