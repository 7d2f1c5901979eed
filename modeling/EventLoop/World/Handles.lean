import EventLoop.Loop.Timers
import EventLoop.World.Basic

/-!
Remote timers and the handles that share them.

A remote timer is a cell that its watcher and its handles share. The cell is kept with the watcher.
When the watcher is released, or its context is dropped, the cell is cut off and kept apart, where
the handles find it from then on. An operation through a handle acts on the cell alone, and is refused
by a cell that has been cut off.
-/
namespace EventLoop

namespace World

/-- Keeps remote timers whose watchers are gone. -/
def keep (w : World) (shared : List (WatcherRef × RemoteTimer)) : World :=
  { w with orphans := shared ++ w.orphans }

/-- The remote timer that a handle shares. -/
def cell? (w : World) (r : WatcherRef) : Option RemoteTimer :=
  match (w.context? r.owner).bind fun c => c.remote? r with
  | some (_, t) => some t
  | none => w.orphans.lookup r

/-- Writes a remote timer that is kept apart. -/
def putOrphan (r : WatcherRef) (t : RemoteTimer) :
    List (WatcherRef × RemoteTimer) → List (WatcherRef × RemoteTimer)
  | [] => []
  | (r', t') :: orphans =>
    if r' = r then (r, t) :: orphans else (r', t') :: putOrphan r t orphans

/-- Writes the remote timer that a handle shares, where it is kept. -/
def putCell (w : World) (r : WatcherRef) (t : RemoteTimer) : World :=
  match w.context? r.owner with
  | none => { w with orphans := putOrphan r t w.orphans }
  | some c =>
    match c.remote? r with
    | none => { w with orphans := putOrphan r t w.orphans }
    | some (e, _) => w.putContext r.owner (c.putRemote r e t)

/-- Wakes the dispatcher of a context, if the context is there. -/
def raise (w : World) (id : Nat) (s : Signal) : World :=
  match w.context? id with
  | some c => w.putContext id (c.raise s)
  | none => w

/-- The moment from which a timer of a context is armed that is set now: none unless the context is
there and running. -/
def armingTime? (w : World) (id : Nat) : Option Nat :=
  (w.context? id).bind fun c => c.armingTime (w.now c)

/-- Writes what a remote timer has been set to and wakes the dispatcher, unless it refused. -/
def assignCell (w : World) (r : WatcherRef) : Except LoopError RemoteTimer → World × Answer
  | .error e => (w, .failed e)
  | .ok t => ((w.putCell r t).raise r.owner .timer, .ok .nothing)

/-- Acts through a handle of a remote timer. -/
def actOnTimerHandle (w : World) (r : WatcherRef) (action : TimerHandleAction) : World × Answer :=
  match w.cell? r with
  | none => (w, .refused .noSuchName)
  | some t =>
    match action with
    | .set timeout period => w.assignCell r (t.setTo (w.armingTime? r.owner) timeout period)
    | .start => w.assignCell r (t.restart (w.armingTime? r.owner))
    | .stop => (w.putCell r t.stop, .ok .nothing)
    | .isActive => (w, .ok (.bool t.active))

end World
end EventLoop
