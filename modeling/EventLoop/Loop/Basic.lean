import EventLoop.Context
import EventLoop.Poller

/-!
An event loop: a context together with the poller that serves it.

Operations answer the loop after the call and what the caller sees. Here are those that apply to
watchers of every kind, and the end of a run.
-/
namespace EventLoop

/-- A context and its poller, if it has one. -/
structure Loop where
  context : Context
  poller : Option Poller

/-- The loop after an operation, and what the operation returns. -/
abbrev Outcome (α : Type) := Loop × Except LoopError α

namespace Loop

/-- A change of the context alone. -/
def mapContext (l : Loop) (f : Context → Context) : Loop := { l with context := f l.context }

/-- What is left of a watcher's payload when the watcher is stopped. A timer keeps its deadline and
an I/O watcher its readiness, and a post is discarded. If the watcher is to be released, a remote
timer is put out of the reach of its handles. -/
def stoppedPayload (release : Bool) : Payload → Payload
  | .remote r => .remote (if release then r.cutOff else r.stop)
  | .event _ => .event PostFlag.clear
  | p => p

/-- Stops the watcher in a slot. An active I/O watcher leaves the watch list. The slot is unlinked,
but a remote timer that is not to be released stays linked. -/
def stopSlot (l : Loop) (index : Nat) (release : Bool) : Loop :=
  match l.context.watchers.at? index with
  | none => l
  | some (_, e) =>
    let poller :=
      match e.payload with
      | .io io => if e.active then l.poller.map (Poller.unwatch · io.ticket) else l.poller
      | _ => l.poller
    let stopped := { e with payload := stoppedPayload release e.payload, active := false }
    let context := { l.context with watchers := l.context.watchers.put index stopped }
    let stays := !release && e.payload.isRemote
    { context := if stays then context else context.unlinkSlot index, poller }

/-- Stops the watcher that a handle finds, if it is of a kind that the operation applies to. -/
def stopKind (l : Loop) (h : Handle) (applies : Payload → Bool) (expected : WatcherKind) :
    Outcome Unit :=
  match l.context.find h with
  | .error e => (l, .error e)
  | .ok e =>
    if applies e.payload then (l.stopSlot h.key.index false, .ok ())
    else (l, .error (.wrongKind expected))

/-- Stops every watcher and ends the loop. Handles stay valid, and remote timers stay linked. -/
def exit (l : Loop) : Loop :=
  let l := l.context.roster.toList.foldl (fun l index => l.stopSlot index false) l
  l.mapContext fun c => { c with running := false, exitAsked := false }

/-- Whether the watcher is started; a stale handle finds none. -/
def isActive (l : Loop) (h : Handle) : Bool :=
  match l.context.find h with
  | .ok e => e.isActive
  | .error _ => false

/-- Stops a watcher and vacates its slot, which makes the handle stale. Answers the remote timer that
the watcher has shared, which has been cut off. -/
def release (l : Loop) (h : Handle) : Outcome (Option (WatcherRef × RemoteTimer)) :=
  match l.context.find h with
  | .error e => (l, .error e)
  | .ok _ =>
    let l := l.stopSlot h.key.index true
    (l.mapContext (Context.forget · h), .ok (l.context.shared? h.key.index))

end Loop
end EventLoop
