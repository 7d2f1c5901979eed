import EventLoop.Roster
import EventLoop.Watcher

/-!
The state of one event loop, and what its dispatcher does at a single watcher.

A context keeps its watchers in an arena and links those that take part in dispatch. A watcher is
linked while it is active; a remote timer stays linked while it is stopped, so that it can be set
from outside.
-/
namespace EventLoop

/-- The state of an event loop, its poller apart. -/
structure Context where
  id : Nat
  watchers : Arena Entry
  roster : Roster
  wakeups : Wakeups
  /-- The loop has been started and has not exited since. -/
  running : Bool
  /-- A handle of the loop has asked it to exit. -/
  exitAsked : Bool
  /-- A run is on the stack. -/
  busy : Bool
  clock : ClockSource
  /-- The poller that serves the context. -/
  poller : Option Nat
  /-- The serial number of the next watcher. -/
  nextSerial : Nat

/-- The earlier of two deadlines, either of which may be missing. -/
def sooner : Option Nat → Option Nat → Option Nat
  | some a, some b => some (min a b)
  | some a, none => some a
  | none, b => b

namespace Context

/-- A context without watchers that was never run. -/
def create (id : Nat) (clock : ClockSource) (poller : Option Nat) : Context where
  id
  watchers := Arena.empty
  roster := Roster.empty
  wakeups := Wakeups.empty
  running := false
  exitAsked := false
  busy := false
  clock
  poller
  nextSerial := 0

/-! ### Watchers -/

/-- The watcher that a handle finds. -/
def find (c : Context) (h : Handle) : Except LoopError Entry :=
  if h.owner = c.id then
    match c.watchers.get? h.key with
    | some e => .ok e
    | none => .error .invalidWatcher
  else .error .invalidWatcher

/-- Replaces what is kept for a watcher. -/
def update (c : Context) (h : Handle) (e : Entry) : Context :=
  { c with watchers := c.watchers.set h.key e }

/-- The watcher that a reference means, if it has not been released. -/
def meant? (c : Context) (r : WatcherRef) : Option Entry :=
  match c.watchers.at? r.index with
  | some (_, e) => if e.serial = r.serial then some e else none
  | none => none

/-- Replaces what is kept for a watcher, given by a reference to it. -/
def updateMeant (c : Context) (r : WatcherRef) (e : Entry) : Context :=
  { c with watchers := c.watchers.put r.index e }

/-- The remote timer of the watcher that a reference means, with the watcher. -/
def remote? (c : Context) (r : WatcherRef) : Option (Entry × RemoteTimer) :=
  match c.meant? r with
  | some e =>
    match e.payload with
    | .remote t => some (e, t)
    | _ => none
  | none => none

/-- Writes the remote timer of a watcher. -/
def putRemote (c : Context) (r : WatcherRef) (e : Entry) (t : RemoteTimer) : Context :=
  c.updateMeant r { e with payload := .remote t }

/-- The reference to the watcher in a slot. -/
def refTo (c : Context) (index : Nat) (e : Entry) : WatcherRef := ⟨c.id, index, e.serial⟩

/-- Stores a new watcher, stopped and not linked. -/
def insert (c : Context) (payload : Payload) (callback : Callback) : Context × Handle :=
  let (watchers, key) := c.watchers.insert ⟨c.nextSerial, false, some callback, payload⟩
  ({ c with watchers, nextSerial := c.nextSerial + 1 }, ⟨c.id, key⟩)

/-- Forgets a watcher and vacates its slot. -/
def forget (c : Context) (h : Handle) : Context :=
  { c with watchers := (c.watchers.erase h.key).1 }

/-- The remote timer in a slot, as those who share it know it. -/
def shared? (c : Context) (index : Nat) : Option (WatcherRef × RemoteTimer) :=
  match c.watchers.at? index with
  | some (_, e) =>
    match e.payload with
    | .remote t => some (c.refTo index e, t)
    | _ => none
  | none => none

/-- The remote timers of all watchers. -/
def allShared (c : Context) : List (WatcherRef × RemoteTimer) :=
  (List.range c.watchers.slots.length).filterMap c.shared?

/-- Links a slot into dispatch. -/
def linkSlot (c : Context) (index : Nat) : Context :=
  { c with roster := (c.roster.insert index).1 }

/-- Takes a slot out of dispatch. -/
def unlinkSlot (c : Context) (index : Nat) : Context :=
  { c with roster := (c.roster.erase index).1 }

/-- Wakes the dispatcher. -/
def raise (c : Context) (s : Signal) : Context := { c with wakeups := c.wakeups.raise s }

/-! ### Dispatch -/

/-- The moment from which a timer that is set now is armed: none unless the loop is running. -/
def armingTime (c : Context) (now : Nat) : Option Nat :=
  if c.running then some (toMillis now) else none

/-- Arms the timer in a slot if it is active and dormant. Answers its deadline if it is active. -/
def armSlot (c : Context) (ms : Nat) (index : Nat) : Context × Option Nat :=
  match c.watchers.at? index with
  | none => (c, none)
  | some (_, e) =>
    match e.payload with
    | .timer t =>
      if e.active then
        let t := t.arm ms
        ({ c with watchers := c.watchers.put index { e with payload := .timer t } }, t.deadline)
      else (c, none)
    | .remote r =>
      if r.active then
        let r := { r with timer := r.timer.arm ms }
        ({ c with watchers := c.watchers.put index { e with payload := .remote r } },
          r.timer.deadline)
      else (c, none)
    | _ => (c, none)

/-- Arms every dormant timer, and answers the earliest deadline. -/
def armAll (c : Context) (now : Nat) : Context × Option Nat :=
  c.roster.toList.foldl
    (fun (c, deadline) index =>
      let (c, candidate) := c.armSlot (toMillis now) index
      (c, sooner deadline candidate))
    (c, none)

/-- What the dispatcher makes of a watcher at its turn in a pass. -/
structure Visit where
  context : Context
  /-- The deadline of an active timer after the visit. -/
  deadline : Option Nat
  /-- The call that is due: the handle and the events to pass. -/
  call : Option (Handle × Events)

/-- Visits the watcher in a slot, at the time `now`, in a pass that was woken by `signals`. An
event is due if it is active and posted, a timer if it fires, and an I/O watcher if it has
readiness to take. -/
def visit (c : Context) (now : Nat) (signals : Signals) (index : Nat) : Visit :=
  match c.watchers.at? index with
  | none => ⟨c, none, none⟩
  | some (generation, e) =>
    let keep (payload : Payload) (active : Bool) : Context :=
      { c with watchers := c.watchers.put index { e with payload, active } }
    let due (b : Bool) (events : Events) : Option (Handle × Events) :=
      if b then some (⟨c.id, ⟨index, generation⟩⟩, events) else none
    match e.payload with
    | .event flag =>
      if e.active && signals.has .event then
        let (flag, posted) := flag.take
        ⟨keep (.event flag) e.active, none, due posted (Mask.only .read)⟩
      else ⟨c, none, none⟩
    | .timer t =>
      if e.active then
        let (t, firing) := (t.arm (toMillis now)).fire (toMillis now)
        let c := keep (.timer t) (firing != .expired)
        ⟨if firing = .expired then c.unlinkSlot index else c, t.deadline,
          due (firing != .idle) (Mask.only .read)⟩
      else ⟨c, none, none⟩
    | .remote r =>
      if r.active then
        let (t, firing) := (r.timer.arm (toMillis now)).fire (toMillis now)
        let r := { r with timer := t, active := firing != .expired }
        ⟨keep (.remote r) e.active, t.deadline, due (firing != .idle) (Mask.only .read)⟩
      else ⟨c, none, none⟩
    | .io io =>
      if e.active && signals.has .readiness then
        let (ready, events) := io.ready.take
        ⟨keep (.io { io with ready }) e.active, none, due (!events.isEmpty) events⟩
      else ⟨c, none, none⟩

/-- Lends out the callback of a watcher that is about to be called. -/
def lendCallback (c : Context) (h : Handle) : Context × Option Callback :=
  match c.find h with
  | .error _ => (c, none)
  | .ok e => (c.update h { e with callback := none }, e.callback)

/-- Takes a callback back after the call, unless the watcher was released meanwhile. -/
def returnCallback (c : Context) (h : Handle) (callback : Callback) : Context :=
  match c.find h with
  | .error _ => c
  | .ok e => if e.callback.isNone then c.update h { e with callback := some callback } else c

end Context
end EventLoop
