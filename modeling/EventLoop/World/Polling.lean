import EventLoop.World.Basic

/-!
Polling.

A poller copies the entries of its list that are idle, waits for their descriptors, and delivers what
was reported. The list may have changed while it waited: whoever has left it is told nothing. After
every step those pollers are settled that the host lets poll at once.
-/
namespace EventLoop

namespace World

/-- The I/O watcher that a reference means, with its context and entry. -/
def io? (w : World) (r : WatcherRef) : Option (Context × Entry × IoState) :=
  match w.context? r.owner with
  | none => none
  | some c =>
    match c.meant? r with
    | none => none
    | some e =>
      match e.payload with
      | .io io => some (c, e, io)
      | _ => none

/-- Whether a poller may poll the watcher: it is there, and its readiness has been taken. -/
def isIdle (w : World) (r : WatcherRef) : Bool :=
  match w.io? r with
  | some (_, _, io) => !io.ready.isPresent
  | none => false

/-- Delivers readiness to an I/O watcher, and wakes its context. -/
def deliver (w : World) (r : WatcherRef) (events : Events) : World :=
  match w.io? r with
  | some (c, e, io) =>
    let (ready, wakeups) := io.ready.deliver c.wakeups events
    let c := c.updateMeant r { e with payload := .io { io with ready } }
    w.putContext r.owner { c with wakeups }
  | none => w

/-- Delivers readiness to the watchers that are on a list still. -/
def deliverListed (w : World) (q : Poller) (ready : List (Watched × Events)) : World :=
  ready.foldl (fun w (x, events) => if q.lists x.ticket then w.deliver x.watcher events else w) w

/-- The poller with a number, if it is alive. -/
def living? (w : World) (p : Nat) : Option Poller := w.pollers[p]?.filter Poller.alive

/-- The entries that a poller polls: those that are idle. -/
def idle (w : World) (q : Poller) : List Watched := q.watched.filter fun x => w.isIdle x.watcher

/-- What the host reports. -/
def report (w : World) : Descriptor → PollFlags → PollFlags := w.host.report w.sockets

/-- A living poller goes on after it has waited for a set. -/
def afterWait (w : World) (p : Nat) (s : PollSet) (drained : Drained) (outcome : PollOutcome) :
    World :=
  match w.living? p with
  | none => w
  | some q =>
    match s.verdict drained outcome with
    | .again => w
    | .ends => { w with pollers := w.pollers.set p q.kill }
    | .delivers ready => w.deliverListed q ready

/-- A poll ends that was made of these entries. The loopback channel is in order. -/
def pollAmong (w : World) (p : Nat) (entries : List Watched) : World :=
  w.afterWait p (PollSet.ofList entries) .empty (.answered w.report)

/-- One complete poll. -/
def poll (w : World) (p : Nat) : World :=
  match w.living? p with
  | none => w
  | some q => w.pollAmong p (w.idle q)

/-- The loopback channel of a poller is closed, which it finds out at the end of a poll. -/
def closeLoopback (w : World) (p : Nat) : World :=
  match w.living? p with
  | none => w
  | some q =>
    let report := Descriptor.withLoopback (Mask.only .hangup) w.report
    w.afterWait p (PollSet.ofList (w.idle q)) .closed (.answered report)

/-- The numbers of the pollers that poll at once. -/
def prompt (w : World) : List Nat := (List.range w.pollers.length).filter w.host.isPrompt

/-- Lets the prompt pollers poll once. -/
def settle (w : World) : World := w.prompt.foldl poll w

end World
end EventLoop
