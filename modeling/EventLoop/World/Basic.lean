import EventLoop.Answer
import EventLoop.Host
import EventLoop.Loop.Basic

/-!
Everything that a scenario acts on: time, sockets, pollers, contexts, and the names it gives to
watchers and handles.
-/
namespace EventLoop

/-- Named values. -/
abbrev Names (α : Type) := List (String × α)

/-- Names a value, instead of what had the name before. -/
def Names.bind {α : Type} (names : Names α) (name : String) (a : α) : Names α :=
  (name, a) :: names.filter fun (n, _) => n != name

/-- The value that has a name. -/
def Names.find? {α : Type} (names : Names α) (name : String) : Option α := names.lookup name

/-- The state of a scenario. -/
structure World where
  host : Host
  clock : Clock
  /-- Waits since the current step of the scenario began. -/
  waits : Nat
  sockets : Sockets
  pollers : List Poller
  /-- The numbered pollers; a number that was given up means none. -/
  numbers : List (Option Nat)
  /-- The contexts by number; a dropped one is absent. -/
  contexts : List (Option Context)
  /-- The remote timers whose watchers are gone, for the handles that share them. -/
  orphans : List (WatcherRef × RemoteTimer)
  watchers : Names Handle
  timerHandles : Names WatcherRef
  posters : Names WatcherRef
  loopHandles : Names Nat

namespace World

/-- The world at the start of a scenario. -/
def create (clock : Clock) (host : Host) : World where
  host
  clock
  waits := 0
  sockets := Sockets.empty
  pollers := []
  numbers := []
  contexts := []
  orphans := []
  watchers := []
  timerHandles := []
  posters := []
  loopHandles := []

/-- The context with this number, unless it was dropped. -/
def context? (w : World) (id : Nat) : Option Context := w.contexts[id]?.join

/-- Replaces a context. -/
def putContext (w : World) (id : Nat) (c : Context) : World :=
  { w with contexts := w.contexts.set id (some c) }

/-- The event loop of a context. -/
def loop? (w : World) (id : Nat) : Option Loop :=
  (w.context? id).map fun c => ⟨c, c.poller.bind fun p => w.pollers[p]?⟩

/-- Replaces the context and the poller of an event loop. -/
def putLoop (w : World) (id : Nat) (l : Loop) : World :=
  let w := w.putContext id l.context
  match l.context.poller, l.poller with
  | some p, some poller => { w with pollers := w.pollers.set p poller }
  | _, _ => w

/-- The event loop of a context that can be operated on. Of the contexts with a run on the stack
only the innermost one can, which is `current`. -/
def usable? (w : World) (current : Option Nat) (id : Nat) : Option Loop :=
  match w.loop? id with
  | some l => if l.context.busy && current != some id then none else some l
  | none => none

/-- The time that a context reads, in microseconds. -/
def now (w : World) (c : Context) : Nat := w.clock.readOn w.host.time c.clock

/-! ### What can be seen -/

/-- The deadline of a timer of this context. -/
def deadlineView (c : Context) : Option Nat → DeadlineView
  | none => .dormant
  | some ms =>
    match c.clock with
    | .scenario => .at ms
    | .monotonic => .armed

/-- A named watcher of this context. -/
def watcherView (c : Context) (name : String) (h : Handle) : WatcherView :=
  match c.find h with
  | .error _ => ⟨name, false, .stale⟩
  | .ok e =>
    ⟨name, e.isActive,
      match e.payload.timer? with
      | some t => deadlineView c t.deadline
      | none => .notTimer⟩

/-- What can be seen of a context. -/
def view (w : World) (c : Context) : ContextView where
  size := c.roster.length
  order := c.roster.toList
  running := c.running
  watchers :=
    (w.watchers.filter fun (_, h) => h.owner = c.id).map fun (name, h) => watcherView c name h

/-- What can be seen of all contexts. -/
def views (w : World) : List (Option ContextView) := w.contexts.map (Option.map w.view)

end World
end EventLoop
