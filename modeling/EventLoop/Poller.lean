import EventLoop.Watcher

/-!
Pollers: the watch lists that contexts share.

A poller polls the descriptors of the listed watchers. One that has died keeps its list, takes on no
watcher and never polls again.
-/
namespace EventLoop

/-- A started I/O watcher, as its poller knows it. -/
structure Watched where
  ticket : Nat
  watcher : WatcherRef
  fd : Int
  interest : Events
  deriving DecidableEq

/-- A watch list, and whether there is still somebody to poll it. -/
structure Poller where
  alive : Bool
  watched : List Watched
  /-- The ticket that the next start draws. -/
  nextTicket : Nat
  deriving DecidableEq

namespace Poller

/-- A poller that watches nothing yet. -/
def create : Poller := ⟨true, [], 1⟩

/-- Draws a ticket. -/
def drawTicket (p : Poller) : Poller × Nat :=
  ({ p with nextTicket := p.nextTicket + 1 }, p.nextTicket)

/-- Adds a watcher to the list, unless the poller has died. -/
def watch? (p : Poller) (w : Watched) : Option Poller :=
  if p.alive then some { p with watched := p.watched ++ [w] } else none

/-- Takes the watcher with this ticket off the list. -/
def unwatch (p : Poller) (ticket : Nat) : Poller :=
  { p with watched := p.watched.filter fun w => w.ticket != ticket }

/-- Whether a watcher with this ticket is on the list. -/
def lists (p : Poller) (ticket : Nat) : Bool := p.watched.any fun w => w.ticket == ticket

/-- The poller dies. -/
def kill (p : Poller) : Poller := { p with alive := false }

end Poller

end EventLoop
