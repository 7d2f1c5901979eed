import EventLoop.Events
import EventLoop.Wakeups

/-!
What reaches a watcher from outside the dispatcher: readiness of its descriptor, and posts.

The poller adds to a watcher's readiness and the dispatcher takes all of it at once. A post is a
flag, not a count: posts that come before the dispatcher takes the flag are one post.
-/
namespace EventLoop

/-- Readiness of a descriptor that the dispatcher has not taken yet. -/
structure Readiness where
  events : Events
  deriving DecidableEq

namespace Readiness

/-- The descriptor was not found ready. -/
def empty : Readiness := ⟨∅⟩

instance : Inhabited Readiness := ⟨empty⟩

/-- Adds events to those already there. -/
def add (r : Readiness) (events : Events) : Readiness := ⟨r.events ∪ events⟩

/-- Takes everything, and answers what of it are events. -/
def take (r : Readiness) : Readiness × Events := (empty, r.events.known)

/-- Whether there is anything to take. While there is, the poller leaves the descriptor alone. -/
def isPresent (r : Readiness) : Bool := !r.events.isEmpty

/-- Adds events and wakes the dispatcher. Without events nobody is woken. -/
def deliver (r : Readiness) (w : Wakeups) (events : Events) : Readiness × Wakeups :=
  if events.isEmpty then (r, w) else (r.add events, w.raise .readiness)

end Readiness

/-- Whether an event was posted since the dispatcher last looked. -/
structure PostFlag where
  posted : Bool
  deriving DecidableEq

namespace PostFlag

/-- Nothing was posted. -/
def clear : PostFlag := ⟨false⟩

instance : Inhabited PostFlag := ⟨clear⟩

/-- A post was made. -/
def post (_ : PostFlag) : PostFlag := ⟨true⟩

/-- Takes the post, if there is one. -/
def take (c : PostFlag) : PostFlag × Bool := (clear, c.posted)

end PostFlag
end EventLoop
