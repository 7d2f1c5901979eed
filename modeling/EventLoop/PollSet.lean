import EventLoop.Poller

/-!
The set of descriptors that a poller polls, and what comes of waiting for them.

The set is built anew each time. It begins with the loopback channel of the poller, by which the
poller is woken when its list has changed and is told to end. The descriptors of the watchers follow,
and what the host reports for each of them is found by its position.
-/
namespace EventLoop

/-- What is polled. -/
inductive Descriptor where
  /-- The loopback channel of the poller. -/
  | loopback
  /-- The descriptor of a watcher. -/
  | watched (fd : Int)
  deriving DecidableEq

/-- A descriptor in the set, with what it is polled for and what the host has reported. -/
structure PollSlot where
  descriptor : Descriptor
  asked : PollFlags
  reported : PollFlags

/-- The descriptors to poll, and the watchers that all but the first belong to, in order. -/
structure PollSet where
  slots : List PollSlot
  entries : List Watched

/-- What a wait for descriptors comes to. -/
inductive PollOutcome where
  | failed
  | interrupted
  /-- The host reports these flags for a descriptor that is polled for some. -/
  | answered (report : Descriptor → PollFlags → PollFlags)

/-- What the loopback channel holds after everything in it has been read. -/
inductive Drained where
  | empty
  | closed
  | failed
  deriving DecidableEq

/-- What a poller does when it has waited. -/
inductive Verdict where
  /-- It polls once more. -/
  | again
  /-- It dies. -/
  | ends
  /-- It delivers events to watchers. -/
  | delivers (ready : List (Watched × Events))

/-- What is reported if these flags are reported for the loopback channel. -/
def Descriptor.withLoopback (flags : PollFlags) (report : Descriptor → PollFlags → PollFlags) :
    Descriptor → PollFlags → PollFlags
  | .loopback, _ => flags
  | .watched fd, asked => report (.watched fd) asked

namespace PollSet

/-- A set with nothing but the loopback channel, which is polled for input. -/
def reset : PollSet := ⟨[⟨.loopback, Mask.only .input, ∅⟩], []⟩

/-- Adds a watcher. -/
def push (s : PollSet) (w : Watched) : PollSet :=
  ⟨s.slots ++ [⟨.watched w.fd, w.interest.toPoll, ∅⟩], s.entries ++ [w]⟩

/-- A set with these watchers. -/
def ofList (list : List Watched) : PollSet := list.foldl push reset

/-- The host writes its reports. -/
def answer (s : PollSet) (report : Descriptor → PollFlags → PollFlags) : PollSet :=
  { s with slots := s.slots.map fun x => { x with reported := report x.descriptor x.asked } }

/-- Whether anything was reported at all. -/
def isAnswered (s : PollSet) : Bool := s.slots.any fun x => !x.reported.isEmpty

/-- What was reported for the loopback channel. -/
def wake (s : PollSet) : PollFlags :=
  match s.slots with
  | [] => ∅
  | x :: _ => x.reported

/-- The watchers that something was reported for, with the events they are to be told of. -/
def ready (s : PollSet) : List (Watched × Events) :=
  let found := (s.slots.tail.zip s.entries).filter fun (x, _) => !x.reported.isEmpty
  let told := found.map fun (x, w) => (w, x.reported.toEvents w.interest)
  told.filter fun (_, events) => !events.isEmpty

/-- Whether the loopback channel has to be read: it has input, or it was hung up or has failed. -/
def isWoken (s : PollSet) : Bool :=
  s.wake.has .input || s.wake.has .hangup || s.wake.has .failure

/-- What the poller does when it has waited for the set. It reads the loopback channel if that was
reported, and dies unless the channel is open still. -/
def verdict (s : PollSet) (drained : Drained) : PollOutcome → Verdict
  | .failed => .again
  | .interrupted => .again
  | .answered report =>
    let s := s.answer report
    if !s.isAnswered then .again
    else if s.isWoken && drained != .empty then .ends
    else .delivers s.ready

end PollSet
end EventLoop
