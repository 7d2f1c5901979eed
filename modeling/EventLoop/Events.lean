import EventLoop.Mask

/-!
The conditions that a watcher is called for, and the conditions that a poll reports.

A timer or an event is always called with `read`. An I/O watcher asks for some of `error`, `read`
and `write`, and is told of `hangup` without asking.
-/
namespace EventLoop

/-- A condition passed to a callback. -/
inductive Event where
  | error
  | read
  | write
  | hangup
  deriving DecidableEq

instance : Flag Event where
  bit
    | .error => 0
    | .read => 1
    | .write => 2
    | .hangup => 3
  all := [.error, .read, .write, .hangup]

/-- A set of conditions passed to a callback or asked for. -/
abbrev Events := Mask Event

/-- What an I/O watcher may ask for. -/
def Events.askable : Events := Mask.only .error ∪ Mask.only .read ∪ Mask.only .write

/-- An interest asks for something, and only for what may be asked. -/
def Events.isInterest (events : Events) : Bool :=
  !events.isEmpty && events.subset Events.askable

/-- A condition of a descriptor, as a poll takes and reports it. -/
inductive PollFlag where
  | input
  | output
  | failure
  | hangup
  | invalid
  deriving DecidableEq

instance : Flag PollFlag where
  bit
    | .input => 0
    | .output => 2
    | .failure => 3
    | .hangup => 4
    | .invalid => 5
  all := [.input, .output, .failure, .hangup, .invalid]

/-- A set of conditions of a descriptor. -/
abbrev PollFlags := Mask PollFlag

/-- What to poll a descriptor for. Failures and hang-ups are reported unasked, so they have no
counterpart here. -/
def Events.toPoll (interest : Events) : PollFlags :=
  Mask.onlyIf (interest.has .read) .input ∪ Mask.onlyIf (interest.has .write) .output

/-- What a watcher with this interest is told when a poll reports `flags`. Input and output are
passed on only if asked for. A hang-up counts as input for a reader, who sees the end of the
stream. -/
def PollFlags.toEvents (flags : PollFlags) (interest : Events) : Events :=
  Mask.onlyIf (flags.has .input && interest.has .read) .read
    ∪ Mask.onlyIf (flags.has .output && interest.has .write) .write
    ∪ Mask.onlyIf (flags.has .failure || flags.has .invalid) .error
    ∪ Mask.onlyIf (flags.has .hangup) .hangup
    ∪ Mask.onlyIf (flags.has .hangup && interest.has .read) .read

end EventLoop
