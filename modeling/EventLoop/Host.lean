import EventLoop.Clock
import EventLoop.PollSet
import EventLoop.Socket

/-!
The host that a scenario is carried out on.

The theory of the loop holds on every host. Scenarios are carried out on a stand-in, which knows
nothing but the sockets of the scenario and on which no real time passes.
-/
namespace EventLoop

/-- The host: its clock, and what it reports to pollers. -/
structure Host where
  /-- The reading of the clock, in microseconds. -/
  time : Nat
  /-- What is reported for a descriptor that is polled for some flags. -/
  report : Sockets → Descriptor → PollFlags → PollFlags
  /-- Whether the poller with this number has polled its list once more when a step is over. Others
  may poll at any time. -/
  isPrompt : Nat → Bool

/-- What is reported for sockets, while nothing comes in by the loopback channel. -/
def Sockets.reportAll (s : Sockets) : Descriptor → PollFlags → PollFlags
  | .loopback, _ => ∅
  | .watched fd, asked => s.report fd asked

/-- The host of a scenario. Its clock stands still, and all pollers are prompt. -/
def Host.standIn : Host := ⟨Clock.hostTime, Sockets.reportAll, fun _ => true⟩

end EventLoop
