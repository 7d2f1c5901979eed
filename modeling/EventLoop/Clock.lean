/-!
Time in microseconds, kept in a 64-bit counter that stops at its largest value.
-/
namespace EventLoop

/-- The largest value of a 64-bit counter. -/
def counterMax : Nat := 0xFFFFFFFFFFFFFFFF

/-- Addition that stops at `counterMax`. -/
def satAdd (a b : Nat) : Nat := min (a + b) counterMax

/-- Multiplication that stops at `counterMax`. -/
def satMul (a b : Nat) : Nat := min (a * b) counterMax

/-- Which clock a context reads. -/
inductive ClockSource where
  /-- The clock of the scenario, moved by its steps and by waits. -/
  | scenario
  /-- The clock of the host. -/
  | monotonic
  deriving DecidableEq

/-- The time of a scenario, and how waiting moves it. -/
structure Clock where
  /-- Microseconds. -/
  time : Nat
  /-- Added at the start of every wait. -/
  tick : Nat
  /-- A frozen clock is moved by no wait. -/
  frozen : Bool
  deriving DecidableEq

namespace Clock

/-- The reading in microseconds of the clock that a context uses, if the clock of the host shows
`host`. -/
def readOn (c : Clock) (host : Nat) : ClockSource → Nat
  | .scenario => c.time
  | .monotonic => host

/-- The reading of the clock of the host that scenarios are carried out on. It stands still, at a
value that no reading of an unknown time has. -/
def hostTime : Nat := 1000000

/-- The reading on that host. -/
def read (c : Clock) : ClockSource → Nat := c.readOn hostTime

/-- Moves the time forward, by a step of the scenario. -/
def advance (c : Clock) (us : Nat) : Clock := { c with time := satAdd c.time us }

/-- Moves the time forward while waiting. -/
def elapse (c : Clock) (us : Nat) : Clock := if c.frozen then c else c.advance us

/-- Moves the time by one tick, at the start of a wait. -/
def beginWait (c : Clock) : Clock := c.elapse c.tick

end Clock

/-- Milliseconds in a reading of microseconds. -/
def toMillis (us : Nat) : Nat := us / 1000

/-- How many microseconds there are from `now` until a timer with this deadline is due. It is due
once the clock is past its deadline, which is when the next millisecond begins. -/
def timeUntilDue (now : Nat) (deadline : Option Nat) : Option Nat :=
  deadline.map fun d => satMul (satAdd d 1) 1000 - now

end EventLoop
