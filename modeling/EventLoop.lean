import EventLoop.Scenario
import EventLoop.Proofs.Arena
import EventLoop.Proofs.Change
import EventLoop.Proofs.Sound
import EventLoop.Proofs.Moves
import EventLoop.Proofs.Dispatch
import EventLoop.Proofs.World
import EventLoop.Proofs.Perform
import EventLoop.Proofs.Transition
import EventLoop.Proofs.Invariant
import EventLoop.Proofs.Structure
import EventLoop.Proofs.Coverage
import EventLoop.Proofs.WatchList
import EventLoop.Proofs.Tenure
import EventLoop.Proofs.Turn
import EventLoop.Proofs.Pass
import EventLoop.Proofs.History
import EventLoop.Proofs.Aim
import EventLoop.Proofs.Target
import EventLoop.Proofs.Polls
import EventLoop.Proofs.Persistence
import EventLoop.Proofs.Effect
import EventLoop.Proofs.Lasting
import EventLoop.Proofs.Stopping
import EventLoop.Proofs.Armed
import EventLoop.Proofs.Expiry
import EventLoop.Proofs.Dormant
import EventLoop.Proofs.Posts
import EventLoop.Proofs.Onward
import EventLoop.Proofs.Reporting
import EventLoop.Proofs.Failures
import EventLoop.Proofs.Raised
import EventLoop.Proofs.Deadline
import EventLoop.Proofs.BoundedWait
import EventLoop.Proofs.Idle
import EventLoop.Proofs.Repeated
import EventLoop.Proofs.Isolation
import EventLoop.Proofs.ExitRequests
import EventLoop.Proofs.Resumption
import EventLoop.Proofs.CleanExit
import EventLoop.Proofs.Delivery
import EventLoop.Proofs.Cells
import EventLoop.Proofs.CutOff
import EventLoop.Proofs.UnknownTime
import EventLoop.Proofs.Conservation
import EventLoop.Proofs.Keys
import EventLoop.Proofs.Itinerary
import EventLoop.Proofs.Range
import EventLoop.Proofs.Remote
import EventLoop.Proofs.Kinds
import EventLoop.Proofs.Horizon
import EventLoop.Proofs.DeadPoller
import EventLoop.Proofs.FirstPass
import EventLoop.Proofs.Course
import EventLoop.Proofs.RunReturn
