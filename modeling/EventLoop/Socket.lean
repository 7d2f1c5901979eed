import EventLoop.Events
import EventLoop.Failure
import EventLoop.Text.Utf8

/-!
Connected pairs of stream sockets.

Endpoints are numbered from zero and never reused, and the number of an endpoint is its descriptor.
Bytes written to an endpoint wait at its peer, where they stay readable after the writer is closed.
-/
namespace EventLoop

/-- One end of a connection. -/
structure Endpoint where
  isOpen : Bool
  /-- Bytes received and not yet read. -/
  inbox : List UInt8
  deriving DecidableEq

/-- The endpoints in order; each even one is connected to the next. -/
structure Sockets where
  endpoints : List Endpoint
  deriving DecidableEq

namespace Sockets

/-- No endpoint has been made. -/
def empty : Sockets := ⟨[]⟩

/-- The number of the endpoint at the other end. -/
def peer (i : Nat) : Nat := if i % 2 = 0 then i + 1 else i - 1

/-- The open endpoint with this descriptor. -/
def open? (s : Sockets) (fd : Int) : Option (Nat × Endpoint) :=
  match fd with
  | .ofNat i =>
    match s.endpoints[i]? with
    | some e => if e.isOpen then some (i, e) else none
    | none => none
  | .negSucc _ => none

/-- The peer of an endpoint, if it is open. -/
def openPeer? (s : Sockets) (i : Nat) : Option Endpoint :=
  (s.open? (peer i)).map Prod.snd

/-- Makes a connected pair. -/
def pair (s : Sockets) : Sockets × Nat × Nat :=
  let n := s.endpoints.length
  (⟨s.endpoints ++ [⟨true, []⟩, ⟨true, []⟩]⟩, n, n + 1)

/-- Sends a text to the peer, and answers the number of its bytes. -/
def write (s : Sockets) (fd : Int) (data : String) : Sockets × Except Refusal Nat :=
  match s.open? fd with
  | none => (s, .error .badDescriptor)
  | some (i, _) =>
    match s.openPeer? i with
    | none => (s, .error .brokenPipe)
    | some e =>
      let sent := Utf8.bytes data
      (⟨s.endpoints.set (peer i) { e with inbox := e.inbox ++ sent }⟩, .ok sent.length)

/-- Takes at most `max` received bytes. Without any, the stream has ended if the peer is closed. -/
def read (s : Sockets) (fd : Int) (max : Nat) : Sockets × Except Refusal String :=
  match s.open? fd with
  | none => (s, .error .badDescriptor)
  | some (i, e) =>
    if e.inbox.isEmpty then
      if (s.openPeer? i).isSome then (s, .error .wouldBlock) else (s, .ok "")
    else
      (⟨s.endpoints.set i { e with inbox := e.inbox.drop max }⟩,
        .ok (Utf8.text (e.inbox.take max)))

/-- Closes an endpoint; what it has not read is lost. -/
def close (s : Sockets) (fd : Int) : Sockets × Except Refusal Unit :=
  match s.open? fd with
  | none => (s, .error .badDescriptor)
  | some (i, _) => (⟨s.endpoints.set i ⟨false, []⟩⟩, .ok ())

/-- What a poll reports for a descriptor that is polled for `asked`. There is always room to write;
a closed peer is a hang-up, and makes the end of the stream readable. -/
def report (s : Sockets) (fd : Int) (asked : PollFlags) : PollFlags :=
  match s.open? fd with
  | none => Mask.only .invalid
  | some (i, e) =>
    let hangup := (s.openPeer? i).isNone
    Mask.onlyIf (asked.has .input && (!e.inbox.isEmpty || hangup)) .input
      ∪ Mask.onlyIf (asked.has .output) .output
      ∪ Mask.onlyIf hangup .hangup

end Sockets
end EventLoop
