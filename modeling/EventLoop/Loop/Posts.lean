import EventLoop.Loop.Basic

/-!
Operations on events. An event is started when it is created. Once it is stopped, posts to it are
kept but nobody is called for them.
-/
namespace EventLoop
namespace Loop

/-- Creates an event and starts it. -/
def eventInit (l : Loop) (callback : Callback) : Outcome Handle :=
  let (context, h) := l.context.insert (.event PostFlag.clear) callback
  let context :=
    match context.watchers.get? h.key with
    | some e => context.update h { e with active := true }
    | none => context
  ({ l with context := context.linkSlot h.key.index }, .ok h)

/-- Posts an event and wakes the dispatcher. -/
def eventPost (l : Loop) (h : Handle) : Outcome Unit :=
  match l.context.find h with
  | .error e => (l, .error e)
  | .ok e =>
    match e.payload with
    | .event flag =>
      let c := l.context.update h { e with payload := .event flag.post }
      ({ l with context := c.raise .event }, .ok ())
    | _ => (l, .error (.wrongKind .event))

/-- Stops an event, and discards a post. -/
def eventStop (l : Loop) (h : Handle) : Outcome Unit :=
  l.stopKind h (fun p => p.kind == .event) .event

/-- A reference through which an event can be posted. -/
def eventPoster (l : Loop) (h : Handle) : Except LoopError WatcherRef :=
  match l.context.find h with
  | .error e => .error e
  | .ok e =>
    match e.payload with
    | .event _ => .ok (l.context.refTo h.key.index e)
    | _ => .error (.wrongKind .event)

end Loop

namespace Context

/-- Posts the event that a reference means. The dispatcher is woken even if the event has been
released. -/
def post (c : Context) (r : WatcherRef) : Context :=
  let c :=
    match c.meant? r with
    | some e =>
      match e.payload with
      | .event flag => c.updateMeant r { e with payload := .event flag.post }
      | _ => c
    | none => c
  c.raise .event

/-- Asks the loop to exit, through a handle of the loop. -/
def requestExit (c : Context) : Context := { c with exitAsked := true }.raise .exit

end Context
end EventLoop
