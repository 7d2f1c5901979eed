import EventLoop.Loop.Basic

/-!
Operations on I/O watchers. Starting one draws a new ticket, discards readiness that was not taken,
and puts the watcher on the watch list; stopping one takes it off the list.
-/
namespace EventLoop
namespace Loop

/-- Starts an I/O watcher. Starting an active one does nothing. -/
def ioStart (l : Loop) (h : Handle) : Outcome Unit :=
  match l.poller with
  | none => (l, .error .noPoller)
  | some p =>
    match l.context.find h with
    | .error e => (l, .error e)
    | .ok e =>
      match e.payload with
      | .io io =>
        if io.fd < 0 then (l, .error (.invalidDescriptor io.fd))
        else if e.active then (l, .ok ())
        else
          let (p, ticket) := p.drawTicket
          let e := { e with payload := .io { io with ready := Readiness.empty, ticket } }
          match p.watch? ⟨ticket, l.context.refTo h.key.index e, io.fd, io.interest⟩ with
          | none =>
            ({ context := l.context.update h e, poller := some p }, .error .pollerTerminated)
          | some p =>
            let c := l.context.update h { e with active := true }
            ({ context := c.linkSlot h.key.index, poller := some p }, .ok ())
      | _ => (l, .error (.wrongKind .io))

/-- Stops an I/O watcher. -/
def ioStop (l : Loop) (h : Handle) : Outcome Unit :=
  l.stopKind h (fun p => p.kind == .io) .io

/-- Refuses an interest that cannot be asked for, and a negative descriptor. -/
def checkIo (fd : Int) (interest : Events) : Except LoopError Unit :=
  if !interest.isInterest then .error (.invalidEvents interest)
  else if fd < 0 then .error (.invalidDescriptor fd)
  else .ok ()

/-- Creates an I/O watcher and starts it. If it cannot be started there is no watcher. -/
def ioInit (l : Loop) (callback : Callback) (fd : Int) (interest : Events) : Outcome Handle :=
  match checkIo fd interest with
  | .error e => (l, .error e)
  | .ok _ =>
    let (context, h) := l.context.insert (.io ⟨fd, interest, Readiness.empty, 0⟩) callback
    match { l with context }.ioStart h with
    | (l, .error e) => (l.mapContext (Context.forget · h), .error e)
    | (l, .ok _) => (l, .ok h)

/-- Stops an I/O watcher, changes its descriptor and interest, and starts it. -/
def ioSet (l : Loop) (h : Handle) (fd : Int) (interest : Events) : Outcome Unit :=
  match checkIo fd interest with
  | .error e => (l, .error e)
  | .ok _ =>
    match l.ioStop h with
    | (l, .error e) => (l, .error e)
    | (l, .ok _) =>
      match l.context.find h with
      | .error e => (l, .error e)
      | .ok e =>
        match e.payload with
        | .io io =>
          let c := l.context.update h { e with payload := .io { io with fd, interest } }
          { l with context := c }.ioStart h
        | _ => l.ioStart h

end Loop
end EventLoop
