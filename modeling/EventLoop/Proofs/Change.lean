import EventLoop.Loop.Io
import EventLoop.Loop.Posts
import EventLoop.Loop.Timers
import EventLoop.Proofs.Arena
import EventLoop.Proofs.Flags
import EventLoop.Proofs.Roster

/-!
# What an operation can do to an event loop

An operation changes one slot of the loop: the watcher in it, its place in the roster, its entry in
the watch list, and it may raise one signal. `Loop.Operation` lists every such change, and
`Loop.Changed` says that all else stays. Invariants are proved from the list, not from the
operations.
-/
namespace EventLoop

/-- What becomes of the place of a slot in the roster. -/
inductive Linking where
  | keep
  | link
  | unlink
  /-- Unlinked, and linked again at the head. -/
  | relink
  deriving DecidableEq

def Linking.apply (k : Linking) (r : Roster) (i : Nat) : Roster :=
  match k with
  | .keep => r
  | .link => (r.insert i).1
  | .unlink => (r.erase i).1
  | .relink => ((r.erase i).1.insert i).1

/-- A change of one slot: the watcher that is in it afterwards, what becomes of its place in the
roster, the signal raised, and the poller afterwards. -/
structure SlotChange where
  after : Option (Generation × Entry)
  linking : Linking
  signal : Option Signal
  poller : Option Poller

/-- What the poller is left with when a watcher is stopped. -/
def Entry.withdraw (e : Entry) (p : Poller) : Poller :=
  match e.payload with
  | .io io => if e.active then p.unwatch io.ticket else p
  | _ => p

/-- A watcher after it was stopped. -/
def Entry.stopped (e : Entry) : Entry :=
  { e with payload := Loop.stoppedPayload false e.payload, active := false }

/-- An I/O watcher with this descriptor and interest, and no readiness to take. -/
def Entry.aimed (e : Entry) (fd : Int) (interest : Events) (ticket : Nat) (active : Bool) : Entry :=
  { e with payload := .io ⟨fd, interest, Readiness.empty, ticket⟩, active }

/-- The place in the roster that a plain timer takes when it is set. -/
def Timer.linking (t : Timer) : Linking := if t.isSet then .link else .unlink

/-! ### What actions make of a watcher -/

/-- Whether the action stops watchers of this kind. -/
def WatcherAction.stops : WatcherAction → WatcherKind → Bool
  | .ioStop, .io => true
  | .timerStop, .timer => true
  | .timerStop, .remoteTimer => true
  | .eventStop, .event => true
  | _, _ => false

/-- Whether the action leaves the watcher alone. -/
def WatcherAction.asks : WatcherAction → Bool
  | .isActive => true
  | .deadline => true
  | .timerHandle _ => true
  | .eventPoster _ => true
  | _ => false

/-- What is done through a handle of a remote timer, as an action on the watcher. -/
def TimerHandleAction.onWatcher : TimerHandleAction → WatcherAction
  | .set timeout period => .timerSet timeout period
  | .start => .timerStart
  | .stop => .timerStop
  | .isActive => .isActive

/-- A timer watcher with another timer in it, which is active if it has something to fire for. -/
def Entry.withTimer (e : Entry) (t : Timer) : Entry :=
  match e.payload with
  | .timer _ => { e with payload := .timer t, active := t.isSet }
  | .remote r => { e with payload := .remote { r with timer := t, active := t.isSet } }
  | _ => e

/-- The times that a timer is set to when it is started again: its own, which its context passes on
as 64-bit numbers. -/
def Timer.Again (t : Timer) (timeout period : Nat) : Prop :=
  (timeout = t.timeout ∧ period = t.period) ∨
    checkTimes (Int64.ofNat t.timeout) (Int64.ofNat t.period) = .ok (timeout, period)

/-- What an action makes of the watcher that it is applied to, if timers are armed from `now` on.
An I/O watcher that cannot be started has lost its readiness all the same. -/
inductive Entry.Acted (e : Entry) (now : Option Nat) : WatcherAction → Bool → Option Entry → Prop
  | refused {action} : Acted e now action false (some e)
  | asked {action} : action.asks = true → Acted e now action true (some e)
  | released : Acted e now .release true none
  | stopped {action} : action.stops e.payload.kind = true → Acted e now action true (some e.stopped)
  | going {io} : e.payload = .io io → e.active = true → Acted e now .ioStart true (some e)
  | started {io ticket ok} : e.payload = .io io → e.active = false →
      Acted e now .ioStart ok (some (e.aimed io.fd io.interest ticket ok))
  | reaimed {io fd interest ticket ok} : e.payload = .io io →
      Acted e now (.ioSet fd interest) ok (some (e.aimed fd interest ticket ok))
  | set {t timeout period a b} : e.payload.timer? = some t →
      checkTimes timeout period = .ok (a, b) →
      Acted e now (.timerSet timeout period) true (some (e.withTimer (t.set a b now)))
  | restarted {t a b} : e.payload.timer? = some t → t.Again a b →
      Acted e now .timerStart true (some (e.withTimer (t.set a b now)))
  | posted {flag} : e.payload = .event flag →
      Acted e now .eventPost true (some { e with payload := .event flag.post })

/-- A watcher as it is when it has just been created. -/
inductive Entry.Born (now : Option Nat) : WatcherSpec → Entry → Prop
  | timer {serial callback timeout period a b t} : checkTimes timeout period = .ok (a, b) →
      t = Timer.unset.set a b now →
      Born now (.timer timeout period) ⟨serial, t.isSet, callback, .timer t⟩
  | remoteTimer {serial callback timeout period a b t} :
      checkTimes timeout period = .ok (a, b) → t = Timer.unset.set a b now →
      Born now (.remoteTimer timeout period) ⟨serial, false, callback, .remote ⟨t, t.isSet, true⟩⟩
  | event {serial callback} :
      Born now .event ⟨serial, true, callback, .event PostFlag.clear⟩
  | io {serial callback fd interest ticket} :
      Born now (.io fd interest)
        ⟨serial, true, callback, .io ⟨fd, interest, Readiness.empty, ticket⟩⟩

namespace Loop

/-- The changes that operations and polls make to slot `i`, given what is in it. -/
inductive Operation (l : Loop) (i : Nat) : Option (Generation × Entry) → SlotChange → Prop
  /-- A watcher was stored and could not be started, so it is gone again. -/
  | abandoned {p} : p = l.poller ∨ (∃ q, l.poller = some q ∧ p = some q.drawTicket.1) →
      Operation l i none ⟨none, .keep, none, p⟩
  /-- The dispatcher is woken for an event that is no longer there. -/
  | woken {before} : Operation l i before ⟨before, .keep, some .event, l.poller⟩
  | timerCreated {g callback t} (timeout period now) :
      t = Timer.unset.set timeout period (l.context.armingTime now) →
      Operation l i none
        ⟨some (g, ⟨l.context.nextSerial, t.isSet, some callback, .timer t⟩), t.linking,
          some .timer, l.poller⟩
  | remoteCreated {g callback t} (timeout period now) :
      t = Timer.unset.set timeout period (l.context.armingTime now) →
      Operation l i none
        ⟨some (g, ⟨l.context.nextSerial, false, some callback, .remote ⟨t, t.isSet, true⟩⟩), .link,
          some .timer, l.poller⟩
  | eventCreated {g callback} :
      Operation l i none
        ⟨some (g, ⟨l.context.nextSerial, true, some callback, .event PostFlag.clear⟩), .link,
          none, l.poller⟩
  | ioCreated {g callback q fd interest} :
      l.poller = some q → q.alive = true → checkIo fd interest = .ok () →
      Operation l i none
        ⟨some (g, ⟨l.context.nextSerial, true, some callback,
            .io ⟨fd, interest, Readiness.empty, q.nextTicket⟩⟩), .link, none,
          some { q with
            nextTicket := q.nextTicket + 1
            watched := q.watched ++
              [⟨q.nextTicket, ⟨l.context.id, i, l.context.nextSerial⟩, fd, interest⟩] }⟩
  | timerSet {g e t t'} (timeout period now) : e.payload = .timer t →
      t' = t.set timeout period (l.context.armingTime now) →
      Operation l i (some (g, e))
        ⟨some (g, { e with payload := .timer t', active := t'.isSet }), t'.linking, some .timer,
          l.poller⟩
  | remoteSet {g e r t' k} (timeout period now) : e.payload = .remote r → r.reachable = true →
      t' = r.timer.set timeout period (l.context.armingTime now) → k = .keep ∨ k = .link →
      Operation l i (some (g, e))
        ⟨some (g, { e with payload := .remote { r with timer := t', active := t'.isSet } }), k,
          some .timer, l.poller⟩
  /-- A remote timer is stopped through a reference. -/
  | remoteStopped {g e r} : e.payload = .remote r →
      Operation l i (some (g, e))
        ⟨some (g, { e with payload := .remote r.stop }), .keep, none, l.poller⟩
  | stopped {g e} :
      Operation l i (some (g, e))
        ⟨some (g, e.stopped), if e.payload.isRemote then .keep else .unlink, none,
          l.poller.map e.withdraw⟩
  | released {g e} :
      Operation l i (some (g, e)) ⟨none, .unlink, none, l.poller.map e.withdraw⟩
  /-- An I/O watcher is started, and may have been stopped and given another aim before. -/
  | ioStarted {g e io q fd interest k} : e.payload = .io io → l.poller = some q → q.alive = true →
      checkIo fd interest = .ok () → (k = .link ∧ e.active = false) ∨ k = .relink →
      Operation l i (some (g, e))
        ⟨some (g, e.aimed fd interest q.nextTicket true), k, none,
          some { q with
            nextTicket := q.nextTicket + 1
            watched := (e.withdraw q).watched ++
              [⟨q.nextTicket, ⟨l.context.id, i, e.serial⟩, fd, interest⟩] }⟩
  /-- The poller has died, so an I/O watcher is not started. -/
  | ioRefused {g e io q fd interest k} : e.payload = .io io → l.poller = some q →
      checkIo fd interest = .ok () → (k = .keep ∧ e.active = false) ∨ k = .unlink →
      Operation l i (some (g, e))
        ⟨some (g, e.aimed fd interest q.nextTicket false), k, none,
          some { q with nextTicket := q.nextTicket + 1, watched := (e.withdraw q).watched }⟩
  | posted {g e flag} : e.payload = .event flag →
      Operation l i (some (g, e))
        ⟨some (g, { e with payload := .event flag.post }), .keep, some .event, l.poller⟩
  /-- A poll found the descriptor of an I/O watcher ready. -/
  | delivered {g e io events} : e.payload = .io io → events.isEmpty = false → Events.Named events →
      Operation l i (some (g, e))
        ⟨some (g, { e with payload := .io { io with ready := io.ready.add events } }), .keep,
          some .readiness, l.poller⟩

/-- The loop `l'` is `l` after the change `x` of slot `i`. -/
structure Changed (l l' : Loop) (i : Nat) (x : SlotChange) : Prop where
  id : l'.context.id = l.context.id
  number : l'.context.poller = l.context.poller
  clock : l'.context.clock = l.context.clock
  running : l'.context.running = l.context.running
  busy : l'.context.busy = l.context.busy
  exitAsked : l'.context.exitAsked = l.context.exitAsked
  serial : l.context.nextSerial ≤ l'.context.nextSerial
  serial_after : ∀ g e, x.after = some (g, e) → l.context.watchers.at? i = none →
    e.serial < l'.context.nextSerial
  arena : l'.context.watchers.WellFormed
  at_self : l'.context.watchers.at? i = x.after
  at_other : ∀ j, j ≠ i → l'.context.watchers.at? j = l.context.watchers.at? j
  roster : l'.context.roster = x.linking.apply l.context.roster i
  wakeups : l'.context.wakeups = x.signal.elim l.context.wakeups l.context.wakeups.raise
  poller : l'.poller = x.poller

/-- What an operation or a poll can do to a loop. -/
inductive Move (l l' : Loop) : Prop
  | slot {i x} : l.Operation i (l.context.watchers.at? i) x → l.Changed l' i x → Move l l'
  | exitRequested : l' = ⟨l.context.requestExit, l.poller⟩ → Move l l'
  | exited : l' = l.exit → Move l l'
  /-- Nothing has changed. -/
  | refused : l' = l → Move l l'

/-- What an action on the watcher in slot `i` does to the loop, besides what it makes of the
watcher. -/
inductive Did (l l' : Loop) (i : Nat) (e : Entry) (now : Option Nat) (action : WatcherAction)
    (ok : Bool) : Prop
  | kept : l' = l → e.Acted now action ok (some e) → Did l l' i e now action ok
  | changed {g x after} : l.context.watchers.at? i = some (g, e) →
      l.Operation i (some (g, e)) x → l.Changed l' i x → x.after = after.map (Prod.mk g) →
      e.Acted now action ok after → Did l l' i e now action ok

/-- What comes of an action through a handle, which may be stale. -/
inductive Handled (l l' : Loop) (h : Handle) (now : Option Nat) (action : WatcherAction)
    (ok : Bool) : Prop
  | stale {err} : l.context.find h = .error err → l' = l → Handled l l' h now action ok
  | found {e} : l.context.find h = .ok e → l.Did l' h.key.index e now action ok →
      Handled l l' h now action ok

/-- What comes of the creation of a watcher: it is there, or it is not and nothing else is new. -/
inductive Made (l : Loop) (now : Option Nat) (spec : WatcherSpec) (o : Outcome Handle) : Prop
  | refused : o.1 = l → o.2.isOk = false → Made l now spec o
  | abandoned {i x} : l.context.watchers.at? i = none → l.Operation i none x →
      l.Changed o.1 i x → x.after = none → o.2.isOk = false → Made l now spec o
  | created {i x g e} : l.context.watchers.at? i = none → l.Operation i none x →
      l.Changed o.1 i x → x.after = some (g, e) → e.Born now spec → o.2.isOk = true →
      Made l now spec o

/-! ### Replacing the watcher in a slot -/

/-- A change that replaces the watcher in an occupied slot. -/
theorem changed_put {l : Loop} (hw : l.context.watchers.WellFormed) {i : Nat} {g : Generation}
    {e : Entry} (h : l.context.watchers.at? i = some (g, e)) (e' : Entry) (k : Linking)
    (s : Option Signal) (p : Option Poller) :
    l.Changed
      ⟨{ l.context with
          watchers := l.context.watchers.put i e'
          roster := k.apply l.context.roster i
          wakeups := s.elim l.context.wakeups l.context.wakeups.raise }, p⟩ i
      ⟨some (g, e'), k, s, p⟩ where
  id := rfl
  number := rfl
  clock := rfl
  running := rfl
  busy := rfl
  exitAsked := rfl
  serial := Nat.le_refl _
  serial_after := by
    intro g' e'' _ hn
    rw [h] at hn
    contradiction
  arena := hw.put i e'
  at_self := Arena.at?_put_self h
  at_other := fun _ hj => Arena.at?_put_other hj
  roster := rfl
  wakeups := rfl
  poller := rfl

/-- A change that stores a watcher and then completes it. -/
theorem changed_insert {l : Loop} (hw : l.context.watchers.WellFormed) (e e' : Entry)
    (hs : e'.serial = l.context.nextSerial) (k : Linking) (s : Option Signal) (p : Option Poller) :
    l.Changed
      ⟨{ l.context with
          watchers := (l.context.watchers.insert e).1.put (l.context.watchers.insert e).2.index e'
          nextSerial := l.context.nextSerial + 1
          roster := k.apply l.context.roster (l.context.watchers.insert e).2.index
          wakeups := s.elim l.context.wakeups l.context.wakeups.raise }, p⟩
      (l.context.watchers.insert e).2.index
      ⟨some ((l.context.watchers.insert e).2.generation, e'), k, s, p⟩ where
  id := rfl
  number := rfl
  clock := rfl
  running := rfl
  busy := rfl
  exitAsked := rfl
  serial := Nat.le_succ _
  serial_after := by
    intro g e'' he _
    obtain ⟨-, rfl⟩ := Prod.mk.inj (Option.some.inj he)
    exact Nat.lt_succ_of_le (Nat.le_of_eq hs)
  arena := (hw.insert e).put _ e'
  at_self := Arena.at?_put_self (Arena.at?_insert_self hw e)
  at_other := fun _ hj => (Arena.at?_put_other hj).trans (Arena.at?_insert_other hw e hj)
  roster := rfl
  wakeups := rfl
  poller := rfl

end Loop
end EventLoop
