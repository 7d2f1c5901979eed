import EventLoop.Proofs.Dormant
import EventLoop.Proofs.Rest
import EventLoop.Proofs.Restarting

/-!
# After an exit

An exit stops all watchers of a loop and lets their handles find them. From then on an event is
inactive for ever, since nothing starts it. Every other watcher can be started again and be called
in a later run: its loop may exit once more, so that no other watcher comes before it, and then time
goes by for a timer, or the descriptor of an I/O watcher is closed and polled once more.
-/
namespace EventLoop

/-! ### What makes a watcher ready -/

/-- An active timer is ready once the time is past its deadline. -/
theorem Entry.isReady_of_lt {e : Entry} {tm : Timer} {d ms : Nat} (ht : e.activeTimer? = some tm)
    (hd : tm.deadline = some d) (h : d < ms) (signals : Signals) : e.IsReady ms signals := by
  obtain ⟨hactive, ht⟩ := activeTimer?_eq_some.mp ht
  unfold isActive at hactive
  unfold IsReady
  cases hp : e.payload with
  | timer _ | remote _ =>
    rw [hp] at hactive ht
    obtain rfl := Option.some.inj ht
    exact ⟨hactive, d, hd, h⟩
  | io _ | event _ =>
    rw [hp] at ht
    contradiction

/-- What is closed cannot be polled. -/
theorem Sockets.report_close (s : Sockets) (fd : Int) (asked : PollFlags) :
    (s.close fd).1.report fd asked = Mask.only .invalid := by
  have hopen : (s.close fd).1.open? fd = none := by
    unfold close
    cases hfd : s.open? fd with
    | none => exact hfd
    | some v =>
      obtain ⟨i, endpoint⟩ := v
      cases fd with
      | negSucc n => contradiction
      | ofNat n =>
        unfold open? at hfd
        dsimp only at hfd
        split at hfd
        · next hat =>
          split at hfd
          · obtain ⟨rfl, -⟩ := Prod.mk.inj (Option.some.inj hfd)
            have hlt := (List.getElem?_eq_some_iff.mp hat).1
            simp only [open?, List.getElem?_set_self hlt, Bool.false_eq_true, if_false]
          · contradiction
        · contradiction
  rw [report, hopen]

/-- The host reports that descriptors which were closed cannot be polled. -/
def Host.TellsClosed (host : Host) : Prop :=
  ∀ (s : Sockets) fd asked, host.report (s.close fd).1 (.watched fd) asked = Mask.only .invalid

theorem Host.standIn_tellsClosed : Host.standIn.TellsClosed := Sockets.report_close

/-- Every watcher is told of a descriptor that cannot be polled. -/
theorem PollFlags.toEvents_invalid (interest : Events) :
    PollFlags.toEvents (Mask.only .invalid) interest = Mask.only .error := by
  have hinput : (Mask.only .invalid : PollFlags).has .input = false := by decide
  have houtput : (Mask.only .invalid : PollFlags).has .output = false := by decide
  have hhangup : (Mask.only .invalid : PollFlags).has .hangup = false := by decide
  simp only [toEvents, hinput, houtput, hhangup, Bool.false_and]
  decide

/-- While a poll would find nothing, an active I/O watcher whose descriptor cannot be polled has been
told so. -/
theorem World.FindsNothing.present {w : World} {r : WatcherRef} {l : Loop} {p : Nat} {q : Poller}
    {e : Entry} {io : IoState} (h : w.FindsNothing p) (hs : w.Sound) (hm : w.Mirrored)
    (hl : w.loop? r.owner = some l) (hp : l.context.poller = some p) (hq : w.living? p = some q)
    (he : w.meant? r = some e) (hio : e.payload = .io io) (hactive : e.active = true)
    (hinvalid : ∀ asked, w.report (.watched io.fd) asked = Mask.only .invalid) :
    io.ready.isPresent = true := by
  by_contra hnot
  rw [Bool.not_eq_true] at hnot
  have hc := (World.loop?_eq_some.mp hl).1
  obtain ⟨g, hat, hserial⟩ :=
    Context.meant?_eq_some.mp ((World.meant?_of_context? hc).symm.trans he)
  -- its entry of the list would be found
  let x : Watched := ⟨io.ticket, r, io.fd, io.interest⟩
  have hwatched : l.context.watched? r.index = some x := by
    rw [Context.watched?, slotWatched, hat, Option.bind_some, Entry.watched?, hio]
    dsimp only
    rw [if_pos hactive, (hs.context _ _ hc).1, hserial]
  have hx : x ∈ q.watched := ((hm p q (living?_eq_some.mp hq).1).mem_iff x).mpr
    ⟨r.owner, l.context, r.index, hc, hp, hwatched⟩
  have hreported : x.reported w.report = Mask.only .invalid := hinvalid _
  have hfound : (r, x.told w.report) ∈ q.found (w.idle q) w.report := by
    refine Poller.mem_found.mpr ⟨x, mem_idle.mpr ⟨hx, isIdle_iff.mpr ⟨e, io, he, hio, hnot⟩⟩, ?_, ?_,
      rfl, ?_⟩
    · exact q.lists_of_mem hx
    · rw [hreported]
      decide
    · dsimp only
      rw [Watched.told, hreported, PollFlags.toEvents_invalid]
      decide
  rw [h q hq] at hfound
  exact List.not_mem_nil hfound

/-! ### A run in which nobody else is active -/

/-- In some continuation a run of the loop is entered, and the watcher is called. -/
def CallableAgain (past : List Transition) (r : WatcherRef) : Prop :=
  ∃ (between : List Transition) (v : Transition) (last : List Transition) (t : Transition)
    (call : Call), History (past ++ between ++ v :: last) t.before ∧ v.Enters r.owner ∧
      t.Calls r call

namespace Machine

/-- The only run is about to wait, without blocking and with nobody asking it to exit, and no other
watcher of its loop is active than this one. -/
structure Resumed (m : Machine) (r : WatcherRef) (a : Activation) (l : Loop) : Prop where
  atWait : m.AtWait a [] l
  owner : a.context = r.owner
  nonblock : a.flags.has .nonblock = true
  unasked : l.context.exitAsked = false
  alone : m.world.Alone r

variable {past : List Transition} {m : Machine} {r : WatcherRef} {l : Loop} {e : Entry}

/-- A run of a loop whose only active watcher is this one comes to its first wait. -/
theorem Cleared.enters (hcl : m.Cleared r) (hpast : History past m)
    (hl : m.world.loop? r.owner = some l) (he : m.world.meant? r = some e)
    (hactive : e.isActive = true) :
    ∃ (t : Transition) (a : Activation) (c : Context), t.before = m ∧ t.Enters r.owner ∧
      History (past ++ [t]) t.after ∧ t.after.Resumed r a ⟨c, l.poller⟩ ∧
      c.meant? r = some (e.arm (toMillis (m.world.now l.context))) ∧
      c.clock = l.context.clock ∧ t.after.world.clock = m.world.clock := by
  have hs := (reachable_pass hpast.reachable).1.world
  have hsl := (hs.loop hl).2
  have hc := (World.loop?_eq_some.mp hl).1
  have hu := hpast.reachable.usable hcl.stack hl
  have hsubmit := submit_run hs hu (Mask.only .nonblock)
  have hperform := World.perform_run (w := { m.world with waits := 0 })
    (hs.act (.quiet rfl rfl rfl (.of_eq rfl))) hu (Mask.only .nonblock)
  obtain ⟨t, rfl, hafter, hdeed, hnext⟩ := hpast.submit (.run (some r.owner) (Mask.only .nonblock))
    (by rw [hcl.stack]; rfl) (by rw [hcl.going]; rfl)
  rw [hperform] at hdeed
  rw [hcl.stack] at hsubmit
  rw [← hafter] at hsubmit hnext
  obtain ⟨watchers, hentering, -⟩ := World.entering_spec (w := t.before.world) hsl
  have hc' : t.after.world.context? r.owner = some (t.before.world.entering l).1 := by
    rw [hsubmit]
    exact World.context?_put_self (w := { t.before.world with waits := 0 }) hc _
  have hpoller : l.poller =
      (t.before.world.entering l).1.poller.bind fun p => t.after.world.pollers[p]? := by
    rw [(World.loop?_eq_some.mp hl).2, congrArg Context.poller hentering, hsubmit]
    rfl
  have hlinked : l.context.roster.isEmpty = false :=
    hsl.context.roster.isEmpty_of_mem (World.linked_of_active hs hc he hactive)
  have halone : t.after.world.Alone r := by
    refine Transition.alone_keeps hcl.alone ?_ ?_
    · rintro s action ⟨_, _, _, hdeed', -, hok⟩
      obtain ⟨-, -, rfl⟩ := Deed.command.inj (hdeed.symm.trans hdeed')
      contradiction
    · rintro s spec ⟨⟨_, _, _, _, _, hdeed', hok⟩, -⟩
      obtain ⟨-, -, rfl⟩ := Deed.command.inj (hdeed.symm.trans hdeed')
      contradiction
  have hblock : (Mask.only .nonblock : RunFlags).has .nonblock = true := by decide
  refine ⟨t, _, _, rfl, ⟨_, _, _, _, hdeed⟩, hnext, ⟨⟨congrArg Machine.stack hsubmit,
    (congrArg Machine.abort hsubmit).trans hcl.going, rfl, World.loop?_eq_some.mpr ⟨hc', hpoller⟩,
    World.entering_running hsl, (congrArg (fun c => c.roster.isEmpty) hentering).trans hlinked⟩,
    rfl, hblock, ?_, halone⟩, ?_, (congrArg Context.clock hentering :), ?_⟩
  · exact (congrArg Context.exitAsked hentering).trans
      ((World.isAsked_of_context? hc).symm.trans hcl.unasked)
  · rw [World.entering_meant hsl, ← World.meant?_of_context? hc, he, Option.map_some]
  · rw [hsubmit]
    rfl

/-- A step that changes neither contexts nor pollers leaves the watcher as it is, but for what polls
tell it. -/
theorem Cleared.stays (hcl : m.Cleared r) (hpast : History past m)
    (hl : m.world.loop? r.owner = some l) {command : Command} {answer : Answer} {w : World}
    (hperform : World.perform { m.world with waits := 0 } none command = (w, .answered answer))
    (hcontexts : w.contexts = m.world.contexts) (hpollers : w.pollers = m.world.pollers)
    (hhandles : w.timerHandles = m.world.timerHandles) (horphans : w.orphans = m.world.orphans)
    (hasks : m.world.asks? command = none) (haim : m.world.aim? none command = none)
    (hmakes : ∀ context name spec script, command ≠ .create context name spec script) :
    ∃ (t : Transition) (c : Context), t.before = m ∧ History (past ++ [t]) t.after ∧
      t.after.Cleared r ∧ t.after.world = w.settle ∧
      t.after.world.loop? r.owner = some ⟨c, l.poller⟩ ∧ c.clock = l.context.clock ∧
      w.Told r (m.world.meant? r) (t.after.world.meant? r) := by
  have hsw : w.Sound := (reachable_pass hpast.reachable).1.world.act
    (.quiet hcontexts hpollers hhandles (.of_eq horphans))
  obtain ⟨t, rfl, -, hworld, hnext, hcl'⟩ := hcl.performs hpast hperform
    (hasks ▸ (Option.some_ne_none _).symm) (fun s action hs => nomatch haim.symm.trans hs) hmakes
  have hl' : w.loop? r.owner = some l := by
    rw [World.loop?, World.context?, hcontexts, hpollers]
    exact hl
  obtain ⟨c, hc, hpolled⟩ := World.settle_loop hsw hl'
  refine ⟨t, c, rfl, hnext, hcl', hworld, hworld ▸ hc, ?_, ?_⟩
  · obtain ⟨slots, wakeups, rfl⟩ := hpolled.frame
    rfl
  · have hsame : w.meant? r = t.before.world.meant? r := by
      rw [World.meant?, World.meant?, World.context?, hcontexts]
      rfl
    rw [hworld, ← hsame]
    exact w.settle_told r

/-- A complete poll leaves the watcher as it is, but for what it tells it. -/
theorem Cleared.polls (hcl : m.Cleared r) (hpast : History past m)
    (hl : m.world.loop? r.owner = some l) (p : Nat) :
    ∃ (t : Transition) (c : Context), t.before = m ∧ History (past ++ [t]) t.after ∧
      t.after.Cleared r ∧ t.after.world = m.world.poll p ∧
      t.after.world.loop? r.owner = some ⟨c, l.poller⟩ ∧ c.poller = l.context.poller ∧
      m.world.Told r (m.world.meant? r) (t.after.world.meant? r) := by
  have hs := (reachable_pass hpast.reachable).1.world
  obtain ⟨entries, hpoll, hlisted⟩ := m.world.poll_eq p
  obtain ⟨t, rfl, hafter, hdeed, hnext⟩ := hpast.pollEnds p entries hlisted
  rw [← hpoll] at hafter hnext
  have hworld : t.after.world = t.before.world.poll p := congrArg Machine.world hafter
  obtain ⟨c, hc, hpolled⟩ := World.poll_loop hs hl p
  have halone : t.after.world.Alone r := by
    refine Transition.alone_keeps hcl.alone ?_ ?_
    · rintro s action ⟨_, _, _, hdeed', -⟩
      exact nomatch hdeed.symm.trans hdeed'
    · rintro s spec ⟨⟨_, _, _, _, _, hdeed', -⟩, -⟩
      exact nomatch hdeed.symm.trans hdeed'
  refine ⟨t, c, rfl, hafter ▸ hnext, ⟨(congrArg Machine.stack hafter).trans hcl.stack,
    (congrArg Machine.abort hafter).trans hcl.going, ?_, ?_, halone⟩, hworld, hworld ▸ hc, ?_, ?_⟩
  · rw [hworld, hpoll, World.pollAmong_isRunning]
    exact hcl.running
  · rw [hworld, hpoll]
    exact (World.pollAmong_any (fun _ _ _ => rfl) _ p entries _).trans hcl.unasked
  · obtain ⟨slots, wakeups, rfl⟩ := hpolled.frame
    rfl
  · rw [hworld]
    exact t.before.world.poll_told p r

/-- Whatever the clock says, the run comes to a wait. -/
theorem Resumed.at {a : Activation} (h : m.Resumed r a l) (clock : Clock) :
    Resumed { m with world := { m.world with clock } } r a l where
  atWait := ⟨h.atWait.stack, h.atWait.going, h.atWait.waiting, h.atWait.loop, h.atWait.running,
    h.atWait.linked⟩
  owner := h.owner
  nonblock := h.nonblock
  unasked := h.unasked
  alone := h.alone

/-- The run calls the watcher if it is ready from now on. -/
theorem Resumed.calls {a : Activation} (h : m.Resumed r a l) (hpast : History past m)
    (he : m.world.meant? r = some e) (hactive : e.isActive = true)
    (hready : ∀ ms signals,
      (m.world.clock.time ≤ counterMax → toMillis (m.world.now l.context) ≤ ms) →
      (∀ s, l.context.wakeups.raised.has s = true → signals.has s = true) →
      e.IsReady ms signals) :
    ∃ (more : List Transition) (t : Transition) (call : Call),
      History (past ++ more) t.before ∧ t.Calls r call :=
  hpast.callsNext h.atWait h.owner h.nonblock h.unasked h.alone he hactive hready

/-- The run calls a timer if the clock is moved past its deadline. -/
theorem Resumed.fires {a : Activation} (h : m.Resumed r a l) {clock : Clock}
    (hpast : History past { m with world := { m.world with clock } })
    (he : m.world.meant? r = some e) {tm : Timer} {d : Nat} (ht : e.activeTimer? = some tm)
    (hd : tm.deadline = some d) (htime : clock.time ≤ counterMax)
    (hlate : d < toMillis (clock.readOn m.world.host.time l.context.clock)) :
    ∃ (more : List Transition) (t : Transition) (call : Call),
      History (past ++ more) t.before ∧ t.Calls r call :=
  (h.at clock).calls hpast he (Entry.activeTimer?_eq_some.mp ht).1 fun _ms signals hms _ =>
    Entry.isReady_of_lt ht hd (Nat.lt_of_lt_of_le hlate (hms htime)) signals

/-- An active timer of a millisecond is called in a run during which enough time goes by. -/
theorem Cleared.firesLater (hcl : m.Cleared r) (hpast : History past m)
    (hl : m.world.loop? r.owner = some l) (hclock : l.context.clock = .scenario)
    (he : m.world.meant? r = some e) {tm : Timer} (ht : e.activeTimer? = some tm)
    (htimeout : tm.timeout = 1) : CallableAgain past r := by
  obtain ⟨hactive, htimer⟩ := Entry.activeTimer?_eq_some.mp ht
  -- the clock is set to a time at which all that follows can be reckoned
  let w : World :=
    { m.world with clock := { m.world.clock with time := 1000 }, waits := 0 }
  have hperform : World.perform { m.world with waits := 0 } none (.setClock 1000) =
      (w, .answered (.ok .nothing)) := rfl
  obtain ⟨s, c, rfl, hnext, hcl', hworld, hl', hc, htold⟩ := hcl.stays hpast hl hperform
    rfl rfl rfl rfl rfl rfl fun _ _ _ _ h => nomatch h
  rw [he] at htold
  obtain ⟨e', he'⟩ := Option.ne_none_iff_exists'.mp htold.after
  rw [he'] at htold
  obtain rfl := htold.eq_of_kind (Entry.kind_ne_io htimer)
  have htime : s.after.world.clock.time = 1000 := by
    rw [hworld, World.settle_clock]
  have hreads : ∀ {clock : Clock} {host : Nat} {c : Context}, c.clock = .scenario →
      clock.readOn host c.clock = clock.time := by
    intro clock host c hc
    rw [hc]
    rfl
  obtain ⟨v, a, c', hv, henters, hentered, hresumed, -, hc', htime'⟩ :=
    hcl'.enters hnext hl' he' hactive
  have hstop := hcl'.running
  rw [← hv] at hstop he' hl' htime htime'
  obtain ⟨now, e', hreading, he', ht'⟩ := henters.arms hstop he' ht
  obtain rfl : 1 = now := by
    rw [World.reading?, (World.loop?_eq_some.mp hl').1, Option.map_some, World.now,
      hreads (hc.trans hclock), htime] at hreading
    exact Option.some.inj hreading
  have hadvanced : (v.after.world.clock.advance 2000).time = 3000 := by
    rw [Clock.advance, htime', htime]
    exact (by decide : satAdd 1000 2000 = 3000)
  obtain ⟨u, -, -, -, hlater⟩ := hentered.interfere (.advance 2000) rfl
  obtain ⟨more, t, call, hhistory, hcalls⟩ := hresumed.fires hlater he' ht' rfl
    (by rw [hadvanced]; decide)
    (by rw [hreads (hc'.trans (hc.trans hclock)), hadvanced, htimeout]; decide)
  refine ⟨[s], v, u :: more, t, call, ?_, henters, hcalls⟩
  simpa only [List.append_assoc, List.cons_append, List.nil_append] using hhistory

/-- An active I/O watcher is called in a run before which its descriptor is closed and polled. -/
theorem Cleared.toldLater (hcl : m.Cleared r) (hpast : History past m)
    (hl : m.world.loop? r.owner = some l) {q : Poller} (hq : l.poller = some q)
    (halive : q.alive = true) (hcloses : m.world.host.TellsClosed) (he : m.world.meant? r = some e)
    {io : IoState} (hp : e.payload = .io io) (hactive : e.isActive = true) :
    CallableAgain past r := by
  let w : World :=
    { m.world with sockets := (m.world.sockets.close io.fd).1, waits := 0 }
  have hperform : World.perform { m.world with waits := 0 } none (.socket (.close io.fd)) =
      (w, .answered (Answer.ofSocket (fun _ => .nothing) (m.world.sockets.close io.fd).2)) := rfl
  obtain ⟨s, c, rfl, hclosed, hcl', hworld, hl', hc, htold⟩ := hcl.stays hpast hl hperform
    rfl rfl rfl rfl rfl rfl fun _ _ _ _ h => nomatch h
  obtain ⟨p, hnumber, hpq⟩ : ∃ p, c.poller = some p ∧ s.after.world.pollers[p]? = some q :=
    Option.bind_eq_some_iff.mp ((World.loop?_eq_some.mp hl').2.symm.trans hq)
  obtain ⟨u, c₂, hu, hnext, hcl₂, hworld₂, hl₂, hnumber₂, htold₂⟩ := hcl'.polls hclosed hl' p
  rw [he] at htold
  obtain ⟨e₁, he₁⟩ := Option.ne_none_iff_exists'.mp htold.after
  rw [he₁] at htold htold₂
  obtain ⟨e', he'⟩ := Option.ne_none_iff_exists'.mp htold₂.after
  rw [he'] at htold₂
  have hactive' := htold₂.isActive.trans (htold.isActive.trans hactive)
  obtain ⟨io', hp', hfd⟩ : ∃ io', e'.payload = .io io' ∧ io'.fd = io.fd := by
    obtain ⟨io₁, hp₁, hfd₁⟩ := htold.io hp
    obtain ⟨io₂, hp₂, hfd₂⟩ := htold₂.io hp₁
    exact ⟨io₂, hp₂, hfd₂.trans hfd₁⟩
  have hactiveFlag : e'.active = true := by
    rwa [Entry.isActive, hp'] at hactive'
  obtain ⟨hs, hm, -⟩ := reachable_pass hnext.reachable
  have hready : io'.ready.isPresent = true := by
    have hrest : u.after.world.FindsNothing p := hworld₂ ▸ (s.after.world.poll_finds_nothing p).2
    obtain ⟨hpollers, hreport⟩ := s.after.world.poll_same p
    have hliving : u.after.world.living? p = some q := by
      rw [World.living?_eq_some, hworld₂, hpollers]
      exact ⟨hpq, halive⟩
    refine hrest.present hs.world hm hl₂ (hnumber₂.trans hnumber) hliving he' hp' hactiveFlag
      fun asked => ?_
    obtain ⟨contexts, hsettled⟩ := w.settle_frame
    rw [hworld₂, hreport, hworld, hsettled, hfd]
    exact hcloses _ _ asked
  obtain ⟨v, a, c', hv, henters, hentered, hresumed, hmeant, -⟩ :=
    hcl₂.enters hnext hl₂ he' hactive'
  have harm : e'.arm (toMillis (u.after.world.now c₂)) = e' := by
    rw [Entry.arm, hp']
  rw [harm] at hmeant
  have hc' : v.after.world.context? r.owner = some c' :=
    hresumed.owner ▸ (World.loop?_eq_some.mp hresumed.atWait.loop).1
  have hpresent : io'.ready.events.isEmpty = false := by
    rwa [Readiness.isPresent, Bool.not_eq_true'] at hready
  -- whatever is there to be taken has been signalled
  have hsignalled : c'.wakeups.raised.has .readiness = true := by
    obtain ⟨g, hat, -⟩ := Context.meant?_eq_some.mp hmeant
    exact (hentered.reachable.signalled (hresumed.owner ▸ hc') hresumed.atWait.standsAt).readiness
      r.index g e' io' hat hp' hactiveFlag hpresent
  obtain ⟨more, t, call, hhistory, hcalls⟩ := hresumed.calls hentered
    ((World.meant?_of_context? hc').trans hmeant) hactive' fun ms signals _ hsignals => by
      rw [Entry.IsReady, hp']
      exact ⟨hactiveFlag, hsignals .readiness hsignalled, hpresent⟩
  refine ⟨[s, u], v, more, t, call, ?_, henters, hcalls⟩
  simpa only [List.append_assoc, List.cons_append, List.nil_append] using hhistory

/-- A watcher that is started again may be called again. -/
theorem Cleared.resumes {h : Handle} (hcl : m.Cleared r) (hpast : History past m)
    (hf : m.world.Finds h r l e) {action : WatcherAction}
    (haction : e.payload.kind.restart? = some action)
    (hio : e.payload.kind = .io → l.isPolled = true)
    (hcloses : e.payload.kind = .io → m.world.host.TellsClosed)
    (hclock : e.payload.kind = .io ∨ l.context.clock = .scenario) {name : String}
    (hname : m.world.watchers.find? name = some h) :
    ∃ u : Transition, u.before = m ∧
      u.deed = .command none (.watcher (some r.owner) name action) (.answered (.ok .nothing)) ∧
      u.Restarts r ∧ CallableAgain (past ++ [u]) r := by
  obtain ⟨u, l', rfl, hnext, hdeed, hacts, hrestarts, hcl', hl', hpolled, hhost⟩ :=
    hcl.restarts hpast hf haction hio hname
  refine ⟨u, rfl, hdeed, hrestarts, ?_⟩
  obtain ⟨-, e', he', hactive⟩ := hrestarts
  have hkind : e'.payload.kind = e.payload.kind := (u.has_kind hf.meant?).2 e' he'
  have htimer : action = .timerSet 1 0 → l.context.clock = .scenario →
      CallableAgain (past ++ [u]) r := by
    rintro rfl hsource
    obtain ⟨a, b, htimes, -, hwaiting⟩ := Transition.Sets.awaiting (Or.inl hacts) hcl.running
    obtain ⟨rfl, rfl⟩ : 1 = a ∧ 0 = b := Prod.mk.inj (Except.ok.inj htimes)
    obtain ⟨tm, ht, rfl⟩ := hwaiting.2 e' he'
    have hsource' := u.clock_eq (World.loop?_eq_some.mp hf.loop).1 (World.loop?_eq_some.mp hl').1
    exact hcl'.firesLater hnext hl' (hsource'.trans hsource) he'
      (Entry.activeTimer?_eq_some.mpr ⟨hactive, ht⟩) rfl
  cases hk : e.payload.kind with
  | io =>
    obtain ⟨q, hq, halive⟩ := Loop.isPolled_iff.mp (hpolled.trans (hio hk))
    cases hp : e'.payload with
    | io io => exact hcl'.toldLater hnext hl' hq halive (hhost.symm ▸ hcloses hk) he' hp hactive
    | _ =>
      rw [hp, hk] at hkind
      contradiction
  | timer | remoteTimer =>
    rw [hk] at haction hclock
    exact htimer (Option.some.inj haction).symm (hclock.resolve_left WatcherKind.noConfusion)
  | event =>
    rw [hk] at haction
    contradiction

end Machine

/-! ### After an exit -/

/-- In some continuation a step starts the watcher again through its handle, by this action, and
afterwards the watcher may be called again. -/
def Resumable (past : List Transition) (h : Handle) (r : WatcherRef) (action : WatcherAction) :
    Prop :=
  ∃ (first : List Transition) (u : Transition) (name : String),
    History (past ++ first) u.before ∧ u.before.world.watchers.find? name = some h ∧
      u.deed = .command none (.watcher (some r.owner) name action) (.answered (.ok .nothing)) ∧
      u.Restarts r ∧ CallableAgain (past ++ first ++ [u]) r

section AfterExit

variable {past : List Transition} {m : Machine} {s : Transition} {r : WatcherRef} {e₀ : Entry}

/-- A scenario that is between two steps can make the loop of a watcher exit, start the watcher
again and let it be called. -/
theorem History.resumable (hpast : History past m) (hm : m.stack = []) (hgo : m.abort = none)
    {h : Handle} {l : Loop} {e : Entry}
    (hf : m.world.Finds h r l e) {action : WatcherAction}
    (haction : e.payload.kind.restart? = some action)
    (hio : e.payload.kind = .io → l.isPolled = true)
    (hcloses : e.payload.kind = .io → m.world.host.TellsClosed)
    (hclock : e.payload.kind = .io ∨ l.context.clock = .scenario) {name : String}
    (hname : m.world.watchers.find? name = some h) : Resumable past h r action := by
  -- the exit sees to it that no other watcher is in the way
  obtain ⟨t, l', e', rfl, hnext, hcl, hf', hkind, hpolled, hnames, hhost⟩ :=
    Machine.cleared_of_exit hpast hm hgo hf
  have hsource := t.clock_eq (World.loop?_eq_some.mp hf.loop).1
    (World.loop?_eq_some.mp hf'.loop).1
  rw [← hkind] at haction hio hcloses hclock
  obtain ⟨u, hu, hdeed, hrestarts, hagain⟩ := hcl.resumes hnext hf' haction
    (fun hk => hpolled.trans (hio hk)) (fun hk => hhost.symm ▸ hcloses hk)
    (hclock.imp_right hsource.trans) (hnames.symm ▸ hname)
  exact ⟨[t], u, name, hu.symm ▸ hnext, by rw [hu, hnames]; exact hname, hdeed, hrestarts, hagain⟩

/-- An event that an exit has stopped is stopped for good. -/
theorem History.dead_of_exit (h : History past m) (hs : s ∈ past) (hexits : s.Exits r.owner)
    (he₀ : s.before.world.meant? r = some e₀) (hk : e₀.payload.kind = .event) :
    m.world.Has r Entry.IsDead := by
  have hkind := s.has_kind he₀
  exact h.ever (I := fun m => m.world.Has r Entry.IsDead) hs
    ⟨hkind.1, fun e he => ⟨(hkind.2 e he).trans hk, hexits.isActive he⟩⟩
    fun _ => Transition.dead_keeps

/-- After an exit of its loop an event is inactive for ever, and is never called again. Every other
watcher that its handle still finds can be started again through the handle, an I/O watcher if its
poller is alive; it is active then, and may be called in a later run. Of a timer the latter is said
under the clock of the scenario, since that of the host need not move, and of an I/O watcher on a
host that tells of closed descriptors. -/
theorem resumption_after_exit (h : History past m) (hs : s ∈ past) (hexits : s.Exits r.owner)
    (he₀ : s.before.world.meant? r = some e₀) :
    (e₀.payload.kind = .event → (∀ e, m.world.meant? r = some e → e.isActive = false) ∧
      ∀ t : Transition, t.before = m → ∀ call, ¬ t.Calls r call) ∧
    (e₀.payload.kind ≠ .event → ∃ action, e₀.payload.kind.restart? = some action ∧
      ∀ (hd : Handle) (l : Loop) (e : Entry), m.world.Finds hd r l e →
        (e₀.payload.kind = .io → l.isPolled = true) →
        (∃ l', m.world.Restarted l l' hd action) ∧
        (m.stack = [] → m.abort = none → (e₀.payload.kind = .io → m.world.host.TellsClosed) →
          e₀.payload.kind = .io ∨ l.context.clock = .scenario →
          ∀ name, m.world.watchers.find? name = some hd → Resumable past hd r action)) := by
  constructor
  · intro hk
    have hdead := (h.dead_of_exit hs hexits he₀ hk).2
    refine ⟨fun e he => (hdead e he).2, ?_⟩
    rintro t rfl call hcalls
    obtain ⟨-, e, he, hactive⟩ := hcalls.isActive
    exact nomatch hactive.symm.trans (hdead e he).2
  · intro hk
    obtain ⟨action, haction⟩ : ∃ action, e₀.payload.kind.restart? = some action := by
      cases hkind : e₀.payload.kind with
      | event => exact absurd hkind hk
      | _ => exact ⟨_, rfl⟩
    refine ⟨action, haction, fun hd l e hf hio => ?_⟩
    have hkind : m.world.Has r fun e => e.payload.kind = e₀.payload.kind :=
      h.ever (I := fun m => m.world.Has r fun e => e.payload.kind = e₀.payload.kind) hs
        (s.has_kind he₀) fun _ => Transition.kind_keeps
    rw [← hkind.2 e hf.meant?] at haction hio ⊢
    have hsound := (reachable_pass h.reachable).1.world
    exact ⟨World.restarted hsound ((hsound.loop hf.loop).1.symm ▸ hf.loop) hf.found haction hio,
      fun hm hgo hcloses hclock name => h.resumable hm hgo hf haction hio hcloses hclock⟩

end AfterExit

/-- A loop with an event and a timer. -/
def Machine.beforeExit : Machine :=
  (((Machine.create (World.create ⟨1000000, 0, false⟩ .standIn)).submit
    (.newContext .none .scenario)).submit (.create none "event" .event ⟨[], false⟩)).submit
    (.create none "timer" (.timer 1 0) ⟨[], false⟩)

/-- The loop has exited. -/
def Machine.afterExit : Machine := Machine.beforeExit.submit (.context none .exit)

theorem Machine.exit_history : ∃ (past : List Transition) (s : Transition), s ∈ past ∧
    History past Machine.afterExit ∧ s.before = Machine.beforeExit ∧ s.Exits 0 := by
  have hreach : Machine.beforeExit.Reachable :=
    (((Machine.Reachable.start _ _).submit _ (by decide +kernel) (by decide +kernel)).submit _
      (by decide +kernel) (by decide +kernel)).submit _ (by decide +kernel) (by decide +kernel)
  obtain ⟨past, hpast⟩ := hreach.history
  obtain ⟨s, hs, -, hdeed, hnext⟩ := hpast.submit (.context none .exit) (by decide +kernel)
    (by decide +kernel)
  have hexits : s.before.world.exits? none (.context none .exit) = some 0 := by
    rw [hs]
    decide +kernel
  exact ⟨past ++ [s], s, List.mem_concat_self, hnext, hs, Or.inl ⟨none, _, _, hdeed, hexits⟩⟩

/-- The event is not started again, and the timer can be. -/
theorem resumption_after_exit_withBoth : ∃ (past : List Transition) (s : Transition),
    History past Machine.afterExit ∧ s ∈ past ∧ s.before = Machine.beforeExit ∧ s.Exits 0 ∧
    (∃ e, s.before.world.meant? ⟨0, 0, 0⟩ = some e ∧ e.payload.kind = .event ∧
      e.isActive = true) ∧
    (∀ e, Machine.afterExit.world.meant? ⟨0, 0, 0⟩ = some e → e.isActive = false) ∧
    (∃ e, s.before.world.meant? ⟨0, 1, 1⟩ = some e ∧ e.payload.kind = .timer ∧
      e.isActive = true) ∧
    Resumable past ⟨0, 1, 0⟩ ⟨0, 1, 1⟩ (.timerSet 1 0) := by
  obtain ⟨past, s, hs, h, hbefore, hexits⟩ := Machine.exit_history
  obtain ⟨e, he, hkind, hactive⟩ : ∃ e, s.before.world.meant? ⟨0, 0, 0⟩ = some e ∧
      e.payload.kind = .event ∧ e.isActive = true := by
    rw [hbefore]
    exact ⟨_, rfl, rfl, rfl⟩
  obtain ⟨e', he', hkind', hactive'⟩ : ∃ e, s.before.world.meant? ⟨0, 1, 1⟩ = some e ∧
      e.payload.kind = .timer ∧ e.isActive = true := by
    rw [hbefore]
    exact ⟨_, rfl, rfl, rfl⟩
  obtain ⟨action, haction, hothers⟩ := (resumption_after_exit h hs hexits he').2
    (by rw [hkind']; decide)
  rw [hkind'] at haction
  obtain rfl := Option.some.inj haction
  obtain ⟨l, e₁, hfinds, hclock⟩ : ∃ l e, Machine.afterExit.world.Finds ⟨0, 1, 0⟩ ⟨0, 1, 1⟩ l e ∧
      l.context.clock = .scenario := ⟨_, _, ⟨rfl, rfl, rfl⟩, rfl⟩
  have hresumable := (hothers _ l e₁ hfinds (fun hk => nomatch hkind'.symm.trans hk)).2
    rfl rfl (fun hk => nomatch hkind'.symm.trans hk) (Or.inr hclock) "timer" (by decide +kernel)
  exact ⟨past, s, h, hs, hbefore, hexits, ⟨e, he, hkind, hactive⟩,
    ((resumption_after_exit h hs hexits he).1 hkind).1, ⟨e', he', hkind', hactive'⟩, hresumable⟩

/-- Not every watcher that an exit has stopped can be active again. -/
theorem stopped_for_good : ¬ ∀ (past : List Transition) (m : Machine), History past m →
    ∀ s ∈ past, ∀ (r : WatcherRef) (e₀ : Entry), s.Exits r.owner →
      s.before.world.meant? r = some e₀ → e₀.isActive = true →
      ∀ (h : Handle) (l : Loop) (e : Entry), m.world.Finds h r l e →
        (e.payload.kind = .io → l.isPolled = true) →
        ∃ (more : List Transition) (n : Machine), History (past ++ more) n ∧
          ∃ e', n.world.meant? r = some e' ∧ e'.isActive = true := by
  intro hall
  obtain ⟨past, s, hs, h, hbefore, hexits⟩ := Machine.exit_history
  obtain ⟨e, he, hkind, hactive⟩ : ∃ e, s.before.world.meant? ⟨0, 0, 0⟩ = some e ∧
      e.payload.kind = .event ∧ e.isActive = true := by
    rw [hbefore]
    exact ⟨_, rfl, rfl, rfl⟩
  obtain ⟨l, e₁, hfinds, hkind₁⟩ : ∃ l e, Machine.afterExit.world.Finds ⟨0, 0, 0⟩ ⟨0, 0, 0⟩ l e ∧
      e.payload.kind = .event := ⟨_, _, ⟨rfl, rfl, rfl⟩, rfl⟩
  obtain ⟨more, n, hmore, e', he', hactive'⟩ := hall past _ h s hs ⟨0, 0, 0⟩ e hexits he hactive
    ⟨0, 0, 0⟩ l e₁ hfinds fun hk => nomatch hkind₁.symm.trans hk
  have hdead := hmore.dead_of_exit (List.mem_append_left more hs) hexits he hkind
  exact nomatch hactive'.symm.trans (hdead.2 e' he').2

end EventLoop
