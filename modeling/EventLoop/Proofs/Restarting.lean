import EventLoop.Proofs.Alone
import EventLoop.Proofs.Isolation
import EventLoop.Proofs.Repeated

/-!
# Watchers that are started again

Every watcher but an event has an action that starts it again: an I/O watcher is started, as long as
somebody polls for its loop, and a timer is set. The action is carried out whatever was done to the
watcher before, and leaves it active. A scenario that makes the loop exit first has no other watcher
in the way then.
-/
namespace EventLoop

/-- The action that starts a stopped watcher of this kind again; a timer has to be set to something.
An event cannot be started again. -/
def WatcherKind.restart? : WatcherKind → Option WatcherAction
  | .io => some .ioStart
  | .timer => some (.timerSet 1 0)
  | .remoteTimer => some (.timerSet 1 0)
  | .event => none

theorem WatcherKind.starts_of_restart {kind : WatcherKind} {action : WatcherAction}
    (h : kind.restart? = some action) : action.starts kind = true := by
  cases kind <;> cases h <;> rfl

/-- An action that starts its watcher again leaves it active. -/
theorem Entry.Acted.active_of_restart {e : Entry} {v : Option Entry} {now : Option Nat}
    {action : WatcherAction} (h : e.Acted now action true v)
    (haction : e.payload.kind.restart? = some action) : ∃ e', v = some e' ∧ e'.isActive = true := by
  have hstarts : action = .ioStart ∨ action = .timerSet 1 0 := by
    cases hk : e.payload.kind <;> rw [hk] at haction <;> cases haction <;> simp
  rcases hstarts with rfl | rfl
  · cases h with
    | asked hasks => contradiction
    | stopped hstops => contradiction
    | going hp ha => exact ⟨e, rfl, by rw [Entry.isActive, hp]; exact ha⟩
    | started hp => exact ⟨_, rfl, rfl⟩
  · cases h with
    | asked hasks => contradiction
    | stopped hstops => contradiction
    | set ht htimes =>
      obtain ⟨rfl, rfl⟩ : 1 = _ ∧ 0 = _ := Prod.mk.inj (Except.ok.inj htimes)
      exact ⟨_, rfl, withTimer_isActive _ (by rw [ht]; rfl)⟩

/-- Somebody polls for the loop: it has a poller, and that is alive. -/
def Loop.isPolled (l : Loop) : Bool := l.poller.any Poller.alive

theorem Loop.isPolled_iff {l : Loop} :
    l.isPolled = true ↔ ∃ q, l.poller = some q ∧ q.alive = true := Option.any_eq_true ..

theorem Loop.isActive_of_find {l : Loop} {h : Handle} {e : Entry} (hf : l.context.find h = .ok e) :
    l.isActive h = e.isActive := by
  rw [isActive, hf]

namespace World

variable {w : World} {l : Loop} {h : Handle} {e : Entry} {action : WatcherAction}

/-- The action is carried out and makes `l'` of the loop, in which the handle finds its watcher
active. -/
structure Restarted (w : World) (l l' : Loop) (h : Handle) (action : WatcherAction) : Prop where
  done : w.actOnWatcher l h action = (w.putLoop l.context.id l', .ok .nothing)
  move : l.Move l'
  active : l'.isActive h = true
  polled : l'.isPolled = l.isPolled

/-- Every watcher but an event can be started again, an I/O watcher if its poller is alive. -/
theorem restarted (hs : w.Sound) (hl : w.loop? l.context.id = some l)
    (hf : l.context.find h = .ok e) (haction : e.payload.kind.restart? = some action)
    (hio : e.payload.kind = .io → l.isPolled = true) :
    ∃ l', w.Restarted l l' h action := by
  obtain ⟨ho, hat⟩ := Context.find_ok hf
  have hsl := (hs.loop hl).2
  have hfits := hsl.context.fits _ _ _ hat
  have hfind : ∀ (e' : Entry) (roster : Roster) (wakeups : Wakeups),
      Context.find { l.context with
        watchers := l.context.watchers.put h.key.index e', roster, wakeups } h = .ok e' :=
    fun e' _ _ => Context.find_of_at? ho (Arena.at?_put_self hat)
  have hset : w.actOnWatcher l h (.timerSet 1 0) =
      (w.putLoop l.context.id (l.timerSet (w.now l.context) h 1 0).1,
        Answer.ofUnit (l.timerSet (w.now l.context) h 1 0).2) := rfl
  have hstart : w.actOnWatcher l h .ioStart =
      (w.putLoop l.context.id (l.ioStart h).1, Answer.ofUnit (l.ioStart h).2) := rfl
  have hsetMove := (Loop.timerSet_handled hsl (w.now l.context) h 1 0).touched.move
  have hstartMove := (Loop.ioStart_handled hsl h none).touched.move
  cases hp : e.payload with
  | timer t =>
    rw [hp] at haction
    obtain rfl := Option.some.inj haction
    rw [Loop.timerSet_of_timer (w.now l.context) rfl hf hp] at hset hsetMove
    refine ⟨_, hset, hsetMove, ?_, rfl⟩
    rw [Loop.isActive_of_find (hfind _ _ _)]
    rfl
  | remote t =>
    simp only [Entry.Fits, hp] at hfits
    rw [hp] at haction
    obtain rfl := Option.some.inj haction
    rw [Loop.timerSet_of_remote (w.now l.context) rfl hf hp hfits.1] at hset hsetMove
    refine ⟨_, hset, hsetMove, ?_, rfl⟩
    rw [Loop.isActive_of_find (hfind _ _ _)]
    rfl
  | io io =>
    simp only [Entry.Fits, hp] at hfits
    rw [hp] at haction
    obtain rfl := Option.some.inj haction
    obtain ⟨q, hq, halive⟩ := Loop.isPolled_iff.mp (hio (by rw [hp]; rfl))
    have hfd := (Loop.checkIo_ok.mp hfits.2.1).2
    cases hactive : e.active with
    | true =>
      rw [Loop.ioStart_of_active hq hf hp hfd hactive] at hstart hstartMove
      refine ⟨_, hstart, hstartMove, ?_, rfl⟩
      rw [Loop.isActive_of_find hf, Entry.isActive, hp]
      exact hactive
    | false =>
      rw [Loop.ioStart_of_alive hq hf hp hfd hactive halive] at hstart hstartMove
      refine ⟨_, hstart, hstartMove, ?_, by rw [Loop.isPolled, Loop.isPolled, hq]; rfl⟩
      rw [Loop.isActive_of_find (hfind _ _ _)]
      rfl
  | event flag =>
    rw [hp] at haction
    contradiction

end World

/-! ### What a handle finds -/

/-- A handle finds the watcher in its loop. -/
structure World.Finds (w : World) (h : Handle) (r : WatcherRef) (l : Loop) (e : Entry) : Prop where
  loop : w.loop? r.owner = some l
  found : l.context.find h = .ok e
  means : l.context.refTo h.key.index e = r

namespace World

variable {w : World} {l : Loop} {h : Handle} {r : WatcherRef} {e : Entry}

theorem Finds.at? (hf : w.Finds h r l e) :
    l.context.watchers.at? r.index = some (h.key.generation, e) ∧ e.serial = r.serial := by
  obtain ⟨-, hat⟩ := Context.find_ok hf.found
  rw [← hf.means]
  exact ⟨hat, rfl⟩

theorem Finds.meant? (hf : w.Finds h r l e) : w.meant? r = some e := by
  obtain ⟨hat, hserial⟩ := hf.at?
  rw [meant?_of_context? (loop?_eq_some.mp hf.loop).1]
  exact Context.meant?_eq_some.mpr ⟨_, hat, hserial⟩

theorem finds_of_at? {l' : Loop} {e' : Entry} (hf : w.Finds h r l e) {w' : World}
    (hl : w'.loop? r.owner = some l') (hid : l'.context.id = l.context.id)
    (hat : l'.context.watchers.at? r.index = some (h.key.generation, e'))
    (hserial : e'.serial = e.serial) : w'.Finds h r l' e' := by
  have hindex : h.key.index = r.index := congrArg WatcherRef.index hf.means
  refine ⟨hl, Context.find_of_at? ?_ (hindex.symm ▸ hat), ?_⟩
  · exact (Context.find_ok hf.found).1.trans hid.symm
  · rw [← hf.means, Context.refTo, Context.refTo, hid, hserial]

/-- An exit leaves a handle with the watcher that it finds, and pollers as alive as they were. -/
theorem Finds.exited (hs : w.Sound) (hf : w.Finds h r l e) : ∃ e',
    (w.putLoop r.owner l.exit).Finds h r l.exit e' ∧ e'.payload.kind = e.payload.kind ∧
      l.exit.isPolled = l.isPolled := by
  obtain ⟨hat, -⟩ := hf.at?
  have hsl := (hs.loop hf.loop).2
  obtain ⟨e', hat', hserial, hkind⟩ : ∃ e', l.exit.context.watchers.at? r.index =
      some (h.key.generation, e') ∧ e'.serial = e.serial ∧
        e'.payload.kind = e.payload.kind := by
    rcases Loop.exit_slot hsl r.index with he | he
    · exact ⟨e, he.trans hat, rfl, rfl⟩
    · exact ⟨e.stopped, by rw [he, hat]; rfl, rfl, Entry.stopped_kind e⟩
  have hpolled : l.exit.isPolled = l.isPolled := by
    refine Loop.exit_induction (P := fun l' => l'.isPolled = l.isPolled) hsl rfl ?_ fun _ h => h
    rintro l₁ l₂ i g e₁ - hsame - hc
    rw [← hsame, Loop.isPolled, Loop.isPolled, hc.poller]
    cases l₁.poller with
    | none => rfl
    | some q => exact Loop.withdraw_alive e₁ q
  have hl := (replaced_move hs hf.loop (.exited rfl)).loop_after (Loop.exit_frame hsl).2.1 hsl.exit
  exact ⟨e', finds_of_at? hf hl (Loop.exit_frame hsl).1 hat' hserial, hkind, hpolled⟩

/-- Polls leave the poller of a loop as it is. -/
theorem Polled.loop? {w' : World} {id : Nat} (hl : w.loop? id = some l)
    (hpolled : w'.Polled id l.context) (hframe : ∃ contexts, w' = { w with contexts }) :
    ∃ c', w'.loop? id = some ⟨c', l.poller⟩ ∧ l.context.Polled c' := by
  obtain ⟨contexts, rfl⟩ := hframe
  obtain ⟨c', hc', hpolled⟩ := hpolled
  have hnumber : c'.poller = l.context.poller := by
    obtain ⟨slots, wakeups, rfl⟩ := hpolled.frame
    rfl
  refine ⟨c', loop?_eq_some.mpr ⟨hc', ?_⟩, hpolled⟩
  rw [hnumber]
  exact (loop?_eq_some.mp hl).2

theorem settle_loop (hs : w.Sound) {id : Nat} (hl : w.loop? id = some l) :
    ∃ c', w.settle.loop? id = some ⟨c', l.poller⟩ ∧ l.context.Polled c' := by
  have hc := (loop?_eq_some.mp hl).1
  exact (Polled.settled (hs.context _ _ hc).2 (Polled.of_same hc) (Or.inr rfl)).loop? hl
    w.settle_frame

theorem poll_loop (hs : w.Sound) {id : Nat} (hl : w.loop? id = some l) (p : Nat) :
    ∃ c', (w.poll p).loop? id = some ⟨c', l.poller⟩ ∧ l.context.Polled c' := by
  have hc := (loop?_eq_some.mp hl).1
  exact ((Polled.of_same hc).poll (hs.context _ _ hc).2 p).loop? hl (w.poll_frame p)

theorem Finds.settle (hs : w.Sound) (hf : w.Finds h r l e) : ∃ c' e',
    w.settle.Finds h r ⟨c', l.poller⟩ e' ∧ e'.payload.kind = e.payload.kind := by
  obtain ⟨c', hl, hpolled⟩ := settle_loop hs hf.loop
  have hid : c'.id = l.context.id := by
    obtain ⟨slots, wakeups, rfl⟩ := hpolled.frame
    rfl
  have hslot := hpolled.slots r.index
  rw [hf.at?.1] at hslot
  generalize hat' : c'.watchers.at? r.index = v at hslot
  cases hslot with
  | @some _ v hrel =>
    obtain ⟨g', e'⟩ := v
    obtain ⟨rfl, hraised⟩ := hrel
    have hsame : e'.serial = e.serial ∧ e'.payload.kind = e.payload.kind := by
      cases hraised with
      | same => exact ⟨rfl, rfl⟩
      | added hp => exact ⟨rfl, by rw [hp]; rfl⟩
    exact ⟨c', e', finds_of_at? hf hl hid hat' hsame.1, hsame.2⟩

end World

/-- A step at the top level that is not a run is answered when it is over, and the pollers have
polled. -/
theorem History.performs {past : List Transition} {m : Machine} (h : History past m)
    (hm : m.stack = []) (hgo : m.abort = none) {command : Command} {answer : Answer} {w : World}
    (hperform : World.perform { m.world with waits := 0 } none command = (w, .answered answer)) :
    ∃ t : Transition, t.before = m ∧ t.deed = .command none command (.answered answer) ∧
      t.after = { m with world := w.settle, answer := some answer } ∧
      History (past ++ [t]) t.after := by
  have hsubmit : m.submit command = { m with world := w.settle, answer := some answer } := by
    unfold Machine.submit Machine.perform
    dsimp only
    rw [hperform]
    simp only [Machine.conclude, hm]
  obtain ⟨t, hbefore, hafter, hdeed, hnext⟩ := h.submit command (by rw [hm]; rfl) (by rw [hgo]; rfl)
  rw [hperform] at hdeed
  exact ⟨t, hbefore, hdeed, hafter.trans hsubmit, hafter ▸ hnext⟩

namespace Machine

/-- The scenario is between two steps. The loop of the watcher is neither running nor asked to exit,
and none of its watchers is active but this one. -/
structure Cleared (m : Machine) (r : WatcherRef) : Prop where
  stack : m.stack = []
  going : m.abort = none
  running : m.world.isRunning r.owner = false
  unasked : m.world.isAsked r.owner = false
  alone : m.world.Alone r

variable {past : List Transition} {m : Machine} {r : WatcherRef} {l : Loop} {h : Handle} {e : Entry}

/-- Between two steps of a scenario every loop can be operated on. -/
theorem Reachable.usable (hreach : m.Reachable) (hm : m.stack = []) {id : Nat}
    (hl : m.world.loop? id = some l) : m.world.usable? none id = some l := by
  have hidle : l.context.busy = false := by
    rw [← Bool.not_eq_true, (reachable_pass hreach).1.busy id _ (World.loop?_eq_some.mp hl).1]
    rintro ⟨x, hx, -⟩
    rw [config, hm] at hx
    exact List.not_mem_nil hx
  rw [World.usable?, hl]
  simp only [hidle, Bool.false_and, Bool.false_eq_true, if_false]

/-- Other steps than runs, requests and creations do not disturb it, unless they act on another
watcher of the loop. -/
theorem Cleared.performs (hcl : m.Cleared r) (hpast : History past m) {command : Command}
    {answer : Answer} {w : World}
    (hperform : World.perform { m.world with waits := 0 } none command = (w, .answered answer))
    (hasks : m.world.asks? command ≠ some r.owner)
    (haim : ∀ s action, m.world.aim? none command = some (s, action) → s = r)
    (hmakes : ∀ context name spec script, command ≠ .create context name spec script) :
    ∃ t : Transition, t.before = m ∧ t.deed = .command none command (.answered answer) ∧
      t.after.world = w.settle ∧ History (past ++ [t]) t.after ∧ t.after.Cleared r := by
  obtain ⟨t, rfl, hdeed, hafter, hnext⟩ := hpast.performs hcl.stack hcl.going hperform
  refine ⟨t, rfl, hdeed, congrArg Machine.world hafter, hnext,
    (congrArg Machine.stack hafter).trans hcl.stack,
    (congrArg Machine.abort hafter).trans hcl.going, ?_, ?_, ?_⟩
  · rw [← Bool.not_eq_true]
    intro hrun
    rcases t.isRunning hrun with hbefore | ⟨_, _, _, _, henters⟩
    · exact nomatch hbefore.symm.trans hcl.running
    · exact nomatch hdeed.symm.trans henters
  · rw [← Bool.not_eq_true]
    intro hasked
    rcases t.asked_before hasked with ⟨_, _, _, hdeed', hrequests⟩ | hbefore
    · obtain ⟨-, rfl, -⟩ := Deed.command.inj (hdeed.symm.trans hdeed')
      exact hasks hrequests
    · exact nomatch hbefore.symm.trans hcl.unasked
  · refine Transition.alone_keeps hcl.alone ?_ ?_
    · rintro s action ⟨_, _, _, hdeed', hacts, -⟩
      obtain ⟨rfl, rfl, -⟩ := Deed.command.inj (hdeed.symm.trans hdeed')
      exact haim s action hacts
    · rintro s spec ⟨⟨_, _, _, _, _, hdeed', -⟩, -⟩
      obtain ⟨-, rfl, -⟩ := Deed.command.inj (hdeed.symm.trans hdeed')
      exact hmakes _ _ _ _ rfl

/-- An exit clears a loop, and leaves a handle with the watcher that it finds. -/
theorem cleared_of_exit (hpast : History past m) (hm : m.stack = []) (hgo : m.abort = none)
    (hf : m.world.Finds h r l e) :
    ∃ (t : Transition) (l' : Loop) (e' : Entry), t.before = m ∧ History (past ++ [t]) t.after ∧
      t.after.Cleared r ∧ t.after.world.Finds h r l' e' ∧ e'.payload.kind = e.payload.kind ∧
      l'.isPolled = l.isPolled ∧ t.after.world.watchers = m.world.watchers ∧
      t.after.world.host = m.world.host := by
  have hs := (reachable_pass hpast.reachable).1.world
  let w : World := { m.world with waits := 0 }
  have hsw : w.Sound := hs.act (.quiet rfl rfl rfl (.of_eq rfl))
  have hfw : w.Finds h r l e := ⟨hf.loop, hf.found, hf.means⟩
  have hu : w.usable? none r.owner = some l := hpast.reachable.usable hm hf.loop
  have hid : l.context.id = r.owner := (hs.loop hf.loop).1
  have hperform : w.perform none (.context (some r.owner) .exit) =
      (w.putLoop r.owner l.exit, .answered (.ok .nothing)) := by
    rw [← hid] at hu ⊢
    exact World.withLoop_of_usable _ hu
  obtain ⟨t, rfl, hdeed, hafter, hnext⟩ := hpast.performs hm hgo hperform
  have hworld : t.after.world = (w.putLoop r.owner l.exit).settle := congrArg Machine.world hafter
  have hexits : t.Exits r.owner := by
    refine Or.inl ⟨none, _, _, hdeed, ?_⟩
    rw [← hid]
    exact congrArg (Option.map fun l : Loop => l.context.id) (hid ▸ hu)
  obtain ⟨e₁, hf₁, hkind₁, hpolled⟩ := hfw.exited hsw
  obtain ⟨c', e', hf', hkind'⟩ := hf₁.settle (hsw.act (.moved
    (World.replaced_move hsw hfw.loop (.exited rfl)) (.exited rfl)))
  refine ⟨t, ⟨c', l.exit.poller⟩, e', rfl, hnext,
    ⟨(congrArg Machine.stack hafter).trans hm, (congrArg Machine.abort hafter).trans hgo,
      hexits.isRunning, hexits.not_isAsked,
      fun s hs _ e he => Transition.Exits.isActive (hs ▸ hexits) he⟩,
    hworld ▸ hf', hkind'.trans hkind₁, hpolled, ?_⟩
  obtain ⟨contexts, hsettled⟩ := (w.putLoop r.owner l.exit).settle_frame
  obtain ⟨contexts', pollers, hput⟩ := w.putLoop_rest r.owner l.exit
  rw [hworld, hsettled, hput]
  exact ⟨rfl, rfl⟩

/-- The watcher of a handle can be started again by such a step. -/
theorem Cleared.restarts (hcl : m.Cleared r) (hpast : History past m) (hf : m.world.Finds h r l e)
    {action : WatcherAction} (haction : e.payload.kind.restart? = some action)
    (hio : e.payload.kind = .io → l.isPolled = true) {name : String}
    (hname : m.world.watchers.find? name = some h) :
    ∃ (t : Transition) (l' : Loop), t.before = m ∧ History (past ++ [t]) t.after ∧
      t.deed = .command none (.watcher (some r.owner) name action) (.answered (.ok .nothing)) ∧
      t.Acts r action ∧ t.Restarts r ∧ t.after.Cleared r ∧
      t.after.world.loop? r.owner = some l' ∧ l'.isPolled = l.isPolled ∧
      t.after.world.host = m.world.host := by
  have hs := (reachable_pass hpast.reachable).1.world
  let w : World := { m.world with waits := 0 }
  have hsw : w.Sound := hs.act (.quiet rfl rfl rfl (.of_eq rfl))
  have hlw : w.loop? r.owner = some l := hf.loop
  have hid : l.context.id = r.owner := (hs.loop hf.loop).1
  have hu : m.world.usable? none r.owner = some l := hpast.reachable.usable hcl.stack hf.loop
  have huw : w.usable? none r.owner = some l := hu
  obtain ⟨l', hdone, hmove, -, hpolled⟩ := World.restarted hsw (hid ▸ hlw) hf.found haction hio
  rw [hid] at hdone
  have hperform : w.perform none (.watcher (some r.owner) name action) =
      (w.putLoop r.owner l', .answered (.ok .nothing)) := by
    rw [World.perform, World.withLoop_of_usable _ huw, World.withName_of_find _ hname, hdone]
  have haim : m.world.aim? none (.watcher (some r.owner) name action) = some (r, action) := by
    have htarget : (some r.owner <|> none).getD 0 = r.owner := rfl
    simp only [World.aim?, htarget, hu, Option.bind_some, hname, hf.found, Except.toOption,
      Option.map_some, hf.means]
  obtain ⟨t, rfl, hdeed, hworld, hnext, hcl'⟩ := hcl.performs hpast hperform
    (Option.some_ne_none _).symm
    (fun s action' hs => (Prod.mk.inj (Option.some.inj (haim.symm.trans hs))).1.symm)
    (by rintro _ _ _ _ ⟨⟩)
  have hacts : t.Acts r action := ⟨none, _, _, hdeed, haim, rfl⟩
  -- the watcher is active afterwards, whatever the polls tell it
  obtain ⟨e₁, v, he₁, hacted, htold⟩ := hacts.effect
  obtain rfl := Option.some.inj (hf.meant?.symm.trans he₁)
  obtain ⟨e₂, rfl, hactive⟩ := hacted.active_of_restart haction
  obtain ⟨e', he'⟩ := Option.ne_none_iff_exists'.mp htold.after
  rw [he'] at htold
  have hl := (World.replaced_move hsw hlw hmove).loop_after
    (hmove.frame (hs.loop hf.loop).2).2.1 ((hs.loop hf.loop).2.move hmove)
  obtain ⟨c', hl', -⟩ := World.settle_loop (hsw.act (World.putLoop_act hsw hlw hmove)) hl
  refine ⟨t, ⟨c', l'.poller⟩, rfl, hnext, hdeed, hacts,
    ⟨⟨action, _, hacts, WatcherKind.starts_of_restart haction⟩, e', he',
      htold.isActive.trans hactive⟩, hcl', hworld ▸ hl', hpolled, ?_⟩
  obtain ⟨contexts, hsettled⟩ := (w.putLoop r.owner l').settle_frame
  obtain ⟨contexts', pollers, hput⟩ := w.putLoop_rest r.owner l'
  rw [hworld, hsettled, hput]

end Machine
end EventLoop
