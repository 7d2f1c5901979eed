import EventLoop.Proofs.Sound

/-!
# What every operation does

An operation on a watcher makes of it what `Entry.Acted` says, and creates one as `Entry.Born` says,
by one change of its slot. So whatever its arguments and whatever it answers, an operation on a
sound loop makes one of the moves of `Loop.Move`. Later proofs about operations use these only.
-/
namespace EventLoop

/-- The remote timer does not run, and those who share it cannot set it. -/
structure RemoteTimer.IsCutOff (t : RemoteTimer) : Prop where
  inactive : t.active = false
  unreachable : t.reachable = false

theorem RemoteTimer.cutOff_isCutOff (t : RemoteTimer) : t.cutOff.IsCutOff := ⟨rfl, rfl⟩

namespace Context

variable {c : Context} {h : Handle} {e : Entry}

/-- What setting a remote timer that is there makes of its context. -/
def assigned (c : Context) (r : WatcherRef) (e : Entry) : Except LoopError RemoteTimer → Context
  | .error _ => c
  | .ok t => (c.putRemote r e t).raise .timer

theorem find_ok (hf : c.find h = .ok e) :
    h.owner = c.id ∧ c.watchers.at? h.key.index = some (h.key.generation, e) := by
  unfold find at hf
  split at hf
  · next ho =>
    refine ⟨ho, ?_⟩
    split at hf
    · next e' he =>
      rw [Except.ok.inj hf] at he
      exact Arena.get?_eq_some.mp he
    · contradiction
  · contradiction

theorem find_error {err : LoopError} (hf : c.find h = .error err) : err = .invalidWatcher := by
  unfold find at hf
  split at hf
  · split at hf
    · contradiction
    · exact (Except.error.inj hf).symm
  · exact (Except.error.inj hf).symm

theorem find_of_at? (ho : h.owner = c.id)
    (ha : c.watchers.at? h.key.index = some (h.key.generation, e)) : c.find h = .ok e := by
  rw [find, if_pos ho, Arena.get?_eq_some.mpr ha]

theorem update_eq (hf : c.find h = .ok e) (e' : Entry) :
    c.update h e' = { c with watchers := c.watchers.put h.key.index e' } := by
  rw [update, Arena.set_eq_put (Arena.get?_eq_some.mpr (find_ok hf).2)]

/-- The remote timers that are shared are those of the watchers in the slots. -/
theorem mem_allShared {x : WatcherRef × RemoteTimer} : x ∈ c.allShared ↔
    ∃ i g e t, c.watchers.at? i = some (g, e) ∧ e.payload = .remote t ∧ x = (c.refTo i e, t) := by
  rw [allShared, List.mem_filterMap]
  constructor
  · rintro ⟨i, -, hx⟩
    unfold shared? at hx
    split at hx
    · next g e hat =>
      split at hx
      · next t hp => exact ⟨i, g, e, t, hat, hp, (Option.some.inj hx).symm⟩
      · contradiction
    · contradiction
  · rintro ⟨i, g, e, t, hat, hp, rfl⟩
    refine ⟨i, List.mem_range.mpr (Arena.at?_lt hat), ?_⟩
    simp only [shared?, hat, hp]

end Context

/-- To stop a remote timer is to clear its own flag. -/
theorem Entry.stopped_remote {e : Entry} {t : RemoteTimer} (hp : e.payload = .remote t)
    (ha : e.active = false) : e.stopped = { e with payload := .remote t.stop } := by
  obtain ⟨serial, active, callback, payload⟩ := e
  obtain rfl : payload = .remote t := hp
  obtain rfl : active = false := ha
  rfl

namespace Loop

variable {l l' : Loop} {h : Handle} {e : Entry}

/-! ### What was done changes at most one slot -/

/-- At most one slot of the loop has changed, as an operation on a watcher changes it. -/
def Touched (l l' : Loop) : Prop :=
  l' = l ∨ ∃ i x, l.Operation i (l.context.watchers.at? i) x ∧ l.Changed l' i x

theorem Touched.move (h : l.Touched l') : l.Move l' := by
  rcases h with he | ⟨i, x, ho, hc⟩
  · exact .refused he
  · exact .slot ho hc

/-- Operations on watchers neither start nor exit the loop, nor ask it to exit. -/
theorem Touched.frame (h : l.Touched l') : l'.context.running = l.context.running ∧
    l'.context.exitAsked = l.context.exitAsked ∧ l'.context.busy = l.context.busy := by
  rcases h with rfl | ⟨i, x, -, hc⟩
  · exact ⟨rfl, rfl, rfl⟩
  · exact ⟨hc.running, hc.exitAsked, hc.busy⟩

theorem Did.touched {i : Nat} {now : Option Nat} {action : WatcherAction} {ok : Bool}
    (h : l.Did l' i e now action ok) : l.Touched l' := by
  cases h with
  | kept he => exact Or.inl he
  | changed hat ho hc => exact Or.inr ⟨i, _, hat ▸ ho, hc⟩

theorem Handled.touched {now : Option Nat} {action : WatcherAction} {ok : Bool}
    (hh : l.Handled l' h now action ok) : l.Touched l' := by
  cases hh with
  | stale _ he => exact Or.inl he
  | found _ hdid => exact hdid.touched

theorem Made.touched {now : Option Nat} {spec : WatcherSpec} {o : Outcome Handle}
    (h : l.Made now spec o) : l.Touched o.1 := by
  cases h with
  | refused he => exact Or.inl he
  | abandoned hnone ho hc => exact Or.inr ⟨_, _, hnone ▸ ho, hc⟩
  | created hnone ho hc => exact Or.inr ⟨_, _, hnone ▸ ho, hc⟩

/-! ### Stopping -/

/-- Stopping a watcher is one change of its slot. -/
theorem stopSlot_eq {i : Nat} {g : Generation} (ha : l.context.watchers.at? i = some (g, e))
    (release : Bool) :
    l.stopSlot i release =
      ⟨{ l.context with
          watchers := l.context.watchers.put i
            { e with payload := stoppedPayload release e.payload, active := false }
          roster := Linking.apply (if !release && e.payload.isRemote then .keep else .unlink)
            l.context.roster i },
        l.poller.map e.withdraw⟩ := by
  obtain ⟨serial, active, callback, payload⟩ := e
  rw [stopSlot, ha]
  cases payload <;> cases active <;> cases release <;> cases hq : l.poller <;>
    simp [Entry.withdraw, Payload.isRemote, Context.unlinkSlot, Linking.apply]

theorem stopKind_handled (hs : l.Sound) (h : Handle) {applies : Payload → Bool}
    {action : WatcherAction} (happlies : ∀ p, applies p = action.stops p.kind)
    (expected : WatcherKind) (now : Option Nat) :
    l.Handled (l.stopKind h applies expected).1 h now action
      (l.stopKind h applies expected).2.isOk := by
  unfold stopKind
  cases hf : l.context.find h with
  | error err => exact .stale hf rfl
  | ok e =>
    have hat := (Context.find_ok hf).2
    refine .found hf ?_
    dsimp only
    split
    · next ha =>
      rw [stopSlot_eq hat]
      exact .changed hat .stopped (changed_put hs.context.arena hat e.stopped _ none _) rfl
        (.stopped (happlies e.payload ▸ ha))
    · exact .kept rfl .refused

theorem ioStop_handled (hs : l.Sound) (h : Handle) (now : Option Nat) :
    l.Handled (l.ioStop h).1 h now .ioStop (l.ioStop h).2.isOk :=
  stopKind_handled hs h (fun p => by cases p <;> rfl) .io now

theorem timerStop_handled (hs : l.Sound) (h : Handle) (now : Option Nat) :
    l.Handled (l.timerStop h).1 h now .timerStop (l.timerStop h).2.isOk :=
  stopKind_handled hs h (fun p => by cases p <;> rfl) .timer now

theorem eventStop_handled (hs : l.Sound) (h : Handle) (now : Option Nat) :
    l.Handled (l.eventStop h).1 h now .eventStop (l.eventStop h).2.isOk :=
  stopKind_handled hs h (fun p => by cases p <;> rfl) .event now

theorem release_handled (hs : l.Sound) (h : Handle) (now : Option Nat) :
    l.Handled (l.release h).1 h now .release (l.release h).2.isOk := by
  unfold release
  cases hf : l.context.find h with
  | error err => exact .stale hf rfl
  | ok e =>
    have ha := (Context.find_ok hf).2
    have hput := Arena.at?_put_self (b :=
      { e with payload := stoppedPayload true e.payload, active := false }) ha
    have hget := Arena.get?_eq_some.mpr hput
    dsimp only
    rw [stopSlot_eq ha]
    refine .found hf (.changed ha .released ?_ rfl .released)
    exact {
      id := rfl, number := rfl, clock := rfl, running := rfl, busy := rfl, exitAsked := rfl
      serial := Nat.le_refl _
      serial_after := fun _ _ he => nomatch he
      arena := (hs.context.arena.put _ _).erase hget
      at_self := Arena.at?_erase_self hget
      at_other := fun j hj => (Arena.at?_erase_other hget hj).trans (Arena.at?_put_other hj)
      roster := rfl
      wakeups := rfl
      poller := rfl }

/-- The remote timer that is left behind when a watcher is released. -/
def leftBehind (l : Loop) (i : Nat) (e : Entry) : Option (WatcherRef × RemoteTimer) :=
  match e.payload with
  | .remote t => some (l.context.refTo i e, t.cutOff)
  | _ => none

/-- A release vacates the slot, and leaves the remote timer of the watcher behind. -/
theorem release_leaves (hf : l.context.find h = .ok e) :
    (l.release h).2 = .ok (l.leftBehind h.key.index e) ∧
      (l.release h).1.context.watchers.at? h.key.index = none ∧
      (l.release h).1.context.nextSerial = l.context.nextSerial := by
  have ha := (Context.find_ok hf).2
  have hput := Arena.at?_put_self (b :=
    { e with payload := stoppedPayload true e.payload, active := false }) ha
  rw [release, hf]
  dsimp only
  rw [stopSlot_eq ha]
  refine ⟨?_, Arena.at?_erase_self (Arena.get?_eq_some.mpr hput), rfl⟩
  simp only [Context.shared?, hput, leftBehind]
  cases e.payload <;> rfl

/-- What is left behind has been cut off, and refers to the watcher. -/
theorem leftBehind_cutOff {i : Nat} {x : WatcherRef × RemoteTimer} (h : x ∈ l.leftBehind i e) :
    x.2.IsCutOff ∧ x.1 = l.context.refTo i e := by
  unfold leftBehind at h
  split at h
  · next t _ =>
    obtain rfl := Option.mem_some_iff.mp h
    exact ⟨t.cutOff_isCutOff, rfl⟩
  · contradiction

/-! ### Timers -/

theorem timerSet_of_timer (now : Nat) {a b : Nat} {timeout period : Int64} {t : Timer}
    (hc : checkTimes timeout period = .ok (a, b)) (hf : l.context.find h = .ok e)
    (hp : e.payload = .timer t) :
    l.timerSet now h timeout period =
      (⟨{ l.context with
          watchers := l.context.watchers.put h.key.index
            { e with
              payload := .timer (t.set a b (l.context.armingTime now))
              active := (t.set a b (l.context.armingTime now)).isSet }
          roster := (t.set a b (l.context.armingTime now)).linking.apply l.context.roster h.key.index
          wakeups := l.context.wakeups.raise .timer }, l.poller⟩, .ok ()) := by
  rw [timerSet, hc]
  simp only [hf, hp, Context.update_eq hf, Timer.linking]
  split <;> rfl

theorem timerSet_of_remote (now : Nat) {a b : Nat} {timeout period : Int64} {r : RemoteTimer}
    (hc : checkTimes timeout period = .ok (a, b)) (hf : l.context.find h = .ok e)
    (hp : e.payload = .remote r) (hr : r.reachable = true) :
    l.timerSet now h timeout period =
      (⟨{ l.context with
          watchers := l.context.watchers.put h.key.index
            { e with
              payload := .remote
                { r with
                  timer := r.timer.set a b (l.context.armingTime now)
                  active := (r.timer.set a b (l.context.armingTime now)).isSet } }
          roster := (l.context.roster.insert h.key.index).1
          wakeups := l.context.wakeups.raise .timer }, l.poller⟩, .ok ()) := by
  rw [timerSet, hc]
  simp only [hf, hp, RemoteTimer.set?, hr, if_true, Context.update_eq hf]
  rfl

/-- Setting a timer, as some action that sets it to those times. -/
theorem timerSet_did (hs : l.Sound) (now : Nat) {timeout period : Int64}
    (hf : l.context.find h = .ok e) {action : WatcherAction}
    (hact : ∀ t a b, e.payload.timer? = some t → checkTimes timeout period = .ok (a, b) →
      e.Acted (l.context.armingTime now) action true
        (some (e.withTimer (t.set a b (l.context.armingTime now))))) :
    l.Did (l.timerSet now h timeout period).1 h.key.index e (l.context.armingTime now) action
      (l.timerSet now h timeout period).2.isOk := by
  have ha := (Context.find_ok hf).2
  cases hc : checkTimes timeout period with
  | error err =>
    rw [timerSet, hc]
    exact .kept rfl .refused
  | ok times =>
    obtain ⟨a, b⟩ := times
    cases hp : e.payload with
    | timer t =>
      have hact' := hact t a b (by rw [hp]; rfl) hc
      rw [Entry.withTimer, hp] at hact'
      rw [timerSet_of_timer now hc hf hp]
      exact .changed ha (.timerSet a b now hp rfl)
        (changed_put hs.context.arena ha _ _ (some .timer) l.poller) rfl hact'
    | remote r =>
      have hact' := hact r.timer a b (by rw [hp]; rfl) hc
      rw [Entry.withTimer, hp] at hact'
      have hfit := hs.context.fits _ _ _ ha
      simp only [Entry.Fits, hp] at hfit
      rw [timerSet_of_remote now hc hf hp hfit.1]
      exact .changed ha (.remoteSet a b now hp hfit.1 rfl (Or.inr rfl))
        (changed_put hs.context.arena ha _ .link (some .timer) l.poller) rfl hact'
    | _ =>
      rw [timerSet, hc]
      simp only [hf, hp]
      exact .kept rfl .refused

theorem timerSet_handled (hs : l.Sound) (now : Nat) (h : Handle) (timeout period : Int64) :
    l.Handled (l.timerSet now h timeout period).1 h (l.context.armingTime now)
      (.timerSet timeout period) (l.timerSet now h timeout period).2.isOk := by
  cases hf : l.context.find h with
  | error err =>
    refine .stale hf ?_
    rw [timerSet]
    cases checkTimes timeout period <;> simp only [hf]
  | ok e => exact .found hf (timerSet_did hs now hf fun t a b ht hc => .set ht hc)

theorem timerStart_handled (hs : l.Sound) (now : Nat) (h : Handle) :
    l.Handled (l.timerStart now h).1 h (l.context.armingTime now) .timerStart
      (l.timerStart now h).2.isOk := by
  unfold timerStart
  cases hf : l.context.find h with
  | error err => exact .stale hf rfl
  | ok e =>
    refine .found hf ?_
    cases ht : e.payload.timer? with
    | none =>
      simp only [ht]
      exact .kept rfl .refused
    | some t =>
      simp only [ht]
      refine timerSet_did hs now hf fun t' a b ht' hc => ?_
      obtain rfl := Option.some.inj (ht.symm.trans ht')
      exact .restarted ht (Or.inr hc)

theorem find_insert (hs : l.Sound) (payload : Payload) (callback : Callback) :
    (l.context.insert payload callback).1.find (l.context.insert payload callback).2 =
      .ok ⟨l.context.nextSerial, false, some callback, payload⟩ :=
  Context.find_of_at? rfl (Arena.at?_insert_self hs.context.arena _)

theorem timerInit_made (hs : l.Sound) (now : Nat) (callback : Callback) (timeout period : Int64) :
    l.Made (l.context.armingTime now) (.timer timeout period)
      (l.timerInit now callback timeout period) := by
  cases hc : checkTimes timeout period with
  | error err =>
    rw [timerInit, hc]
    exact .refused rfl rfl
  | ok times =>
    obtain ⟨a, b⟩ := times
    have hset := timerSet_of_timer
      (l := ⟨(l.context.insert (.timer Timer.unset) callback).1, l.poller⟩) now hc
      (find_insert hs (.timer Timer.unset) callback) rfl
    let t := Timer.unset.set a b (l.context.armingTime now)
    have hch := changed_insert hs.context.arena
      ⟨l.context.nextSerial, false, some callback, .timer Timer.unset⟩
      ⟨l.context.nextSerial, t.isSet, some callback, .timer t⟩ rfl t.linking (some .timer) l.poller
    rw [timerInit, hc]
    dsimp only
    rw [hset]
    exact .created (Arena.at?_insert_vacant hs.context.arena _) (.timerCreated a b now rfl) hch rfl
      (.timer hc rfl) rfl

theorem remoteInit_made (hs : l.Sound) (now : Nat) (callback : Callback) (timeout period : Int64) :
    l.Made (l.context.armingTime now) (.remoteTimer timeout period)
      (l.remoteInit now callback timeout period) := by
  cases hc : checkTimes timeout period with
  | error err =>
    rw [remoteInit, hc]
    exact .refused rfl rfl
  | ok times =>
    obtain ⟨a, b⟩ := times
    let l₁ : Loop := ⟨(l.context.insert (.remote RemoteTimer.create) callback).1.linkSlot
      (l.context.insert (.remote RemoteTimer.create) callback).2.key.index, l.poller⟩
    have hset := timerSet_of_remote (l := l₁) now hc
      (find_insert hs (.remote RemoteTimer.create) callback) rfl rfl
    have hlink : (l₁.context.roster.insert
        (l.context.insert (.remote RemoteTimer.create) callback).2.key.index).1 =
        l₁.context.roster :=
      hs.context.roster.insert_insert _
    let t := Timer.unset.set a b (l.context.armingTime now)
    have hch := changed_insert hs.context.arena
      ⟨l.context.nextSerial, false, some callback, .remote RemoteTimer.create⟩
      ⟨l.context.nextSerial, false, some callback, .remote ⟨t, t.isSet, true⟩⟩ rfl .link
      (some .timer) l.poller
    rw [remoteInit, hc]
    dsimp only
    rw [hset, hlink]
    exact .created (Arena.at?_insert_vacant hs.context.arena _) (.remoteCreated a b now rfl) hch rfl
      (.remoteTimer hc rfl) rfl

/-! ### Events -/

theorem eventInit_made (hs : l.Sound) (callback : Callback) (now : Option Nat) :
    l.Made now .event (l.eventInit callback) := by
  have hget := Arena.get?_insert_self hs.context.arena
    ⟨l.context.nextSerial, false, some callback, .event PostFlag.clear⟩
  have hch := changed_insert hs.context.arena
    ⟨l.context.nextSerial, false, some callback, .event PostFlag.clear⟩
    ⟨l.context.nextSerial, true, some callback, .event PostFlag.clear⟩ rfl .link none l.poller
  have hinit : (l.eventInit callback).1 =
      ⟨((l.context.insert (.event PostFlag.clear) callback).1.update
          (l.context.insert (.event PostFlag.clear) callback).2
          ⟨l.context.nextSerial, true, some callback, .event PostFlag.clear⟩).linkSlot
        (l.context.insert (.event PostFlag.clear) callback).2.key.index, l.poller⟩ := by
    rw [eventInit]
    simp only [Context.insert, hget]
  rw [Context.update_eq (find_insert hs (.event PostFlag.clear) callback)] at hinit
  exact .created (Arena.at?_insert_vacant hs.context.arena _) .eventCreated (hinit ▸ hch) rfl .event
    rfl

theorem eventPost_handled (hs : l.Sound) (h : Handle) (now : Option Nat) :
    l.Handled (l.eventPost h).1 h now .eventPost (l.eventPost h).2.isOk := by
  unfold eventPost
  cases hf : l.context.find h with
  | error err => exact .stale hf rfl
  | ok e =>
    have ha := (Context.find_ok hf).2
    refine .found hf ?_
    cases hp : e.payload with
    | event flag =>
      simp only [hp, Context.update_eq hf]
      exact .changed ha (.posted hp)
        (changed_put hs.context.arena ha _ .keep (some .event) l.poller) rfl (.posted hp)
    | _ =>
      simp only [hp]
      exact .kept rfl .refused

/-! ### Remote timers and events through references -/

theorem meant_some {c : Context} {r : WatcherRef} (h : c.meant? r = some e) :
    ∃ g, c.watchers.at? r.index = some (g, e) ∧ e.serial = r.serial := by
  unfold Context.meant? at h
  split at h
  · next g e' ha =>
    split at h
    · next hser =>
      obtain rfl := Option.some.inj h
      exact ⟨g, ha, hser⟩
    · contradiction
  · contradiction

theorem remote_some {c : Context} {r : WatcherRef} {t : RemoteTimer}
    (h : c.remote? r = some (e, t)) :
    ∃ g, c.watchers.at? r.index = some (g, e) ∧ e.serial = r.serial ∧ e.payload = .remote t := by
  unfold Context.remote? at h
  split at h
  · next e' hm =>
    split at h
    · next t' hp =>
      obtain ⟨rfl, rfl⟩ := Prod.mk.inj (Option.some.inj h)
      obtain ⟨g, ha, hser⟩ := meant_some hm
      exact ⟨g, ha, hser, hp⟩
    · contradiction
  · contradiction

/-- A post through a reference reaches an event, or only wakes the dispatcher. -/
theorem post_cases (hs : l.Sound) (r : WatcherRef) (now : Option Nat) :
    (∃ e, l.context.meant? r = some e ∧ e.payload.kind = .event ∧
      l.Did ⟨l.context.post r, l.poller⟩ r.index e now .eventPost true) ∨
    ((∀ e, l.context.meant? r = some e → e.payload.kind ≠ .event) ∧
      l.context.post r = l.context.raise .event) := by
  cases hm : l.context.meant? r with
  | none => exact Or.inr ⟨(fun _ he => nomatch he), by rw [Context.post, hm]⟩
  | some e =>
    obtain ⟨g, ha, -⟩ := meant_some hm
    cases hp : e.payload with
    | event flag =>
      refine Or.inl ⟨e, rfl, by rw [hp]; rfl, ?_⟩
      rw [Context.post, hm]
      simp only [hp]
      exact .changed ha (.posted hp)
        (changed_put hs.context.arena ha _ .keep (some .event) l.poller) rfl (.posted hp)
    | _ =>
      refine Or.inr ⟨fun e' he => ?_, by rw [Context.post, hm]; simp only [hp]⟩
      obtain rfl := Option.some.inj he
      simp [hp, Payload.kind]

theorem touched_post (hs : l.Sound) (r : WatcherRef) :
    l.Touched ⟨l.context.post r, l.poller⟩ := by
  rcases post_cases hs r none with ⟨e, -, -, hdid⟩ | ⟨-, hpost⟩
  · exact hdid.touched
  · rw [hpost]
    exact Or.inr ⟨r.index, _, .woken, {
      id := rfl, number := rfl, clock := rfl, running := rfl, busy := rfl, exitAsked := rfl
      serial := Nat.le_refl _
      serial_after := fun g e he hn => by rw [hn] at he; contradiction
      arena := hs.context.arena
      at_self := rfl
      at_other := fun _ _ => rfl
      roster := rfl
      wakeups := rfl
      poller := rfl }⟩

theorem timer?_of_remote {r : WatcherRef} {t : RemoteTimer}
    (h : l.context.remote? r = some (e, t)) : e.payload.timer? = some t.timer := by
  obtain ⟨g, -, -, hp⟩ := remote_some h
  rw [hp]
  rfl

/-- A remote timer that is there is in reach, and is not marked active by its context. -/
theorem Sound.remote {r : WatcherRef} {t : RemoteTimer} (hs : l.Sound)
    (h : l.context.remote? r = some (e, t)) : t.reachable = true ∧ e.active = false := by
  obtain ⟨g, ha, -, hp⟩ := remote_some h
  have hfit := hs.context.fits _ _ _ ha
  simp only [Entry.Fits, hp] at hfit
  exact ⟨hfit.1, hfit.2.1⟩

/-- Setting a remote timer that is there, as some action that sets it to those times. -/
theorem remoteAssign_did {r : WatcherRef} {t : RemoteTimer} (hs : l.Sound)
    (hr : l.context.remote? r = some (e, t)) (now timeout period : Nat) {action : WatcherAction}
    (hact : e.Acted (l.context.armingTime now) action true
      (some (e.withTimer (t.timer.set timeout period (l.context.armingTime now))))) :
    (t.assign (l.context.armingTime now) timeout period).isOk = true ∧
      l.Did ⟨l.context.assigned r e (t.assign (l.context.armingTime now) timeout period), l.poller⟩
        r.index e (l.context.armingTime now) action true := by
  obtain ⟨g, ha, -, hp⟩ := remote_some hr
  obtain ⟨hreach, -⟩ := hs.remote hr
  have hset : t.assign (l.context.armingTime now) timeout period =
      .ok { t with
        timer := t.timer.set timeout period (l.context.armingTime now)
        active := (t.timer.set timeout period (l.context.armingTime now)).isSet } := by
    rw [RemoteTimer.assign, RemoteTimer.set?, if_pos hreach]
  rw [Entry.withTimer, hp] at hact
  rw [hset]
  exact ⟨rfl, .changed ha (.remoteSet timeout period now hp hreach rfl (Or.inl rfl))
    (changed_put hs.context.arena ha _ .keep (some .timer) l.poller) rfl hact⟩

theorem remoteSet_did {r : WatcherRef} {t : RemoteTimer} (hs : l.Sound)
    (hr : l.context.remote? r = some (e, t)) (now : Nat) (timeout period : Int64) :
    l.Did ⟨l.context.assigned r e (t.setTo (l.context.armingTime now) timeout period), l.poller⟩
      r.index e (l.context.armingTime now) (.timerSet timeout period)
      (t.setTo (l.context.armingTime now) timeout period).isOk := by
  unfold RemoteTimer.setTo
  cases hc : checkTimes timeout period with
  | error err => exact .kept rfl .refused
  | ok times =>
    obtain ⟨hok, hdid⟩ := remoteAssign_did hs hr now times.1 times.2
      (.set (timer?_of_remote hr) hc)
    exact hok.symm ▸ hdid

theorem remoteStart_did {r : WatcherRef} {t : RemoteTimer} (hs : l.Sound)
    (hr : l.context.remote? r = some (e, t)) (now : Nat) :
    l.Did ⟨l.context.assigned r e (t.restart (l.context.armingTime now)), l.poller⟩ r.index e
      (l.context.armingTime now) .timerStart (t.restart (l.context.armingTime now)).isOk := by
  obtain ⟨hok, hdid⟩ := remoteAssign_did hs hr now t.timer.timeout t.timer.period
    (.restarted (timer?_of_remote hr) (Or.inl ⟨rfl, rfl⟩))
  exact hok.symm ▸ hdid

theorem remoteStop_did {r : WatcherRef} {t : RemoteTimer} (hs : l.Sound)
    (hr : l.context.remote? r = some (e, t)) (now : Option Nat) :
    l.Did ⟨l.context.putRemote r e t.stop, l.poller⟩ r.index e now .timerStop true := by
  obtain ⟨g, ha, -, hp⟩ := remote_some hr
  have hstopped := Entry.stopped_remote hp (hs.remote hr).2
  have hacted : e.Acted now .timerStop true (some e.stopped) := .stopped (by rw [hp]; rfl)
  have hafter : some (g, { e with payload := .remote t.stop }) =
      (some e.stopped).map (Prod.mk g) := congrArg (fun e => some (g, e)) hstopped.symm
  exact .changed ha (.remoteStopped hp)
    (changed_put hs.context.arena ha _ .keep none l.poller) hafter hacted

/-! ### I/O watchers -/

theorem checkIo_ok {fd : Int} {interest : Events} :
    checkIo fd interest = .ok () ↔ interest.isInterest = true ∧ 0 ≤ fd := by
  unfold checkIo
  cases hi : interest.isInterest with
  | false => simp
  | true =>
    by_cases hf : fd < 0
    · simp [hf]
    · simp [hf, Int.not_lt.mp hf]

theorem ioStart_of_active {q : Poller} {io : IoState} (hq : l.poller = some q)
    (hf : l.context.find h = .ok e) (hp : e.payload = .io io) (hfd : 0 ≤ io.fd)
    (ha : e.active = true) : l.ioStart h = (l, .ok ()) := by
  rw [ioStart, hq]
  simp only [hf, hp, if_neg (Int.not_lt.mpr hfd), ha, if_true]

theorem ioStart_of_alive {q : Poller} {io : IoState} (hq : l.poller = some q)
    (hf : l.context.find h = .ok e) (hp : e.payload = .io io) (hfd : 0 ≤ io.fd)
    (ha : e.active = false) (hl : q.alive = true) :
    l.ioStart h =
      (⟨{ l.context with
          watchers := l.context.watchers.put h.key.index
            (e.aimed io.fd io.interest q.nextTicket true)
          roster := (l.context.roster.insert h.key.index).1 },
        some { q with
          nextTicket := q.nextTicket + 1
          watched := q.watched ++
            [⟨q.nextTicket, ⟨l.context.id, h.key.index, e.serial⟩, io.fd, io.interest⟩] }⟩,
        .ok ()) := by
  rw [ioStart, hq]
  simp only [hf, hp, if_neg (Int.not_lt.mpr hfd), ha, Poller.drawTicket, Poller.watch?, hl,
    Context.update_eq hf]
  rfl

theorem ioStart_of_dead {q : Poller} {io : IoState} (hq : l.poller = some q)
    (hf : l.context.find h = .ok e) (hp : e.payload = .io io) (hfd : 0 ≤ io.fd)
    (ha : e.active = false) (hl : q.alive = false) :
    l.ioStart h =
      (⟨{ l.context with
          watchers := l.context.watchers.put h.key.index
            (e.aimed io.fd io.interest q.nextTicket false) },
        some q.drawTicket.1⟩, .error .pollerTerminated) := by
  rw [ioStart, hq]
  simp only [hf, hp, if_neg (Int.not_lt.mpr hfd), ha, Poller.drawTicket, Poller.watch?, hl,
    Context.update_eq hf]
  rfl

theorem ioStart_handled (hs : l.Sound) (h : Handle) (now : Option Nat) :
    l.Handled (l.ioStart h).1 h now .ioStart (l.ioStart h).2.isOk := by
  cases hf : l.context.find h with
  | error err =>
    refine .stale hf ?_
    rw [ioStart]
    cases l.poller <;> simp only [hf]
  | ok e =>
    have hat := (Context.find_ok hf).2
    refine .found hf ?_
    cases hq : l.poller with
    | none =>
      rw [ioStart, hq]
      exact .kept rfl .refused
    | some q =>
      cases hp : e.payload with
      | io io =>
        have hfit := hs.context.fits _ _ _ hat
        simp only [Entry.Fits, hp] at hfit
        have hfd := (checkIo_ok.mp hfit.2.1).2
        cases ha : e.active with
        | true =>
          rw [ioStart_of_active hq hf hp hfd ha]
          exact .kept rfl (.going hp ha)
        | false =>
          have hkeep : e.withdraw q = q := by simp [Entry.withdraw, hp, ha]
          cases hl : q.alive with
          | true =>
            rw [ioStart_of_alive hq hf hp hfd ha hl]
            have hop := Operation.ioStarted (l := l) (i := h.key.index) (g := h.key.generation)
              hp hq hl hfit.2.1 (Or.inl ⟨rfl, ha⟩)
            rw [hkeep] at hop
            exact .changed hat hop (changed_put hs.context.arena hat _ .link none _) rfl
              (.started hp ha)
          | false =>
            rw [ioStart_of_dead hq hf hp hfd ha hl]
            have hop := Operation.ioRefused (l := l) (i := h.key.index) (g := h.key.generation)
              hp hq hfit.2.1 (Or.inl ⟨rfl, ha⟩)
            rw [hkeep] at hop
            exact .changed hat hop (changed_put hs.context.arena hat _ .keep none _) rfl
              (.started hp ha)
      | _ =>
        rw [ioStart, hq]
        simp only [hf, hp]
        exact .kept rfl .refused

/-- Vacating the slot in which a watcher was stored leaves nothing in it. -/
theorem changed_abandoned {s : Arena Entry} {k : SlotKey} (hw : s.WellFormed)
    (hk : s.at? k.index = some (k.generation, e))
    (ho : ∀ j, j ≠ k.index → s.at? j = l.context.watchers.at? j) (p : Option Poller) :
    l.Changed
      ⟨{ l.context with
          watchers := (s.erase k).1
          nextSerial := l.context.nextSerial + 1 }, p⟩ k.index ⟨none, .keep, none, p⟩ := by
  have hget := Arena.get?_eq_some.mpr hk
  exact {
    id := rfl, number := rfl, clock := rfl, running := rfl, busy := rfl, exitAsked := rfl
    serial := Nat.le_succ _
    serial_after := fun _ _ he => nomatch he
    arena := hw.erase hget
    at_self := Arena.at?_erase_self hget
    at_other := fun j hj => (Arena.at?_erase_other hget hj).trans (ho j hj)
    roster := rfl
    wakeups := rfl
    poller := rfl }

theorem ioInit_eq {callback : Callback} {fd : Int} {interest : Events}
    (hc : checkIo fd interest = .ok ()) :
    let ins := l.context.insert (.io ⟨fd, interest, Readiness.empty, 0⟩) callback
    l.ioInit callback fd interest =
      match (⟨ins.1, l.poller⟩ : Loop).ioStart ins.2 with
      | (l', .error err) => (l'.mapContext (Context.forget · ins.2), .error err)
      | (l', .ok _) => (l', .ok ins.2) := by
  unfold ioInit
  exact hc ▸ rfl

theorem ioInit_made (hs : l.Sound) (callback : Callback) (fd : Int) (interest : Events)
    (now : Option Nat) : l.Made now (.io fd interest) (l.ioInit callback fd interest) := by
  cases hc : checkIo fd interest with
  | error err =>
    rw [ioInit, hc]
    exact .refused rfl rfl
  | ok =>
    let e₀ : Entry := ⟨l.context.nextSerial, false, some callback,
      .io ⟨fd, interest, Readiness.empty, 0⟩⟩
    have hw := hs.context.arena
    have hvacant := Arena.at?_insert_vacant hw e₀
    have hself := Arena.at?_insert_self hw e₀
    have hother := fun j => Arena.at?_insert_other hw e₀ (j := j)
    have hf := find_insert hs e₀.payload callback
    have hfd := (checkIo_ok.mp hc).2
    rw [ioInit_eq hc]
    cases hq : l.poller with
    | none =>
      have hch := changed_abandoned (l := l) (hw.insert e₀) hself hother none
      exact .abandoned hvacant (.abandoned (Or.inl hq.symm)) hch rfl rfl
    | some q =>
      cases hl : q.alive with
      | true =>
        rw [ioStart_of_alive rfl hf rfl hfd rfl hl]
        have hch := changed_insert hw e₀ (e₀.aimed fd interest q.nextTicket true) rfl .link none
        exact .created hvacant (.ioCreated hq hl hc) (hch _) rfl .io rfl
      | false =>
        rw [ioStart_of_dead rfl hf rfl hfd rfl hl]
        have hch := changed_abandoned (l := l) ((hw.insert e₀).put _ _)
          (Arena.at?_put_self (b := e₀.aimed fd interest q.nextTicket false) hself)
          (fun j hj => (Arena.at?_put_other hj).trans (hother j hj)) (some q.drawTicket.1)
        exact .abandoned hvacant (.abandoned (Or.inr ⟨q, hq, rfl⟩)) hch rfl rfl

theorem withdraw_alive (e : Entry) (q : Poller) : (e.withdraw q).alive = q.alive := by
  unfold Entry.withdraw
  split
  · split <;> rfl
  · rfl

theorem withdraw_nextTicket (e : Entry) (q : Poller) :
    (e.withdraw q).nextTicket = q.nextTicket := by
  unfold Entry.withdraw
  split
  · split <;> rfl
  · rfl

/-- A change of descriptor and interest stops the watcher and gives it its new aim before it is
started. -/
theorem ioSet_eq {h : Handle} {io : IoState} {q : Poller} {fd : Int} {interest : Events}
    (hc : checkIo fd interest = .ok ()) (hf : l.context.find h = .ok e)
    (hp : e.payload = .io io) (hq : l.poller = some q) :
    l.ioSet h fd interest =
      ioStart ⟨{ l.context with
        watchers := l.context.watchers.put h.key.index
          { e with payload := .io { io with fd, interest }, active := false }
        roster := (l.context.roster.erase h.key.index).1 }, some (e.withdraw q)⟩ h := by
  obtain ⟨ho, hat⟩ := Context.find_ok hf
  let e₁ : Entry := { e with payload := .io io, active := false }
  let e₂ : Entry := { e₁ with payload := .io { io with fd, interest } }
  let l₁ : Loop := l.stopSlot h.key.index false
  have h₁ : l₁ = ⟨{ l.context with
      watchers := l.context.watchers.put h.key.index e₁
      roster := (l.context.roster.erase h.key.index).1 }, some (e.withdraw q)⟩ := by
    refine (stopSlot_eq hat false).trans ?_
    rw [hq, hp]
    rfl
  have hf₁ : l₁.context.find h = .ok e₁ := by
    rw [h₁]
    exact Context.find_of_at? ho (Arena.at?_put_self hat)
  have hset : l.ioSet h fd interest = ioStart ⟨l₁.context.update h e₂, l₁.poller⟩ h := by
    have hfound : (l.stopSlot h.key.index false).context.find h = .ok e₁ := hf₁
    rw [ioSet, hc]
    simp only [ioStop, stopKind, hf, hp, Payload.kind, BEq.rfl, if_true, hfound, e₁]
    rfl
  rw [hset, Context.update_eq hf₁, h₁, Arena.put_put hat]

/-- The watcher after it was stopped and given its new aim, as its handle finds it. -/
theorem find_reaimed {io : IoState} (fd : Int) (interest : Events)
    (hf : l.context.find h = .ok e) :
    Context.find { l.context with
      watchers := l.context.watchers.put h.key.index
        { e with payload := .io { io with fd, interest }, active := false }
      roster := (l.context.roster.erase h.key.index).1 } h =
      .ok { e with payload := .io { io with fd, interest }, active := false } := by
  obtain ⟨ho, hat⟩ := Context.find_ok hf
  exact Context.find_of_at? ho (Arena.at?_put_self hat)

theorem ioSet_of_alive {io : IoState} {q : Poller} {fd : Int} {interest : Events}
    (hc : checkIo fd interest = .ok ()) (hf : l.context.find h = .ok e)
    (hp : e.payload = .io io) (hq : l.poller = some q) (hl : q.alive = true) :
    l.ioSet h fd interest =
      (⟨{ l.context with
          watchers := l.context.watchers.put h.key.index (e.aimed fd interest q.nextTicket true)
          roster := ((l.context.roster.erase h.key.index).1.insert h.key.index).1 },
        some { q with
          nextTicket := q.nextTicket + 1
          watched := (e.withdraw q).watched ++
            [⟨q.nextTicket, ⟨l.context.id, h.key.index, e.serial⟩, fd, interest⟩] }⟩,
        .ok ()) := by
  rw [ioSet_eq hc hf hp hq, ioStart_of_alive rfl (find_reaimed fd interest hf) rfl
    (checkIo_ok.mp hc).2 rfl ((withdraw_alive e q).trans hl)]
  simp only [withdraw_alive, withdraw_nextTicket, Arena.put_put (Context.find_ok hf).2]
  rfl

/-- The poller has died, but this is found out when the watcher has been stopped and has its new
aim. -/
theorem ioSet_of_dead {io : IoState} {q : Poller} {fd : Int} {interest : Events}
    (hc : checkIo fd interest = .ok ()) (hf : l.context.find h = .ok e)
    (hp : e.payload = .io io) (hq : l.poller = some q) (hl : q.alive = false) :
    l.ioSet h fd interest =
      (⟨{ l.context with
          watchers := l.context.watchers.put h.key.index (e.aimed fd interest q.nextTicket false)
          roster := (l.context.roster.erase h.key.index).1 },
        some { q with nextTicket := q.nextTicket + 1, watched := (e.withdraw q).watched }⟩,
        .error .pollerTerminated) := by
  rw [ioSet_eq hc hf hp hq, ioStart_of_dead rfl (find_reaimed fd interest hf) rfl
    (checkIo_ok.mp hc).2 rfl ((withdraw_alive e q).trans hl)]
  simp only [Poller.drawTicket, withdraw_alive, withdraw_nextTicket,
    Arena.put_put (Context.find_ok hf).2]
  rfl

theorem ioSet_handled (hs : l.Sound) (h : Handle) (fd : Int) (interest : Events)
    (now : Option Nat) :
    l.Handled (l.ioSet h fd interest).1 h now (.ioSet fd interest)
      (l.ioSet h fd interest).2.isOk := by
  cases hf : l.context.find h with
  | error err =>
    refine .stale hf ?_
    rw [ioSet]
    cases checkIo fd interest <;> simp only [ioStop, stopKind, hf]
  | ok e =>
    have hat := (Context.find_ok hf).2
    refine .found hf ?_
    cases hc : checkIo fd interest with
    | error err =>
      rw [ioSet, hc]
      exact .kept rfl .refused
    | ok =>
      cases hp : e.payload with
      | io io =>
        have hfit := hs.context.fits _ _ _ hat
        simp only [Entry.Fits, hp] at hfit
        obtain ⟨q, hq⟩ := Option.isSome_iff_exists.mp (hs.poller.trans hfit.1)
        have hw := hs.context.arena
        cases hl : q.alive with
        | true =>
          rw [ioSet_of_alive hc hf hp hq hl]
          exact .changed hat (.ioStarted (g := h.key.generation) hp hq hl hc (Or.inr rfl))
            (changed_put hw hat (e.aimed fd interest q.nextTicket true) .relink none _) rfl
            (.reaimed hp)
        | false =>
          rw [ioSet_of_dead hc hf hp hq hl]
          exact .changed hat (.ioRefused (g := h.key.generation) hp hq hc (Or.inr rfl))
            (changed_put hw hat (e.aimed fd interest q.nextTicket false) .unlink none _) rfl
            (.reaimed hp)
      | _ =>
        rw [ioSet, hc]
        simp only [ioStop, stopKind, hf, hp, Payload.kind]
        exact .kept rfl .refused

/-! ### Exit -/

/-- Nothing active is in the slot. -/
def Idle (slot : Option (Generation × Entry)) : Prop :=
  ∀ g e, slot = some (g, e) → e.isActive = false

theorem stopped_isActive (e : Entry) : e.stopped.isActive = false := by
  cases hp : e.payload <;>
    simp [Entry.isActive, Entry.stopped, stoppedPayload, hp, RemoteTimer.stop]

theorem stopSlot_of_none {i : Nat} (ha : l.context.watchers.at? i = none) (release : Bool) :
    l.stopSlot i release = l := by
  rw [stopSlot, ha]

theorem changed_stopSlot (hs : l.Sound) {i : Nat} {g : Generation}
    (ha : l.context.watchers.at? i = some (g, e)) :
    l.Changed (l.stopSlot i false) i
      ⟨some (g, e.stopped), if e.payload.isRemote then .keep else .unlink, none,
        l.poller.map e.withdraw⟩ := by
  rw [stopSlot_eq ha]
  exact changed_put hs.context.arena ha e.stopped _ none _

theorem Sound.stopSlot (hs : l.Sound) (i : Nat) : (l.stopSlot i false).Sound := by
  cases ha : l.context.watchers.at? i with
  | none => exact (stopSlot_of_none ha false).symm ▸ hs
  | some v => exact hs.changed (ha ▸ Operation.stopped) (changed_stopSlot hs ha)

/-- What the stop of one watcher keeps is kept by exit, if it does not look at the flags that exit
clears. -/
theorem exit_induction {P : Loop → Prop} (hs : l.Sound) (hl : P l)
    (hstop : ∀ l₁ l₂ i g e, l₁.Sound → P l₁ → l₁.context.watchers.at? i = some (g, e) →
      l₁.Changed l₂ i
        ⟨some (g, e.stopped), if e.payload.isRemote then .keep else .unlink, none,
          l₁.poller.map e.withdraw⟩ → P l₂)
    (hflags : ∀ l₁, P l₁ →
      P (l₁.mapContext fun c => { c with running := false, exitAsked := false })) :
    P l.exit := by
  suffices hall : ∀ (L : List Nat) (l₁ : Loop), l₁.Sound → P l₁ →
      P (L.foldl (fun l i => l.stopSlot i false) l₁) from hflags _ (hall _ l hs hl)
  intro L
  induction L with
  | nil => exact fun _ _ h => h
  | cons i L ih =>
    intro l₁ hs₁ h₁
    refine ih _ (hs₁.stopSlot i) ?_
    change P (l₁.stopSlot i false)
    cases ha : l₁.context.watchers.at? i with
    | none => exact (stopSlot_of_none ha false).symm ▸ h₁
    | some v => exact hstop l₁ _ i v.1 v.2 hs₁ h₁ ha (changed_stopSlot hs₁ ha)

theorem Sound.exit (hs : l.Sound) : l.exit.Sound :=
  exit_induction (P := Loop.Sound) hs hs
    (fun _ _ _ _ _ _ h ha hc => h.changed (ha ▸ Operation.stopped) hc)
    fun _ h => ⟨h.context.congr rfl rfl rfl rfl, h.poller⟩

theorem idle_stopAll (L : List Nat) :
    ∀ l : Loop, l.Sound → (∀ j, j ∈ L ∨ Idle (l.context.watchers.at? j)) →
      ∀ j, Idle ((L.foldl (fun l i => l.stopSlot i false) l).context.watchers.at? j) := by
  induction L with
  | nil => exact fun _ _ h j => (h j).resolve_left List.not_mem_nil
  | cons i L ih =>
    intro l hs h
    refine ih _ (hs.stopSlot i) fun j => ?_
    change j ∈ L ∨ Idle ((l.stopSlot i false).context.watchers.at? j)
    cases ha : l.context.watchers.at? i with
    | none =>
      rw [stopSlot_of_none ha]
      by_cases hj : j = i
      · subst hj
        rw [ha]
        exact Or.inr fun _ _ he => nomatch he
      · exact (h j).imp_left fun hm => (List.mem_cons.mp hm).resolve_left hj
    | some v =>
      have hc := changed_stopSlot hs ha
      by_cases hj : j = i
      · subst hj
        rw [hc.at_self]
        right
        intro g e he
        obtain ⟨-, rfl⟩ := Prod.mk.inj (Option.some.inj he)
        exact stopped_isActive _
      · rw [hc.at_other j hj]
        exact (h j).imp_left fun hm => (List.mem_cons.mp hm).resolve_left hj

/-- Nothing is active after exit. -/
theorem idle_exit (hs : l.Sound) (j : Nat) : Idle (l.exit.context.watchers.at? j) := by
  refine idle_stopAll l.context.roster.toList l hs (fun i => ?_) j
  by_cases hi : i ∈ l.context.roster.toList
  · exact Or.inl hi
  · right
    intro g e he
    rw [← Bool.not_eq_true]
    exact fun hactive => hi ((hs.context.linked_iff i).mpr
      ⟨g, e, he, Entry.isLinked_of_active hactive⟩)

/-- What exit leaves as it was. -/
theorem exit_frame (hs : l.Sound) :
    l.exit.context.id = l.context.id ∧ l.exit.context.poller = l.context.poller ∧
      l.exit.context.clock = l.context.clock ∧ l.exit.context.busy = l.context.busy ∧
      l.exit.context.wakeups = l.context.wakeups :=
  exit_induction (P := fun l' => l'.context.id = l.context.id ∧
      l'.context.poller = l.context.poller ∧ l'.context.clock = l.context.clock ∧
      l'.context.busy = l.context.busy ∧ l'.context.wakeups = l.context.wakeups)
    hs ⟨rfl, rfl, rfl, rfl, rfl⟩
    (fun _ _ _ _ _ _ ⟨hid, hnum, hclock, hbusy, hwake⟩ _ hc =>
      ⟨hc.id.trans hid, hc.number.trans hnum, hc.clock.trans hclock, hc.busy.trans hbusy,
        hc.wakeups.trans hwake⟩)
    fun _ h => h

/-- Every move keeps a loop sound. -/
theorem Sound.move (hs : l.Sound) (hm : l.Move l') : l'.Sound := by
  cases hm with
  | slot ho hc => exact hs.changed ho hc
  | exitRequested h =>
    subst h
    exact ⟨hs.context.congr rfl rfl rfl rfl, hs.poller⟩
  | exited h => exact h ▸ hs.exit
  | refused h => exact h ▸ hs

end Loop
end EventLoop
