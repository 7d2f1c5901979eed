import EventLoop.Proofs.Armed
import EventLoop.Proofs.Lasting

/-!
# What a transition makes of a timer

A timer is set or started, it is armed when a run is entered, or it fires. Nothing else changes its
times or its deadline, though it may be stopped. The dispatcher arms none, since the timers of a
running loop are armed already.
-/
namespace EventLoop

namespace Timer

variable {t : Timer} {ms d a b : Nat}

/-- A timer that is set to nothing is dormant. -/
theorem set_dormant {now : Option Nat} (h : (t.set a b now).isSet = false) :
    (t.set a b now).deadline = none := by
  cases now with
  | none => rfl
  | some now =>
    simp only [isSet, set, Bool.or_eq_false_iff] at h
    simp only [set, Option.bind_some, deadlineFrom]
    rw [if_neg (of_decide_eq_false h.1), if_neg (of_decide_eq_false h.2)]

theorem isDue_of_lt (hd : t.deadline = some d) (h : d < ms) : t.isDue ms = true := by
  simp only [isDue, hd, Bool.and_eq_true, decide_eq_true_eq]
  omega

/-- A timer without a period that is past its deadline fires for the last time. -/
theorem fire_once (hd : t.deadline = some d) (h : d < ms) (hp : t.period = 0) :
    t.fire ms = ({ t with timeout := 0, deadline := none }, .expired) := by
  rw [fire, if_pos (isDue_of_lt hd h), if_pos hp]

/-- A timer with a period that is past its deadline fires, and is due again one period later. -/
theorem fire_again (hd : t.deadline = some d) (h : d < ms) (hp : 0 < t.period) :
    t.fire ms = ({ t with deadline := some (ms + t.period) }, .rearmed) := by
  rw [fire, if_pos (isDue_of_lt hd h), if_neg (Nat.ne_of_gt hp)]

/-- A timer that does not fire stays as it is. -/
theorem fire_of_idle (h : (t.fire ms).2 = .idle) : (t.fire ms).1 = t := by
  rw [fire_idle_iff] at h
  rw [fire, h]
  rfl

/-- A timer that fires is past its deadline. -/
theorem due_of_fire (hd : t.deadline = some d) (h : (t.fire ms).2 ≠ .idle) : d < ms := by
  rw [ne_eq, fire_idle_iff, Bool.not_eq_false] at h
  simp only [isDue, hd, Bool.and_eq_true, decide_eq_true_eq] at h
  exact h.2

/-- A timer without a period that is started again has none still. -/
theorem Again.period (h : t.Again a b) (hp : t.period = 0) : b = 0 := by
  rcases h with ⟨-, rfl⟩ | h
  · exact hp
  · rw [hp, checkTimes] at h
    split at h
    · contradiction
    · exact (Prod.mk.inj (Except.ok.inj h)).2.symm

/-- A timer without a timeout that is started again has none still. -/
theorem Again.timeout (h : t.Again a b) (ht : t.timeout = 0) : a = 0 := by
  rcases h with ⟨rfl, -⟩ | h
  · exact ht
  · rw [ht, checkTimes] at h
    split at h
    · contradiction
    · exact (Prod.mk.inj (Except.ok.inj h)).1.symm

end Timer

/-- The action sets a timer to these times: new ones, or those that it has. -/
inductive WatcherAction.Assigns (tm : Timer) (a b : Nat) : WatcherAction → Prop
  | set {timeout period} : checkTimes timeout period = .ok (a, b) →
      Assigns tm a b (.timerSet timeout period)
  | started : tm.Again a b → Assigns tm a b .timerStart

namespace Entry

variable {e e' : Entry} {now : Option Nat} {action : WatcherAction} {ok : Bool} {ms : Nat}
  {signals : Signals} {tm : Timer} {P : Timer → Bool → Prop}

/-- The watcher is a timer, and this holds of it and of its flag. -/
def Times (P : Timer → Bool → Prop) (e : Entry) : Prop :=
  ∃ tm, e.payload.timer? = some tm ∧ P tm e.isActive

theorem kind_ne_io (ht : e.payload.timer? = some tm) : e.payload.kind ≠ .io := by
  rcases kind_of_timer? ht with hk | hk <;> rw [hk] <;> decide

/-- Polls tell timers nothing. -/
theorem Told.times {R : Event → Prop} (h : Told R (some e) (some e')) (he : e.Times P) :
    e'.Times P := by
  obtain ⟨tm, ht, -⟩ := id he
  rwa [h.eq_of_kind (kind_ne_io ht)]

theorem stopped_timer? : e.stopped.payload.timer? = e.payload.timer? := by
  obtain ⟨serial, active, callback, payload⟩ := e
  cases payload <;> rfl

theorem withTimer_timer? (t : Timer) (h : e.payload.timer? = some tm) :
    (e.withTimer t).payload.timer? = some t := by
  cases hp : e.payload with
  | timer => simp [withTimer, hp, Payload.timer?]
  | remote => simp [withTimer, hp, Payload.timer?]
  | io => rw [hp] at h; contradiction
  | event => rw [hp] at h; contradiction

/-- An action leaves a timer as it is, stops it at most, or assigns times to it. -/
theorem Acted.timing (h : e.Acted now action ok (some e')) (ht : e.payload.timer? = some tm) :
    (e'.payload.timer? = some tm ∧ (e'.isActive = true → e.isActive = true)) ∨
      ∃ a b, ok = true ∧ action.Assigns tm a b ∧ e'.payload.timer? = some (tm.set a b now) ∧
        e'.isActive = (tm.set a b now).isSet := by
  have hsome : e.payload.timer?.isSome = true := by rw [ht]; rfl
  cases h with
  | refused => exact Or.inl ⟨ht, id⟩
  | asked => exact Or.inl ⟨ht, id⟩
  | stopped =>
    refine Or.inl ⟨stopped_timer?.trans ht, fun ha => ?_⟩
    rw [Loop.stopped_isActive] at ha
    contradiction
  | set ht' htimes =>
    obtain rfl := Option.some.inj (ht.symm.trans ht')
    exact Or.inr ⟨_, _, rfl, .set htimes, withTimer_timer? _ ht, withTimer_isActive _ hsome⟩
  | restarted ht' hagain =>
    obtain rfl := Option.some.inj (ht.symm.trans ht')
    exact Or.inr ⟨_, _, rfl, .started hagain, withTimer_timer? _ ht, withTimer_isActive _ hsome⟩
  | going hp => rw [hp] at ht; contradiction
  | started hp => rw [hp] at ht; contradiction
  | reaimed hp => rw [hp] at ht; contradiction
  | posted hp => rw [hp] at ht; contradiction

theorem arm_timer? (ms : Nat) (ht : e.payload.timer? = some tm) :
    (e.arm ms).payload.timer? = some (if e.isActive then tm.arm ms else tm) := by
  obtain ⟨serial, active, callback, payload⟩ := e
  cases payload with
  | timer t =>
    obtain rfl := Option.some.inj ht
    cases active <;> rfl
  | remote r =>
    obtain rfl := Option.some.inj ht
    cases ha : r.active <;> simp [arm, isActive, Payload.timer?, ha]
  | io => contradiction
  | event => contradiction

/-- The visit of an active timer arms it if it is dormant, and fires it if it is due then. -/
theorem visit_active (ms : Nat) (signals : Signals) (ht : e.payload.timer? = some tm)
    (ha : e.isActive = true) :
    (e.visit ms signals).entry.payload.timer? = some ((tm.arm ms).fire ms).1 ∧
      (e.visit ms signals).entry.isActive = (((tm.arm ms).fire ms).2 != .expired) ∧
      (e.visit ms signals).events =
        (if ((tm.arm ms).fire ms).2 != .idle then some (Mask.only .read) else none) ∧
      (e.visit ms signals).deadline = ((tm.arm ms).fire ms).1.deadline := by
  obtain ⟨serial, active, callback, payload⟩ := e
  cases payload with
  | timer t =>
    obtain rfl := Option.some.inj ht
    obtain rfl : active = true := ha
    exact ⟨rfl, rfl, rfl, rfl⟩
  | remote r =>
    obtain rfl := Option.some.inj ht
    have ha : r.active = true := ha
    simp [visit, isActive, Payload.timer?, ha]
  | io => contradiction
  | event => contradiction

/-- The visit of an active timer that has a deadline fires it if it is due. -/
theorem visit_timer (ms : Nat) (signals : Signals) {d : Nat} (ht : e.payload.timer? = some tm)
    (ha : e.isActive = true) (hd : tm.deadline = some d) :
    (e.visit ms signals).entry.payload.timer? = some (tm.fire ms).1 ∧
      (e.visit ms signals).entry.isActive = ((tm.fire ms).2 != .expired) ∧
      ((e.visit ms signals).events = none ↔ (tm.fire ms).2 = .idle) := by
  obtain ⟨htm, hactive, hevents, -⟩ := visit_active ms signals ht ha
  rw [Timer.arm_of_deadline _ hd] at htm hactive hevents
  refine ⟨htm, hactive, ?_⟩
  rw [hevents]
  simp

/-- A timer that has just been created is set to the times that were asked for. -/
theorem Born.times {spec : WatcherSpec} {timeout period : Int64} (h : e.Born now spec)
    (hspec : spec = .timer timeout period ∨ spec = .remoteTimer timeout period) :
    ∃ a b, checkTimes timeout period = .ok (a, b) ∧
      e.Times fun tm active => tm = Timer.unset.set a b now ∧ active = tm.isSet := by
  cases h with
  | timer htimes ht =>
    obtain ⟨rfl, rfl⟩ : _ = timeout ∧ _ = period := by simpa using hspec
    exact ⟨_, _, htimes, _, rfl, ht, rfl⟩
  | remoteTimer htimes ht =>
    obtain ⟨rfl, rfl⟩ : _ = timeout ∧ _ = period := by simpa using hspec
    exact ⟨_, _, htimes, _, rfl, ht, rfl⟩
  | event => simp at hspec
  | io => simp at hspec

end Entry

/-! ### What a transition makes of a timer -/

theorem World.Sound.fits {w : World} (hs : w.Sound) {r : WatcherRef} {e : Entry}
    (h : w.meant? r = some e) : ∃ polled, e.Fits polled := by
  obtain ⟨c, hc, hm⟩ := World.meant?_eq_some.mp h
  obtain ⟨g, hat, -⟩ := Context.meant?_eq_some.mp hm
  exact ⟨_, (hs.context _ c hc).2.fits r.index g e hat⟩

/-- A loop arms timers from its reading of the clock if it is running. -/
theorem World.armingTime?_eq_some {w : World} {id ms : Nat} : w.armingTime? id = some ms ↔
    w.isRunning id = true ∧ w.reading? id = some ms := by
  cases hc : w.context? id with
  | none => simp [World.armingTime?, World.reading?, hc]
  | some c => simp [World.armingTime?, World.reading?, World.isRunning, hc, Context.armingTime]

/-- A run that is entered arms each timer of its loop that is active and dormant. -/
theorem World.perform_entered {w : World} (hs : w.Sound) {current : Option Nat} {command : Command}
    {r : WatcherRef} {flags : RunFlags} {deadline : Option Nat}
    (h : (w.perform current command).2 = .entered r.owner flags deadline) :
    ∃ ms, w.reading? r.owner = some ms ∧
      (w.perform current command).1.meant? r = (w.meant? r).map fun e => e.arm ms := by
  rcases World.perform_performed hs current command with ⟨answer, ha, -⟩ | ⟨l, flags', hl, -, he⟩
  · exact nomatch ha.symm.trans h
  · rw [he] at h ⊢
    obtain ⟨hid, -, -⟩ := Reaction.entered.inj h
    have hr := World.replaced_putContext hl (w.entering l).1
    refine ⟨toMillis (w.now l.context), ?_, ?_⟩
    · rw [World.reading?, ← hid, (World.loop?_eq_some.mp hl).1, Option.map_some]
    · rw [hr.meant?_self hid.symm, hr.meant?_before hid.symm,
        World.entering_meant (hs.loop hl).2]

namespace Transition

variable {t : Transition} {r : WatcherRef} {e e' : Entry} {tm tm' : Timer} {call : Call} {ms : Nat}
  {action : WatcherAction} {timeout period : Int64}

/-- The timer is set, by an action on it or by its creation. -/
def Sets (t : Transition) (r : WatcherRef) (timeout period : Int64) : Prop :=
  t.Acts r (.timerSet timeout period) ∨ t.Makes r (.timer timeout period) ∨
    t.Makes r (.remoteTimer timeout period)

/-- Setting a timer enters no run. -/
theorem Sets.not_enters {id : Nat} (h : t.Sets r timeout period) : ¬ t.Enters id := by
  rintro ⟨current, command, flags, deadline, hdeed⟩
  have hok : ∀ {current' command' reaction},
      t.deed = .command current' command' reaction → reaction.isOk ≠ true := by
    intro current' command' reaction hdeed'
    rw [← (Deed.command.inj (hdeed.symm.trans hdeed')).2.2]
    exact Bool.false_ne_true
  rcases h with ⟨_, _, _, hdeed', -, h⟩ | ⟨⟨_, _, _, _, _, hdeed', h⟩, -⟩ |
    ⟨⟨_, _, _, _, _, hdeed', h⟩, -⟩
  · exact hok hdeed' h
  · exact hok hdeed' h
  · exact hok hdeed' h

/-- What a transition makes of a timer and of its flag. -/
inductive Timing (t : Transition) (r : WatcherRef) (tm : Timer) (active : Bool) :
    Timer → Bool → Prop
  /-- It is stopped at most. -/
  | kept {active' : Bool} : (active' = true → active = true) → Timing t r tm active tm active'
  | assigned {action : WatcherAction} {a b : Nat} {tm' : Timer} :
      t.Acts r action → action.Assigns tm a b →
      tm' = tm.set a b (t.before.world.armingTime? r.owner) → Timing t r tm active tm' tm'.isSet
  | armed {ms : Nat} : t.Enters r.owner → t.before.world.reading? r.owner = some ms →
      active = true → Timing t r tm active (tm.arm ms) true
  | fired {call : Call} {ms d : Nat} : t.Calls r call →
      t.before.world.reading? r.owner = some ms → active = true → tm.deadline = some d → d < ms →
      Timing t r tm active (tm.fire ms).1 ((tm.fire ms).2 != .expired)

/-- An active timer of a running loop has a deadline. -/
theorem deadline_of_running (t : Transition) (hrun : t.before.world.isRunning r.owner = true)
    (he : t.before.world.meant? r = some e) (ht : e.payload.timer? = some tm)
    (ha : e.isActive = true) : ∃ d, tm.deadline = some d := by
  obtain ⟨c, hc, hm⟩ := World.meant?_eq_some.mp he
  obtain ⟨g, hat, -⟩ := Context.meant?_eq_some.mp hm
  rw [World.isRunning_of_context? hc] at hrun
  exact t.reachable.armed hc hrun r.index g e tm hat (Entry.activeTimer?_eq_some.mpr ⟨ha, ht⟩)

theorem Effect.timing (h : t.Effect r (some e) (some e')) (he : t.before.world.meant? r = some e)
    (ht : e.payload.timer? = some tm) :
    ∃ tm', e'.payload.timer? = some tm' ∧ t.Timing r tm e.isActive tm' e'.isActive := by
  have hstopped : t.Timing r tm e.isActive tm e.stopped.isActive := .kept fun ha => by
    rw [Loop.stopped_isActive] at ha
    contradiction
  cases h with
  | kept => exact ⟨tm, ht, .kept id⟩
  | commanded hdeed h =>
    cases h with
    | kept => exact ⟨tm, ht, .kept id⟩
    | acted haim hact =>
      rcases hact.timing ht with ⟨ht', hidle⟩ | ⟨a, b, hok, hassigns, ht', ha⟩
      · exact ⟨tm, ht', .kept hidle⟩
      · exact ⟨_, ht', ha ▸ .assigned ⟨_, _, _, hdeed, haim, hok⟩ hassigns rfl⟩
    | exited => exact ⟨tm, Entry.stopped_timer?.trans ht, hstopped⟩
    | @armed flags deadline _ ms hreaction hms =>
      have htm := Entry.arm_timer? ms ht
      rw [Entry.arm_isActive]
      cases ha : e.isActive with
      | true => exact ⟨_, htm.trans (by rw [ha]; rfl),
          .armed ⟨_, _, _, _, hreaction ▸ hdeed⟩ hms rfl⟩
      | false => exact ⟨tm, htm.trans (by rw [ha]; rfl), .kept id⟩
  | exited => exact ⟨tm, Entry.stopped_timer?.trans ht, hstopped⟩
  | @visited _ ms signals callback hms hrun hnone =>
    cases ha : e.isActive with
    | false =>
      rw [Entry.visit_of_inactive ha]
      exact ⟨tm, ht, .kept fun hactive => ha ▸ hactive⟩
    | true =>
      obtain ⟨d, hd⟩ := t.deadline_of_running hrun he ht ha
      obtain ⟨htm, -, hidle⟩ := Entry.visit_timer _ _ ht ha hd
      rw [Timer.fire_of_idle (hidle.mp hnone)] at htm
      exact ⟨tm, htm, .kept fun _ => rfl⟩
  | @called _ ms signals callback call hcalls hms hrun hevents =>
    obtain ⟨-, e₀, he₀, ha⟩ := hcalls.isActive
    obtain rfl := Option.some.inj (he.symm.trans he₀)
    obtain ⟨d, hd⟩ := t.deadline_of_running hrun he ht ha
    obtain ⟨htm, hactive, hidle⟩ := Entry.visit_timer _ _ ht ha hd
    have hdue := Timer.due_of_fire hd fun h => nomatch hevents.symm.trans (hidle.mpr h)
    refine ⟨_, htm, ?_⟩
    change t.Timing r tm e.isActive _ (e.visit ms signals).entry.isActive
    rw [hactive]
    exact .fired hcalls hms ha hd hdue
  | returned => exact ⟨tm, ht, .kept id⟩

/-- What all that a transition can make of a timer keeps, lasts. -/
theorem keeps_timer {P : Timer → Bool → Prop} (t : Transition)
    (h : t.before.world.Has r (Entry.Times P))
    (hstep : ∀ e tm e' tm', t.before.world.meant? r = some e → e.payload.timer? = some tm →
      t.after.world.meant? r = some e' → e'.payload.timer? = some tm' →
      t.Timing r tm e.isActive tm' e'.isActive → P tm e.isActive → P tm' e'.isActive) :
    t.after.world.Has r (Entry.Times P) := by
  refine t.keeps h fun e e₁ e' he he' heffect htold ⟨tm, ht, hP⟩ => ?_
  obtain ⟨tm', ht', htiming⟩ := heffect.timing he ht
  obtain rfl := htold.eq_of_kind (Entry.kind_ne_io ht')
  exact ⟨tm', ht', hstep e tm _ tm' he ht he' ht' htiming hP⟩

/-! ### Setting, starting, arming -/

/-- The timer has been set to these times, and armed if its loop is running. -/
def Assigned (t : Transition) (r : WatcherRef) (a b : Nat) : Prop :=
  t.after.world.Has r (Entry.Times fun tm active =>
    tm = Timer.unset.set a b (t.before.world.armingTime? r.owner) ∧ active = tm.isSet)

/-- What polls tell the watchers afterwards changes no timer. -/
theorem times_of_told {P : Timer → Bool → Prop}
    (htold : t.after.world.Told r (some e) (t.after.world.meant? r)) (he : e.Times P) :
    ∀ e', t.after.world.meant? r = some e' → e'.Times P := by
  intro e' he'
  rw [he'] at htold
  exact htold.times he

/-- A timer that is set has the times that were asked for. -/
theorem Sets.assigned (h : t.Sets r timeout period) :
    ∃ a b, checkTimes timeout period = .ok (a, b) ∧ t.Assigned r a b := by
  have hmade : ∀ spec, t.Makes r spec →
      spec = .timer timeout period ∨ spec = .remoteTimer timeout period →
      ∃ a b, checkTimes timeout period = .ok (a, b) ∧ t.Assigned r a b := by
    intro spec hmakes hspec
    obtain ⟨w, hu⟩ := t.unpolled
    obtain ⟨e, hm, hborn⟩ := hu.made hmakes
    obtain ⟨a, b, htimes, he⟩ := hborn.times hspec
    have htold := hu.told r
    rw [hm] at htold
    obtain ⟨e', he'⟩ := Option.ne_none_iff_exists'.mp hmakes.2.2
    exact ⟨a, b, htimes, World.knows_of_meant? t.state_after.1.world he', times_of_told htold he⟩
  rcases h with hacts | hmakes | hmakes
  · obtain ⟨e, v, hm, hact, htold⟩ := hacts.effect
    cases hact with
    | asked h => contradiction
    | stopped h => contradiction
    | set ht htimes =>
      exact ⟨_, _, htimes, has_of_before hm (times_of_told htold ⟨_, Entry.withTimer_timer? _ ht,
        rfl, Entry.withTimer_isActive _ (by rw [ht]; rfl)⟩)⟩
  · exact hmade _ hmakes (Or.inl rfl)
  · exact hmade _ hmakes (Or.inr rfl)

/-- A timer that is started is set to some times. -/
theorem assigned_of_start (h : t.Acts r .timerStart) : ∃ a b, t.Assigned r a b := by
  obtain ⟨e, v, hm, hact, htold⟩ := h.effect
  cases hact with
  | asked h => contradiction
  | stopped h => contradiction
  | restarted ht hagain =>
    exact ⟨_, _, has_of_before hm (times_of_told htold ⟨_, Entry.withTimer_timer? _ ht, rfl,
      Entry.withTimer_isActive _ (by rw [ht]; rfl)⟩)⟩

/-- A run that is entered arms the timers of its loop. -/
theorem Enters.effect (h : t.Enters r.owner) : ∃ ms, t.before.world.reading? r.owner = some ms ∧
    t.after.world.Told r ((t.before.world.meant? r).map fun e => e.arm ms)
      (t.after.world.meant? r) := by
  obtain ⟨current, command, flags, deadline, hdeed⟩ := h
  obtain ⟨waits, w, hs, hperform, hw⟩ := commanded hdeed
  obtain ⟨ms, hms, harm⟩ := World.perform_entered hs (congrArg Prod.snd hperform)
  have htold := World.settled_told hw r
  rw [hperform] at harm
  rw [harm] at htold
  exact ⟨ms, hms, htold⟩

end Transition
end EventLoop
