import EventLoop.Proofs.Timing

/-!
# When timers fire

A timer fires once the clock is past its deadline. The deadline is set when the timer is armed, and
again when the timer fires and has a period. No step, and no order of them, changes the deadline to
anything but none in between. A timer without a period has nothing left to fire for once it has
fired, so that starting it again does nothing.
-/
namespace EventLoop
namespace Transition

variable {t : Transition} {r : WatcherRef} {e e' : Entry} {tm tm' : Timer} {call : Call}
  {timeout period : Int64}

/-- The timer is set or started. -/
def Assigns (t : Transition) (r : WatcherRef) : Prop :=
  (∃ timeout period, t.Sets r timeout period) ∨ t.Acts r .timerStart

theorem Assigns.not_dispatch (h : t.Assigns r) : t.deed ≠ .dispatch := by
  rcases h with ⟨timeout, period, hacts | hmakes | hmakes⟩ | hacts
  · exact hacts.not_dispatch
  · exact hmakes.not_dispatch
  · exact hmakes.not_dispatch
  · exact hacts.not_dispatch

/-- The timer is armed at a reading of the clock, and its timeout is then this: it is set or started
while its loop is running, or it is dormant when a run is entered. -/
def Arms (t : Transition) (r : WatcherRef) (reading timeout : Nat) : Prop :=
  t.before.world.reading? r.owner = some reading ∧
  (∃ e tm, t.after.world.meant? r = some e ∧ e.activeTimer? = some tm ∧ tm.timeout = timeout) ∧
  ((t.before.world.isRunning r.owner = true ∧
      ((∃ timeout period, t.Sets r timeout period) ∨ t.Acts r .timerStart)) ∨
    (t.Enters r.owner ∧ ∃ e tm, t.before.world.meant? r = some e ∧ e.activeTimer? = some tm ∧
      tm.deadline = none))

/-- The timer fires at a reading of the clock, and its period is this. -/
def Fires (t : Transition) (r : WatcherRef) (reading period : Nat) : Prop :=
  (∃ call, t.Calls r call) ∧ t.before.world.reading? r.owner = some reading ∧
    ∃ e tm, t.before.world.meant? r = some e ∧ e.payload.timer? = some tm ∧ tm.period = period

/-! ### Not before the deadline -/

/-- The deadline of the timer is this. -/
def ArmedFor (d : Nat) (tm : Timer) (_ : Bool) : Prop := tm.deadline = some d

/-- The deadline of a timer is this, unless the timer is dormant. -/
def DueAt (d : Nat) (tm : Timer) (_ : Bool) : Prop := tm.deadline = none ∨ tm.deadline = some d

/-- A timer that is armed is due when its timeout has passed since the reading. -/
theorem Arms.armedFor {reading time : Nat} (h : t.Arms r reading time) :
    t.after.world.Has r (Entry.Times (ArmedFor (reading + time))) := by
  obtain ⟨hms, ⟨e', tm', he', htm', rfl⟩, hhow⟩ := h
  obtain ⟨hactive, htm'⟩ := Entry.activeTimer?_eq_some.mp htm'
  rcases hhow with ⟨hrun, hassigns⟩ | ⟨henters, e, tm, he, htm, hdormant⟩
  · obtain ⟨a, b, hassigned⟩ : ∃ a b, t.Assigned r a b := by
      rcases hassigns with ⟨timeout, period, hsets⟩ | hstarts
      · obtain ⟨a, b, -, hassigned⟩ := hsets.assigned
        exact ⟨a, b, hassigned⟩
      · exact assigned_of_start hstarts
    refine ⟨hassigned.1, fun e he => ?_⟩
    obtain rfl := Option.some.inj (he'.symm.trans he)
    obtain ⟨tm, htm, rfl, hset⟩ := hassigned.2 e' he
    obtain rfl := Option.some.inj (htm'.symm.trans htm)
    have hnow := World.armingTime?_eq_some.mpr ⟨hrun, hms⟩
    simp only [hnow] at htm hset ⊢
    exact ⟨_, htm, Timer.set_deadline (hset.symm.trans hactive)⟩
  · obtain ⟨ms, hms', htold⟩ := henters.effect
    obtain rfl := Option.some.inj (hms.symm.trans hms')
    obtain ⟨ha, htm⟩ := Entry.activeTimer?_eq_some.mp htm
    obtain ⟨polled, hfits⟩ := t.state.1.world.fits he
    have harm := Entry.arm_timer? reading htm
    rw [if_pos ha] at harm
    rw [he, Option.map_some, he'] at htold
    obtain rfl := htold.eq_of_kind (Entry.kind_ne_io harm)
    obtain rfl := Option.some.inj (harm.symm.trans htm')
    refine ⟨World.knows_of_meant? t.state_after.1.world he', fun e₁ he₁ => ?_⟩
    obtain rfl := Option.some.inj (he'.symm.trans he₁)
    refine ⟨_, harm, ?_⟩
    rw [Timer.arm_timeout]
    exact Timer.arm_of_dormant hdormant
      (hfits.isSet (Entry.activeTimer?_eq_some.mpr ⟨ha, htm⟩))

theorem Arms.due {reading time : Nat} (h : t.Arms r reading time) :
    t.after.world.Has r (Entry.Times (DueAt (reading + time))) :=
  ⟨h.armedFor.1, fun e he => (h.armedFor.2 e he).imp fun _ => And.imp_right Or.inr⟩

/-- It is never the dispatcher that arms a timer. -/
theorem Arms.not_dispatch {reading time : Nat} (h : t.Arms r reading time) :
    t.deed ≠ .dispatch := by
  obtain ⟨-, -, ⟨-, hassigns⟩ | ⟨henters, -⟩⟩ := h
  · exact Assigns.not_dispatch hassigns
  · exact henters.not_dispatch

/-- A timer that is neither called nor armed has the deadline that it had, or none. -/
theorem due_keeps {d : Nat} (hcalls : ∀ call, ¬ t.Calls r call)
    (harms : ∀ reading time, ¬ t.Arms r reading time)
    (h : t.before.world.Has r (Entry.Times (DueAt d))) :
    t.after.world.Has r (Entry.Times (DueAt d)) := by
  refine t.keeps_timer h fun e tm e' tm' he ht he' ht' htiming hdue => ?_
  have hafter : e'.isActive = true → ∃ e tm, t.after.world.meant? r = some e ∧
      e.activeTimer? = some tm ∧ tm.timeout = tm'.timeout :=
    fun ha => ⟨e', tm', he', Entry.activeTimer?_eq_some.mpr ⟨ha, ht'⟩, rfl⟩
  generalize hactive : e.isActive = active at htiming hdue
  generalize hactive' : e'.isActive = active' at htiming
  cases htiming with
  | kept => exact hdue
  | armed henters hms ha =>
    cases hd : tm.deadline with
    | some d' => exact (Timer.arm_of_deadline _ hd).symm ▸ hdue
    | none =>
      have hbefore := Entry.activeTimer?_eq_some.mpr ⟨hactive.trans ha, ht⟩
      exact absurd ⟨hms, hafter hactive', Or.inr ⟨henters, e, tm, he, hbefore, hd⟩⟩ (harms _ _)
  | fired hcalls' => exact absurd hcalls' (hcalls _)
  | assigned hacts hassigns htm' =>
    cases hset : tm'.isSet with
    | false => exact Or.inl (htm' ▸ Timer.set_dormant (htm' ▸ hset))
    | true =>
      cases hnow : t.before.world.armingTime? r.owner with
      | none => exact Or.inl (by rw [htm', hnow]; rfl)
      | some ms =>
        obtain ⟨hrun, hms⟩ := World.armingTime?_eq_some.mp hnow
        have hassigned : (∃ timeout period, t.Sets r timeout period) ∨ t.Acts r .timerStart := by
          cases hassigns with
          | set => exact Or.inl ⟨_, _, Or.inl hacts⟩
          | started => exact Or.inr hacts
        exact absurd ⟨hms, hafter (hactive'.trans hset), Or.inl ⟨hrun, hassigned⟩⟩ (harms _ _)

/-- A timer is called when the clock is past its deadline, and then it fires. -/
theorem Calls.fired (h : t.Calls r call) (he : t.before.world.meant? r = some e)
    (ht : e.payload.timer? = some tm) :
    ∃ ms d, t.before.world.reading? r.owner = some ms ∧ tm.deadline = some d ∧ d < ms ∧
      t.after.world.Has r (Entry.Times fun tm' active =>
        tm' = (tm.fire ms).1 ∧ active = ((tm.fire ms).2 != .expired)) := by
  obtain ⟨e₀, ms, signals, callback, he₀, hms, hrun, hevents, htold⟩ := h.effect
  obtain rfl := Option.some.inj (he.symm.trans he₀)
  obtain ⟨-, e₁, he₁, ha⟩ := h.isActive
  obtain rfl := Option.some.inj (he.symm.trans he₁)
  obtain ⟨d, hd⟩ := t.deadline_of_running hrun he ht ha
  obtain ⟨htm, hactive, hidle⟩ := Entry.visit_timer _ _ ht ha hd
  have hdue := Timer.due_of_fire hd fun h => nomatch hevents.symm.trans (hidle.mpr h)
  exact ⟨ms, d, hms, hd, hdue, has_of_before he (times_of_told htold ⟨_, htm, rfl, hactive⟩)⟩

/-! ### One period after it has fired -/

theorem Fires.armedFor {reading period : Nat} (h : t.Fires r reading period) (hp : 0 < period) :
    t.after.world.Has r (Entry.Times (ArmedFor (reading + period))) := by
  obtain ⟨⟨call, hcalls⟩, hms, e, tm, he, ht, rfl⟩ := h
  obtain ⟨ms, d, hms', hd, hdue, hknows, hfired⟩ := hcalls.fired he ht
  obtain rfl := Option.some.inj (hms.symm.trans hms')
  refine ⟨hknows, fun e' he' => ?_⟩
  obtain ⟨tm', ht', htm', -⟩ := hfired e' he'
  refine ⟨tm', ht', ?_⟩
  rw [htm', Timer.fire_again hd hdue hp]
  rfl

/-- A timer that is neither called nor set nor started keeps its deadline. -/
theorem armedFor_keeps {d : Nat} (hcalls : ∀ call, ¬ t.Calls r call)
    (hsets : ∀ timeout period, ¬ t.Sets r timeout period) (hstarts : ¬ t.Acts r .timerStart)
    (h : t.before.world.Has r (Entry.Times (ArmedFor d))) :
    t.after.world.Has r (Entry.Times (ArmedFor d)) := by
  refine t.keeps_timer h fun e tm e' tm' he ht he' ht' htiming hd => ?_
  generalize e.isActive = active at htiming hd
  generalize e'.isActive = active' at htiming
  cases htiming with
  | kept => exact hd
  | armed => exact (Timer.arm_of_deadline _ hd).symm ▸ hd
  | fired hcalls' => exact absurd hcalls' (hcalls _)
  | assigned hacts hassigns =>
    cases hassigns with
    | set => exact absurd (Or.inl hacts) (hsets _ _)
    | started => exact absurd hacts hstarts

/-! ### At most once -/

/-- The timer has no period. -/
def Once (tm : Timer) (_ : Bool) : Prop := tm.period = 0

/-- The timer has nothing to fire for, and is stopped. -/
def Spent (tm : Timer) (active : Bool) : Prop :=
  tm.period = 0 ∧ tm.timeout = 0 ∧ active = false

theorem Sets.once (h : t.Sets r timeout 0) : t.after.world.Has r (Entry.Times Once) := by
  obtain ⟨a, b, htimes, hknows, hassigned⟩ := h.assigned
  have hb : b = 0 := by
    rw [checkTimes] at htimes
    split at htimes
    · contradiction
    · exact (Prod.mk.inj (Except.ok.inj htimes)).2.symm
  refine ⟨hknows, fun e he => ?_⟩
  obtain ⟨tm, ht, rfl, -⟩ := hassigned e he
  exact ⟨_, ht, hb⟩

/-- A timer without a period has none until it is set to one. -/
theorem once_keeps (hsets : ∀ timeout period, ¬ t.Sets r timeout period)
    (h : t.before.world.Has r (Entry.Times Once)) : t.after.world.Has r (Entry.Times Once) := by
  refine t.keeps_timer h fun e tm e' tm' he ht he' ht' htiming hp => ?_
  generalize e.isActive = active at htiming hp
  generalize e'.isActive = active' at htiming
  cases htiming with
  | kept => exact hp
  | armed => exact Timer.arm_period.trans hp
  | fired _ _ _ hd hdue =>
    rw [Timer.fire_once hd hdue hp]
    exact hp
  | assigned hacts hassigns htm' =>
    cases hassigns with
    | set => exact absurd (Or.inl hacts) (hsets _ _)
    | started hagain => exact htm' ▸ hagain.period hp

/-- A timer without a period that is called is spent. -/
theorem Calls.spent (h : t.Calls r call) (honce : t.before.world.Has r (Entry.Times Once)) :
    t.after.world.Has r (Entry.Times Spent) := by
  obtain ⟨-, e, he, -⟩ := h.isActive
  obtain ⟨tm, ht, hp⟩ := honce.2 e he
  obtain ⟨ms, d, -, hd, hdue, hknows, hfired⟩ := h.fired he ht
  refine ⟨hknows, fun e' he' => ?_⟩
  obtain ⟨tm', ht', rfl, hactive⟩ := hfired e' he'
  rw [Timer.fire_once hd hdue hp] at ht' hactive
  exact ⟨_, ht', hp, rfl, hactive⟩

/-- A spent timer stays so until it is set, even if it is started. -/
theorem spent_keeps (hsets : ∀ timeout period, ¬ t.Sets r timeout period)
    (h : t.before.world.Has r (Entry.Times Spent)) : t.after.world.Has r (Entry.Times Spent) := by
  refine t.keeps_timer h fun e tm e' tm' he ht he' ht' htiming hspent => ?_
  obtain ⟨hp, htimeout, hactive⟩ := hspent
  rw [hactive] at htiming
  generalize e'.isActive = active' at htiming
  cases htiming with
  | kept hidle => exact ⟨hp, htimeout, Bool.eq_false_iff.mpr fun ha => nomatch hidle ha⟩
  | armed _ _ ha => contradiction
  | fired _ _ ha => contradiction
  | assigned hacts hassigns htm' =>
    cases hassigns with
    | set => exact absurd (Or.inl hacts) (hsets _ _)
    | started hagain =>
      obtain rfl := hagain.period hp
      obtain rfl := hagain.timeout htimeout
      rw [htm']
      exact ⟨rfl, rfl, rfl⟩

end Transition

/-! ### In every history -/

section

variable {past : List Transition} {t : Transition} {r : WatcherRef} {call : Call}

/-- Since a timer was armed, it is called only when its timeout has passed. -/
theorem Transition.Calls.after_timeout (h : History past t.before) {reading timeout : Nat}
    (hsince : Since (fun s => s.Arms r reading timeout)
      (fun s => (∀ call, ¬ s.Calls r call) ∧ ∀ reading timeout, ¬ s.Arms r reading timeout) past)
    (hcalls : t.Calls r call) :
    ∃ now, t.before.world.reading? r.owner = some now ∧ reading + timeout < now := by
  have hdue := h.since
    (I := fun m => m.world.Has r (Entry.Times (Transition.DueAt (reading + timeout))))
    hsince (fun _ => Transition.Arms.due) fun _ hnot => Transition.due_keeps hnot.1 hnot.2
  obtain ⟨-, e, he, -⟩ := hcalls.isActive
  obtain ⟨tm, ht, hd⟩ := hdue.2 e he
  obtain ⟨now, d, hnow, hd', hlt, -⟩ := hcalls.fired he ht
  rcases hd with hd | hd
  · exact nomatch hd.symm.trans hd'
  · obtain rfl := Option.some.inj (hd.symm.trans hd')
    exact ⟨now, hnow, hlt⟩

/-- A timer that has its deadline is called only when the deadline has passed. -/
theorem Transition.Calls.after_deadline {d : Nat}
    (harmed : t.before.world.Has r (Entry.Times (Transition.ArmedFor d)))
    (hcalls : t.Calls r call) : ∃ now, t.before.world.reading? r.owner = some now ∧ d < now := by
  obtain ⟨-, e, he, -⟩ := hcalls.isActive
  obtain ⟨tm, ht, hd⟩ := harmed.2 e he
  obtain ⟨now, d', hnow, hd', hlt, -⟩ := hcalls.fired he ht
  obtain rfl := Option.some.inj (hd.symm.trans hd')
  exact ⟨now, hnow, hlt⟩

/-- A timer that was set without a period is not called if it was called since. -/
theorem Transition.Sets.called_once {before since : List Transition} {s u : Transition}
    {timeout : Int64} (hset : s.Sets r timeout 0) (h : History past t.before)
    (hpast : past = before ++ s :: since)
    (hnotset : ∀ u ∈ since, ∀ timeout period, ¬ u.Sets r timeout period) (hu : u ∈ since)
    {call' : Call} (hcalled : u.Calls r call') : ¬ t.Calls r call := by
  intro hcalls
  -- what leads up to the first call is a history of its own
  obtain ⟨mid, rest, rfl⟩ := List.append_of_mem hu
  have hprefix : History (before ++ s :: mid) u.before := h.before (by simpa using hpast)
  have honce := hprefix.since (P := (· = s))
    (I := fun m => m.world.Has r (Entry.Times Transition.Once))
    ⟨before, s, mid, rfl, rfl, fun v hv => hnotset v (List.mem_append_left _ hv)⟩
    (fun _ hv => hv ▸ hset.once) fun _ => Transition.once_keeps
  have hspent := h.since (P := (· = u))
    (I := fun m => m.world.Has r (Entry.Times Transition.Spent))
    ⟨before ++ s :: mid, u, rest, by simpa using hpast, rfl,
      fun v hv => hnotset v (List.mem_append_right _ (List.mem_cons_of_mem u hv))⟩
    (fun _ hv => hv ▸ hcalled.spent honce) fun _ => Transition.spent_keeps
  obtain ⟨-, e, he, hactive⟩ := hcalls.isActive
  obtain ⟨tm, -, -, -, hidle⟩ := hspent.2 e he
  exact nomatch hactive.symm.trans hidle

end

/-- A timer that was armed is not called before its timeout has passed, and one that has fired is
due one period later and not called before. A timer that was set without a period is called once
at most until it is set again. -/
theorem timers_fire_as_set {past : List Transition} {t : Transition} (h : History past t.before)
    (r : WatcherRef) :
    (∀ reading timeout, Since (fun s => s.Arms r reading timeout)
        (fun s => (∀ call, ¬ s.Calls r call) ∧ ∀ reading timeout, ¬ s.Arms r reading timeout) past →
      ∀ call, t.Calls r call →
        ∃ now, t.before.world.reading? r.owner = some now ∧ reading + timeout < now) ∧
    (∀ reading period, 0 < period → Since (fun s => s.Fires r reading period)
        (fun s => (∀ call, ¬ s.Calls r call) ∧ (∀ timeout period, ¬ s.Sets r timeout period) ∧
          ¬ s.Acts r .timerStart) past →
      (∀ e tm, t.before.world.meant? r = some e → e.payload.timer? = some tm →
        tm.deadline = some (reading + period)) ∧
      ∀ call, t.Calls r call →
        ∃ now, t.before.world.reading? r.owner = some now ∧ reading + period < now) ∧
    (∀ before s since, past = before ++ s :: since → (∃ timeout, s.Sets r timeout 0) →
      (∀ u ∈ since, ∀ timeout period, ¬ u.Sets r timeout period) →
      ∀ call, t.Calls r call → ∀ u ∈ since, ∀ call, ¬ u.Calls r call) := by
  refine ⟨fun reading timeout hsince call hcalls => hcalls.after_timeout h hsince,
    fun reading period hp hsince => ?_, ?_⟩
  · have harmed := h.since
      (I := fun m => m.world.Has r (Entry.Times (Transition.ArmedFor (reading + period))))
      hsince (fun _ hfires => hfires.armedFor hp)
      fun _ hnot => Transition.armedFor_keeps hnot.1 hnot.2.1 hnot.2.2
    refine ⟨fun e tm he ht => ?_, fun call hcalls => hcalls.after_deadline harmed⟩
    obtain ⟨tm', ht', hd⟩ := harmed.2 e he
    obtain rfl := Option.some.inj (ht.symm.trans ht')
    exact hd
  · rintro before s since hpast ⟨timeout, hset⟩ hnotset call hcalls u hu call' hcalled
    exact hset.called_once h hpast hnotset hu hcalled hcalls

/-- A loop with one timer, which is due after one millisecond and then every three. -/
def Machine.ticking : Machine :=
  ((Machine.create (World.create ⟨1000000, 5000, false⟩ .standIn)).submit
    (.newContext .none .scenario)).submit (.create none "tick" (.timer 1 3) ⟨[], false⟩)

/-- A run of the loop that has waited for the timer. -/
def Machine.ticked : Machine := (Machine.ticking.submit (.run none ∅)).step

/-- A timer that is set to be called once, in a history that leads up to its call. -/
theorem Machine.chime_history : ∃ (before : List Transition) (s u w t : Transition) (call : Call),
    History (before ++ s :: [u, w]) t.before ∧ s.Sets ⟨0, 0, 0⟩ 1 0 ∧
      (∀ v ∈ [u, w], ∀ timeout period, ¬ v.Sets ⟨0, 0, 0⟩ timeout period) ∧
      t.Calls ⟨0, 0, 0⟩ call := by
  have hmade : ((Machine.create (World.create ⟨1000000, 5000, false⟩ .standIn)).submit
      (.newContext .none .scenario)).Reachable :=
    (Machine.Reachable.start _ _).submit _ (by decide +kernel) (by decide +kernel)
  obtain ⟨past, hpast⟩ := hmade.history
  -- the timer is set, the run is entered and waits, and the timer is called
  obtain ⟨s, hs, hs', hsdeed, hset⟩ := hpast.submit
    (.create none "chime" (.timer 1 0) ⟨[], false⟩) (by decide +kernel) (by decide +kernel)
  obtain ⟨u, hu, -, hudeed, hrun⟩ := hset.submit (.run none ∅) (by decide +kernel)
    (by decide +kernel)
  obtain ⟨w, hw, -, hwdeed, hwaited⟩ := hrun.dispatch (by decide +kernel) (by decide +kernel)
  obtain ⟨t, ht, ht', htdeed, -⟩ := hwaited.dispatch (by decide +kernel) (by decide +kernel)
  have hpassing : t.before.config.standings = [⟨0, .passing ⟨Mask.only .timer, 0, none⟩⟩] := by
    rw [ht]
    decide +kernel
  have hcalling : t.after.config.standings =
      [⟨0, .calling ⟨Mask.only .timer, 0, none⟩ ⟨0, ⟨0, 0⟩⟩⟩] := by
    rw [ht']
    decide +kernel
  have hcalls : ∃ call, t.Calls ⟨0, 0, 0⟩ call := by
    refine Transition.calls_of_standings htdeed hpassing hcalling ?_
    rw [ht]
    decide +kernel
  obtain ⟨call, hcalls⟩ := hcalls
  refine ⟨past, s, u, w, t, call, ?_, ?_, ?_, hcalls⟩
  · have hsplit : past ++ s :: [u, w] = past ++ [s] ++ [u] ++ [w] := by simp
    rw [hsplit, ht]
    exact hwaited
  · refine Or.inr (Or.inl ⟨⟨none, none, _, _, _, hsdeed, rfl⟩, ?_, ?_⟩)
    · rw [hs]; rfl
    · rw [hs']; exact Option.some_ne_none _
  · intro v hv timeout period hsets
    have hone : v = u ∨ v = w := by simpa using hv
    rcases hone with rfl | rfl
    · exact hsets.not_enters ⟨none, _, ∅, some 1001, hudeed⟩
    · exact Transition.Assigns.not_dispatch (Or.inl ⟨timeout, period, hsets⟩) hwdeed

/-- The timer is armed when the run is entered, and called once its timeout has passed. From then on
it is due three milliseconds after the call. A timer that was set without a period and is called has
not been called before. -/
theorem timers_fire_as_set_ticking : (∃ (past : List Transition) (t u : Transition) (call : Call),
    History past t.before ∧ t.before = Machine.ticked ∧ u.before = t.after ∧
    Since (fun s => s.Arms ⟨0, 0, 0⟩ 1000 1)
      (fun s => (∀ call, ¬ s.Calls ⟨0, 0, 0⟩ call) ∧
        ∀ reading timeout, ¬ s.Arms ⟨0, 0, 0⟩ reading timeout) past ∧
    t.Calls ⟨0, 0, 0⟩ call ∧
    (∃ now, t.before.world.reading? 0 = some now ∧ 1000 + 1 < now) ∧
    t.Fires ⟨0, 0, 0⟩ 1005 3 ∧
    ∀ e tm, u.before.world.meant? ⟨0, 0, 0⟩ = some e → e.payload.timer? = some tm →
      tm.deadline = some (1005 + 3)) ∧
    ∃ (before : List Transition) (s u w t : Transition) (call : Call),
      History (before ++ s :: [u, w]) t.before ∧ s.Sets ⟨0, 0, 0⟩ 1 0 ∧ t.Calls ⟨0, 0, 0⟩ call ∧
        ∀ v ∈ [u, w], ∀ call, ¬ v.Calls ⟨0, 0, 0⟩ call := by
  obtain ⟨before, s₁, u₁, w₁, t₁, call₁, hchime, hsets, hnotset, hrings⟩ := Machine.chime_history
  have honce := (timers_fire_as_set hchime ⟨0, 0, 0⟩).2.2 before s₁ [u₁, w₁] rfl ⟨1, hsets⟩ hnotset
    call₁ hrings
  have hmade : Machine.ticking.Reachable :=
    ((Machine.Reachable.start _ _).submit _ (by decide +kernel) (by decide +kernel)).submit _
      (by decide +kernel) (by decide +kernel)
  obtain ⟨past, hpast⟩ := hmade.history
  -- the run is entered and waits, the timer is called, and its callback returns
  obtain ⟨s, hs, hs', hsdeed, hrun⟩ := hpast.submit (.run none ∅) (by decide +kernel)
    (by decide +kernel)
  obtain ⟨w, hw, -, hwdeed, hwaited⟩ := hrun.dispatch (by decide +kernel) (by decide +kernel)
  obtain ⟨t, ht, ht', htdeed, hcalled⟩ := hwaited.dispatch (by decide +kernel) (by decide +kernel)
  obtain ⟨u, hu, -, -⟩ := hcalled.dispatch (by decide +kernel) (by decide +kernel)
  have hhistory : History (past ++ [s] ++ [w]) t.before := ht.symm ▸ hwaited
  have hut : u.before = t.after := hu.trans ht'.symm
  have harms : s.Arms ⟨0, 0, 0⟩ 1000 1 := by
    refine ⟨?_, ?_, Or.inr ⟨⟨none, _, ∅, some 1001, hsdeed⟩, ?_⟩⟩
    · rw [hs]; rfl
    · rw [hs']; exact ⟨_, _, rfl, rfl, rfl⟩
    · rw [hs]; exact ⟨_, _, rfl, rfl, rfl⟩
  have hwaits : ∀ call, ¬ w.Calls ⟨0, 0, 0⟩ call := by
    intro call hcalls
    obtain ⟨pass, hp⟩ := hcalls.1.passing (congrArg Machine.stack hw)
    contradiction
  have hpassing : t.before.config.standings = [⟨0, .passing ⟨Mask.only .timer, 0, none⟩⟩] := by
    rw [ht]
    decide +kernel
  have hcalling : t.after.config.standings =
      [⟨0, .calling ⟨Mask.only .timer, 0, some 1008⟩ ⟨0, ⟨0, 0⟩⟩⟩] := by
    rw [ht']
    decide +kernel
  have hcalls : ∃ call, t.Calls ⟨0, 0, 0⟩ call := by
    refine Transition.calls_of_standings htdeed hpassing hcalling ?_
    rw [ht]
    decide +kernel
  have hfires : t.Fires ⟨0, 0, 0⟩ 1005 3 := by
    refine ⟨hcalls, ?_, ?_⟩
    · rw [ht]; rfl
    · rw [ht]; exact ⟨_, _, rfl, rfl, rfl⟩
  obtain ⟨call, hcalls⟩ := hcalls
  have hsince : Since (fun s => s.Arms ⟨0, 0, 0⟩ 1000 1)
      (fun s => (∀ call, ¬ s.Calls ⟨0, 0, 0⟩ call) ∧
        ∀ reading timeout, ¬ s.Arms ⟨0, 0, 0⟩ reading timeout) (past ++ [s] ++ [w]) :=
    (since_done harms).extend ⟨hwaits, fun reading timeout h => h.not_dispatch hwdeed⟩
  have hfirst := (timers_fire_as_set hhistory ⟨0, 0, 0⟩).1 1000 1 hsince call hcalls
  have hagain := (timers_fire_as_set (hut ▸ History.step t hhistory) ⟨0, 0, 0⟩).2.1 1005 3
    (by decide) (since_done hfires)
  exact ⟨⟨_, t, u, call, hhistory, ht, hut, hsince, hcalls, hfirst, hfires, hagain.1⟩, before, s₁, u₁,
    w₁, t₁, call₁, hchime, hsets, hrings, honce⟩

end EventLoop
