import EventLoop.Proofs.Deadline

/-!
# Bounded waits

The wait for a deadline lasts just until a timer with this deadline is due. In the pass after it the
timer has its turn and is called, so that the loop does not spin on a deadline. The run may know a
deadline that no timer has any more: a thread that stops a timer through a handle does not wake the
dispatcher. So the pass calls nobody if another thread has stopped the last timer with the deadline
before the pass began, or sets, starts or stops it in the pass before its turn.
-/
namespace EventLoop

/-! ### Timers that are overdue -/

/-- An active timer is past its deadline and on the way of a pass that nothing but time has
begun. -/
structure Machine.Overdue (m : Machine) (r : WatcherRef) (d : Nat) : Prop where
  going : m.abort = none
  passes : ∃ pass, m.config.StandsAt r.owner (some (.passing pass)) ∧ pass.signals = ∅
  running : m.world.isRunning r.owner = true
  ahead : ∃ c, m.world.context? r.owner = some c ∧ r.index ∈ c.roster.remaining
  ticks : m.world.Ticks r d
  late : ∃ us, m.world.micros? r.owner = some us ∧ d < toMillis us

namespace Transition

variable {t : Transition} {r : WatcherRef} {id d : Nat} {stage : Stage}

/-- No abort lets a pass begin. -/
theorem BeginsPass.going (h : t.BeginsPass id) (hgoing : t.before.abort = none) :
    t.after.abort = none := by
  obtain ⟨⟨deadline, hst⟩, signals, stage, hst', hsignals⟩ := h
  obtain ⟨a, below, hm, ha, ⟨-, hafter⟩ | ⟨⟨world, hsame⟩, -⟩⟩ := t.of_idle hst not_false
  · obtain ⟨c, hc⟩ : ∃ c, t.before.world.context? id = some c := t.state.1.present _ hst
    obtain rfl : a.context = id := congrArg Standing.context ha
    have hp : a.phase = .waiting := phase_of_waiting (congrArg Standing.stage ha)
    rw [Machine.step_waiting hm (World.loop?_of_context? hc) hp] at hafter
    rw [hafter]
    rcases Machine.stepWaiting_frame t.before a below _ with habort | hstack
    · exact habort.trans hgoing
    · rw [Machine.config, hafter, hstack] at hst'
      obtain rfl := hst'.unique t.state.1 hst
      contradiction
  · exact (congrArg Machine.abort hsame).trans hgoing

/-- A run that may wait has waited for the deadline, and nothing has woken it. The clock has gone on
for as long as the wait was to last, at least. -/
structure WaitsOut (t : Transition) (id d : Nat) : Prop where
  waits : ∃ a below l us us', t.before.AtWait a below l ∧ a.context = id ∧
    a.flags.has .nonblock = false ∧ a.deadline = some d ∧
    (l.context.wakeups.wait (Mask.full Signal)
      (Machine.waitTimeout t.before.world a l.context)).2 = .elapsed us ∧
    t.after.world.micros? id = some us' ∧ t.before.world.now l.context + us ≤ us'
  passes : t.after.config.Passes id ∅

theorem WaitsOut.stands (h : t.WaitsOut id d) :
    t.before.config.StandsAt id (some (.waiting (some d))) := by
  obtain ⟨a, below, l, us, us', hwait, rfl, -, hdeadline, -⟩ := h.waits
  have ha := Config.standsAt_of_mem (hwait.stack ▸ List.mem_cons_self : a ∈ t.before.stack)
  rwa [Activation.standing, hwait.waiting, hdeadline] at ha

theorem WaitsOut.beginsPass (h : t.WaitsOut id d) : t.BeginsPass id := by
  obtain ⟨stage', hst', hsignals⟩ := h.passes
  exact ⟨⟨_, h.stands⟩, ∅, stage', hst', hsignals⟩

/-- A wait for a deadline was for a timer that has it still. -/
theorem WaitsOut.ticks (h : t.WaitsOut id d) (hon : t.before.config.OnTime id d stage) :
    ∃ r, r.owner = id ∧ t.after.world.Ticks r d := by
  obtain ⟨c, c', signals, hbegun⟩ := h.beginsPass.begun
  have hst := h.stands
  obtain ⟨a, below, l, us, us', hwait, rfl, -, -, helapsed, -⟩ := h.waits
  obtain rfl := hon.stands.unique t.state.1 hst
  rcases hon.dated rfl with ⟨r, hr, e, he, hd⟩ | ⟨c, hc, hraised⟩
  · have htold : t.after.world.Told r (some e) (t.after.world.meant? r) := he ▸ hbegun.told r hr
    exact ⟨r, hr, htold.ticks hd⟩
  -- the signal would have cut the wait short
  · obtain rfl := Option.some.inj ((World.loop?_eq_some.mp hwait.loop).1.symm.trans hc)
    obtain ⟨signals', hwoken, -⟩ := Wakeups.woken_of_raised hraised
      (Machine.waitTimeout t.before.world a l.context)
    rw [hwoken] at helapsed
    contradiction

/-- After a wait for a deadline, whatever timer has this deadline is overdue. -/
theorem WaitsOut.overdue (h : t.WaitsOut r.owner d) (hd : (d + 1) * 1000 < 2 ^ 64)
    (hticks : t.after.world.Ticks r d) : t.after.Overdue r d := by
  obtain ⟨stage', hst', hsignals⟩ := h.passes
  obtain ⟨c, c', signals, hbegun⟩ := h.beginsPass.begun
  obtain rfl := hst'.unique t.state_after.1 hbegun.stands
  obtain ⟨e, he', hd'⟩ := hticks
  have htold := hbegun.told r rfl
  rw [he'] at htold
  have he := htold.before_of_deadline hd'
  obtain ⟨a, below, l, us, us', hwait, hid, hblock, hdeadline, helapsed, hus, hle⟩ := h.waits
  refine ⟨h.beginsPass.going hwait.going, ⟨_, hbegun.stands, Option.some.inj hsignals⟩,
    hbegun.running, ⟨c', hbegun.after, hbegun.mem he (Entry.need_of_deadline hd')⟩, ⟨e, he', hd'⟩,
    us', hus, ?_⟩
  -- the wait was to last until the deadline is past
  obtain ⟨b, hb, hleast⟩ := timeUntilDue_isLeast (t.before.world.now l.context) hd
  have htimeout : Machine.waitTimeout t.before.world a l.context = some b := by
    rw [Machine.waitTimeout, hblock, hdeadline, hb]
    rfl
  rw [htimeout] at helapsed
  obtain rfl := Option.some.inj (Wakeups.timeout_of_elapsed helapsed)
  exact Nat.lt_of_lt_of_le hleast.1 (Nat.div_le_div_right hle)

/-- An overdue timer stays so as long as no watcher is called, nobody meddles with it, and the clock
does not go back. -/
theorem overdue_keeps (hcalls : ∀ r' call, t.Calls r' call → r'.owner ≠ r.owner)
    (hmeddles : ¬ t.Meddles r d) (hlate : t.before.Overdue r d)
    (hclock : ∀ us us', t.before.world.micros? r.owner = some us →
      t.after.world.micros? r.owner = some us' → us ≤ us') : t.after.Overdue r d := by
  obtain ⟨hgoing, ⟨pass, hst, hsignals⟩, hrun, ⟨c, hc, hahead⟩, hticks, us, hus, hdue⟩ := hlate
  obtain ⟨⟨stage, hst', hsignals'⟩, c', hc', -⟩ :=
    t.passes_on ⟨_, hst, congrArg some hsignals⟩ hrun hc hahead
  have hidle' := not_calling hcalls hst not_false hst'
  have hticks' := (ticks_between hst not_false hst' hrun (fun call hcall => hcalls r call hcall rfl)
    hticks).resolve_right hmeddles
  obtain ⟨pass', rfl⟩ : ∃ pass', stage = .passing pass' := by
    cases stage with
    | waiting => contradiction
    | passing pass' => exact ⟨pass', rfl⟩
    | calling => exact absurd trivial hidle'
  refine ⟨?_, ⟨pass', hst', Option.some.inj hsignals'⟩, (runs_on_between hst not_false hst' hrun).1,
    ?_, hticks', t.after.world.now c', ?_, ?_⟩
  · obtain ⟨a, below, hm, ha, ⟨-, hafter⟩ | ⟨⟨world, hsame⟩, -⟩⟩ := t.of_idle hst not_false
    · rw [hafter]
      exact (Machine.step_of_passing hm (phase_of_stage (congrArg Standing.stage ha))).2.trans
        hgoing
    · exact (congrArg Machine.abort hsame).trans hgoing
  · obtain ⟨e, he, hd⟩ := hticks
    obtain ⟨e', he', hd'⟩ := hticks'
    refine (t.visited_or_ahead ⟨_, hst, congrArg some hsignals⟩ hrun ⟨c, hc, hahead⟩ he
      (Entry.need_of_deadline hd) (by decide) he' (Entry.need_of_deadline hd')
      (by decide)).resolve_left ?_
    -- at its turn the timer would be called
    rintro ⟨ms, hms, hnone | ⟨call, hcall⟩⟩
    · rw [World.reading?_eq, hus] at hms
      exact Entry.visit_of_due hd (Option.some.inj hms ▸ hdue) hnone
    · exact hcalls r call hcall rfl
  · rw [World.micros?, hc', Option.map_some]
  · have hle := hclock us _ hus (by rw [World.micros?, hc', Option.map_some])
    exact Nat.lt_of_lt_of_le hdue (Nat.div_le_div_right hle)

end Transition

/-- The run of the context stays in the pass until a watcher is called. -/
def Machine.ComesToCall (m : Machine) (id : Nat) : Prop :=
  ∃ n, (∀ k ≤ n, (Machine.step^[k] m).config.Passes id ∅) ∧
    ∃ (t : Transition) (r : WatcherRef) (call : Call), t.before = Machine.step^[n] m ∧
      t.after = (Machine.step^[n] m).step ∧ t.Calls r call ∧ r.owner = id

theorem Machine.Overdue.comesToCall {m : Machine} {r : WatcherRef} {d : Nat} (hm : m.Reachable)
    (h : m.Overdue r d) : m.ComesToCall r.owner := by
  -- the pass waits for nothing, so what is left of it to go through decreases
  induction hgo : m.toGo 0 using WellFoundedLT.induction generalizing m with
  | ind go ih =>
    subst hgo
    obtain ⟨pass, hst, hsignals⟩ := h.passes
    obtain ⟨a, below, hstack, ha⟩ := innermost (reachable_pass hm).1 hst not_false
    have hp : a.phase = .passing pass :=
      Transition.phase_of_stage (congrArg Standing.stage ha)
    have hnext : m.next? = none := next?_of_idle hstack (ha ▸ not_false)
    let t : Transition := ⟨m, .dispatch, m.step, hm,
      .dispatched (hstack ▸ List.cons_ne_nil a below) h.going hnext⟩
    have hpasses : m.config.Passes r.owner ∅ := ⟨_, hst, congrArg some hsignals⟩
    have hless : m.step.toGo 0 < m.toGo 0 := by
      obtain ⟨hs, -, hlent⟩ := reachable_pass hm
      obtain ⟨c, hc⟩ := hs.present _ hst
      have hid : a.context = r.owner := congrArg Standing.context ha
      have hl : m.world.loop? a.context = some _ := hid ▸ World.loop?_of_context? hc
      rw [step_passing hstack hl hp]
      exact stepPassing_toGo hs hstack hl hlent hp
    by_cases hcalls : ∃ r' call, t.Calls r' call ∧ r'.owner = r.owner
    · obtain ⟨r', call, hcalls, hr⟩ := hcalls
      refine ⟨0, fun k hk => ?_, t, r', call, rfl, rfl, hcalls, hr⟩
      rw [Nat.le_zero.mp hk]
      exact hpasses
    · have hmeddles : ¬ t.Meddles r d := by
        rintro ⟨-, _, ⟨_, _, hdeed, -⟩, -⟩
        contradiction
      have hlate : m.step.Overdue r d := Transition.overdue_keeps (t := t)
        (fun r' call hc hr => hcalls ⟨r', call, hc, hr⟩) hmeddles h fun us us' hus hus' => by
          obtain ⟨c, hc, -⟩ := Option.map_eq_some_iff.mp hus
          obtain ⟨c', hc', -⟩ := Option.map_eq_some_iff.mp hus'
          have hsame := Transition.micros?_of_now (t := t) (step_of_passing hstack hp).1 hc hc'
          exact Nat.le_of_eq (Option.some.inj (hus.symm.trans (hsame.symm.trans hus')))
      obtain ⟨n, hstays, t', r', call, hbefore, hafter, hcalls', hr⟩ :=
        ih _ hless t.reachable_after hlate rfl
      refine ⟨n + 1, fun k hk => ?_, t', r', call, ?_, ?_, hcalls', hr⟩
      · cases k with
        | zero => exact hpasses
        | succ k =>
          rw [Function.iterate_succ_apply]
          exact hstays k (Nat.le_of_succ_le_succ hk)
      · rw [hbefore, Function.iterate_succ_apply]
      · rw [hafter, Function.iterate_succ_apply]

/-! ### Waits -/

/-- In the lull since a run was entered or began a pass, it has not ended and has called no watcher.
Then it has waited for the deadline, and in the pass that followed the clock has not gone back. -/
structure SleptFor (past : List Transition) (id d : Nat) (lull : List Transition) (b : Transition)
    (pass : List Transition) : Prop where
  since : ∃ earlier s, past = earlier ++ s :: (lull ++ b :: pass) ∧
    (s.Enters id ∨ s.BeginsPass id)
  quiet : ∀ u ∈ lull, ¬ u.Leaves id ∧ ∀ r call, u.Calls r call → r.owner ≠ id
  waits : b.WaitsOut id d
  fits : (d + 1) * 1000 < 2 ^ 64
  steady : ∀ u ∈ pass, ∀ us us', u.before.world.micros? id = some us →
    u.after.world.micros? id = some us' → us ≤ us'

/-- Another thread has seen to it that no timer with the deadline is due in the pass. -/
inductive Forestalled (id d : Nat) (lull : List Transition) (b : Transition)
    (pass : List Transition) : Prop
  /-- The last of them was stopped, and when the pass begins there is none. -/
  | halted {u} : u ∈ lull → u.HaltsLast id d →
      (∀ r, r.owner = id → ¬ b.after.world.Ticks r d) → Forestalled id d lull b pass
  /-- Each of them is set, started or stopped in the pass. -/
  | meddled : (∃ r, r.owner = id ∧ b.after.world.Ticks r d) →
      (∀ r, r.owner = id → b.after.world.Ticks r d → ∃ u ∈ pass, u.Meddles r d) →
      Forestalled id d lull b pass

namespace History

variable {past lull pass : List Transition} {m : Machine} {id d : Nat} {b : Transition}

/-- Unless another thread stops the last timer with the deadline, there is one after the wait. -/
theorem ticks_of_slept (h : History past m) (hslept : SleptFor past id d lull b pass)
    (hhalts : ∀ u ∈ lull, ¬ u.HaltsLast id d) : ∃ r, r.owner = id ∧ b.after.world.Ticks r d := by
  obtain ⟨earlier, s, hpast, hbegins⟩ := hslept.since
  have hbefore : History (earlier ++ s :: lull) b.before :=
    h.before (by rw [hpast, List.append_assoc, List.cons_append])
  obtain ⟨stage, hon⟩ := hbefore.since (P := (· = s)) (Q := fun u => u ∈ lull)
    (I := fun m => ∃ stage, m.config.OnTime id d stage) ⟨earlier, s, lull, rfl, rfl, fun _ hu => hu⟩
    (fun _ hu => hu ▸ hbegins.elim (fun h => h.onTime d) (fun h => h.onTime d))
    fun u hu ⟨stage, hon⟩ =>
      Transition.onTime_keeps (hslept.quiet u hu).2 (hhalts u hu) (hslept.quiet u hu).1 hon
  exact hslept.waits.ticks hon

/-- A timer with the deadline is called in the pass, unless another thread meddles with it. -/
theorem comes_to_call {r : WatcherRef} (h : History past m)
    (hslept : SleptFor past r.owner d lull b pass) (hticks : b.after.world.Ticks r d)
    (hcalls : ∀ u ∈ pass, ∀ r' call, u.Calls r' call → r'.owner ≠ r.owner)
    (hmeddles : ∀ u ∈ pass, ¬ u.Meddles r d) : m.ComesToCall r.owner := by
  obtain ⟨earlier, s, hpast, -⟩ := hslept.since
  have hsplit : past = (earlier ++ s :: lull) ++ b :: pass := by
    rw [hpast, List.append_assoc, List.cons_append]
  have hlate : m.Overdue r d := h.since (P := (· = b)) (Q := fun u => u ∈ pass)
    (I := fun m => m.Overdue r d) ⟨_, b, pass, hsplit, rfl, fun _ hu => hu⟩
    (fun _ hu => hu ▸ hslept.waits.overdue hslept.fits hticks) fun u hu hlate =>
      Transition.overdue_keeps (hcalls u hu) (hmeddles u hu) hlate (hslept.steady u hu)
  exact hlate.comesToCall h.reachable

end History

/-- A wait for a deadline is exact, so that the loop does not spin on it. The timeout is the least
after which a timer with this deadline fires. If the run's first wait, or a wait after a pass that
called no watcher, is for a deadline and lasts that long, the pass that follows comes to call a
watcher, provided that the clock does not go back. The exception is that another thread stops the
last timer that has the deadline, before the wait is over, or sets, starts or stops in the pass
whatever timer has it. -/
theorem bounded_wait_exact :
    (∀ now d, (d + 1) * 1000 < 2 ^ 64 → ∃ b, timeUntilDue now (some d) = some b ∧
      IsLeast {b | d < toMillis (now + b)} b ∧
      ∀ t : Timer, t.deadline = some d → IsLeast {b | (t.fire (toMillis (now + b))).2 ≠ .idle} b) ∧
    ∀ {past : List Transition} {m : Machine} (_ : History past m) {id d : Nat}
      {lull pass : List Transition} {b : Transition}, SleptFor past id d lull b pass →
      (∃ u ∈ pass, ∃ r call, u.Calls r call ∧ r.owner = id) ∨ m.ComesToCall id ∨
        Forestalled id d lull b pass := by
  refine ⟨fun now d hd => ?_, ?_⟩
  · obtain ⟨b, hb, hleast⟩ := timeUntilDue_isLeast now hd
    refine ⟨b, hb, hleast, fun t ht => ?_⟩
    simpa only [Timer.fires_iff ht] using hleast
  intro past m h id d lull pass b hslept
  by_cases hticks : ∃ r, r.owner = id ∧ b.after.world.Ticks r d
  · by_contra hnot
    simp only [not_or, not_exists, not_and] at hnot
    obtain ⟨hcalls, hcomes, hforestalled⟩ := hnot
    refine hforestalled (.meddled hticks ?_)
    rintro r rfl hr
    by_contra hmeddles
    simp only [not_exists, not_and] at hmeddles
    exact hcomes (h.comes_to_call hslept hr hcalls hmeddles)
  · right; right
    by_contra hforestalled
    refine hticks (h.ticks_of_slept hslept fun u hu hhalts => hforestalled (.halted hu hhalts ?_))
    exact fun r hr hd => hticks ⟨r, hr, hd⟩

namespace Transition

variable {t : Transition} {id d : Nat}

/-- What is to be seen of a wait that has lasted until its deadline is past. -/
theorem waitsOut_of_seen {m : Machine} (now us : Nat) (hb : t.before = m) (hb' : t.after = m.step)
    (hst : m.config.StandsAt id (some (.waiting (some d))))
    (hflags : m.stack.head?.map Activation.flags = some ∅) (hgoing : m.abort.isNone = true)
    (hloop : (m.world.loop? id).map (fun l => (l.context.running, l.context.roster.isEmpty,
      l.context.wakeups, m.world.now l.context)) = some (true, false, Wakeups.empty, now))
    (hdue : timeUntilDue now (some d) = some us)
    (hlater : m.step.world.micros? id = some (now + us))
    (hst' : m.step.config.StandsAt id (some (.passing ⟨∅, 0, none⟩))) : t.WaitsOut id d := by
  subst hb
  obtain ⟨a, below, hstack, ha⟩ := Machine.innermost t.state.1 hst not_false
  have hwaiting : a.phase = .waiting := phase_of_waiting (congrArg Standing.stage ha)
  obtain rfl : a.context = id := congrArg Standing.context ha
  have hdeadline : a.deadline = some d := by
    rw [Activation.standing, hwaiting] at ha
    exact Stage.waiting.inj (congrArg Standing.stage ha)
  rw [hstack, List.head?_cons, Option.map_some, Option.some.injEq] at hflags
  obtain ⟨l, hl, hseen⟩ := Option.map_eq_some_iff.mp hloop
  simp only [Prod.mk.injEq] at hseen
  obtain ⟨hrunning, hlinked, hwakeups, hnow⟩ := hseen
  have hblock : a.flags.has .nonblock = false := by
    rw [hflags]
    decide
  refine ⟨⟨a, below, l, us, now + us, ⟨hstack, Option.isNone_iff_eq_none.mp hgoing, hwaiting, hl,
    hrunning, hlinked⟩, rfl, hblock, hdeadline, ?_, hb' ▸ hlater,
    Nat.le_of_eq (congrArg (· + us) hnow)⟩, _, hb' ▸ hst', rfl⟩
  rw [Machine.waitTimeout, hblock, hwakeups, hnow, hdeadline, hdue]
  rfl

end Transition

/-- A run that waits is in no pass. -/
theorem Machine.not_passes {m : Machine} {id : Nat} {signals : Signals} (deadline : Option Nat)
    (h : m.config.standings = [⟨id, .waiting deadline⟩]) : ¬ m.config.Passes id signals := by
  rintro ⟨stage, hst, hsignals⟩
  rw [Config.StandsAt, h] at hst
  obtain rfl : stage = .waiting deadline := by simpa using hst
  contradiction

/-- A run that ends its pass within so many steps, none of which is a call, does not come to
call. -/
theorem Machine.not_comesToCall {m : Machine} {id n : Nat}
    (hends : ¬ (Machine.step^[n] m).config.Passes id ∅)
    (hquiet : ∀ k < n, (Machine.step^[k + 1] m).stack.head?.map Activation.context = some id ∧
      (Machine.step^[k + 1] m).called? = none) : ¬ m.ComesToCall id := by
  rintro ⟨k, hstays, t, r, call, -, hafter, hcalls, hr⟩
  have hk : k < n := by
    by_contra hle
    exact hends (hstays n (Nat.le_of_not_lt hle))
  obtain ⟨hid, hidle⟩ := hquiet k hk
  rw [Function.iterate_succ_apply', ← hafter] at hid hidle
  exact (Transition.quiet_of_idle hid hidle).2 r call hcalls hr

/-- A loop with one remote timer, which is due after one millisecond, and a handle of the timer. -/
def Machine.napping : Machine :=
  (((Machine.create (World.create ⟨1000000, 0, false⟩ .standIn)).submit
    (.newContext .none .scenario)).submit
      (.create none "nap" (.remoteTimer 1 0) ⟨[], false⟩)).submit
        (.watcher none "nap" (.timerHandle "alarm"))

/-- A run of the loop that has found the timer not yet due, and is about to wait for it. -/
def Machine.drowsy : Machine := Machine.step^[3] (Machine.napping.submit (.run none ∅))

/-- The first pass of the run calls nobody. -/
theorem Machine.drowsy_history : ∃ (earlier : List Transition) (s : Transition)
    (lull : List Transition), History (earlier ++ s :: lull) Machine.drowsy ∧ s.BeginsPass 0 ∧
      ∀ u ∈ lull, u.deed = .dispatch ∧ ¬ u.Leaves 0 ∧ ∀ r call, u.Calls r call → r.owner ≠ 0 := by
  have hrun : (Machine.napping.submit (.run none ∅)).Reachable :=
    ((((Machine.Reachable.start _ _).submit _ (by decide +kernel) (by decide +kernel)).submit _
      (by decide +kernel) (by decide +kernel)).submit _ (by decide +kernel)
        (by decide +kernel)).submit _ (by decide +kernel) (by decide +kernel)
  obtain ⟨earlier, hearlier⟩ := hrun.history
  -- the wait that setting the timer cuts short, the visit of the timer, and the end of the pass
  obtain ⟨s, hs, hs', -, hpass⟩ := hearlier.dispatch (by decide +kernel) (by decide +kernel)
  obtain ⟨u, -, hu, hudeed, hvisited⟩ := hpass.dispatch (by decide +kernel) (by decide +kernel)
  obtain ⟨v, -, hv, hvdeed, hpassed⟩ := hvisited.dispatch (by decide +kernel) (by decide +kernel)
  refine ⟨earlier, s, [u, v], ?_, ⟨⟨some 1001, ?_⟩, Mask.only .timer, ?_⟩, ?_⟩
  · have hpast : earlier ++ s :: [u, v] = earlier ++ [s] ++ [u] ++ [v] := by simp
    exact hpast ▸ hpassed
  · rw [hs]
    exact List.mem_cons_self
  · rw [hs']
    exact ⟨_, List.mem_cons_self, rfl⟩
  · intro x hx
    have hone : x = u ∨ x = v := by simpa using hx
    rcases hone with rfl | rfl
    · exact ⟨hudeed, Transition.quiet_of_idle (by rw [hu]; decide +kernel)
        (by rw [hu]; decide +kernel)⟩
    · exact ⟨hvdeed, Transition.quiet_of_idle (by rw [hv]; decide +kernel)
        (by rw [hv]; decide +kernel)⟩

/-- The wait after it lasts two milliseconds, until the deadline is past. -/
theorem Machine.drowsy_waitsOut {b : Transition} (hb : b.before = Machine.drowsy)
    (hb' : b.after = Machine.drowsy.step) : b.WaitsOut 0 1001 :=
  Transition.waitsOut_of_seen 1000000 2000 hb hb' (by decide +kernel) (by decide +kernel)
    (by decide +kernel) (by decide +kernel) (by decide) (by decide +kernel) (by decide +kernel)

/-- The timer is called in the pass after the wait. -/
theorem bounded_wait_exact_napping :
    (∃ b, timeUntilDue 1000000 (some 1001) = some b ∧
      IsLeast {b | 1001 < toMillis (1000000 + b)} b) ∧
    ∃ (past lull : List Transition) (b : Transition), History past Machine.drowsy.step ∧
      SleptFor past 0 1001 lull b [] ∧ Machine.drowsy.step.ComesToCall 0 := by
  refine ⟨(bounded_wait_exact.1 1000000 1001 (by decide)).imp fun b h => ⟨h.1, h.2.1⟩, ?_⟩
  obtain ⟨earlier, s, lull, hlull, hbegins, hquiet⟩ := Machine.drowsy_history
  obtain ⟨b, hb, hb', -, hwaited⟩ := hlull.dispatch (by decide +kernel) (by decide +kernel)
  have hslept : SleptFor (earlier ++ s :: lull ++ [b]) 0 1001 lull b [] :=
    ⟨⟨earlier, s, by simp, Or.inr hbegins⟩, fun u hu => (hquiet u hu).2,
      Machine.drowsy_waitsOut hb hb', by decide, fun _ hu => nomatch hu⟩
  refine ⟨_, lull, b, hwaited, hslept, ?_⟩
  rcases bounded_wait_exact.2 hwaited hslept with ⟨_, hu, -⟩ | hcomes | hforestalled
  · contradiction
  · exact hcomes
  · cases hforestalled with
    | halted hu hhalts =>
      obtain ⟨_, -, -, _, _, hdeed, -⟩ := hhalts.halts
      exact nomatch (hquiet _ hu).1.symm.trans hdeed
    | meddled hticks hmeddles =>
      obtain ⟨r, hr, hd⟩ := hticks
      obtain ⟨u, hu, -⟩ := hmeddles r hr hd
      contradiction

/-- If another thread stops the timer before the wait is over, the run waits for the deadline all
the same, and the pass after the wait calls nobody. Nor does it call anybody if another thread
starts the timer again when the pass has begun. -/
theorem bounded_wait_forestalled :
    (∃ (past lull : List Transition) (b : Transition) (m : Machine), History past m ∧
      SleptFor past 0 1001 lull b [] ∧ ¬ m.ComesToCall 0) ∧
    ∃ (past lull pass : List Transition) (b : Transition) (m : Machine), History past m ∧
      SleptFor past 0 1001 lull b pass ∧ (∀ u ∈ lull, u.deed = .dispatch) ∧
      (∀ u ∈ pass, ∀ r call, u.Calls r call → r.owner ≠ 0) ∧ ¬ m.ComesToCall 0 := by
  obtain ⟨earlier, s, lull, hlull, hbegins, hquiet⟩ := Machine.drowsy_history
  constructor
  · obtain ⟨x, -, hx, -, hhalted⟩ := hlull.interfere (.timerHandle "alarm" .stop) rfl
    obtain ⟨b, hb, hb', -, hwaited⟩ := hhalted.dispatch (by decide +kernel) (by decide +kernel)
    have hstopped : ¬ x.Leaves 0 ∧ ∀ r call, x.Calls r call → r.owner ≠ 0 :=
      Transition.quiet_of_idle (by rw [hx]; decide +kernel) (by rw [hx]; decide +kernel)
    refine ⟨_, lull ++ [x], b, _, hwaited, ⟨⟨earlier, s, by simp, Or.inr hbegins⟩, ?_, ?_,
      by decide, fun _ hu => nomatch hu⟩, ?_⟩
    · intro u hu
      rcases List.mem_append.mp hu with hu | hu
      · exact (hquiet u hu).2
      · exact List.mem_singleton.mp hu ▸ hstopped
    · exact Transition.waitsOut_of_seen 1000000 2000 hb hb' (by decide +kernel) (by decide +kernel)
        (by decide +kernel) (by decide +kernel) (by decide) (by decide +kernel) (by decide +kernel)
    · exact Machine.not_comesToCall (n := 2) (Machine.not_passes none (by decide +kernel))
        (by decide +kernel)
  · obtain ⟨b, hb, hb', -, hwaited⟩ := hlull.dispatch (by decide +kernel) (by decide +kernel)
    obtain ⟨y, hy, hy', -, hrestarted⟩ := hwaited.interfere (.timerHandle "alarm" .start) rfl
    have hstarted : ¬ y.Leaves 0 ∧ ∀ r call, y.Calls r call → r.owner ≠ 0 :=
      Transition.quiet_of_idle (by rw [hy']; decide +kernel) (by rw [hy']; decide +kernel)
    refine ⟨_, lull, [y], b, _, hrestarted, ⟨⟨earlier, s, by simp, Or.inr hbegins⟩,
      fun u hu => (hquiet u hu).2, Machine.drowsy_waitsOut hb hb', by decide, ?_⟩,
      fun u hu => (hquiet u hu).1, ?_, ?_⟩
    · intro u hu us us' hus hus'
      obtain rfl := List.mem_singleton.mp hu
      rw [hy] at hus
      rw [hy'] at hus'
      have hsame : Machine.drowsy.step.world.micros? 0 =
          (Machine.drowsy.step.world.perform none (.timerHandle "alarm" .start)).1.micros? 0 := by
        decide +kernel
      exact Nat.le_of_eq (Option.some.inj (hus.symm.trans (hsame.trans hus')))
    · intro u hu
      exact List.mem_singleton.mp hu ▸ hstarted.2
    · exact Machine.not_comesToCall (n := 2) (Machine.not_passes (some 1003) (by decide +kernel))
        (by decide +kernel)

end EventLoop
