import EventLoop.Proofs.Kinds
import EventLoop.Proofs.Range

/-!
# How late a deadline can be

Clocks count microseconds in 64-bit numbers, so that their readings in milliseconds are small, and
leave room for the longest timeout or period above them. As long as both clocks, that of the scenario
and that of the host, show 64-bit numbers, every deadline is at most the longest timeout after the latest reading, and no sum
of a reading and a timeout or period exceeds a 64-bit number.
-/
namespace EventLoop

/-- The longest timeout, counted from the latest reading of a clock. -/
def latestDeadline : Nat := counterMax / 1000 + (2 ^ 63 - 1)

/-- Times and deadline of the timer are such as can be reckoned with in 64-bit numbers. -/
structure Timer.Reckonable (tm : Timer) : Prop extends tm.InRange where
  deadline : ∀ d, tm.deadline = some d → d ≤ latestDeadline

theorem latestDeadline_le : latestDeadline ≤ counterMax := by decide

/-- There is room for a timeout or a period above a reading. -/
theorem add_le_latestDeadline {ms n : Nat} (hms : ms ≤ counterMax / 1000) (hn : n < 2 ^ 63) :
    ms + n ≤ latestDeadline :=
  Nat.add_le_add hms (Nat.le_pred_of_lt hn)

theorem toMillis_le {us : Nat} (h : us ≤ counterMax) : toMillis us ≤ counterMax / 1000 :=
  Nat.div_le_div_right h

/-- Whichever clock is read shows a 64-bit number. -/
def World.ShowsCounters (w : World) : Prop :=
  ∀ source, w.clock.readOn w.host.time source ≤ counterMax

theorem World.reading?_le {w : World} {id ms : Nat} (hclock : w.ShowsCounters)
    (h : w.reading? id = some ms) : ms ≤ counterMax / 1000 := by
  obtain ⟨c, -, rfl⟩ := Option.map_eq_some_iff.mp h
  exact toMillis_le (hclock c.clock)

theorem World.armingTime?_le {w : World} {id ms : Nat} (hclock : w.ShowsCounters)
    (h : w.armingTime? id = some ms) : ms ≤ counterMax / 1000 :=
  World.reading?_le hclock (World.armingTime?_eq_some.mp h).2

namespace Timer

variable {tm : Timer} {ms d : Nat}

/-- A timer is due no later than its timeout after it is armed. -/
theorem le_of_deadlineFrom (h : tm.deadlineFrom ms = some d) : d ≤ ms + tm.timeout := by
  unfold deadlineFrom at h
  split at h
  · exact Nat.le_of_eq (Option.some.inj h).symm
  · split at h
    · exact Option.some.inj h ▸ Nat.le_add_right ms tm.timeout
    · contradiction

namespace Reckonable

theorem set {a b : Nat} {now : Option Nat} (ha : a < 2 ^ 63) (hb : b < 2 ^ 63)
    (hnow : ∀ ms, now = some ms → ms ≤ counterMax / 1000) : (tm.set a b now).Reckonable where
  timeout := ha
  period := hb
  deadline := by
    intro d hd
    obtain ⟨ms, hms, hd⟩ := Option.bind_eq_some_iff.mp hd
    exact Nat.le_trans (le_of_deadlineFrom hd) (add_le_latestDeadline (hnow ms hms) ha)

theorem arm (h : tm.Reckonable) (hms : ms ≤ counterMax / 1000) : (tm.arm ms).Reckonable where
  toInRange := h.toInRange.arm
  deadline := by
    intro d hd
    rw [Timer.arm] at hd
    split at hd
    · exact Nat.le_trans (le_of_deadlineFrom hd) (add_le_latestDeadline hms h.timeout)
    · exact h.deadline d hd

theorem fire (h : tm.Reckonable) (hms : ms ≤ counterMax / 1000) : (tm.fire ms).1.Reckonable where
  toInRange := h.toInRange.fire
  deadline := by
    intro d hd
    rw [Timer.fire] at hd
    split at hd
    · split at hd
      · contradiction
      · exact Option.some.inj hd ▸ add_le_latestDeadline hms h.period
    · exact h.deadline d hd

theorem timing {t : Transition} {r : WatcherRef} {active active' : Bool} {tm' : Timer}
    (h : tm.Reckonable) (hclock : t.before.world.ShowsCounters)
    (htiming : t.Timing r tm active tm' active') : tm'.Reckonable := by
  cases htiming with
  | kept => exact h
  | assigned _ hassigns htm =>
    obtain ⟨ha, hb⟩ : _ < 2 ^ 63 ∧ _ < 2 ^ 63 := h.toInRange.assigns hassigns
    exact htm ▸ set ha hb fun ms => World.armingTime?_le hclock
  | armed _ hms => exact h.arm (World.reading?_le hclock hms)
  | fired _ hms => exact h.fire (World.reading?_le hclock hms)

end Reckonable

end Timer

theorem Entry.Born.reckonable {e : Entry} {now : Option Nat} {spec : WatcherSpec} {tm : Timer}
    (h : e.Born now spec) (hnow : ∀ ms, now = some ms → ms ≤ counterMax / 1000)
    (ht : e.payload.timer? = some tm) : tm.Reckonable := by
  cases h with
  | timer hcheck hset | remoteTimer hcheck hset =>
    obtain rfl := Option.some.inj ht
    obtain ⟨ha, hb⟩ := checkTimes_lt hcheck
    exact hset ▸ .set ha hb hnow
  | event => contradiction
  | io => contradiction

/-- As long as the clocks show 64-bit numbers, all timers can be reckoned with in
such numbers. -/
theorem History.reckonable {past : List Transition} {m : Machine} (h : History past m)
    (hclock : ∀ t ∈ past, t.before.world.ShowsCounters) :
    m.world.EveryTimer Timer.Reckonable := by
  induction h with
  | start clock host =>
    intro r e tm he
    contradiction
  | step t _ ih =>
    have hnow : t.before.world.ShowsCounters := hclock t (by simp)
    refine t.everyTimer (fun hborn => hborn.reckonable fun ms => World.armingTime?_le hnow)
      (fun hmakes htm => htm.timing hnow hmakes) (ih fun u hu => hclock u ?_)
    exact List.mem_append_left _ hu

/-! ### Starting a timer anew -/

theorem Timer.InRange.toInt {tm : Timer} (h : tm.InRange) :
    (Int64.ofNat tm.timeout).toInt = tm.timeout ∧ (Int64.ofNat tm.period).toInt = tm.period :=
  ⟨Int64.toInt_ofNat_of_lt h.timeout, Int64.toInt_ofNat_of_lt h.period⟩

/-- Starting what a handle finds succeeds if it is a timer. -/
theorem Loop.timerStart_answer {l : Loop} (hs : l.Sound) (now : Nat) {h : Handle}
    (hrange : ∀ e tm, l.context.find h = .ok e → e.payload.timer? = some tm → tm.InRange) :
    (l.timerStart now h).2 = .ok () ∨ (l.timerStart now h).2 = .error .invalidWatcher ∨
      (l.timerStart now h).2 = .error (.wrongKind .timer) := by
  unfold timerStart
  cases hf : l.context.find h with
  | error err => exact Or.inr (Or.inl (congrArg _ (Context.find_error hf)))
  | ok e =>
    dsimp only
    cases ht : e.payload.timer? with
    | none => exact Or.inr (Or.inr rfl)
    | some tm =>
      have htimes := hrange e tm hf ht
      exact Or.inl (timerSet_ok hs now hf ht (checkTimes_ofNat htimes.timeout htimes.period))

theorem RemoteTimer.restart_answer (t : RemoteTimer) (now : Option Nat) :
    (∃ t', t.restart now = .ok t') ∨ t.restart now = .error .invalidWatcher := by
  unfold restart assign
  split
  · exact Or.inr rfl
  · exact Or.inl ⟨_, rfl⟩

/-- The step starts a timer anew, in its context or through a handle. -/
inductive Command.StartsTimer : Command → Prop
  | watcher (context name) : StartsTimer (.watcher context name .timerStart)
  | timerHandle (handle) : StartsTimer (.timerHandle handle .start)

namespace World

variable {w : World} {current : Option Nat} {command : Command}

theorem TimesInRange.find (hrange : w.TimesInRange) (hs : w.Sound) {l : Loop} {id : Nat}
    (hl : w.loop? id = some l) {h : Handle} {e : Entry} {tm : Timer}
    (hf : l.context.find h = .ok e) (ht : e.payload.timer? = some tm) : tm.InRange := by
  refine hrange (l.context.refTo h.key.index e) e tm ?_ ht
  have hc : w.context? l.context.id = some l.context :=
    (hs.loop hl).1.symm ▸ (loop?_eq_some.mp hl).1
  exact (meant?_of_context? hc).trans
    (Context.meant?_eq_some.mpr ⟨_, (Context.find_ok hf).2, rfl⟩)

/-- The times that a timer has are never refused. -/
theorem not_outOfRange_of_start (hs : w.Sound) (hrange : w.TimesInRange)
    (hstart : command.StartsTimer) (timeout period : Int64) :
    (w.perform current command).2 ≠ .answered (.failed (.outOfRange timeout period)) := by
  intro h
  cases hstart with
  | watcher context name =>
    rw [perform] at h
    cases hu : w.usable? current ((context <|> current).getD 0) with
    | none =>
      rw [withLoop_of_unusable _ hu] at h
      cases h
    | some l =>
      rw [withLoop_of_usable _ hu, withName] at h
      split at h
      · next handle _ =>
        have hl := (usable?_eq_some hu).1
        rcases Loop.timerStart_answer (hs.loop hl).2 (w.now l.context) (h := handle)
          (fun e tm => hrange.find hs hl) with ha | ha | ha <;>
        · dsimp only [actOnWatcher] at h
          rw [ha] at h
          cases h
      · cases h
  | timerHandle handle =>
    rw [perform, withName] at h
    split at h
    · next r _ =>
      unfold actOnTimerHandle at h
      split at h
      · cases h
      · next t _ =>
        rcases t.restart_answer (w.armingTime? r.owner) with ⟨t', ha⟩ | ha <;>
        · dsimp only at h
          rw [ha] at h
          cases h
    · cases h

end World

/-- As long as the clocks show 64-bit numbers, the arithmetic of timers stays within
such numbers: timeouts and periods fit even into those with a sign, every deadline is at most the
longest timeout after the latest reading, and at every reading a clock can show, timeout and period
can be added to it. A timer that is started anew gets exactly the times that it has, and these are
never refused. -/
theorem timer_arithmetic_in_range {past : List Transition} {m : Machine} (h : History past m)
    (hclock : ∀ t ∈ past, t.before.world.ShowsCounters) :
    (∀ r e tm, m.world.meant? r = some e → e.payload.timer? = some tm →
      (tm.timeout < 2 ^ 63 ∧ tm.period < 2 ^ 63) ∧
      (∀ d, tm.deadline = some d → d ≤ counterMax / 1000 + (2 ^ 63 - 1)) ∧
      (∀ us ≤ counterMax, toMillis us + tm.timeout ≤ counterMax ∧
        toMillis us + tm.period ≤ counterMax) ∧
      (Int64.ofNat tm.timeout).toInt = tm.timeout ∧ (Int64.ofNat tm.period).toInt = tm.period) ∧
    ∀ current command, command.StartsTimer → ∀ timeout period,
      (m.world.perform current command).2 ≠ .answered (.failed (.outOfRange timeout period)) := by
  refine ⟨fun r e tm he ht => ?_, fun current command hstart => ?_⟩
  · have htm := h.reckonable hclock r e tm he ht
    refine ⟨⟨htm.timeout, htm.period⟩, htm.deadline, fun us hus => ?_, htm.toInRange.toInt⟩
    exact ⟨(add_le_latestDeadline (toMillis_le hus) htm.timeout).trans latestDeadline_le,
      (add_le_latestDeadline (toMillis_le hus) htm.period).trans latestDeadline_le⟩
  · exact World.not_outOfRange_of_start (reachable_pass h.reachable).1.world
      h.timesInRange hstart

/-- The latest deadline there can be: a run arms a timer with the longest timeout when the clock
shows the largest number. -/
theorem timer_arithmetic_in_range_longest : ∃ (past : List Transition) (m : Machine) (e : Entry)
    (tm : Timer), History past m ∧ (∀ t ∈ past, t.before.world.ShowsCounters) ∧
    m.world.clock.time = counterMax ∧ m.world.meant? ⟨0, 0, 0⟩ = some e ∧
    e.payload.timer? = some tm ∧ tm.timeout = 2 ^ 63 - 1 ∧ tm.period = 2 ^ 63 - 1 ∧
    tm.deadline = some (counterMax / 1000 + (2 ^ 63 - 1)) ∧
    (toMillis counterMax + tm.timeout ≤ counterMax ∧ toMillis counterMax + tm.period ≤ counterMax) ∧
    (Int64.ofNat tm.timeout).toInt = tm.timeout ∧
    (m.world.perform none (.watcher (some 0) "timer" .timerStart)).2 ≠
      .answered (.failed (.outOfRange Int64.maxValue Int64.maxValue)) := by
  obtain ⟨a, ha, -, -, hcontext⟩ := (History.start ⟨counterMax, 0, false⟩ .standIn).submit
    (.newContext .none .scenario) (by decide +kernel) (by decide +kernel)
  obtain ⟨b, hb, -, -, htimer⟩ := hcontext.submit
    (.create none "timer" (.timer Int64.maxValue Int64.maxValue) ⟨[], false⟩) (by decide +kernel)
    (by decide +kernel)
  obtain ⟨c, hc, -, -, hrun⟩ := htimer.submit (.run none (Mask.full RunFlag)) (by decide +kernel)
    (by decide +kernel)
  have hclock : ∀ t ∈ [] ++ [a] ++ [b] ++ [c], t.before.world.ShowsCounters := by
    intro t ht source
    simp only [List.nil_append, List.cons_append, List.mem_cons, List.not_mem_nil, or_false] at ht
    rcases ht with rfl | rfl | rfl
    · rw [ha]; cases source <;> decide +kernel
    · rw [hb]; cases source <;> decide +kernel
    · rw [hc]; cases source <;> decide +kernel
  obtain ⟨htimers, hstarts⟩ := timer_arithmetic_in_range hrun hclock
  obtain ⟨-, -, hroom, htimeout, -⟩ := htimers ⟨0, 0, 0⟩ _ _ rfl rfl
  exact ⟨_, _, _, _, hrun, hclock, by decide +kernel, rfl, rfl, by decide +kernel,
    by decide +kernel, by decide +kernel, hroom counterMax (Nat.le_refl _), htimeout,
    hstarts none _ (.watcher (some 0) "timer") _ _⟩

end EventLoop
