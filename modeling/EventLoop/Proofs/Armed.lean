import EventLoop.Proofs.Coverage

/-!
# The timers of a running loop are armed

Nothing leaves an active timer of a running loop without a deadline: it is armed when it is set, or
when a run is entered, and a timer that fires and stays active is armed again. So the dispatcher
never meets a dormant timer, and what it arms at a visit is armed already.
-/
namespace EventLoop

namespace Timer

variable {t : Timer} {now ms d : Nat}

/-- A timer is due as long after it was armed as it is set to, at once if it has but a period. -/
theorem deadlineFrom_of_isSet (h : t.isSet = true) :
    t.deadlineFrom now = some (now + t.timeout) := by
  by_cases ht : t.timeout > 0
  · rw [deadlineFrom, if_pos ht]
  · have hp : t.period > 0 := by simpa [isSet, ht] using h
    rw [deadlineFrom, if_neg ht, if_pos hp, Nat.eq_zero_of_not_pos ht, Nat.add_zero]

theorem set_deadline {timeout period : Nat} (h : (t.set timeout period (some now)).isSet = true) :
    (t.set timeout period (some now)).deadline = some (now + timeout) :=
  deadlineFrom_of_isSet (t := { t with timeout, period }) h

theorem arm_of_deadline (ms : Nat) (h : t.deadline = some d) : t.arm ms = t := by
  rw [arm, h]
  rfl

theorem arm_of_dormant (h : t.deadline = none) (hset : t.isSet = true) :
    (t.arm ms).deadline = some (ms + t.timeout) := by
  rw [arm, h]
  exact deadlineFrom_of_isSet hset

theorem arm_timeout : (t.arm ms).timeout = t.timeout := by
  unfold arm
  split <;> rfl

theorem arm_period : (t.arm ms).period = t.period := by
  unfold arm
  split <;> rfl

end Timer

namespace Entry

variable {e : Entry} {t : Timer}

theorem activeTimer?_eq_some :
    e.activeTimer? = some t ↔ e.isActive = true ∧ e.payload.timer? = some t := by
  unfold activeTimer?
  split
  · next h => exact (and_iff_right h).symm
  · next h => exact iff_of_false (fun hn => nomatch hn) fun hn => h hn.1

/-- An active timer is set to something. -/
theorem Fits.isSet {polled : Bool} (h : e.Fits polled) (ht : e.activeTimer? = some t) :
    t.isSet = true := by
  obtain ⟨ha, ht⟩ := activeTimer?_eq_some.mp ht
  cases hp : e.payload with
  | timer t₀ =>
    simp only [Fits, hp] at h
    simp only [hp, Payload.timer?, Option.some.injEq] at ht
    simp only [isActive, hp] at ha
    exact ht ▸ h ha
  | remote r =>
    simp only [Fits, hp] at h
    simp only [hp, Payload.timer?, Option.some.injEq] at ht
    simp only [isActive, hp] at ha
    exact ht ▸ h.2.2 ha
  | io => rw [hp] at ht; contradiction
  | event => rw [hp] at ht; contradiction

end Entry

/-- While the loop is running, every active timer has a deadline. -/
def Context.Armed (c : Context) : Prop :=
  c.running = true → ∀ i g e t, c.watchers.at? i = some (g, e) → e.activeTimer? = some t →
    ∃ d, t.deadline = some d

namespace Loop

variable {l l' : Loop} {i : Nat} {x : SlotChange}

/-- An operation on a running loop leaves an active timer in its slot only if it arms it. -/
theorem Operation.armed {before : Option (Generation × Entry)} (h : l.Operation i before x)
    (hrun : l.context.running = true) {g : Generation} {e : Entry} {t : Timer}
    (ha : x.after = some (g, e)) (ht : e.activeTimer? = some t) :
    before = x.after ∨ ∃ d, t.deadline = some d := by
  have hnow : ∀ now, l.context.armingTime now = some (toMillis now) := fun now => if_pos hrun
  obtain ⟨hactive, ht⟩ := Entry.activeTimer?_eq_some.mp ht
  have hset : ∀ {t₀ : Timer} {timeout period now : Nat},
      t₀.set timeout period (l.context.armingTime now) = t → t.isSet = true →
      ∃ d, t.deadline = some d := by
    intro t₀ timeout period now h hs
    rw [hnow] at h
    exact ⟨_, h ▸ Timer.set_deadline (h ▸ hs)⟩
  cases h with
  | abandoned => contradiction
  | woken => exact Or.inl rfl
  | timerCreated timeout period now h =>
    obtain ⟨-, rfl⟩ := Prod.mk.inj (Option.some.inj ha)
    obtain rfl := Option.some.inj ht
    exact Or.inr (hset h.symm hactive)
  | remoteCreated timeout period now h =>
    obtain ⟨-, rfl⟩ := Prod.mk.inj (Option.some.inj ha)
    obtain rfl := Option.some.inj ht
    exact Or.inr (hset h.symm hactive)
  | timerSet timeout period now hp h =>
    obtain ⟨-, rfl⟩ := Prod.mk.inj (Option.some.inj ha)
    obtain rfl := Option.some.inj ht
    exact Or.inr (hset h.symm hactive)
  | remoteSet timeout period now hp hreach h =>
    obtain ⟨-, rfl⟩ := Prod.mk.inj (Option.some.inj ha)
    obtain rfl := Option.some.inj ht
    exact Or.inr (hset h.symm hactive)
  | remoteStopped =>
    obtain ⟨-, rfl⟩ := Prod.mk.inj (Option.some.inj ha)
    contradiction
  | stopped =>
    obtain ⟨-, rfl⟩ := Prod.mk.inj (Option.some.inj ha)
    rw [stopped_isActive] at hactive
    contradiction
  | released => contradiction
  | eventCreated | ioCreated | ioStarted | ioRefused | posted | delivered =>
    obtain ⟨-, rfl⟩ := Prod.mk.inj (Option.some.inj ha)
    contradiction

theorem Changed.armed (hc : l.Changed l' i x) (ho : l.Operation i (l.context.watchers.at? i) x)
    (h : l.context.Armed) : l'.context.Armed := by
  intro hrun j g e t he ht
  rw [hc.running] at hrun
  by_cases hj : j = i
  · subst hj
    rw [hc.at_self] at he
    rcases ho.armed hrun he ht with hsame | hd
    · exact h hrun j g e t (hsame.trans he) ht
    · exact hd
  · rw [hc.at_other j hj] at he
    exact h hrun j g e t he ht

/-- One turn of a pass leaves no active timer dormant. -/
theorem Sound.armed_turn (hs : l.Sound) (hi : l.context.roster.next.2 = some i)
    (hrun : l.context.running = true) (now : Nat) (signals : Signals) (h : l.context.Armed) :
    (Context.visit { l.context with roster := l.context.roster.next.1 } now signals
      i).context.Armed := by
  obtain ⟨g, e, roster, hat, hv, -⟩ := hs.turn hi now signals
  rw [hv]
  intro _ j g' e' t he ht
  by_cases hj : j = i
  · subst hj
    rw [Arena.at?_put_self hat] at he
    obtain ⟨-, rfl⟩ := Prod.mk.inj (Option.some.inj he)
    obtain ⟨d, hd, -⟩ := Entry.visit_deadline (hs.context.fits j g e hat) ht
    exact ⟨d, hd⟩
  · rw [Arena.at?_put_other hj] at he
    exact h hrun j g' e' t he ht

end Loop

namespace Context

variable {c c' : Context}

theorem armed_of_stopped (h : c.running = false) : c.Armed := by
  intro hrun
  rw [h] at hrun
  contradiction

theorem Armed.moved (h : c.Armed) (hm : c.Moved c') : c'.Armed := by
  obtain ⟨l, l', hs, hm, rfl, rfl⟩ := hm
  cases hm with
  | slot ho hc => exact hc.armed ho h
  | exitRequested he => exact he ▸ h
  | exited he => exact he ▸ armed_of_stopped rfl
  | refused he => exact he ▸ h

theorem Armed.recalled (h : c.Armed) (hr : c.Recalled c') : c'.Armed := by
  obtain ⟨watchers, rfl, hslots⟩ := hr
  intro hrun i g e t he ht
  obtain ⟨e₀, f, he₀, rfl⟩ := hslots i g e he
  exact h hrun i g e₀ t he₀ ht

end Context

/-- Entering a run arms all timers that are active. -/
theorem armed_entering (w : World) {l : Loop} (hs : l.Sound) : (w.entering l).1.Armed := by
  intro _ i g e t he ht
  rw [World.entering_at hs] at he
  obtain ⟨v, hv, heq⟩ := Option.map_eq_some_iff.mp he
  obtain ⟨-, rfl⟩ := Prod.mk.inj heq
  obtain ⟨d, hd, -⟩ := Entry.arm_deadline (hs.context.fits i v.1 v.2 hv) ht
  exact ⟨d, hd⟩

theorem Dispatch.armed {l l' : Loop} {now : Nat} {stage : Stage} {stage' : Option Stage}
    (hs : l.Sound) (hd : Dispatch l now stage stage' l') (h : l.context.Armed) :
    l'.context.Armed := by
  cases hd with
  | finished => exact h
  | honoured => exact Context.armed_of_stopped rfl
  | woken => exact h
  | visited hc hi hrun =>
    subst hc
    exact hs.armed_turn hi hrun _ _ h
  | called hc hi hrun =>
    subst hc
    exact (hs.armed_turn hi hrun _ _ h).recalled (Context.recalled_lend _ _)
  | missed hc hi hrun =>
    subst hc
    exact (hs.armed_turn hi hrun _ _ h).recalled (Context.recalled_lend _ _)
  | returned => exact h.recalled (Context.recalled_return _ _ _)
  | passed => exact h
  | passedLast => exact h

theorem stageInvariant_armed : Config.StageInvariant fun _ => Context.Armed where
  create := fun _ _ _ => Context.armed_of_stopped rfl
  moved := fun _ _ _ hm h => h.moved hm
  entered := fun w _ hs _ => armed_entering w hs
  dispatched := fun _ _ _ _ _ hs hd h => hd.armed hs h

/-- In every reachable state the active timers of all running loops have deadlines. -/
theorem Machine.Reachable.armed {m : Machine} (h : m.Reachable) {id : Nat} {c : Context}
    (hc : m.world.context? id = some c) : c.Armed := stageInvariant_armed.reachable h hc

end EventLoop
