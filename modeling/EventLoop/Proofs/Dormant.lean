import EventLoop.Proofs.Expiry

/-!
# A timer is armed exactly while its loop is running

An active timer of a loop that is not running is dormant, whatever deadline it may have had before
it was stopped: exit stops all timers together with the loop, and a timer that is set from then on
is not armed. It is armed with the others when the next run is entered.
-/
namespace EventLoop

/-- While the loop is not running, no active timer has a deadline. -/
def Context.Dormant (c : Context) : Prop :=
  c.running = false → ∀ i g e t, c.watchers.at? i = some (g, e) → e.activeTimer? = some t →
    t.deadline = none

namespace Loop

variable {l l' : Loop} {i : Nat} {x : SlotChange}

/-- An operation on a loop that is not running leaves every timer that it sets dormant. -/
theorem Operation.dormant {before : Option (Generation × Entry)} (h : l.Operation i before x)
    (hrun : l.context.running = false) {g : Generation} {e : Entry} {t : Timer}
    (ha : x.after = some (g, e)) (ht : e.activeTimer? = some t) :
    before = x.after ∨ t.deadline = none := by
  have hnow : ∀ now, l.context.armingTime now = none := fun now => by
    rw [Context.armingTime, hrun]
    rfl
  obtain ⟨hactive, ht⟩ := Entry.activeTimer?_eq_some.mp ht
  have hset : ∀ {t₀ : Timer} {timeout period now : Nat},
      t₀.set timeout period (l.context.armingTime now) = t → t.deadline = none := by
    intro t₀ timeout period now h
    rw [← h, hnow]
    rfl
  cases h with
  | abandoned => contradiction
  | woken => exact Or.inl rfl
  | timerCreated timeout period now h =>
    obtain ⟨-, rfl⟩ := Prod.mk.inj (Option.some.inj ha)
    obtain rfl := Option.some.inj ht
    exact Or.inr (hset h.symm)
  | remoteCreated timeout period now h =>
    obtain ⟨-, rfl⟩ := Prod.mk.inj (Option.some.inj ha)
    obtain rfl := Option.some.inj ht
    exact Or.inr (hset h.symm)
  | timerSet timeout period now hp h =>
    obtain ⟨-, rfl⟩ := Prod.mk.inj (Option.some.inj ha)
    obtain rfl := Option.some.inj ht
    exact Or.inr (hset h.symm)
  | remoteSet timeout period now hp hreach h =>
    obtain ⟨-, rfl⟩ := Prod.mk.inj (Option.some.inj ha)
    obtain rfl := Option.some.inj ht
    exact Or.inr (hset h.symm)
  | remoteStopped =>
    obtain ⟨-, rfl⟩ := Prod.mk.inj (Option.some.inj ha)
    contradiction
  | stopped =>
    obtain ⟨-, rfl⟩ := Prod.mk.inj (Option.some.inj ha)
    rw [stopped_isActive] at hactive
    contradiction
  | released => contradiction
  | eventCreated | ioCreated | ioStarted | ioRefused | posted | delivered =>
    obtain ⟨-, rfl⟩ := Prod.mk.inj (Option.some.inj ha)
    contradiction

theorem Changed.dormant (hc : l.Changed l' i x) (ho : l.Operation i (l.context.watchers.at? i) x)
    (h : l.context.Dormant) : l'.context.Dormant := by
  intro hrun j g e t he ht
  rw [hc.running] at hrun
  by_cases hj : j = i
  · subst hj
    rw [hc.at_self] at he
    rcases ho.dormant hrun he ht with hsame | hd
    · exact h hrun j g e t (hsame.trans he) ht
    · exact hd
  · rw [hc.at_other j hj] at he
    exact h hrun j g e t he ht

end Loop

namespace Context

variable {c c' : Context}

theorem dormant_of_running (h : c.running = true) : c.Dormant := by
  intro hrun
  rw [h] at hrun
  contradiction

/-- Where nothing is active there is no timer to be armed. -/
theorem dormant_of_idle (h : ∀ i, Loop.Idle (c.watchers.at? i)) : c.Dormant := by
  intro _ i g e t he ht
  have ha := (Entry.activeTimer?_eq_some.mp ht).1
  rw [h i g e he] at ha
  contradiction

theorem Dormant.moved (h : c.Dormant) (hm : c.Moved c') : c'.Dormant := by
  obtain ⟨l, l', hs, hm, rfl, rfl⟩ := hm
  cases hm with
  | slot ho hc => exact hc.dormant ho h
  | exitRequested he => exact he ▸ h
  | exited he => exact he ▸ dormant_of_idle (Loop.idle_exit hs)
  | refused he => exact he ▸ h

theorem Dormant.recalled (h : c.Dormant) (hr : c.Recalled c') : c'.Dormant := by
  obtain ⟨watchers, rfl, hslots⟩ := hr
  intro hrun i g e t he ht
  obtain ⟨e₀, f, he₀, rfl⟩ := hslots i g e he
  exact h hrun i g e₀ t he₀ ht

end Context

/-- The dispatcher leaves no watcher active where it exits a loop, and leaves a loop that was stopped
before as it is, but for callbacks and the place of its run. -/
theorem Dispatch.of_stopped {l l' : Loop} {now : Nat} {stage : Stage} {stage' : Option Stage}
    (hs : l.Sound) (hd : Dispatch l now stage stage' l') (hstop : l'.context.running = false) :
    (∀ i, Loop.Idle (l'.context.watchers.at? i)) ∨ (l.context.running = false ∧
      ∃ c roster busy, l.context.Recalled c ∧ l'.context = { c with roster, busy }) := by
  cases hrun : l.context.running with
  | true => exact Or.inl (hd.idle_of_exit hs hrun hstop)
  | false =>
    refine Or.inr ⟨rfl, ?_⟩
    cases hd with
    | finished => exact ⟨_, _, _, Context.recalled_refl _, rfl⟩
    | returned => exact ⟨_, _, _, Context.recalled_return _ _ _, rfl⟩
    | passed => exact ⟨_, _, _, Context.recalled_refl _, rfl⟩
    | passedLast => exact ⟨_, _, _, Context.recalled_refl _, rfl⟩
    | honoured hr => exact nomatch hrun.symm.trans hr
    | woken hr => exact nomatch hrun.symm.trans hr
    | visited _ _ hr => exact nomatch hrun.symm.trans hr
    | called _ _ hr => exact nomatch hrun.symm.trans hr
    | missed _ _ hr => exact nomatch hrun.symm.trans hr

theorem Dispatch.dormant {l l' : Loop} {now : Nat} {stage : Stage} {stage' : Option Stage}
    (hs : l.Sound) (hd : Dispatch l now stage stage' l') (h : l.context.Dormant) :
    l'.context.Dormant := by
  intro hstop
  rcases hd.of_stopped hs hstop with hidle | ⟨-, c, roster, busy, hrecalled, hc⟩
  · exact Context.dormant_of_idle hidle hstop
  · have hbefore : c.Dormant := h.recalled hrecalled
    rw [hc] at hstop ⊢
    exact hbefore hstop

theorem stageInvariant_dormant : Config.StageInvariant fun _ => Context.Dormant where
  create := fun _ _ _ => Context.dormant_of_idle fun _ _ _ h => nomatch h
  moved := fun _ _ _ hm h => h.moved hm
  entered := fun _ _ hs _ => Context.dormant_of_running (World.entering_running hs)
  dispatched := fun _ _ _ _ _ hs hd h => hd.dormant hs h

/-- In every reachable state the active timers of loops that are not running are dormant. -/
theorem Machine.Reachable.dormant {m : Machine} (h : m.Reachable) {id : Nat} {c : Context}
    (hc : m.world.context? id = some c) : c.Dormant := stageInvariant_dormant.reachable h hc

namespace Transition

variable {t : Transition} {r : WatcherRef} {e : Entry} {tm : Timer} {timeout period : Int64}

/-- A run that is entered arms each dormant timer that is active, as long from now as the timer is
set to. -/
theorem Enters.arms_dormant (h : t.Enters r.owner) (he : t.before.world.meant? r = some e)
    (ht : e.activeTimer? = some tm) (hdormant : tm.deadline = none) :
    ∃ now e', t.before.world.reading? r.owner = some now ∧ t.after.world.meant? r = some e' ∧
      e'.activeTimer? = some { tm with deadline := some (now + tm.timeout) } := by
  obtain ⟨now, hnow, htold⟩ := h.effect
  obtain ⟨ha, htimer⟩ := Entry.activeTimer?_eq_some.mp ht
  obtain ⟨polled, hfits⟩ := t.state.1.world.fits he
  have harm := Entry.arm_timer? now htimer
  rw [if_pos ha] at harm
  have htimes : tm.arm now = { tm with deadline := some (now + tm.timeout) } := by
    rw [Timer.arm, hdormant, Timer.deadlineFrom_of_isSet (hfits.isSet ht)]
    rfl
  rw [he, Option.map_some] at htold
  -- polls tell a timer nothing
  cases hafter : t.after.world.meant? r with
  | none =>
    rw [hafter] at htold
    cases htold
  | some e' =>
    rw [hafter] at htold
    obtain rfl := htold.eq_of_kind (Entry.kind_ne_io harm)
    exact ⟨now, _, hnow, rfl,
      Entry.activeTimer?_eq_some.mpr ⟨Entry.arm_isActive.trans ha, htimes ▸ harm⟩⟩

/-- A run that is entered arms each active timer of a loop that was not running. -/
theorem Enters.arms (h : t.Enters r.owner) (hstop : t.before.world.isRunning r.owner = false)
    (he : t.before.world.meant? r = some e) (ht : e.activeTimer? = some tm) :
    ∃ now e', t.before.world.reading? r.owner = some now ∧ t.after.world.meant? r = some e' ∧
      e'.activeTimer? = some { tm with deadline := some (now + tm.timeout) } := by
  obtain ⟨c, hc, hm⟩ := World.meant?_eq_some.mp he
  obtain ⟨g, hat, -⟩ := Context.meant?_eq_some.mp hm
  rw [World.isRunning_of_context? hc] at hstop
  exact h.arms_dormant he ht (t.reachable.dormant hc hstop r.index g e tm hat ht)

/-- The loop is not running, and the timer waits with these times for the next run. -/
def Awaiting (r : WatcherRef) (a b : Nat) (m : Machine) : Prop :=
  m.world.isRunning r.owner = false ∧ m.world.Has r (Entry.Times fun tm _ => tm = ⟨a, b, none⟩)

/-- A timer that is set while its loop is not running waits for the next run. -/
theorem Sets.awaiting (h : t.Sets r timeout period)
    (hstop : t.before.world.isRunning r.owner = false) :
    ∃ a b, checkTimes timeout period = .ok (a, b) ∧ Awaiting r a b t.after := by
  obtain ⟨a, b, htimes, hassigned⟩ := h.assigned
  have hnow : t.before.world.armingTime? r.owner = none := by
    refine Option.eq_none_iff_forall_ne_some.mpr fun now hnow => ?_
    exact nomatch hstop.symm.trans (World.armingTime?_eq_some.mp hnow).1
  refine ⟨a, b, htimes, ?_, hassigned.1, fun e he => ?_⟩
  · by_contra hrun
    rw [Bool.not_eq_false] at hrun
    rcases t.isRunning hrun with hbefore | henters
    · exact nomatch hstop.symm.trans hbefore
    · exact h.not_enters henters
  · obtain ⟨tm, ht, htm, -⟩ := hassigned.2 e he
    rw [hnow] at htm
    exact ⟨tm, ht, htm⟩

/-- It goes on waiting until a run is entered, unless it is set or started once more. -/
theorem Awaiting.keeps {a b : Nat} (h : Awaiting r a b t.before) (henters : ¬ t.Enters r.owner)
    (hsets : ∀ timeout period, ¬ t.Sets r timeout period) (hstarts : ¬ t.Acts r .timerStart) :
    Awaiting r a b t.after := by
  refine ⟨?_, t.keeps_timer h.2 fun e tm e' tm' he ht he' ht' htiming htm => ?_⟩
  · by_contra hrun
    rw [Bool.not_eq_false] at hrun
    rcases t.isRunning hrun with hbefore | h
    · exact nomatch h.1.symm.trans hbefore
    · exact henters h
  · generalize e.isActive = active at htiming
    generalize e'.isActive = active' at htiming
    cases htiming with
    | kept => exact htm
    | armed h => exact absurd h henters
    | fired _ _ _ hd =>
      rw [htm] at hd
      contradiction
    | assigned hacts hassigns =>
      cases hassigns with
      | set => exact absurd (Or.inl hacts) (hsets _ _)
      | started => exact absurd hacts hstarts

end Transition

/-- An active timer has a deadline exactly while its loop is running. Where a run of a loop that is
not running is entered, its active timers get their deadlines, as long from then as they are set
to; and a timer that was set before, while the loop was not running, still has the times that were
asked for, and no deadline. -/
theorem armed_iff_running {past : List Transition} {m : Machine} (h : History past m)
    (r : WatcherRef) :
    (∀ e tm, m.world.meant? r = some e → e.activeTimer? = some tm →
      (tm.deadline.isSome = true ↔ m.world.isRunning r.owner = true)) ∧
    (∀ t : Transition, t.before = m → t.Enters r.owner → m.world.isRunning r.owner = false →
      ∀ e tm, m.world.meant? r = some e → e.activeTimer? = some tm →
        ∃ now e', m.world.reading? r.owner = some now ∧ t.after.world.meant? r = some e' ∧
          e'.activeTimer? = some { tm with deadline := some (now + tm.timeout) }) ∧
    ∀ timeout period,
      Since (fun s => s.Sets r timeout period ∧ s.before.world.isRunning r.owner = false)
        (fun s => ¬ s.Enters r.owner ∧ (∀ timeout period, ¬ s.Sets r timeout period) ∧
          ¬ s.Acts r .timerStart) past →
      ∃ a b, checkTimes timeout period = .ok (a, b) ∧ m.world.isRunning r.owner = false ∧
        ∀ e, m.world.meant? r = some e → e.payload.timer? = some ⟨a, b, none⟩ := by
  refine ⟨fun e tm he ht => ?_, ?_, fun timeout period hsince => ?_⟩
  · obtain ⟨c, hc, hm⟩ := World.meant?_eq_some.mp he
    obtain ⟨g, hat, -⟩ := Context.meant?_eq_some.mp hm
    rw [World.isRunning_of_context? hc]
    cases hrun : c.running with
    | true =>
      obtain ⟨d, hd⟩ := h.reachable.armed hc hrun r.index g e tm hat ht
      exact iff_of_true (hd ▸ rfl) rfl
    | false =>
      have hd := h.reachable.dormant hc hrun r.index g e tm hat ht
      exact iff_of_false (hd ▸ Bool.false_ne_true) Bool.false_ne_true
  · rintro t rfl henters hstop e tm he ht
    exact henters.arms hstop he ht
  · obtain ⟨before, s, after, rfl, ⟨hsets, hstop⟩, hq⟩ := hsince
    obtain ⟨a, b, htimes, hawaiting⟩ := hsets.awaiting hstop
    have hwaits : Transition.Awaiting r a b m := h.since (P := (· = s))
      ⟨before, s, after, rfl, rfl, hq⟩ (fun _ hs => hs ▸ hawaiting)
      fun _ hq hw => hw.keeps hq.1 hq.2.1 hq.2.2
    refine ⟨a, b, htimes, hwaits.1, fun e he => ?_⟩
    obtain ⟨tm, ht, rfl⟩ := hwaits.2.2 e he
    exact ht

/-- The timer is set while its loop is not running, and has no deadline then. The first run arms it,
and it is due one millisecond later. -/
theorem armed_iff_running_ticking : ∃ (past : List Transition) (s t : Transition),
    History (past ++ [s]) t.before ∧ t.before = Machine.ticking ∧ s.Sets ⟨0, 0, 0⟩ 1 3 ∧
    s.before.world.isRunning 0 = false ∧ t.Enters 0 ∧
    t.before.world.isRunning 0 = false ∧ t.after.world.isRunning 0 = true ∧
    (∃ e tm, t.before.world.meant? ⟨0, 0, 0⟩ = some e ∧ e.activeTimer? = some tm ∧
      e.payload.timer? = some ⟨1, 3, none⟩ ∧ ¬ tm.deadline.isSome = true) ∧
    ∃ e tm, t.after.world.meant? ⟨0, 0, 0⟩ = some e ∧ e.activeTimer? = some tm ∧
      tm.deadline = some (1000 + 1) ∧ tm.deadline.isSome = true := by
  have hmade : ((Machine.create (World.create ⟨1000000, 5000, false⟩ .standIn)).submit
      (.newContext .none .scenario)).Reachable :=
    (Machine.Reachable.start _ _).submit _ (by decide +kernel) (by decide +kernel)
  obtain ⟨past, hpast⟩ := hmade.history
  obtain ⟨s, hs, hs', hsdeed, hset⟩ := hpast.submit
    (.create none "tick" (.timer 1 3) ⟨[], false⟩) (by decide +kernel) (by decide +kernel)
  obtain ⟨t, ht, ht', htdeed, hrun⟩ := hset.submit (.run none ∅) (by decide +kernel)
    (by decide +kernel)
  have hsets : s.Sets ⟨0, 0, 0⟩ 1 3 := by
    refine Or.inr (Or.inl ⟨⟨none, none, _, _, _, hsdeed, rfl⟩, ?_, ?_⟩)
    · rw [hs]; rfl
    · rw [hs']; exact Option.some_ne_none _
  have hstop : s.before.world.isRunning 0 = false := by rw [hs]; rfl
  have hstill : t.before.world.isRunning 0 = false := by rw [ht]; rfl
  have hgoes : t.after.world.isRunning 0 = true := by rw [ht']; rfl
  have henters : t.Enters 0 := ⟨none, _, ∅, some 1001, htdeed⟩
  have hbefore : History (past ++ [s]) t.before := ht.symm ▸ hset
  obtain ⟨hiff, harms, htimes⟩ := armed_iff_running hbefore ⟨0, 0, 0⟩
  obtain ⟨a, b, hab, -, hkept⟩ := htimes 1 3 (since_done ⟨hsets, hstop⟩)
  obtain ⟨rfl, rfl⟩ : 1 = a ∧ 3 = b := Prod.mk.inj (Except.ok.inj hab)
  obtain ⟨e, he, hactive⟩ : ∃ e, t.before.world.meant? ⟨0, 0, 0⟩ = some e ∧
      e.isActive = true := by
    rw [ht]; exact ⟨_, rfl, rfl⟩
  have htm := Entry.activeTimer?_eq_some.mpr ⟨hactive, hkept e he⟩
  have hdormant := hiff e _ he htm
  rw [hstill] at hdormant
  obtain ⟨now, e', hnow, he', htm'⟩ := harms t rfl henters hstill e _ he htm
  obtain rfl : 1000 = now := by
    rw [ht] at hnow
    exact Option.some.inj hnow
  have harmed := ((armed_iff_running (History.step t hbefore) ⟨0, 0, 0⟩).1 e' _ he' htm').mpr hgoes
  exact ⟨past, s, t, hbefore, ht, hsets, hstop, henters, hstill, hgoes,
    ⟨e, _, he, htm, hkept e he, fun hsome => Bool.false_ne_true (hdormant.mp hsome)⟩,
    e', _, he', htm', rfl, harmed⟩

end EventLoop
