import EventLoop.Proofs.Expiry
import EventLoop.Proofs.Raised
import Mathlib.Order.Bounds.Basic

/-!
# Deadlines that a run knows

A run knows the earliest deadline from arming the timers, or from the pass before its next wait. As
long as no watcher is called, there is an active timer with this deadline, unless another thread has
stopped the last one; a thread that sets or starts one wakes the dispatcher besides.
-/
namespace EventLoop

/-! ### How long to wait -/

/-- The wait for a deadline lasts as long as it takes the clock to get past the deadline. -/
theorem timeUntilDue_isLeast (now : Nat) {d : Nat} (h : (d + 1) * 1000 < 2 ^ 64) :
    ∃ b, timeUntilDue now (some d) = some b ∧ IsLeast {b | d < toMillis (now + b)} b := by
  have hb : timeUntilDue now (some d) = some ((d + 1) * 1000 - now) := by
    simp only [timeUntilDue, Option.map_some, satMul, satAdd, counterMax, Option.some.injEq]
    omega
  refine ⟨_, hb, ?_, fun b hdue => ?_⟩
  · simp only [Set.mem_ofPred_eq, toMillis]
    omega
  · simp only [Set.mem_ofPred_eq, toMillis] at hdue
    omega

theorem Timer.fires_iff {t : Timer} {d ms : Nat} (hd : t.deadline = some d) :
    (t.fire ms).2 ≠ .idle ↔ d < ms := by
  refine ⟨Timer.due_of_fire hd, fun hdue hidle => ?_⟩
  rw [Timer.fire_idle_iff, Timer.isDue, hd] at hidle
  simp only [Bool.and_eq_false_iff, decide_eq_false_iff_not] at hidle
  omega

/-! ### Deadlines of watchers -/

/-- Whether the action may change the deadline of a timer, or stop the timer. -/
def WatcherAction.retimes : WatcherAction → Bool
  | .release => true
  | .timerSet _ _ => true
  | .timerStart => true
  | .timerStop => true
  | _ => false

namespace Entry

variable {e e' : Entry} {d ms : Nat} {signals : Signals} {now : Option Nat}
  {action : WatcherAction} {ok : Bool} {v : Option Entry}

theorem deadline?_eq_some : e.deadline? = some d ↔
    ∃ t, e.payload.timer? = some t ∧ e.isActive = true ∧ t.deadline = some d := by
  simp only [deadline?, Option.bind_eq_some_iff, activeTimer?_eq_some]
  exact exists_congr fun t => ⟨fun h => ⟨h.1.2, h.1.1, h.2⟩, fun h => ⟨⟨h.2.1, h.1⟩, h.2.2⟩⟩

theorem need_of_deadline (h : e.deadline? = some d) : e.need? = some .timer := by
  obtain ⟨t, ht, ha, -⟩ := deadline?_eq_some.mp h
  exact need_of_activeTimer (activeTimer?_eq_some.mpr ⟨ha, ht⟩)

/-- A timer that has a deadline is armed already. -/
theorem arm_of_deadline (h : e.deadline? = some d) : e.arm ms = e := by
  obtain ⟨t, ht, ha, hd⟩ := deadline?_eq_some.mp h
  have harm : t.arm ms = t := Timer.arm_of_deadline ms hd
  obtain ⟨serial, active, callback, payload⟩ := e
  cases payload with
  | timer t' =>
    obtain rfl := Option.some.inj ht
    simp [arm, harm]
  | remote r =>
    obtain ⟨timer, remoteActive, reachable⟩ := r
    obtain rfl := Option.some.inj ht
    obtain rfl : remoteActive = true := ha
    simp [arm, harm]
  | io => contradiction
  | event => contradiction

/-- A visit answers the deadline that the watcher has afterwards. -/
theorem visit_deadline_eq :
    (e.visit ms signals).deadline = (e.visit ms signals).entry.deadline? := by
  have hexpired : ∀ t : Timer, (t.fire ms).2 = .expired → (t.fire ms).1.deadline = none := by
    intro t ht
    unfold Timer.fire at ht ⊢
    split at ht
    · next hdue =>
      split at ht
      · next hp => rw [if_pos hdue, if_pos hp]
      · contradiction
    · contradiction
  obtain ⟨serial, active, callback, payload⟩ := e
  cases payload with
  | timer t =>
    cases active with
    | false => rfl
    | true =>
      cases hf : ((t.arm ms).fire ms).2 with
      | expired => simp [visit, deadline?, activeTimer?, isActive, hf, hexpired _ hf]
      | _ => simp [visit, deadline?, activeTimer?, isActive, Payload.timer?, hf]
  | remote r =>
    cases ha : r.active with
    | false => simp [visit, deadline?, activeTimer?, isActive, ha]
    | true =>
      cases hf : ((r.timer.arm ms).fire ms).2 with
      | expired => simp [visit, deadline?, activeTimer?, isActive, ha, hf, hexpired _ hf]
      | _ => simp [visit, deadline?, activeTimer?, isActive, Payload.timer?, ha, hf]
  | event | io =>
    cases active <;> simp only [visit] <;> split <;>
      simp [deadline?, activeTimer?, isActive, Payload.timer?]

/-- A timer that is visited and not called keeps its deadline. -/
theorem visit_keeps_deadline (h : e.deadline? = some d) (hn : (e.visit ms signals).events = none) :
    (e.visit ms signals).entry.deadline? = some d := by
  obtain ⟨t, ht, ha, hd⟩ := deadline?_eq_some.mp h
  obtain ⟨ht', ha', hidle⟩ := visit_timer ms signals ht ha hd
  rw [hidle.mp hn] at ha'
  rw [Timer.fire_of_idle (hidle.mp hn)] at ht'
  exact deadline?_eq_some.mpr ⟨t, ht', ha', hd⟩

/-- An active timer that is past its deadline is called at its visit. -/
theorem visit_of_due (h : e.deadline? = some d) (hdue : d < ms) :
    (e.visit ms signals).events ≠ none := by
  obtain ⟨t, ht, ha, hd⟩ := deadline?_eq_some.mp h
  obtain ⟨-, -, hidle⟩ := visit_timer ms signals ht ha hd
  exact fun hn => (Timer.fires_iff hd).mpr hdue (hidle.mp hn)

/-- Only some actions change the deadline of a timer. -/
theorem Acted.keeps_deadline (h : e.Acted now action ok v) (hd : e.deadline? = some d) :
    (∃ e', v = some e' ∧ e'.deadline? = some d) ∨ (ok = true ∧ action.retimes = true) := by
  obtain ⟨t, ht, -, -⟩ := deadline?_eq_some.mp hd
  cases h with
  | refused => exact Or.inl ⟨e, rfl, hd⟩
  | asked => exact Or.inl ⟨e, rfl, hd⟩
  | released => exact Or.inr ⟨rfl, rfl⟩
  | stopped hstops =>
    right
    rcases kind_of_timer? ht with hk | hk <;> rw [hk] at hstops <;>
      cases action <;> first | contradiction | exact ⟨rfl, rfl⟩
  | set => exact Or.inr ⟨rfl, rfl⟩
  | restarted => exact Or.inr ⟨rfl, rfl⟩
  | going hp => rw [hp] at ht; contradiction
  | started hp => rw [hp] at ht; contradiction
  | reaimed hp => rw [hp] at ht; contradiction
  | posted hp => rw [hp] at ht; contradiction

end Entry

namespace World

/-- The watcher is an active timer with this deadline. -/
def Ticks (w : World) (r : WatcherRef) (d : Nat) : Prop :=
  ∃ e, w.meant? r = some e ∧ e.deadline? = some d

/-- Polls leave timers as they are. -/
theorem Told.ticks {w : World} {r : WatcherRef} {e : Entry} {d : Nat}
    (h : w.Told r (some e) (w.meant? r)) (hd : e.deadline? = some d) : w.Ticks r d := by
  obtain ⟨e', he'⟩ := Option.ne_none_iff_exists'.mp h.after
  obtain ⟨t, ht, -, -⟩ := Entry.deadline?_eq_some.mp hd
  rw [he'] at h
  obtain rfl := h.eq_of_kind (Entry.kind_ne_io ht)
  exact ⟨e', he', hd⟩

/-- Polls give no timer a deadline. -/
theorem Told.before_of_deadline {w : World} {r : WatcherRef} {v : Option Entry} {e' : Entry}
    {d : Nat} (h : w.Told r v (some e')) (hd : e'.deadline? = some d) : v = some e' := by
  obtain ⟨e, rfl⟩ := h.before
  obtain ⟨t, ht, -, -⟩ := Entry.deadline?_eq_some.mp hd
  exact congrArg some (h.eq_of_kind (h.frame.2.2.2 ▸ Entry.kind_ne_io ht)).symm

end World

/-! ### Arming before a run -/

theorem sooner_eq_some {a b : Option Nat} {d : Nat} (h : sooner a b = some d) :
    a = some d ∨ b = some d := by
  cases a with
  | none => exact Or.inr h
  | some x =>
    cases b with
    | none => exact Or.inl h
    | some y =>
      have hmin : min x y = d := Option.some.inj h
      rcases Nat.le_total x y with hle | hle
      · exact Or.inl (congrArg some ((Nat.min_eq_left hle).symm.trans hmin))
      · exact Or.inr (congrArg some ((Nat.min_eq_right hle).symm.trans hmin))

/-- The deadline that arming answers is that of a timer which is armed. -/
theorem Context.armList_attained (ms : Nat) (L : List Nat) (hL : L.Nodup) :
    ∀ (c : Context) (bound : Option Nat) (d : Nat), (armList ms L c bound).2 = some d →
      bound = some d ∨ ∃ j ∈ L, ∃ v, c.watchers.at? j = some v ∧
        (v.2.arm ms).deadline? = some d := by
  induction L with
  | nil => exact fun _ _ _ h => Or.inl h
  | cons i L ih =>
    intro c bound d h
    obtain ⟨hi, hL⟩ := List.nodup_cons.mp hL
    obtain ⟨w₁, hc₁, hat₁, hd₁⟩ := armSlot_frame c ms i
    have hfold : armList ms (i :: L) c bound =
        armList ms L (c.armSlot ms i).1 (sooner bound (c.armSlot ms i).2) := rfl
    rw [hfold] at h
    rcases ih hL _ _ d h with hbound | ⟨j, hj, v, hv, hd⟩
    · rcases sooner_eq_some hbound with hbound | hslot
      · exact Or.inl hbound
      · obtain ⟨v, hv, hd⟩ := Option.bind_eq_some_iff.mp (hd₁.symm.trans hslot)
        exact Or.inr ⟨i, List.mem_cons_self, v, hv, hd⟩
    · have hji : j ≠ i := fun he => hi (he ▸ hj)
      rw [hc₁] at hv
      simp only [hat₁, armedAt, List.mem_singleton, if_neg hji] at hv
      exact Or.inr ⟨j, List.mem_cons_of_mem i hj, v, hv, hd⟩

/-- The deadline that a run knows when it is entered is that of an active timer. -/
theorem World.entering_attained {w : World} {l : Loop} (hs : l.Sound) {d : Nat}
    (h : (w.entering l).2 = some d) : ∃ r e, r.owner = l.context.id ∧
      (w.entering l).1.meant? r = some e ∧ e.deadline? = some d := by
  rcases Context.armList_attained (toMillis (w.now l.context)) l.context.roster.toList
    hs.context.roster.nodup { l.context with busy := true, running := true } none d h with
    hnone | ⟨j, -, v, hv, hd⟩
  · contradiction
  · refine ⟨⟨l.context.id, j, v.2.serial⟩, _, rfl, ?_, hd⟩
    have hm : l.context.meant? ⟨l.context.id, j, v.2.serial⟩ = some v.2 :=
      Context.meant?_eq_some.mpr ⟨v.1, hv, rfl⟩
    rw [World.entering_meant hs, hm, Option.map_some]

/-! ### Clocks -/

/-- The reading of the clock of a context, in microseconds. -/
def World.micros? (w : World) (id : Nat) : Option Nat := (w.context? id).map w.now

theorem World.reading?_eq (w : World) (id : Nat) : w.reading? id = (w.micros? id).map toMillis := by
  rw [reading?, micros?, Option.map_map]
  rfl

theorem Context.Moved.clock {c c' : Context} (h : c.Moved c') : c'.clock = c.clock := by
  obtain ⟨l, l', hs, hm, rfl, rfl⟩ := h
  cases hm with
  | slot _ hc => exact hc.clock
  | exitRequested he => rw [he]; rfl
  | exited he => rw [he]; exact (Loop.exit_frame hs).2.2.1
  | refused he => rw [he]

theorem Dispatch.clock {l l' : Loop} {now : Nat} {stage : Stage} {stage' : Option Stage}
    (hs : l.Sound) (hd : Dispatch l now stage stage' l') : l'.context.clock = l.context.clock := by
  rcases hd.fields with ⟨watchers, roster, wakeups, hc⟩ | ⟨-, wakeups, rfl⟩
  · rw [hc]
  · exact (Loop.exit_frame (hs.wakeups wakeups)).2.2.1

/-- A context reads the same clock for ever. -/
theorem Config.inductive_clock (id : Nat) (source : ClockSource) :
    Inductive fun s => id < s.world.contexts.length ∧
      ∀ c, s.world.context? id = some c → c.clock = source where
  act := by
    intro s s' hs h ha _
    refine ⟨Nat.lt_of_lt_of_le h.1 ha.length_le, fun c' hc' => ?_⟩
    rcases ha.context_after hs.world hc' with ⟨c, hc, hm⟩ | ⟨-, hge, -⟩
    · exact hm.clock.trans (h.2 c hc)
    · exact absurd h.1 (Nat.not_lt_of_le hge)
  entered := by
    intro s s' l hs h he
    refine ⟨he.replaced.contexts_length.symm ▸ h.1, fun c' hc' => ?_⟩
    by_cases hid : id = l.context.id
    · subst hid
      obtain rfl := Option.some.inj (he.replaced.context_self.symm.trans hc')
      obtain ⟨watchers, hc, -⟩ :=
        World.entering_spec (w := s.world) (hs.world.loop he.replaced.loop).2
      rw [hc]
      exact h.2 l.context (World.loop?_eq_some.mp he.replaced.loop).1
    · exact h.2 c' ((he.replaced.context_other id hid).symm.trans hc')
  dispatched := by
    intro s s' x below l l' stage hs h hd
    refine ⟨hd.replaced.contexts_length.symm ▸ h.1, fun c' hc' => ?_⟩
    by_cases hid : id = x.context
    · subst hid
      obtain rfl := Option.some.inj (hd.replaced.context_self.symm.trans hc')
      rw [hd.dispatch.clock (hs.world.loop hd.replaced.loop).2]
      exact h.2 _ (World.loop?_eq_some.mp hd.replaced.loop).1
    · exact h.2 c' ((hd.replaced.context_other id hid).symm.trans hc')

theorem Transition.clock_eq (t : Transition) {id : Nat} {c c' : Context}
    (hc : t.before.world.context? id = some c) (hc' : t.after.world.context? id = some c') :
    c'.clock = c.clock :=
  (t.step (Config.inductive_clock id c.clock)
    ⟨World.context?_lt hc, fun c₁ hc₁ => by rw [Option.some.inj (hc.symm.trans hc₁)]⟩
    t.state.1).2 c' hc'

/-- Where time stands still, so does every reading. -/
theorem Transition.micros?_of_now {t : Transition} {id : Nat} {c c' : Context}
    (hnow : t.after.world.now = t.before.world.now)
    (hc : t.before.world.context? id = some c) (hc' : t.after.world.context? id = some c') :
    t.after.world.micros? id = t.before.world.micros? id := by
  rw [World.micros?, World.micros?, hc, hc', Option.map_some, Option.map_some, hnow, World.now,
    World.now, t.clock_eq hc hc']

theorem World.settle_clock (w : World) : w.settle.clock = w.clock := by
  obtain ⟨contexts, hw⟩ := w.settle_frame
  rw [hw]

theorem World.settle_now (w : World) : w.settle.now = w.now := by
  obtain ⟨contexts, hw⟩ := w.settle_frame
  rw [hw]
  rfl

theorem World.putLoop_now (w : World) (id : Nat) (l : Loop) : (w.putLoop id l).now = w.now := by
  unfold World.putLoop
  split <;> rfl

namespace Machine

variable {m m' : Machine} {a : Activation} {below : List Activation}

theorem conclude_frame (m : Machine) (answer : Answer) :
    (m.conclude answer).world = m.world.settle ∧ (m.conclude answer).abort = m.abort := by
  unfold conclude
  dsimp only
  split
  · exact ⟨rfl, rfl⟩
  · split <;> exact ⟨rfl, rfl⟩

/-- The end of a pass takes no time. -/
theorem endPass_frame (m : Machine) (a : Activation) (below : List Activation) (l : Loop)
    (pass : Pass) : (m.endPass a below l pass).world.now = m.world.now ∧
      (m.endPass a below l pass).abort = m.abort := by
  unfold endPass
  split
  · unfold leave
    obtain ⟨hworld, habort⟩ := conclude_frame { m with
      world := m.world.putLoop a.context (l.mapContext fun c => { c with busy := false })
      stack := below } (.ran none a.calls)
    refine ⟨?_, habort⟩
    rw [hworld, World.settle_now, World.putLoop_now]
  · exact ⟨rfl, rfl⟩

/-- A wait that aborts leaves the runs where they are. -/
theorem stepWaiting_frame (m : Machine) (a : Activation) (below : List Activation) (l : Loop) :
    (m.stepWaiting a below l).abort = m.abort ∨ (m.stepWaiting a below l).stack = m.stack := by
  have henter : ∀ (m : Machine) (l : Loop) signals,
      (m.enterPass a below l signals).abort = m.abort := by
    intro m l signals
    unfold enterPass
    split
    · exact (conclude_frame _ _).2
    · rfl
  unfold stepWaiting
  split
  · exact Or.inl (conclude_frame _ _).2
  · dsimp only
    split
    · exact Or.inr rfl
    · exact Or.inl (henter _ _ _)
    · exact Or.inl (henter _ _ _)

/-- In a pass the dispatcher neither takes time nor aborts. -/
theorem step_of_passing {pass : Pass} (hm : m.stack = a :: below) (hp : a.phase = .passing pass) :
    m.step.world.now = m.world.now ∧ m.step.abort = m.abort := by
  unfold step
  rw [hm]
  dsimp only
  split
  · exact ⟨rfl, rfl⟩
  · simp only [hp]
    unfold stepPassing
    dsimp only
    split
    · exact endPass_frame _ _ _ _ _
    · split
      · split
        · unfold beginCall
          dsimp only
          split
          · exact ⟨rfl, rfl⟩
          · exact ⟨World.settle_now _, rfl⟩
        · exact ⟨rfl, rfl⟩
      · exact endPass_frame _ _ _ _ _

/-- A run that is not in a callback is the innermost one. -/
theorem innermost {id : Nat} {stage : Stage} (hs : m.config.Sound)
    (hst : m.config.StandsAt id (some stage)) (hidle : ¬ stage.IsCalling) :
    ∃ a below, m.stack = a :: below ∧ a.standing = ⟨id, stage⟩ := by
  obtain ⟨a, hmem, ha⟩ := List.mem_map.mp hst
  cases hm : m.stack with
  | nil =>
    rw [hm] at hmem
    contradiction
  | cons b below =>
    rw [hm] at hmem
    rcases List.mem_cons.mp hmem with rfl | htail
    · exact ⟨a, below, rfl, ha⟩
    · have hcalling := hs.calling a.standing (by
        rw [config, hm]
        exact List.mem_map_of_mem (f := Activation.standing) htail)
      rw [ha] at hcalling
      exact absurd hcalling hidle

/-- As long as the innermost run is not in a callback, either it goes on by itself, or other threads
make steps and pollers poll. -/
theorem Does.of_idle {d : Deed} (h : m.Does d m') (hm : m.stack = a :: below)
    (hidle : ¬ a.standing.stage.IsCalling) :
    (d = .dispatch ∧ m' = m.step) ∨
      ((∃ world, m' = { m with world }) ∧
        ∀ current command reaction, d = .command current command reaction →
          current = none ∧ command.isForeign = true) := by
  cases h with
  | submitted command hnil => exact absurd (hm.symm.trans hnil) (List.cons_ne_nil _ _)
  | called _ hnext => exact nomatch hnext.symm.trans (next?_of_idle hm hidle)
  | dispatched => exact Or.inl ⟨rfl, rfl⟩
  | interfered command hf =>
    refine Or.inr ⟨⟨_, rfl⟩, fun current command' reaction heq => ?_⟩
    obtain ⟨rfl, rfl, -⟩ := Deed.command.inj heq
    exact ⟨rfl, hf⟩
  | polled =>
    refine Or.inr ⟨⟨_, rfl⟩, fun _ _ _ heq => ?_⟩
    contradiction

/-- A run is entered as its step says. -/
theorem Does.entered (hs : m.config.Sound) {current : Option Nat} {command : Command} {id : Nat}
    {flags : RunFlags} {deadline : Option Nat}
    (h : m.Does (.command current command (.entered id flags deadline)) m') :
    ∃ l, l.context.id = id ∧ m.config.Entered m'.config l := by
  generalize hr : Reaction.entered id flags deadline = reaction at h
  cases h with
  | submitted command hm =>
    obtain ⟨l, hid, he⟩ := perform_entered
      (m := { m with world := { m.world with waits := 0 }, answer := none })
      (hs.world.act (.quiet rfl rfl rfl (.of_eq rfl))) (by simp [config, hm]) hr.symm
    exact ⟨l, hid, he.replaced.quiet rfl rfl rfl rfl, he.idle, he.within, he.standings⟩
  | called _ hnext =>
    obtain ⟨l, hl⟩ := loop?_of_next? hs hnext
    obtain ⟨m₁, hworld, hsame, -, hcalling, hstep⟩ := step_commanded hnext hl
    rw [hstep, ← hsame]
    rw [← hworld] at hr
    exact perform_entered (hworld ▸ hs.world) hcalling hr.symm
  | interfered command hf => cases command <;> contradiction

end Machine

/-! ### Transitions between calls -/

namespace Transition

variable {t : Transition} {r : WatcherRef} {id d : Nat} {stage stage' : Stage}

/-- Another thread sets, starts or stops a timer that has this deadline. -/
def Meddles (t : Transition) (r : WatcherRef) (d : Nat) : Prop :=
  t.before.world.Ticks r d ∧ ∃ action, t.Handles r action ∧ action.onWatcher.retimes = true

/-- Another thread stops a timer that has this deadline, and no timer of the context is left that
has it. -/
structure HaltsLast (t : Transition) (id d : Nat) : Prop where
  halts : ∃ r, r.owner = id ∧ t.before.world.Ticks r d ∧ t.Handles r .stop
  last : ∀ r, r.owner = id → ¬ t.after.world.Ticks r d

/-- The run of the context ends. -/
def Leaves (t : Transition) (id : Nat) : Prop :=
  (∃ stage, t.before.config.StandsAt id (some stage)) ∧ t.after.config.StandsAt id none

theorem of_idle (t : Transition) (hst : t.before.config.StandsAt id (some stage))
    (hidle : ¬ stage.IsCalling) : ∃ a below, t.before.stack = a :: below ∧
      a.standing = ⟨id, stage⟩ ∧ ((t.deed = .dispatch ∧ t.after = t.before.step) ∨
        ((∃ world, t.after = { t.before with world }) ∧
          ∀ current command reaction, t.deed = .command current command reaction →
            current = none ∧ command.isForeign = true)) := by
  obtain ⟨a, below, hm, ha⟩ := Machine.innermost t.state.1 hst hidle
  exact ⟨a, below, hm, ha, t.does.of_idle hm (by rwa [ha])⟩

/-- Outside its callbacks, nobody but the dispatcher exits a loop that has a run. -/
theorem Exits.dispatch_of_idle {id' : Nat} (h : t.Exits id)
    (hst : t.before.config.StandsAt id' (some stage)) (hidle : ¬ stage.IsCalling) :
    t.deed = .dispatch := by
  rcases h with ⟨current, command, reaction, hdeed, hexits⟩ | ⟨hdeed, -⟩
  · obtain ⟨a, below, -, -, ⟨hdeed', -⟩ | ⟨-, hforeign⟩⟩ := t.of_idle hst hidle
    · exact hdeed'
    · obtain ⟨-, hf⟩ := hforeign _ _ _ hdeed
      cases command <;> contradiction
  · exact hdeed

/-- Outside the callbacks of its loop, nobody but other threads sets or stops a timer. -/
theorem Acts.handled {action : WatcherAction} (hacts : t.Acts r action)
    (hst : t.before.config.StandsAt id (some stage)) (hidle : ¬ stage.IsCalling)
    (hretimes : action.retimes = true) :
    ∃ action', t.Handles r action' ∧ action'.onWatcher = action := by
  obtain ⟨current, command, reaction, hdeed, haim, hok⟩ := hacts
  obtain ⟨a, below, -, -, ⟨hdeed', -⟩ | ⟨-, hforeign⟩⟩ := t.of_idle hst hidle
  · exact nomatch hdeed.symm.trans hdeed'
  · obtain ⟨rfl, hf⟩ := hforeign _ _ _ hdeed
    cases command <;> first | contradiction | skip
    case timerHandle handle action' =>
      obtain ⟨r', -, heq⟩ := Option.bind_eq_some_iff.mp haim
      obtain ⟨_, -, heq⟩ := Option.map_eq_some_iff.mp heq
      obtain ⟨-, rfl⟩ := Prod.mk.inj heq
      exact ⟨action', ⟨handle, reaction, hdeed, haim, hok⟩, rfl⟩
    case post handle =>
      obtain ⟨r', -, heq⟩ := Option.bind_eq_some_iff.mp haim
      obtain ⟨_, -, heq⟩ := Option.map_eq_some_iff.mp heq
      obtain ⟨-, rfl⟩ := Prod.mk.inj heq
      contradiction

/-- Between calls a run that stays has its loop going on. -/
theorem runs_on_between (hst : t.before.config.StandsAt id (some stage))
    (hidle : ¬ stage.IsCalling) (hst' : t.after.config.StandsAt id (some stage'))
    (hrun : t.before.world.isRunning id = true) :
    t.after.world.isRunning id = true ∧ ¬ t.Exits id ∧ ¬ t.after.world.Dropped id := by
  have hthere : ¬ t.after.world.Dropped id := by
    obtain ⟨c, hc⟩ : ∃ c, t.after.world.context? id = some c := t.state_after.1.present _ hst'
    exact fun hgone => nomatch hgone.2.symm.trans hc
  have hrun' : t.after.world.isRunning id = true := by
    rcases t.runs_on hrun with hrun' | hexits | hgone
    · exact hrun'
    · have hdeed := hexits.dispatch_of_idle hst hidle
      rcases dispatched hdeed with hcontexts | ⟨a, below, l, s, l', st, -, hd, hw, hsettled⟩
      · exact (World.isRunning_congr (World.context?_congr hcontexts id)).trans hrun
      · rw [World.settled_isRunning hw]
        by_cases hid : id = a.context
        · subst hid
          obtain rfl := hd.toShifted.stage_eq t.state.1 t.state_after.1 hsettled hst'
          rcases hd.dispatch.goes_on with hsame | ⟨hended, -⟩
          · exact (hd.replaced.isRunning hsame).trans hrun
          · contradiction
        · exact (World.isRunning_congr (hd.replaced.context_other id hid)).trans hrun
    · exact absurd hgone hthere
  exact ⟨hrun', fun hexits => Bool.noConfusion (hrun'.symm.trans hexits.isRunning), hthere⟩

/-- Somebody sets, starts, stops or releases the timer, or its loop exits. -/
def Retimes (t : Transition) (r : WatcherRef) : Prop :=
  (∃ action, t.Acts r action ∧ action.retimes = true) ∨ t.Exits r.owner

/-- The dispatcher retimes nothing in a loop that goes on. -/
theorem not_retimes_of_dispatch (hdeed : t.deed = .dispatch)
    (hrun : t.after.world.isRunning r.owner = true) : ¬ t.Retimes r := by
  rintro (⟨action, hacts, -⟩ | hexits)
  · exact hacts.not_dispatch hdeed
  · exact nomatch hrun.symm.trans hexits.isRunning

/-- A timer that is neither called nor set nor stopped keeps its deadline. -/
theorem ticks_keeps (hcalls : ∀ call, ¬ t.Calls r call) (hretimes : ¬ t.Retimes r)
    (hticks : t.before.world.Ticks r d) :
    t.after.world.Ticks r d ∨ t.after.world.Dropped r.owner := by
  obtain ⟨e, he, hd⟩ := hticks
  obtain ⟨v, heffect, htold⟩ := t.effect r
  rw [he] at heffect
  cases heffect with
  | kept => exact Or.inl (htold.ticks hd)
  | commanded hdeed heffect =>
    cases heffect with
    | kept => exact Or.inl (htold.ticks hd)
    | acted haim hact =>
      rcases hact.keeps_deadline hd with ⟨e', rfl, hd'⟩ | ⟨hok, hretimes'⟩
      · exact Or.inl (htold.ticks hd')
      · exact absurd (Or.inl ⟨_, ⟨_, _, _, hdeed, haim, hok⟩, hretimes'⟩) hretimes
    | exited hnow => exact absurd (Or.inr (Or.inl ⟨_, _, _, hdeed, hnow⟩)) hretimes
    | dropped hcommand hu => exact Or.inr (dropped (hcommand ▸ hdeed) hu)
    | armed => exact Or.inl (htold.ticks (by rwa [Entry.arm_of_deadline hd]))
  | exited hnow => exact absurd (Or.inr hnow) hretimes
  | visited _ _ hnone => exact Or.inl (htold.ticks (Entry.visit_keeps_deadline hd hnone))
  | called hnow => exact absurd hnow (hcalls _)
  | returned => exact Or.inl (htold.ticks hd)

/-- Between calls a timer keeps its deadline, unless another thread sets, starts or stops it. -/
theorem ticks_between (hst : t.before.config.StandsAt r.owner (some stage))
    (hidle : ¬ stage.IsCalling) (hst' : t.after.config.StandsAt r.owner (some stage'))
    (hrun : t.before.world.isRunning r.owner = true) (hcalls : ∀ call, ¬ t.Calls r call)
    (hticks : t.before.world.Ticks r d) : t.after.world.Ticks r d ∨ t.Meddles r d := by
  obtain ⟨-, hexits, hthere⟩ := runs_on_between hst hidle hst' hrun
  by_cases hretimes : t.Retimes r
  · right
    obtain ⟨action, hacts, hretimes⟩ := hretimes.resolve_right hexits
    obtain ⟨action', hhandles, rfl⟩ := hacts.handled hst hidle hretimes
    exact ⟨hticks, action', hhandles, hretimes⟩
  · exact Or.inl ((ticks_keeps hcalls hretimes hticks).resolve_right hthere)

/-- A run comes to a call only by calling a watcher. -/
theorem calls_of_calling (hst : t.before.config.StandsAt id (some stage))
    (hidle : ¬ stage.IsCalling) (hst' : t.after.config.StandsAt id (some stage'))
    (hcalling : stage'.IsCalling) : ∃ r call, t.Calls r call ∧ r.owner = id := by
  rcases t.stays_or_steps hst with hsame |
    ⟨a, below, s, l, l', st, hdeed, hm, rfl, hstage, hd, hsettled⟩
  · obtain rfl := hst'.unique t.state_after.1 hsame
    contradiction
  · obtain rfl := hd.toShifted.stage_eq t.state.1 t.state_after.1 hsettled hst'
    have hdispatch := hd.dispatch
    rw [hstage] at hdispatch
    cases hdispatch with
    | called _ hi hrun =>
      obtain ⟨e, ms, -, ⟨-, pass', heq⟩ | ⟨call, hcalls, -⟩⟩ :=
        turn hdeed hm (phase_of_stage hstage) hd hi hrun
      · cases heq
      · exact ⟨_, call, hcalls, rfl⟩
    | _ => exact hcalling.elim

/-- A run that calls no watcher stays between calls. -/
theorem not_calling (hcalls : ∀ r call, t.Calls r call → r.owner ≠ id)
    (hst : t.before.config.StandsAt id (some stage)) (hidle : ¬ stage.IsCalling)
    (hst' : t.after.config.StandsAt id (some stage')) : ¬ stage'.IsCalling := by
  intro hcalling
  obtain ⟨r, call, hcall, hr⟩ := calls_of_calling hst hidle hst' hcalling
  exact hcalls r call hcall hr

end Transition

/-- The earliest deadline that is known at a stage. -/
def Stage.deadline? : Stage → Option Nat
  | .waiting deadline => deadline
  | .passing pass => pass.deadline
  | .calling pass _ => pass.deadline

/-- A timer of the context has this deadline, or the signal of the timers is raised. -/
def World.Dated (w : World) (id d : Nat) : Prop :=
  (∃ r, r.owner = id ∧ w.Ticks r d) ∨ w.Signals id .timer

/-- The run of the context is between calls. If this is the deadline that it knows, a timer has it,
or the next wait is cut short. -/
structure Config.OnTime (s : Config) (id d : Nat) (stage : Stage) : Prop where
  stands : s.StandsAt id (some stage)
  idle : ¬ stage.IsCalling
  running : s.world.isRunning id = true
  dated : stage.deadline? = some d → s.world.Dated id d

/-- A deadline that a turn without a call adds to those known is that of the visited timer. -/
theorem Dispatch.dated {l l' : Loop} {now d : Nat} {pass : Pass} {stage : Stage} (hs : l.Sound)
    (hlent : l.context.Lent (some (.passing pass)))
    (hd : Dispatch l now (.passing pass) (some stage) l') (hidle : ¬ stage.IsCalling)
    (h : stage.deadline? = some d) : pass.deadline = some d ∨
      ∃ r e, r.owner = l.context.id ∧ l'.context.meant? r = some e ∧ e.deadline? = some d := by
  have hturn := hd
  cases hd with
  | @visited _ c i hc hi hrun =>
    obtain ⟨g, e, ht⟩ := hturn.turn hs hlent hi hrun
    subst hc
    rw [Context.visit_of_some (c := { l.context with roster := l.context.roster.next.1 })
      ht.at_self] at h ⊢
    rcases sooner_eq_some h with hknown | hvisit
    · exact Or.inl hknown
    · refine Or.inr ⟨⟨l.context.id, i, e.serial⟩, _, rfl,
        Context.meant?_eq_some.mpr ⟨g, ?_, Context.traits_serial Entry.visit_traits⟩,
        Entry.visit_deadline_eq.symm.trans hvisit⟩
      exact Arena.at?_put_self ht.at_self
  | called => exact absurd trivial hidle
  | missed _ hi hrun =>
    obtain ⟨g, e, ht⟩ := hturn.turn hs hlent hi hrun
    obtain ⟨deadline, ⟨-, heq⟩ | ⟨-, heq⟩⟩ := ht.outcome
    · have hserved : pass.served + 1 = pass.served :=
        congrArg Pass.served (Stage.passing.inj (Option.some.inj heq))
      omega
    · exact nomatch Option.some.inj heq
  | passed => exact Or.inl h

namespace Transition

variable {t : Transition} {id d : Nat} {stage : Stage}

/-- A step after which a run is innermost and between calls neither ends the run nor calls a
watcher. -/
theorem quiet_of_idle (hid : t.after.stack.head?.map Activation.context = some id)
    (hidle : t.after.called? = none) :
    ¬ t.Leaves id ∧ ∀ r call, t.Calls r call → r.owner ≠ id := by
  obtain ⟨a, ha, rfl⟩ := Option.map_eq_some_iff.mp hid
  obtain ⟨below, hm⟩ := List.head?_eq_some_iff.mp ha
  have hst := Config.standsAt_of_mem (hm ▸ List.mem_cons_self : a ∈ t.after.stack)
  refine ⟨fun h => h.2 _ hst rfl, fun r call hcalls => ?_⟩
  obtain ⟨⟨a', below', pass, pass', -, -, hm'⟩, -⟩ := hcalls
  rw [Machine.called?, hm'] at hidle
  contradiction

/-- A run that is entered waits first. -/
theorem Enters.waits (h : t.Enters id) :
    ∃ deadline, t.after.config.StandsAt id (some (.waiting deadline)) := by
  obtain ⟨current, command, flags, deadline, hdeed⟩ := h
  have hdoes : t.before.Does _ t.after := hdeed ▸ t.does
  obtain ⟨l, rfl, he⟩ := hdoes.entered t.state.1
  refine ⟨(t.before.world.entering l).2, ?_⟩
  rw [Config.StandsAt, he.standings]
  exact List.mem_cons_self

/-- A loop is running once a run of it is entered. -/
theorem Enters.isRunning (h : t.Enters id) : t.after.world.isRunning id = true := by
  obtain ⟨current, command, flags, deadline, hdeed⟩ := h
  have hdoes : t.before.Does _ t.after := hdeed ▸ t.does
  obtain ⟨l, rfl, he⟩ := hdoes.entered t.state.1
  have hsl := (t.state.1.world.loop he.replaced.loop).2
  exact (World.isRunning_of_context? he.replaced.context_self).trans (World.entering_running hsl)

/-- A run that is entered knows the deadline of a timer, if any. -/
theorem Enters.onTime (h : t.Enters id) (d : Nat) : ∃ stage, t.after.config.OnTime id d stage := by
  have hrun := h.isRunning
  obtain ⟨current, command, flags, deadline, hdeed⟩ := h
  have hs := t.state.1
  have hdoes : t.before.Does _ t.after := hdeed ▸ t.does
  obtain ⟨l, rfl, he⟩ := hdoes.entered hs
  have hsl := (hs.world.loop he.replaced.loop).2
  refine ⟨.waiting (t.before.world.entering l).2, ?_, fun h => h, hrun, fun hd => Or.inl ?_⟩
  · rw [Config.StandsAt, he.standings]
    exact List.mem_cons_self
  · obtain ⟨r, e, hr, hm, hd'⟩ := World.entering_attained hsl hd
    exact ⟨r, hr, e, (he.replaced.meant?_self hr).trans hm, hd'⟩

/-- A pass that begins knows no deadline. -/
theorem BeginsPass.onTime (h : t.BeginsPass id) (d : Nat) :
    ∃ stage, t.after.config.OnTime id d stage := by
  obtain ⟨c, c', signals, hbegun⟩ := h.begun
  exact ⟨_, hbegun.stands, False.elim, hbegun.running, fun h => nomatch h⟩

/-- A deadline stays that of a timer, or the signal of the timers is raised, as long as no pass
begins, no watcher is called and no thread stops the last timer that has it. -/
theorem dated_keeps (hcalls : ∀ r call, t.Calls r call → r.owner ≠ id) (hhalts : ¬ t.HaltsLast id d)
    (hbegins : ¬ t.BeginsPass id) (hst : t.before.config.StandsAt id (some stage))
    (hidle : ¬ stage.IsCalling) (hst' : t.after.config.StandsAt id (some stage'))
    (hrun : t.before.world.isRunning id = true) (h : t.before.world.Dated id d) :
    t.after.world.Dated id d := by
  obtain ⟨-, hexits, hthere⟩ := runs_on_between hst hidle hst' hrun
  rcases h with ⟨r, rfl, hticks⟩ | hraised
  · rcases ticks_between hst hidle hst' hrun (fun call hcall => hcalls r call hcall rfl) hticks with
      hticks' | ⟨-, action, hhandles, hretimes⟩
    · exact Or.inl ⟨r, rfl, hticks'⟩
    -- a thread that does more than to stop the timer wakes the dispatcher
    · by_cases hstop : action = .stop
      · subst hstop
        left
        by_contra hnone
        simp only [not_exists, not_and] at hnone
        exact hhalts ⟨⟨r, rfl, hticks, hhandles⟩, hnone⟩
      · have hask : action ≠ .isActive := by
          rintro rfl
          contradiction
        exact Or.inr ((hhandles.signals hstop hask).resolve_right hthere)
  · exact Or.inr ((signals_keeps hbegins hexits hraised).resolve_right hthere)

/-- What a run knows of a deadline stays so as long as no watcher is called and no thread stops the
last timer that has it. -/
theorem onTime_keeps (hcalls : ∀ r call, t.Calls r call → r.owner ≠ id)
    (hhalts : ¬ t.HaltsLast id d) (hleaves : ¬ t.Leaves id)
    (hon : t.before.config.OnTime id d stage) : ∃ stage, t.after.config.OnTime id d stage := by
  by_cases hbegins : t.BeginsPass id
  · exact hbegins.onTime d
  obtain ⟨hst, hidle, hrun, hdated⟩ := hon
  have hs := t.state.1
  have hkeeps : ∀ {stage'}, t.after.config.StandsAt id (some stage') →
      (stage'.deadline? = some d → stage.deadline? = some d ∨ t.after.world.Dated id d) →
      t.after.config.OnTime id d stage' := by
    intro stage' hst' hknown
    refine ⟨hst', not_calling hcalls hst hidle hst', (runs_on_between hst hidle hst' hrun).1,
      fun hd => (hknown hd).elim (fun hold => ?_) fun h => h⟩
    exact dated_keeps hcalls hhalts hbegins hst hidle hst' hrun (hdated hold)
  rcases t.stays_or_steps hst with hsame |
    ⟨a, below, s, l, l', st, hdeed, hm, rfl, hstage, hd, hsettled⟩
  · exact ⟨stage, hkeeps hsame Or.inl⟩
  · cases st with
    | none =>
      exact absurd ⟨⟨_, hst⟩, fun x hx => hd.toShifted.standsAt_none hs x (hsettled.standings ▸ hx)⟩
        hleaves
    | some st =>
      have hst' : t.after.config.StandsAt a.context (some st) :=
        hd.toShifted.standsAt.acted hsettled.standings
      refine ⟨st, hkeeps hst' fun hknown => ?_⟩
      have hidle' := not_calling hcalls hst hidle hst'
      have hlent := Machine.lent_at hm hd.replaced.loop t.state.2.2
      have hsl := (hs.world.loop hd.replaced.loop).2
      have hdispatch := hd.dispatch
      rw [hstage] at hlent hdispatch
      cases stage with
      | waiting =>
        cases hdispatch
        contradiction
      | calling => exact absurd trivial hidle
      | passing pass =>
        refine (hdispatch.dated hsl hlent hidle' hknown).imp_right fun ⟨r, e, hr, he, hd'⟩ => ?_
        have hid := (hs.world.loop hd.replaced.loop).1
        refine Or.inl ⟨r, hr.trans hid, World.Told.ticks ?_ hd'⟩
        rw [← he, ← hd.replaced.meant?_self (hr.trans hid)]
        exact World.settled_told hsettled.world r

end Transition

end EventLoop
