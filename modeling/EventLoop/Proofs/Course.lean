import EventLoop.Proofs.ExitRequests

/-!
# The course of a run

Whatever its callbacks do, a run keeps its flags from its beginning to its end, and goes from a wait
to a pass, from there to the callbacks of the pass, and back to a wait. A pass counts the watchers
it calls, and where it ends the count and the flags decide whether the run goes on.
-/
namespace EventLoop

/-! ### The flags of a run -/

namespace Machine

variable {m m' : Machine} {a : Activation} {below : List Activation} {l : Loop}

/-- The contexts and flags of the runs, the innermost first. -/
def modes (m : Machine) : List (Nat × RunFlags) := m.stack.map fun a => (a.context, a.flags)

/-- Whether a run returns after its pass. -/
def returnsAfter (flags : RunFlags) (pass : Pass) : Bool :=
  flags.has .once && (decide (0 < pass.served) || flags.has .nonblock)

theorem conclude_modes (m : Machine) (answer : Answer) : (m.conclude answer).modes = m.modes := by
  unfold conclude
  cases hm : m.stack with
  | nil => simp [modes, hm]
  | cons a below =>
    dsimp only
    split
    · simp [modes, hm]
    · simp [modes, hm]

theorem leave_modes (m : Machine) (a : Activation) (below : List Activation) (l : Loop) :
    (m.leave a below l).modes = below.map fun a => (a.context, a.flags) :=
  conclude_modes _ _

theorem enterPass_modes (hm : m.stack = a :: below) (l : Loop) (signals : Signals) :
    (m.enterPass a below l signals).modes = m.modes ∨
      (m.enterPass a below l signals).modes = m.modes.tail := by
  unfold enterPass
  split
  · right
    rw [leave_modes, modes, hm]
    rfl
  · left
    rw [modes, modes, hm]
    rfl

theorem stepWaiting_modes (hm : m.stack = a :: below) (l : Loop) :
    (m.stepWaiting a below l).modes = m.modes ∨ (m.stepWaiting a below l).modes = m.modes.tail := by
  cases hgoes : l.context.running && !l.context.roster.isEmpty with
  | false =>
    right
    rw [stepWaiting_over m a below hgoes, leave_modes, modes, hm]
    rfl
  | true =>
    rw [stepWaiting_eq m a below hgoes]
    dsimp only
    unfold afterWait
    split
    · exact Or.inl rfl
    · exact enterPass_modes (m := m.waited _) hm _ _
    · exact enterPass_modes (m := m.waited _) hm _ _

theorem endPass_modes (hm : m.stack = a :: below) (l : Loop) (pass : Pass) :
    (m.endPass a below l pass).modes =
      if returnsAfter a.flags pass then m.modes.tail else m.modes := by
  unfold endPass returnsAfter
  split
  · rw [leave_modes, modes, hm]
    rfl
  · rw [modes, modes, hm]
    rfl

theorem stepPassing_modes (hm : m.stack = a :: below) (l : Loop) (pass : Pass) :
    (m.stepPassing a below l pass).modes = m.modes ∨
      (m.stepPassing a below l pass).modes = m.modes.tail := by
  by_cases hend : l.context.roster.next.2 = none ∨ l.context.running = false
  · obtain ⟨w, l', hstep⟩ := m.stepPassing_ends a below pass hend
    rw [hstep, endPass_modes (m := { m with world := w }) hm]
    split
    · exact Or.inr rfl
    · exact Or.inl rfl
  · rw [not_or, Bool.not_eq_false] at hend
    obtain ⟨i, hi⟩ := Option.ne_none_iff_exists'.mp hend.1
    left
    rw [stepPassing_turn m a below pass l hi hend.2]
    unfold afterVisit
    dsimp only
    split
    · unfold beginCall
      dsimp only
      split
      · rw [modes, modes, hm]
        rfl
      · rw [modes, modes, hm]
        rfl
    · rw [modes, modes, hm]
      rfl

/-- A small step ends the innermost run, or enters another one within it, or neither. -/
theorem step_modes (m : Machine) : m.step.modes = m.modes ∨ m.step.modes = m.modes.tail ∨
    ∃ mode, m.step.modes = mode :: m.modes := by
  unfold step
  cases hm : m.stack with
  | nil => exact Or.inl rfl
  | cons a below =>
    dsimp only
    cases hl : m.world.loop? a.context with
    | none => exact Or.inl rfl
    | some l =>
      dsimp only
      cases hp : a.phase with
      | waiting => exact (stepWaiting_modes hm l).imp_right Or.inl
      | passing pass => exact (stepPassing_modes hm l pass).imp_right Or.inl
      | calling pass call =>
        dsimp only
        cases hrest : call.rest with
        | nil =>
          left
          rw [modes, modes, hm]
          rfl
        | cons command rest =>
          dsimp only
          have hsame : ∀ call' : Call, modes { m with
              stack := { a with phase := .calling pass call' } :: below } = m.modes := by
            intro call'
            rw [modes, modes, hm]
            rfl
          unfold perform
          split
          · left
            rw [conclude_modes]
            exact hsame _
          · right; right
            exact ⟨_, congrArg (List.cons _) (hsame _)⟩

theorem modes_contexts (m : Machine) :
    m.modes.map Prod.fst = m.config.standings.map Standing.context := by
  simp [modes, config, Activation.standing, Function.comp_def]

theorem standsAt_of_mode {id : Nat} {flags : RunFlags} (h : (id, flags) ∈ m.modes) :
    ∃ stage, m.config.StandsAt id (some stage) := by
  obtain ⟨a, ha, heq⟩ := List.mem_map.mp h
  obtain ⟨rfl, -⟩ := Prod.mk.inj heq
  exact ⟨_, Config.standsAt_of_mem ha⟩

/-- A context has one run at most, with its flags. -/
theorem flags_of_mode (hs : m.config.Sound) (hm : m.stack = a :: below) {flags : RunFlags}
    (h : (a.context, flags) ∈ m.modes) : a.flags = flags := by
  have hnodup : (m.modes.map Prod.fst).Nodup := m.modes_contexts ▸ hs.nodup
  have ha : (a.context, a.flags) ∈ m.modes := by
    rw [modes, hm]
    exact List.mem_cons_self
  exact congrArg Prod.snd (List.inj_on_of_nodup_map hnodup ha h rfl)

/-- While a run is going on, a small step is made, or other threads make steps and pollers poll. -/
theorem Does.small {d : Deed} (h : m.Does d m') (hne : m.stack ≠ []) :
    m' = m.step ∨ ∃ world, m' = { m with world } := by
  cases h with
  | submitted _ hnil => exact absurd hnil hne
  | called => exact Or.inl rfl
  | dispatched => exact Or.inl rfl
  | interfered => exact Or.inr ⟨_, rfl⟩
  | polled => exact Or.inr ⟨_, rfl⟩

/-- Nothing goes on after an abort. -/
theorem Does.going {d : Deed} (h : m.Does d m') (hgoing : m'.abort = none) : m.abort = none := by
  cases h with
  | submitted _ _ habort => exact habort
  | called habort => exact habort
  | dispatched _ habort => exact habort
  | interfered => exact hgoing
  | polled => exact hgoing

end Machine

namespace Transition

variable {t : Transition} {id : Nat} {flags : RunFlags} {stage stage' : Stage}

/-- A run of the context is entered with these flags. -/
def EntersWith (t : Transition) (id : Nat) (flags : RunFlags) : Prop :=
  ∃ current command deadline, t.deed = .command current command (.entered id flags deadline)

/-- The run of the context makes a wait. -/
def Waits (t : Transition) (id : Nat) : Prop :=
  t.deed = .dispatch ∧ ∃ a below l, t.before.AtWait a below l ∧ a.context = id

/-- A watcher of the context is called. -/
def CallsIn (t : Transition) (id : Nat) : Prop := ∃ r call, t.Calls r call ∧ r.owner = id

theorem EntersWith.enters (h : t.EntersWith id flags) : t.Enters id := by
  obtain ⟨current, command, deadline, hdeed⟩ := h
  exact ⟨current, command, flags, deadline, hdeed⟩

theorem EntersWith.mode (h : t.EntersWith id flags) : (id, flags) ∈ t.after.modes := by
  obtain ⟨current, command, deadline, hdeed⟩ := h
  have hdoes : t.before.Does _ t.after := hdeed ▸ t.does
  obtain ⟨below, hm, -⟩ := hdoes.enters t.state.1
  rw [Machine.modes, hm]
  exact List.mem_cons_self

/-- The innermost run ends where its flags are gone. -/
theorem leaves_of_tail {a : Activation} {below : List Activation} (hm : t.before.stack = a :: below)
    (htail : t.after.modes = t.before.modes.tail) : t.Leaves a.context := by
  refine ⟨⟨_, Config.standsAt_of_mem (hm ▸ List.mem_cons_self : a ∈ t.before.stack)⟩,
    fun x hx hid => ?_⟩
  -- no other run is of its context
  have hnodup : (t.before.modes.map Prod.fst).Nodup :=
    t.before.modes_contexts ▸ t.state.1.nodup
  rw [Machine.modes, hm, List.map_cons, List.map_cons, List.nodup_cons] at hnodup
  apply hnodup.1
  have hmodes : t.after.modes = below.map fun a => (a.context, a.flags) := by
    rw [htail, Machine.modes, hm]
    rfl
  rw [← hmodes, Machine.modes_contexts]
  exact List.mem_map.mpr ⟨x, hx, hid⟩

/-- A run keeps its flags until it ends. -/
theorem mode_keeps (h : (id, flags) ∈ t.before.modes) :
    (id, flags) ∈ t.after.modes ∨ t.Leaves id := by
  cases hm : t.before.stack with
  | nil =>
    rw [Machine.modes, hm] at h
    exact absurd h List.not_mem_nil
  | cons a below =>
    rcases t.does.small (hm ▸ List.cons_ne_nil a below) with hafter | ⟨world, hafter⟩
    · rcases t.before.step_modes with hsame | htail | ⟨mode, hentered⟩
      · exact Or.inl (hafter ▸ hsame ▸ h)
      · rw [← hafter] at htail
        have hleaves := leaves_of_tail hm htail
        rw [Machine.modes, hm, List.map_cons] at h
        rcases List.mem_cons.mp h with heq | hmem
        · obtain ⟨rfl, -⟩ := Prod.mk.inj heq
          exact Or.inr hleaves
        · left
          rw [htail, Machine.modes, hm]
          exact hmem
      · left
        rw [hafter, hentered]
        exact List.mem_cons_of_mem mode h
    · left
      rw [hafter]
      exact h

/-! ### Where a run goes -/

theorem phase_of_stands {a : Activation} {below : List Activation}
    (hm : t.before.stack = a :: below) (hst : t.before.config.StandsAt a.context (some stage)) :
    a.standing.stage = stage :=
  (Config.standsAt_of_mem (hm ▸ List.mem_cons_self : a ∈ t.before.stack)).unique t.state.1 hst

theorem passes_iff {m : Machine} (hs : m.config.Sound) (hst : m.config.StandsAt id (some stage))
    {signals : Signals} : m.config.Passes id signals ↔ stage.signals? = some signals := by
  constructor
  · rintro ⟨stage', hst', hsignals⟩
    obtain rfl := hst.unique hs hst'
    exact hsignals
  · exact fun hsignals => ⟨stage, hst, hsignals⟩

/-- A pass begins where the run goes on from a wait to a pass. -/
theorem beginsPass_iff (hst : t.before.config.StandsAt id (some stage))
    (hst' : t.after.config.StandsAt id (some stage')) :
    t.BeginsPass id ↔ stage.signals? = none ∧ stage'.signals?.isSome = true := by
  simp only [BeginsPass, passes_iff t.state_after.1 hst', Option.isSome_iff_exists]
  refine and_congr_left fun _ => ?_
  constructor
  · rintro ⟨deadline, hst₁⟩
    obtain rfl := hst.unique t.state.1 hst₁
    rfl
  · intro hnone
    cases stage with
    | waiting deadline => exact ⟨deadline, hst⟩
    | passing => contradiction
    | calling => contradiction

/-- A pass is over where the run goes on from it to a wait. -/
theorem endsPass_iff (hst : t.before.config.StandsAt id (some stage))
    (hst' : t.after.config.StandsAt id (some stage')) :
    t.EndsPass id ↔ stage.signals?.isSome = true ∧ stage'.signals? = none := by
  simp only [EndsPass, passes_iff t.state.1 hst, passes_iff t.state_after.1 hst',
    Option.isSome_iff_exists, Option.eq_none_iff_forall_ne_some, ne_eq]

/-- A watcher is called where the run goes over from a pass to a call. -/
theorem callsIn_iff (hst : t.before.config.StandsAt id (some stage))
    (hst' : t.after.config.StandsAt id (some stage')) :
    t.CallsIn id ↔ (∃ pass, stage = .passing pass) ∧ stage'.IsCalling := by
  constructor
  · rintro ⟨r, call, hcalls, rfl⟩
    obtain ⟨a, below, pass, pass', s, l, l', i, e, ms, hm, hp, hd, hsettled, -, -, rfl, -⟩ :=
      hcalls.dispatched
    have ha := phase_of_stands hm hst
    rw [Activation.standing, hp] at ha
    refine ⟨⟨pass, ha.symm⟩, ?_⟩
    obtain rfl := hst'.unique t.state_after.1 (hd.toShifted.standsAt.acted hsettled.standings)
    exact trivial
  · rintro ⟨⟨pass, rfl⟩, hcalling⟩
    exact calls_of_calling hst (fun h => h) hst' hcalling

/-- At the end of a pass the flags decide whether the run returns. -/
theorem modes_of_passed {a : Activation} {below : List Activation} {l : Loop} {pass : Pass}
    (hdeed : t.deed = .dispatch) (hm : t.before.stack = a :: below)
    (hl : t.before.world.loop? a.context = some l) (hp : a.phase = .passing pass)
    (hend : l.context.roster.next.2 = none ∨ l.context.running = false) :
    t.after.modes = if Machine.returnsAfter a.flags pass then t.before.modes.tail
      else t.before.modes := by
  have hdoes : t.before.Does .dispatch t.after := hdeed ▸ t.does
  obtain ⟨w, l', hstep⟩ := t.before.stepPassing_ends a below pass hend
  rw [hdoes.stepped, Machine.step_passing hm hl hp, hstep]
  exact Machine.endPass_modes (m := { t.before with world := w }) hm l' pass

end Transition

/-- How a run with these flags can go on. -/
inductive Stage.Onward (flags : RunFlags) : Stage → Stage → Prop
  | stays (stage : Stage) : Onward flags stage stage
  | begins {deadline signals} : Onward flags (.waiting deadline) (.passing ⟨signals, 0, none⟩)
  | visits {pass deadline} : Onward flags (.passing pass) (.passing { pass with deadline })
  | calls {pass deadline h} : Onward flags (.passing pass) (.calling { pass with deadline } h)
  | returns {pass h} :
      Onward flags (.calling pass h) (.passing { pass with served := pass.served + 1 })
  | ends {pass} : Machine.returnsAfter flags pass = false →
      Onward flags (.passing pass) (.waiting pass.deadline)

namespace Transition

variable {t : Transition} {id : Nat} {flags : RunFlags} {stage stage' : Stage}

theorem goesOn (hmode : (id, flags) ∈ t.before.modes)
    (hst : t.before.config.StandsAt id (some stage))
    (hst' : t.after.config.StandsAt id (some stage')) : stage.Onward flags stage' := by
  have hs := t.state.1
  rcases t.stays_or_steps hst with hsame |
    ⟨a, below, s, l, l', st, hdeed, hm, rfl, hstage, hd, hsettled⟩
  · obtain rfl := hst'.unique t.state_after.1 hsame
    exact .stays stage'
  · obtain rfl := hd.toShifted.stage_eq hs t.state_after.1 hsettled hst'
    have hloop : t.before.world.loop? a.context = some l := hd.replaced.loop
    have hsl := (hs.world.loop hloop).2
    have hlent := Machine.lent_at hm hloop t.state.2.2
    have hdispatch := hd.dispatch
    rw [hstage] at hlent hdispatch
    have hturn := hdispatch
    cases hdispatch with
    | woken => exact .begins
    | visited => exact .visits
    | called => exact .calls
    | missed _ hi hrun =>
      -- every watcher has its callback
      obtain ⟨g, e, ht⟩ := hturn.turn hsl hlent hi hrun
      obtain ⟨deadline, ⟨-, heq⟩ | ⟨-, heq⟩⟩ := ht.outcome
      · have hserved := congrArg Pass.served (Stage.passing.inj (Option.some.inj heq))
        dsimp only at hserved
        omega
      · exact nomatch heq
    | returned => exact .returns
    | @passed pass hend =>
      refine .ends ?_
      rw [← Machine.flags_of_mode hs hm hmode, ← Bool.not_eq_true]
      intro hreturns
      have htail := modes_of_passed hdeed hm hloop (phase_of_stage hstage) hend
      rw [if_pos hreturns] at htail
      exact (leaves_of_tail hm htail).2 _ hst' rfl

end Transition

/-! ### Waits -/

namespace Machine

variable {m m' : Machine} {a : Activation} {below : List Activation} {l : Loop}

theorem Does.dispatching (h : m.Does .dispatch m') : m.abort = none := by
  cases h
  assumption

theorem enterPass_cases (m : Machine) (a : Activation) (below : List Activation) (l : Loop)
    (signals : Signals) : m.enterPass a below l signals = m.leave a below l.exit ∨
      (m.enterPass a below l signals).config.Passes a.context signals := by
  unfold enterPass
  split
  · exact Or.inl rfl
  · right
    exact ⟨.passing ⟨signals, 0, none⟩, List.mem_cons_self, rfl⟩

/-- A wait aborts, or honours a request to exit, or a pass begins after it. -/
theorem AtWait.cases (h : m.AtWait a below l) :
    (m.step.abort ≠ none ∧ m.step.stack = m.stack) ∨
      (∃ clock l₁, m.step = (m.waited clock).leave a below (Loop.exit l₁)) ∨
      ∃ signals, m.step.config.Passes a.context signals := by
  have henter : ∀ clock l₁ signals, m.step = (m.waited clock).enterPass a below l₁ signals →
      (∃ clock l₁, m.step = (m.waited clock).leave a below (Loop.exit l₁)) ∨
        ∃ signals, m.step.config.Passes a.context signals := by
    intro clock l₁ signals hstep
    rcases (m.waited clock).enterPass_cases a below l₁ signals with hleave | hpasses
    · exact Or.inl ⟨clock, l₁, hstep.trans hleave⟩
    · exact Or.inr ⟨signals, hstep ▸ hpasses⟩
  have hstep := h.step
  cases hwait : (l.context.wakeups.wait (Mask.full Signal)
      (waitTimeout m.world a l.context)).2 with
  | forever =>
    left
    rw [hstep, hwait]
    exact ⟨Option.some_ne_none _, rfl⟩
  | elapsed us =>
    right
    rw [hwait] at hstep
    exact henter _ _ _ hstep
  | woken signals =>
    right
    rw [hwait] at hstep
    exact henter _ _ _ hstep

end Machine

namespace Transition

variable {t : Transition} {id : Nat} {flags : RunFlags} {stage stage' : Stage} {signals : Signals}

/-- A wait that does not abort ends with the run, or a pass begins. -/
theorem Waits.cases (h : t.Waits id) (hgoing : t.after.abort = none) :
    t.BeginsPass id ∨ t.Leaves id := by
  obtain ⟨hdeed, a, below, l, hwait, rfl⟩ := h
  have hdoes : t.before.Does .dispatch t.after := hdeed ▸ t.does
  have hcases := hwait.cases
  rw [← hdoes.stepped] at hcases
  rcases hcases with ⟨habort, -⟩ | ⟨clock, l₁, hleave⟩ | ⟨signals, hpasses⟩
  · exact absurd hgoing habort
  · right
    refine leaves_of_tail hwait.stack ?_
    rw [hleave, Machine.leave_modes, Machine.modes, hwait.stack]
    rfl
  · exact Or.inl ⟨⟨_, hwait.standsAt⟩, signals, hpasses⟩

/-- A wait that is not made leaves the run without one. -/
theorem leaves_of_over {a : Activation} {below : List Activation} {l : Loop}
    (hdeed : t.deed = .dispatch) (hm : t.before.stack = a :: below)
    (hl : t.before.world.loop? a.context = some l) (hp : a.phase = .waiting)
    (hover : (l.context.running && !l.context.roster.isEmpty) = false) :
    t.before.Returns a.context a.calls ∧ t.Leaves a.context := by
  have hdoes : t.before.Does .dispatch t.after := hdeed ▸ t.does
  have hleave : t.before.step = t.before.leave a below l := by
    rw [Machine.step_waiting hm hl hp, Machine.stepWaiting_over _ _ _ hover]
  refine ⟨Machine.returns_of_leave hm rfl hleave, leaves_of_tail hm ?_⟩
  rw [hdoes.stepped, hleave, Machine.leave_modes, Machine.modes, hm]
  rfl

/-- Before every pass there is a wait. -/
theorem BeginsPass.waits (h : t.BeginsPass id) : t.Waits id := by
  obtain ⟨⟨deadline, hst⟩, signals, stage', hst', hsignals⟩ := h
  rcases t.stays_or_steps hst with hsame |
    ⟨a, below, s, l, l', st, hdeed, hm, rfl, hstage, hd, -⟩
  · obtain rfl := hst'.unique t.state_after.1 hsame
    contradiction
  · have hdoes : t.before.Does .dispatch t.after := hdeed ▸ t.does
    have hloop : t.before.world.loop? a.context = some l := hd.replaced.loop
    have hp : a.phase = .waiting := phase_of_waiting hstage
    cases hgoes : l.context.running && !l.context.roster.isEmpty with
    | false => exact absurd rfl ((leaves_of_over hdeed hm hloop hp hgoes).2.2 _ hst')
    | true =>
      obtain ⟨hrun, hlinked⟩ : l.context.running = true ∧ l.context.roster.isEmpty = false := by
        simpa using hgoes
      exact ⟨hdeed, a, below, l, ⟨hm, hdoes.dispatching, hp, hloop, hrun, hlinked⟩, rfl⟩

theorem Waits.stands (h : t.Waits id) :
    ∃ deadline, t.before.config.StandsAt id (some (.waiting deadline)) := by
  obtain ⟨-, a, below, l, hwait, rfl⟩ := h
  exact ⟨_, hwait.standsAt⟩

end Transition

/-! ### What a run has done so far -/

/-- The run of the context is in a pass: what was done before, how the pass began, and what was done
in it. -/
structure MakesPass (id : Nat) (run before : List Transition) (b : Transition)
    (pass : List Transition) : Prop where
  split : run = before ++ b :: pass
  begins : b.BeginsPass id
  within : ∀ u ∈ pass, ¬ u.BeginsPass id ∧ ¬ u.EndsPass id ∧ ¬ u.Waits id

theorem MakesPass.extend {id : Nat} {run before pass : List Transition} {b t : Transition}
    (h : MakesPass id run before b pass)
    (ht : ¬ t.BeginsPass id ∧ ¬ t.EndsPass id ∧ ¬ t.Waits id) :
    MakesPass id (run ++ [t]) before b (pass ++ [t]) where
  split := by
    rw [h.split, List.append_assoc, List.cons_append]
  begins := h.begins
  within := by
    intro u hu
    rcases List.mem_append.mp hu with hu | hu
    · exact h.within u hu
    · exact List.mem_singleton.mp hu ▸ ht

/-- A watcher has been called in the pass, or is being called. -/
def Stage.Serving : Stage → Prop
  | .waiting _ => False
  | .passing pass => 0 < pass.served
  | .calling _ _ => True

/-- What a run with these flags has done, by the stage it has come to. -/
inductive Stage.Reached (id : Nat) (flags : RunFlags) (run : List Transition) (stage : Stage) : Prop
  | outside : stage.signals? = none → ((∃ u ∈ run, u.Waits id) → flags.has .once = true →
      flags.has .nonblock = false) → Reached id flags run stage
  | inside {before b pass} : stage.signals?.isSome = true → MakesPass id run before b pass →
      (stage.Serving ↔ ∃ u ∈ pass, u.CallsIn id) →
      (flags.has .once = true → flags.has .nonblock = true → ∀ u ∈ before, ¬ u.Waits id) →
      Reached id flags run stage

namespace Transition

variable {t : Transition} {id : Nat} {flags : RunFlags} {run : List Transition}
  {stage stage' : Stage}

/-- One transition further in the pass. -/
theorem reached_within (h : stage.Reached id flags run)
    (hst : t.before.config.StandsAt id (some stage))
    (hst' : t.after.config.StandsAt id (some stage')) (hin : stage.signals?.isSome = true)
    (hin' : stage'.signals?.isSome = true)
    (hserving : stage'.Serving ↔ stage.Serving ∨ t.CallsIn id) :
    stage'.Reached id flags (run ++ [t]) := by
  cases h with
  | outside hout => exact absurd hout (Option.isSome_iff_ne_none.mp hin)
  | inside _ hpass hcalls hfirst =>
    refine .inside hin' (hpass.extend ⟨?_, ?_, ?_⟩) ?_ hfirst
    · rw [beginsPass_iff hst hst']
      exact fun h => Option.isSome_iff_ne_none.mp hin h.1
    · rw [endsPass_iff hst hst']
      exact fun h => Option.isSome_iff_ne_none.mp hin' h.2
    · intro hwaits
      obtain ⟨deadline, hst₁⟩ := hwaits.stands
      obtain rfl := hst.unique t.state.1 hst₁
      contradiction
    · rw [hserving, hcalls]
      simp only [List.mem_append, List.mem_singleton, or_and_right, exists_or, exists_eq_left]

/-- One transition further in the run. -/
theorem reached_step (h : stage.Reached id flags run) (hmode : (id, flags) ∈ t.before.modes)
    (hst : t.before.config.StandsAt id (some stage))
    (hst' : t.after.config.StandsAt id (some stage')) (hgoing : t.after.abort = none) :
    stage'.Reached id flags (run ++ [t]) := by
  have hcalls := callsIn_iff hst hst'
  have hwaits : t.Waits id → t.BeginsPass id := fun hwaits =>
    (hwaits.cases hgoing).resolve_right fun hleaves => hleaves.2 _ hst' rfl
  cases goesOn hmode hst hst' with
  | stays =>
    cases hin : stage.signals? with
    | none =>
      cases h with
      | inside hsome => exact absurd hin (Option.isSome_iff_ne_none.mp hsome)
      | outside _ hfirst =>
        refine .outside hin fun ⟨u, hu, hu'⟩ => hfirst ⟨u, ?_, hu'⟩
        refine (List.mem_append.mp hu).resolve_right fun hlast => ?_
        obtain rfl := List.mem_singleton.mp hlast
        have hbegins := (beginsPass_iff hst hst').mp (hwaits hu')
        rw [hin] at hbegins
        exact Bool.false_ne_true hbegins.2
    | some signals =>
      have hsome : stage.signals?.isSome = true := by
        rw [hin]
        rfl
      refine reached_within h hst hst' hsome hsome (or_iff_left fun hc => ?_).symm
      obtain ⟨⟨pass, rfl⟩, hcalling⟩ := hcalls.mp hc
      exact hcalling
  | @begins deadline signals =>
    cases h with
    | inside hsome => contradiction
    | outside _ hfirst =>
      have hbegins : t.BeginsPass id := (beginsPass_iff hst hst').mpr ⟨rfl, rfl⟩
      refine .inside rfl ⟨rfl, hbegins, fun _ hu => absurd hu List.not_mem_nil⟩ ?_ ?_
      · refine iff_of_false (Nat.lt_irrefl 0) ?_
        rintro ⟨u, hu, -⟩
        exact absurd hu List.not_mem_nil
      · intro honce hblock u hu hu'
        exact absurd ((hfirst ⟨u, hu, hu'⟩ honce).symm.trans hblock) Bool.false_ne_true
  | visits =>
    refine reached_within h hst hst' rfl rfl (or_iff_left fun hc => ?_).symm
    exact (hcalls.mp hc).2
  | calls =>
    refine reached_within h hst hst' rfl rfl (iff_of_true trivial (Or.inr ?_))
    exact hcalls.mpr ⟨⟨_, rfl⟩, trivial⟩
  | returns =>
    exact reached_within h hst hst' rfl rfl (iff_of_true (Nat.succ_pos _) (Or.inl trivial))
  | ends hreturns =>
    refine .outside rfl fun _ honce => ?_
    rw [Machine.returnsAfter, honce, Bool.true_and, Bool.or_eq_false_iff] at hreturns
    exact hreturns.2

end Transition

/-- The run of the context is going on, and this has been done since it was entered with these
flags. -/
structure Machine.Underway (m : Machine) (id : Nat) (flags : RunFlags) (run : List Transition) :
    Prop where
  mode : (id, flags) ∈ m.modes
  running : m.world.isRunning id = true ↔ ∀ u ∈ run, ¬ u.Exits id
  stage : ∃ stage, m.config.StandsAt id (some stage) ∧ stage.Reached id flags run

namespace Transition

variable {t : Transition} {id : Nat} {flags : RunFlags} {run : List Transition}

theorem EntersWith.underway (h : t.EntersWith id flags) : t.after.Underway id flags [] := by
  obtain ⟨deadline, hst⟩ := h.enters.waits
  refine ⟨h.mode, iff_of_true h.enters.isRunning fun _ hu => absurd hu List.not_mem_nil, _, hst, ?_⟩
  exact .outside rfl fun ⟨u, hu, _⟩ => absurd hu List.not_mem_nil

/-- No run of a context is entered while it has one. -/
theorem not_enters_of_stands {stage : Stage} (hst : t.before.config.StandsAt id (some stage)) :
    ¬ t.Enters id := by
  rintro ⟨current, command, flags, deadline, hdeed⟩
  have hdoes : t.before.Does _ t.after := hdeed ▸ t.does
  obtain ⟨l, rfl, he⟩ := hdoes.entered t.state.1
  have hbusy := hst.busy t.state.1 (World.loop?_eq_some.mp he.replaced.loop).1
  exact nomatch he.idle.symm.trans hbusy

/-- The loop of a run is running until it exits. -/
theorem running_step {stage : Stage} (hst : t.before.config.StandsAt id (some stage))
    (hrun : t.before.world.isRunning id = true ↔ ∀ u ∈ run, ¬ u.Exits id)
    (hthere : ¬ t.after.world.Dropped id) :
    t.after.world.isRunning id = true ↔ ∀ u ∈ run ++ [t], ¬ u.Exits id := by
  constructor
  · intro hafter u hu
    rcases List.mem_append.mp hu with hu | hu
    · have hbefore := (t.isRunning hafter).resolve_right (not_enters_of_stands hst)
      exact hrun.mp hbefore u hu
    · obtain rfl := List.mem_singleton.mp hu
      exact fun hexits => nomatch hafter.symm.trans hexits.isRunning
  · intro hnone
    have hbefore := hrun.mpr fun u hu => hnone u (List.mem_append_left [t] hu)
    refine (t.runs_on hbefore).resolve_right ?_
    rintro (hexits | hgone)
    · exact hnone t (List.mem_append_right run List.mem_cons_self) hexits
    · exact hthere hgone

/-- One transition further in the run. -/
theorem underway_step (h : t.before.Underway id flags run) (hleaves : ¬ t.Leaves id)
    (hgoing : t.after.abort = none) : t.after.Underway id flags (run ++ [t]) := by
  obtain ⟨stage, hst, hreached⟩ := h.stage
  have hmode' := (mode_keeps h.mode).resolve_right hleaves
  obtain ⟨stage', hst'⟩ := Machine.standsAt_of_mode hmode'
  have hthere : ¬ t.after.world.Dropped id := by
    obtain ⟨c, hc⟩ : ∃ c, t.after.world.context? id = some c := t.state_after.1.present _ hst'
    exact fun hgone => nomatch hgone.2.symm.trans hc
  exact ⟨hmode', running_step hst h.running hthere, stage', hst',
    reached_step hreached h.mode hst hst' hgoing⟩

end Transition

namespace History

variable {past earlier run : List Transition} {m : Machine} {s : Transition} {id : Nat}
  {flags : RunFlags}

/-- Where no abort is, there was none before. -/
theorem going (h : History past m) (hgoing : m.abort = none) :
    ∀ u ∈ past, u.after.abort = none := by
  induction h with
  | start => exact fun _ hu => absurd hu List.not_mem_nil
  | step t _ ih =>
    intro u hu
    rcases List.mem_append.mp hu with hu | hu
    · exact ih (t.does.going hgoing) u hu
    · exact List.mem_singleton.mp hu ▸ hgoing

/-- A run is under way from its beginning to its end. -/
theorem underway (h : History past m) (hpast : past = earlier ++ s :: run)
    (henters : s.EntersWith id flags) (hstays : ∀ u ∈ run, ¬ u.Leaves id)
    (hgoing : m.abort = none) : m.Underway id flags run := by
  have hgone := h.going hgoing
  refine h.along (I := fun run m => m.Underway id flags run)
    (Q := fun u => ¬ u.Leaves id ∧ u.after.abort = none) hpast (fun u hu => ⟨hstays u hu, ?_⟩)
    henters.underway fun _ t hq hunder => t.underway_step hunder hq.1 hq.2
  apply hgone
  rw [hpast]
  exact List.mem_append_right earlier (List.mem_cons_of_mem s hu)

end History

end EventLoop
