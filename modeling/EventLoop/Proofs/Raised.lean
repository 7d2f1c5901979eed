import EventLoop.Proofs.Posts

/-!
# Signals that stay raised

A signal that is raised stays so until a wait takes it, and then a pass begins; or the loop exits.
Whoever sets or starts a timer raises its signal, and so does another thread that reaches the timer
through a handle. A thread that stops a timer raises nothing.
-/
namespace EventLoop

namespace Context

variable {c c' : Context} {s : Signal}

/-- Signals stay raised until a wait takes them. -/
theorem Moved.raised (hm : c.Moved c') (h : c.wakeups.raised.has s = true) :
    c'.wakeups.raised.has s = true := by
  obtain ⟨l, l', hs, hm, rfl, rfl⟩ := hm
  cases hm with
  | slot _ hc => exact hc.raised (Or.inl h)
  | exitRequested he =>
    subst he
    simp [requestExit, raise, h]
  | exited he =>
    subst he
    obtain ⟨-, -, -, -, hwakeups⟩ := Loop.exit_frame hs
    rw [hwakeups]
    exact h
  | refused he => exact he ▸ h

end Context

/-- The dispatcher leaves signals raised, unless a wait ends. -/
theorem Dispatch.raised {l l' : Loop} {now : Nat} {stage : Stage} {stage' : Option Stage}
    {s : Signal} (hd : Dispatch l now stage stage' l') (h : l.context.wakeups.raised.has s = true) :
    l'.context.wakeups.raised.has s = true ∨
      (∃ deadline pass, stage = .waiting deadline ∧ stage' = some (.passing pass)) ∨
      (l.context.running = true ∧ l'.context.running = false) := by
  have hvisit : ∀ (c : Context) (signals : Signals) (i : Nat), c.wakeups = l.context.wakeups →
      (c.visit now signals i).context.wakeups.raised.has s = true := by
    intro c signals i hc
    obtain ⟨watchers, roster, hframe⟩ := c.visit_frame now signals i
    rw [hframe]
    show c.wakeups.raised.has s = true
    rw [hc]
    exact h
  have hlend : ∀ (c : Context) (x : Handle), c.wakeups.raised.has s = true →
      (c.lendCallback x).1.wakeups.raised.has s = true := by
    intro c x hc
    obtain ⟨watchers, hframe⟩ := c.lendCallback_frame x
    rw [hframe]
    exact hc
  cases hd with
  | finished => exact Or.inl h
  | honoured hrun => exact Or.inr (Or.inr ⟨hrun, rfl⟩)
  | woken => exact Or.inr (Or.inl ⟨_, _, rfl, rfl⟩)
  | visited hc => exact Or.inl (hvisit _ _ _ (hc ▸ rfl))
  | called hc => exact Or.inl (hlend _ _ (hvisit _ _ _ (hc ▸ rfl)))
  | missed hc => exact Or.inl (hlend _ _ (hvisit _ _ _ (hc ▸ rfl)))
  | @returned _ x callback =>
    obtain ⟨watchers, hframe⟩ := l.context.returnCallback_frame x callback
    left
    rw [hframe]
    exact h
  | passed => exact Or.inl h
  | passedLast => exact Or.inl h

namespace World

variable {w w' : World} {id : Nat} {s : Signal}

/-- The signal of the context is raised. -/
def Signals (w : World) (id : Nat) (s : Signal) : Prop :=
  ∃ c, w.context? id = some c ∧ c.wakeups.raised.has s = true

theorem Act.signals (hs : w.Sound) (ha : w.Act w') (h : w.Signals id s) :
    w'.Signals id s ∨ w'.Dropped id := by
  obtain ⟨c, hc, hraised⟩ := h
  rcases ha.context_before hs hc with ⟨c', hc', hm⟩ | ⟨hnone, -⟩
  · exact Or.inl ⟨c', hc', hm.raised hraised⟩
  · exact Or.inr ⟨Nat.lt_of_lt_of_le (context?_lt hc) ha.length_le, hnone⟩

theorem Acts.signals (hs : w.Sound) (ha : w.Acts w') (h : w.Signals id s) :
    w'.Signals id s ∨ w'.Dropped id := by
  induction ha with
  | refl => exact Or.inl h
  | tail hsteps hact ih =>
    have hs' := hs.acts hsteps
    rcases ih with hraised | hgone
    · exact hact.signals hs' hraised
    · exact Or.inr (hact.dropped hs' hgone)

theorem signals_raise {c : Context} (hc : w.context? id = some c) (s : Signal) :
    (w.raise id s).Signals id s := by
  refine ⟨c.raise s, ?_, ?_⟩
  · rw [raise, hc]
    exact context?_put_self hc _
  · simp [Context.raise]

/-- Whoever sets or starts a timer through a handle raises its signal. -/
theorem actOnTimerHandle_signals {r : WatcherRef} {c : Context} {e : Entry} {t : RemoteTimer}
    (hc : w.context? r.owner = some c) (hr : c.remote? r = some (e, t)) {action : TimerHandleAction}
    (hstop : action ≠ .stop) (hask : action ≠ .isActive)
    (hok : (w.actOnTimerHandle r action).2.isOk = true) :
    (w.actOnTimerHandle r action).1.Signals r.owner .timer := by
  have hput : ∀ t', ((w.putCell r t').raise r.owner .timer).Signals r.owner .timer := by
    intro t'
    rw [putCell_of_there hc hr]
    exact signals_raise (context?_put_self hc _) .timer
  rw [actOnTimerHandle, cell?_of_there hc hr] at hok ⊢
  cases action with
  | set timeout period =>
    dsimp only at hok ⊢
    cases hset : t.setTo (w.armingTime? r.owner) timeout period with
    | error err => rw [hset] at hok; contradiction
    | ok t' => exact hput t'
  | start =>
    dsimp only at hok ⊢
    cases hset : t.restart (w.armingTime? r.owner) with
    | error err => rw [hset] at hok; contradiction
    | ok t' => exact hput t'
  | stop => exact absurd rfl hstop
  | isActive => exact absurd rfl hask

end World

namespace Transition

variable {t : Transition} {r : WatcherRef} {id : Nat} {s : Signal}

/-- A signal stays raised until a pass begins or the loop exits. -/
theorem signals_keeps (hbegins : ¬ t.BeginsPass id) (hexits : ¬ t.Exits id)
    (h : t.before.world.Signals id s) : t.after.world.Signals id s ∨ t.after.world.Dropped id := by
  have hs := t.state.1
  have hacted : ∀ {s' : Config}, t.before.config.Acted s' →
      s'.world.Signals id s ∨ s'.world.Dropped id := fun ha => ha.course.acts.signals hs.world h
  cases hdeed : t.deed with
  | command current command reaction =>
    have hdoes : t.before.Does (.command current command reaction) t.after := hdeed ▸ t.does
    rcases hdoes.commanded hs with ha | ⟨l, he⟩
    · exact hacted ha
    · obtain ⟨c, hc, hraised⟩ := h
      left
      by_cases hid : id = l.context.id
      · subst hid
        obtain ⟨watchers, henter, -⟩ :=
          World.entering_spec (w := t.before.world) (hs.world.loop he.replaced.loop).2
        obtain rfl := Option.some.inj ((World.loop?_eq_some.mp he.replaced.loop).1.symm.trans hc)
        refine ⟨_, he.replaced.context_self, ?_⟩
        show (t.before.world.entering l).1.wakeups.raised.has s = true
        rw [henter]
        exact hraised
      · exact ⟨c, (he.replaced.context_other id hid).trans hc, hraised⟩
  | poll =>
    have hdoes : t.before.Does .poll t.after := hdeed ▸ t.does
    exact hacted (hdoes.idled hs)
  | dispatch =>
    have hdoes : t.before.Does .dispatch t.after := hdeed ▸ t.does
    rcases hdoes.advanced hs with hw | ⟨a, below, l, hm, s', l', stage, hd, hsettled⟩
    · exact hacted hw.acted
    · obtain ⟨c, hc, hraised⟩ := h
      have hs' := hs.dispatched hd
      have hsettle : s'.world.Signals id s →
          t.after.world.Signals id s ∨ t.after.world.Dropped id :=
        (hsettled.calmed hs'.world).acted.course.acts.signals hs'.world
      by_cases hid : id = a.context
      · subst hid
        have hloop := (World.loop?_eq_some.mp hd.replaced.loop).1
        obtain rfl := Option.some.inj (hloop.symm.trans hc)
        rcases hd.dispatch.raised hraised with hkept | ⟨deadline, pass, hstage, rfl⟩ | ⟨hrun, hstop⟩
        · exact hsettle ⟨_, hd.replaced.context_self, hkept⟩
        · have ha := Config.standsAt_of_mem (hm ▸ List.mem_cons_self : a ∈ t.before.stack)
          have ha' := hd.toShifted.standsAt.acted hsettled.standings
          exact absurd ⟨⟨deadline, hstage ▸ ha⟩, pass.signals, _, ha', rfl⟩ hbegins
        · refine absurd (Or.inr ⟨hdeed, (World.isRunning_of_context? hloop).trans hrun, ?_⟩) hexits
          have hstopped : s'.world.isRunning a.context = false :=
            (World.isRunning_of_context? hd.replaced.context_self).trans hstop
          exact (World.settled_isRunning hsettled.world _).trans hstopped
      · exact hsettle ⟨c, (hd.replaced.context_other id hid).trans hc, hraised⟩

/-- Another thread acts on a timer through a handle, and is not refused. -/
def Handles (t : Transition) (r : WatcherRef) (action : TimerHandleAction) : Prop :=
  ∃ handle reaction, t.deed = .command none (.timerHandle handle action) reaction ∧
    t.before.world.aim? none (.timerHandle handle action) = some (r, action.onWatcher) ∧
    reaction.isOk = true

theorem Handles.acts {action : TimerHandleAction} (h : t.Handles r action) :
    t.Acts r action.onWatcher := by
  obtain ⟨handle, reaction, hdeed, haim, hok⟩ := h
  exact ⟨_, _, _, hdeed, haim, hok⟩

/-- A timer that another thread sets or starts has raised its signal. -/
theorem Handles.signals {action : TimerHandleAction} (h : t.Handles r action)
    (hstop : action ≠ .stop) (hask : action ≠ .isActive) :
    t.after.world.Signals r.owner .timer ∨ t.after.world.Dropped r.owner := by
  obtain ⟨handle, reaction, hdeed, haim, hok⟩ := h
  obtain ⟨waits, w, hs, hperform, hw⟩ := commanded hdeed
  obtain ⟨r', hname, haim⟩ := Option.bind_eq_some_iff.mp haim
  obtain ⟨⟨e, tm⟩, hremote, heq⟩ := Option.map_eq_some_iff.mp haim
  obtain rfl : r' = r := congrArg Prod.fst heq
  obtain ⟨c, hc, hremote⟩ := Option.bind_eq_some_iff.mp hremote
  rw [World.perform, World.withName_of_find _ hname] at hperform
  obtain ⟨rfl, rfl⟩ := Prod.mk.inj hperform
  have hraised := World.actOnTimerHandle_signals (w := { t.before.world with waits }) hc hremote
    hstop hask hok
  rcases hw with he | he
  · exact Or.inl (he ▸ hraised)
  · have hs' := hs.acts (World.actOnTimerHandle_course hs r' action).acts
    rw [he]
    exact (World.settle_calms hs').acts.signals hs' hraised

end Transition
end EventLoop
