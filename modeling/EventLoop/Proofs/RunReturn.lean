import EventLoop.Proofs.Course

/-!
# How a run returns

A run that is to be made once returns after the first pass that has called somebody, and if it may
not block after its first pass. Otherwise a run returns before a wait, because its loop has exited
or nothing is linked, or in a wait that honours a request to exit. It never returns an error, and
the loop is running afterwards unless it has exited in the meantime.
-/
namespace EventLoop

/-- A run of the context, entered with these flags, has returned. -/
structure Returned (id : Nat) (flags : RunFlags) (run : List Transition) (t : Transition) :
    Prop where
  /-- It answers the calls it has made, and no error. -/
  ok : ∃ calls, t.before.Returns id calls ∧ t.after = t.before.step
  /-- Another run is accepted. -/
  again : ∀ current flags', ∃ deadline,
    (t.after.world.perform current (.run (some id) flags')).2 = .entered id flags' deadline
  /-- The loop is not running afterwards just if it has exited in the course of the run. -/
  running : t.after.world.isRunning id = false ↔ ∃ u ∈ run ++ [t], u.Exits id
  /-- The loop has exited, or nothing is linked, or the run was to be made once. Then either a
  watcher has been called in the last pass, or this was the first pass after the first wait. -/
  cause : (∃ u ∈ run ++ [t], u.Exits id) ∨ t.before.world.hasLinked id = false ∨
    (flags.has .once = true ∧ t.EndsPass id ∧ ∃ before b pass, MakesPass id run before b pass ∧
      ((∃ u ∈ pass, u.CallsIn id) ∨ (flags.has .nonblock = true ∧ b.Waits id ∧
        ∀ u ∈ before ++ pass, ¬ u.Waits id ∧ ¬ u.BeginsPass id)))

namespace Machine

variable {m : Machine} {id : Nat}

/-- A context that is there and has no run can be run. -/
theorem accepts_run (hs : m.config.Sound) {c : Context} (hc : m.world.context? id = some c)
    (hst : m.config.StandsAt id none) (current : Option Nat) (flags : RunFlags) : ∃ deadline,
      (m.world.perform current (.run (some id) flags)).2 = .entered id flags deadline := by
  have hidle : c.busy = false := by
    rw [← Bool.not_eq_true]
    intro hbusy
    obtain ⟨x, hx, hid⟩ := (hs.busy id c hc).mp hbusy
    exact hst x hx hid
  have hu : m.world.usable? current id =
      some ⟨c, c.poller.bind fun p => m.world.pollers[p]?⟩ := by
    rw [World.usable?, World.loop?_of_context? hc]
    dsimp only
    rw [hidle, Bool.false_and]
    rfl
  exact ⟨_, congrArg Prod.snd (World.perform_run_idle hs.world hu hidle flags)⟩

/-- While a context has a run, it cannot be run once more, and nothing happens to the world. -/
theorem refuses_run (hs : m.config.Sound) {stage : Stage}
    (hst : m.config.StandsAt id (some stage)) (current : Option Nat) (flags : RunFlags) :
    m.world.perform current (.run (some id) flags) =
      (m.world, .answered (if current = some id then .ran (some .reentrant) []
        else .refused .noContext)) := by
  obtain ⟨c, hc⟩ : ∃ c, m.world.context? id = some c := hs.present _ hst
  exact World.perform_run_busy (World.loop?_of_context? hc) (hst.busy hs hc) current flags

/-- A callback that runs its own context has this answered, and goes on. -/
theorem step_nested (hs : m.config.Sound) {a : Activation} {below : List Activation} {pass : Pass}
    {call : Call} {context : Option Nat} {flags : RunFlags} {rest : List Command}
    (hm : m.stack = a :: below) (hp : a.phase = .calling pass call)
    (hrest : call.rest = .run context flags :: rest)
    (hown : context = none ∨ context = some a.context) : m.step =
      { m with
        world := m.world.settle
        stack := { a with phase := .calling pass { call with
          rest, answers := call.answers ++ [.ran (some .reentrant) []] } } :: below } := by
  have hst := Config.standsAt_of_mem (hm ▸ List.mem_cons_self : a ∈ m.stack)
  obtain ⟨c, hc⟩ : ∃ c, m.world.context? a.context = some c := hs.present _ hst
  have hrefused : m.world.perform (some a.context) (.run context flags) =
      (m.world, .answered (.ran (some .reentrant) [])) := by
    have hown' : m.world.perform (some a.context) (.run context flags) =
        m.world.perform (some a.context) (.run (some a.context) flags) := by
      rcases hown with rfl | rfl
      · rfl
      · rfl
    rw [hown', refuses_run hs hst, if_pos rfl]
  unfold step
  simp only [hm, World.loop?_of_context? hc, hp, hrest]
  unfold perform
  dsimp only
  rw [hrefused]
  rfl

end Machine

namespace Transition

variable {t : Transition} {id : Nat} {flags : RunFlags} {run : List Transition}

/-- A run ends in a step of the dispatcher, and its context is still there. -/
theorem Leaves.dispatched (h : t.Leaves id) : t.deed = .dispatch ∧
    (∃ c, t.after.world.context? id = some c) ∧ ∃ a below l now l', t.before.stack = a :: below ∧
      a.context = id ∧ t.before.world.loop? id = some l ∧
      Dispatch l now a.standing.stage none l' := by
  obtain ⟨⟨stage, hst⟩, hnone⟩ := h
  rcases t.stays_or_steps hst with hsame |
    ⟨a, below, s, l, l', st, hdeed, hm, rfl, -, hd, hsettled⟩
  · exact absurd rfl (hnone _ hsame)
  · cases st with
    | some st => exact absurd rfl (hnone _ (hd.toShifted.standsAt.acted hsettled.standings))
    | none =>
      refine ⟨hdeed, ?_, a, below, l, _, l', hm, rfl, hd.replaced.loop, hd.dispatch⟩
      have hself : s.world.context? a.context = some l'.context := hd.replaced.context_self
      have hthere : (t.after.world.context? a.context).any (fun _ => true) = true := by
        refine (World.settled_any (fun _ _ _ => rfl) hsettled.world a.context).trans ?_
        rw [hself]
        rfl
      cases hafter : t.after.world.context? a.context with
      | none => rw [hafter] at hthere; contradiction
      | some c' => exact ⟨c', rfl⟩

/-- A run that ends answers its calls. It ends after a pass, in a wait that honours a request to
exit, or before a wait. -/
theorem Leaves.returns (h : t.Leaves id) (hmode : (id, flags) ∈ t.before.modes) {stage : Stage}
    (hst : t.before.config.StandsAt id (some stage)) : ∃ calls, t.before.Returns id calls ∧
      ((∃ pass, stage = .passing pass ∧ Machine.returnsAfter flags pass = true) ∨
        t.Exits id ∨ t.before.world.isRunning id = false ∨
        t.before.world.hasLinked id = false) := by
  have hs := t.state.1
  obtain ⟨hdeed, -, a, below, l, now, l', hm, rfl, hl, hdispatch⟩ := h.dispatched
  have hdoes : t.before.Does .dispatch t.after := hdeed ▸ t.does
  have hc := (World.loop?_eq_some.mp hl).1
  have hstage := phase_of_stands hm hst
  rw [hstage] at hdispatch
  refine ⟨a.calls, ?_⟩
  cases stage with
  | calling => cases hdispatch
  | passing pass =>
    have hp := phase_of_stage hstage
    cases hdispatch with
    | passedLast hend =>
      have hreturns : Machine.returnsAfter a.flags pass = true := by
        by_contra hnot
        have hsame := modes_of_passed hdeed hm hl hp hend
        rw [if_neg hnot] at hsame
        have hmode' : (a.context, flags) ∈ t.after.modes := hsame ▸ hmode
        obtain ⟨stage', hst'⟩ := Machine.standsAt_of_mode hmode'
        exact h.2 _ hst' rfl
      obtain ⟨w, l₁, hstep⟩ := t.before.stepPassing_ends a below pass hend
      have hleave : t.before.step = ({ t.before with world := w } : Machine).leave a below l₁ := by
        rw [Machine.step_passing hm hl hp, hstep]
        exact if_pos hreturns
      refine ⟨Machine.returns_of_leave hm rfl hleave, Or.inl ⟨pass, rfl, ?_⟩⟩
      rw [← Machine.flags_of_mode hs hm hmode]
      exact hreturns
  | waiting deadline =>
    have hp := phase_of_waiting hstage
    cases hgoes : l.context.running && !l.context.roster.isEmpty with
    | false =>
      refine ⟨(leaves_of_over hdeed hm hl hp hgoes).1, Or.inr (Or.inr ?_)⟩
      rw [World.isRunning_of_context? hc, World.hasLinked, hc, Option.any_some]
      exact Bool.and_eq_false_iff.mp hgoes
    | true =>
      obtain ⟨hrun, hlinked⟩ : l.context.running = true ∧ l.context.roster.isEmpty = false := by
        simpa using hgoes
      have hwait : t.before.AtWait a below l := ⟨hm, hdoes.dispatching, hp, hl, hrun, hlinked⟩
      rcases hwait.cases with ⟨-, hsame⟩ | ⟨clock, l₁, hleave⟩ | ⟨signals, stage', hst', -⟩
      · rw [← hdoes.stepped] at hsame
        have ha := Config.standsAt_of_mem (hsame ▸ hm ▸ List.mem_cons_self : a ∈ t.after.stack)
        exact absurd rfl (h.2 _ ha)
      · refine ⟨Machine.returns_of_leave hm rfl hleave, Or.inr (Or.inl (Or.inr ⟨hdeed, ?_, ?_⟩))⟩
        · exact (World.isRunning_of_context? hc).trans hrun
        · rw [hdoes.stepped, hleave]
          exact Machine.leave_stopped (t.before.waited clock) below l₁ hc
      · rw [← hdoes.stepped] at hst'
        exact absurd rfl (h.2 _ hst')

/-- What a run under way has come to when it returns. -/
theorem Leaves.returned (h : t.Leaves id) (hunder : t.before.Underway id flags run) :
    Returned id flags run t := by
  obtain ⟨stage, hst, hreached⟩ := hunder.stage
  obtain ⟨calls, hreturns, hcause⟩ := h.returns hunder.mode hst
  obtain ⟨hdeed, ⟨c, hc⟩, -⟩ := h.dispatched
  have hdoes : t.before.Does .dispatch t.after := hdeed ▸ t.does
  refine ⟨⟨calls, hreturns, hdoes.stepped⟩, t.after.accepts_run t.state_after.1 hc h.2, ?_, ?_⟩
  · have hthere : ¬ t.after.world.Dropped id := fun hgone => nomatch hgone.2.symm.trans hc
    have hrun := running_step hst hunder.running hthere
    rw [← Bool.not_eq_true, hrun]
    simp only [not_forall, not_not, exists_prop]
  · rcases hcause with ⟨pass, rfl, hover⟩ | hexits | hstopped | hlinked
    · right; right
      rw [Machine.returnsAfter, Bool.and_eq_true, Bool.or_eq_true, decide_eq_true_eq] at hover
      have hends : t.EndsPass id := by
        refine ⟨⟨pass.signals, _, hst, rfl⟩, ?_⟩
        rintro signals ⟨stage', hst', -⟩
        exact h.2 _ hst' rfl
      cases hreached with
      | outside hout => contradiction
      | @inside before b ts _ hpass hcalls hfirst =>
        refine ⟨hover.1, hends, before, b, ts, hpass, hover.2.imp hcalls.mp fun hblock => ?_⟩
        have hnone : ∀ u ∈ before ++ ts, ¬ u.Waits id := by
          intro u hu
          rcases List.mem_append.mp hu with hu | hu
          · exact hfirst hover.1 hblock u hu
          · exact (hpass.within u hu).2.2
        exact ⟨hblock, hpass.begins.waits, fun u hu =>
          ⟨hnone u hu, fun hbegins => hnone u hu hbegins.waits⟩⟩
    · exact Or.inl ⟨t, List.mem_append_right run List.mem_cons_self, hexits⟩
    · left
      have hnot : ¬ ∀ u ∈ run, ¬ u.Exits id := by
        rw [← hunder.running, hstopped]
        exact Bool.false_ne_true
      simp only [not_forall, not_not, exists_prop] at hnot
      exact hnot.imp fun u hu => ⟨List.mem_append_left [t] hu.1, hu.2⟩
    · exact Or.inr (Or.inl hlinked)

/-- A pass ends in a step of the dispatcher. -/
theorem EndsPass.dispatch (h : t.EndsPass id) : t.deed = .dispatch := by
  obtain ⟨⟨signals, stage, hst, hsignals⟩, hnone⟩ := h
  rcases t.stays_or_steps hst with hsame | ⟨a, below, s, l, l', st, hdeed, -⟩
  · exact absurd ⟨stage, hsame, hsignals⟩ (hnone signals)
  · exact hdeed

/-- A run that is to be made once goes on after its pass only if no watcher has been called in
it. -/
theorem EndsPass.served_none (h : t.EndsPass id) (hstays : ¬ t.Leaves id)
    (hunder : t.before.Underway id flags run) (honce : flags.has .once = true) :
    ∃ before b pass, MakesPass id run before b pass ∧ ∀ u ∈ pass, ¬ u.CallsIn id := by
  obtain ⟨stage, hst, hreached⟩ := hunder.stage
  have hmode' := (mode_keeps hunder.mode).resolve_right hstays
  obtain ⟨stage', hst'⟩ := Machine.standsAt_of_mode hmode'
  obtain ⟨hin, hout⟩ := (endsPass_iff hst hst').mp h
  cases goesOn hunder.mode hst hst' with
  | stays => exact absurd hout (Option.isSome_iff_ne_none.mp hin)
  | @ends pass hgoes =>
    cases hreached with
    | outside hnone => contradiction
    | @inside before b ts _ hpass hcalls =>
      refine ⟨before, b, ts, hpass, fun u hu hcalled => ?_⟩
      have hserved : 0 < pass.served := hcalls.mpr ⟨u, hu, hcalled⟩
      rw [Machine.returnsAfter, honce, decide_eq_true hserved] at hgoes
      contradiction
  | _ => contradiction

theorem not_leaves_of_mode (h : (id, flags) ∈ t.after.modes) : ¬ t.Leaves id := by
  obtain ⟨stage, hst⟩ := Machine.standsAt_of_mode h
  exact fun hleaves => hleaves.2 _ hst rfl

end Transition

/-- A run of the context was entered with these flags, and this has been done since, in which the
run has not returned. -/
def RunsSince (past : List Transition) (id : Nat) (flags : RunFlags) (run : List Transition) :
    Prop :=
  ∃ earlier s, past = earlier ++ s :: run ∧ s.EntersWith id flags ∧ ∀ u ∈ run, ¬ u.Leaves id

theorem History.underway_before {past : List Transition} {m : Machine} (h : History past m)
    {id : Nat} {flags : RunFlags} {run before after : List Transition} {e : Transition}
    (hsince : RunsSince past id flags run) (hrun : run = before ++ e :: after)
    (hdeed : e.deed = .dispatch) : e.before.Underway id flags before := by
  obtain ⟨earlier, s, hpast, henters, hstays⟩ := hsince
  have hsplit : past = (earlier ++ s :: before) ++ e :: after := by
    rw [hpast, hrun, List.append_assoc, List.cons_append]
  have hdoes : e.before.Does .dispatch e.after := hdeed ▸ e.does
  refine (h.before hsplit).underway rfl henters (fun u hu => hstays u ?_) hdoes.dispatching
  rw [hrun]
  exact List.mem_append_left _ hu

/-- What can be said of the runs of a context, after all that was done. -/
structure RunsReturn (past : List Transition) (m : Machine) (id : Nat) : Prop where
  /-- As long as the context has no run, every attempt to run it is accepted. -/
  accepted : ∀ c, m.world.context? id = some c → m.config.StandsAt id none →
    ∀ current flags, ∃ deadline,
      (m.world.perform current (.run (some id) flags)).2 = .entered id flags deadline
  /-- A run that returns answers no error, and returns for one of four reasons. -/
  returned : ∀ flags run, RunsSince past id flags run → ∀ t : Transition, t.before = m →
    t.Leaves id → Returned id flags run t
  /-- A run that is to be made once goes on only after passes in which it has called nobody. -/
  once : ∀ flags run, RunsSince past id flags run → flags.has .once = true →
    ∀ before e after, run = before ++ e :: after → e.EndsPass id →
      ∃ earlier b pass, MakesPass id before earlier b pass ∧ ∀ u ∈ pass, ¬ u.CallsIn id
  /-- A run that may not block has no time for any wait. -/
  nonblock : ∀ flags run, RunsSince past id flags run → flags.has .nonblock = true →
    ∀ a below l, m.AtWait a below l → a.context = id →
      Machine.waitTimeout m.world a l.context = some 0
  /-- A callback that runs its own context is answered that it may not, and goes on with its next
  step; nothing else happens. -/
  nested : ∀ a below pass call context flags rest, m.stack = a :: below → a.context = id →
    a.phase = .calling pass call → call.rest = .run context flags :: rest →
    context = none ∨ context = some id → m.step =
      { m with
        world := m.world.settle
        stack := { a with phase := .calling pass { call with
          rest, answers := call.answers ++ [.ran (some .reentrant) []] } } :: below }
  /-- No attempt to run the context while it has a run does anything to the world. -/
  refused : ∀ stage, m.config.StandsAt id (some stage) → ∀ current flags,
    m.world.perform current (.run (some id) flags) =
      (m.world, .answered (if current = some id then .ran (some .reentrant) []
        else .refused .noContext))

/-- When and how runs return. A context that has no run can be run with whatever flags, and while it
has one it cannot be run once more, which the one that is going on does not notice. A run never
returns an error, and leaves its context so that it can be run again. It returns because its loop
has exited in the meantime, and just then the loop is not running afterwards; or because nothing is
linked; or, if it is to be made once, after a pass that has called a watcher, while all passes
before have called nobody, or without blocking after one wait and one pass. -/
theorem runs_return {past : List Transition} {m : Machine} (h : History past m) (id : Nat) :
    RunsReturn past m id where
  accepted := fun _ hc hst => m.accepts_run (reachable_pass h.reachable).1 hc hst
  returned := by
    rintro flags run ⟨earlier, s, hpast, henters, hstays⟩ t rfl hleaves
    have hdoes : t.before.Does .dispatch t.after := hleaves.dispatched.1 ▸ t.does
    exact hleaves.returned (h.underway hpast henters hstays hdoes.dispatching)
  once := by
    intro flags run hsince honce before e after hrun hends
    have hunder := h.underway_before hsince hrun hends.dispatch
    obtain ⟨-, -, -, -, hstays⟩ := hsince
    refine hends.served_none (hstays e ?_) hunder honce
    rw [hrun]
    exact List.mem_append_right before List.mem_cons_self
  nonblock := by
    rintro flags run ⟨earlier, s, hpast, henters, hstays⟩ hblock a below l hwait rfl
    have hunder := h.underway hpast henters hstays hwait.going
    have hflags := Machine.flags_of_mode (reachable_pass h.reachable).1 hwait.stack
      hunder.mode
    rw [Machine.waitTimeout, hflags, if_pos hblock]
  nested := by
    rintro a below pass call context flags rest hm rfl hp hrest hown
    exact Machine.step_nested (reachable_pass h.reachable).1 hm hp hrest hown
  refused := fun _ hst => Machine.refuses_run (reachable_pass h.reachable).1 hst

/-- A loop with an event that has been posted, and whose callback runs the loop. -/
def Machine.nesting : Machine :=
  (((Machine.create (World.create ⟨1000000, 0, false⟩ .standIn)).submit
    (.newContext .none .scenario)).submit
    (.create none "event" .event ⟨[[.run none ∅]], false⟩)).submit
    (.watcher none "event" .eventPost)

/-- A run that is made once calls the event, whose callback may not run the loop. Then the run
returns, and the loop can be run again. -/
theorem runs_return_nesting : ∃ (earlier : List Transition) (s b u n v t : Transition),
    History (earlier ++ s :: [b, u, n, v]) t.before ∧ s.before = Machine.nesting ∧
    s.EntersWith 0 (Mask.only .once) ∧ (∀ x ∈ [b, u, n, v], ¬ x.Leaves 0) ∧
    n.deed = .command (some 0) (.run none ∅) (.answered (.ran (some .reentrant) [])) ∧
    t.Leaves 0 ∧ Returned 0 (Mask.only .once) [b, u, n, v] t ∧
    ∃ deadline, (t.after.world.perform none (.run (some 0) ∅)).2 = .entered 0 ∅ deadline := by
  have hmade : Machine.nesting.Reachable :=
    (((Machine.Reachable.start _ _).submit _ (by decide +kernel) (by decide +kernel)).submit _
      (by decide +kernel) (by decide +kernel)).submit _ (by decide +kernel) (by decide +kernel)
  obtain ⟨earlier, hearlier⟩ := hmade.history
  -- the run, its wait, the call, the nested run, the return of the callback, the end of the pass
  obtain ⟨s, hs, -, hsdeed, hrun⟩ := hearlier.submit (.run none (Mask.only .once))
    (by decide +kernel) (by decide +kernel)
  obtain ⟨b, -, hb', -, hpass⟩ := hrun.dispatch (by decide +kernel) (by decide +kernel)
  obtain ⟨u, -, hu', -, hcall⟩ := hpass.dispatch (by decide +kernel) (by decide +kernel)
  obtain ⟨n, -, hn', hndeed, hnested⟩ := hcall.command (by decide +kernel) rfl
  obtain ⟨v, -, hv', -, hreturn⟩ := hnested.dispatch (by decide +kernel) (by decide +kernel)
  obtain ⟨t, ht, ht', htdeed, -⟩ := hreturn.dispatch (by decide +kernel) (by decide +kernel)
  have hhistory : History (earlier ++ s :: [b, u, n, v]) t.before := by
    have hpast : earlier ++ s :: [b, u, n, v] = earlier ++ [s] ++ [b] ++ [u] ++ [n] ++ [v] := by
      simp
    rw [hpast, ht]
    exact hreturn
  have henters : s.EntersWith 0 (Mask.only .once) := ⟨none, _, none, hsdeed⟩
  have hstays : ∀ x ∈ [b, u, n, v], ¬ x.Leaves 0 := by
    intro x hx
    suffices hmode : (0, Mask.only .once) ∈ x.after.modes from Transition.not_leaves_of_mode hmode
    have hone : x = b ∨ x = u ∨ x = n ∨ x = v := by simpa using hx
    rcases hone with rfl | rfl | rfl | rfl
    · rw [hb']
      decide +kernel
    · rw [hu']
      decide +kernel
    · rw [hn']
      decide +kernel
    · rw [hv']
      decide +kernel
  have hleaves : t.Leaves 0 := by
    refine ⟨⟨.passing ⟨Mask.only .event, 1, none⟩, ?_⟩, ?_⟩
    · rw [ht]
      decide +kernel
    · rw [ht']
      decide +kernel
  have hlaw := runs_return hhistory 0
  have hreturned :=
    hlaw.returned (Mask.only .once) _ ⟨earlier, s, rfl, henters, hstays⟩ t rfl hleaves
  refine ⟨earlier, s, b, u, n, v, t, hhistory, hs, henters, hstays, ?_, hleaves, hreturned,
    hreturned.again none ∅⟩
  rw [hndeed]
  rfl

end EventLoop
