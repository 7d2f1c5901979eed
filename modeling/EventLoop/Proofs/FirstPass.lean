import EventLoop.Proofs.Dormant
import EventLoop.Proofs.ExitRequests

/-!
# The first pass of a run

A timer that is set while its loop is not running is armed when the next run is entered, and has
raised its signal by then, so that the wait before the first pass is cut short. In this pass the
timer is called if the clock has got past its deadline by its turn. With no timeout the deadline is
the time at which the run was entered: the timer is called in the first pass if the clock has gone
on since, and is passed over if it has not.
-/
namespace EventLoop

/-! ### Signals that wait for a run -/

/-- While the loop is not running, whatever timer is active has raised its signal. -/
def Context.Primed (c : Context) : Prop :=
  c.running = false → ∀ i g e, c.watchers.at? i = some (g, e) → e.need? = some .timer →
    c.wakeups.raised.has .timer = true

namespace Context

variable {c c' : Context} {s : Signal}

theorem primed_of_running (h : c.running = true) : c.Primed := by
  intro hrun
  rw [h] at hrun
  contradiction

theorem primed_of_idle (h : ∀ i, Loop.Idle (c.watchers.at? i)) : c.Primed := by
  intro _ i g e he hneed
  have hactive := isActive_of_need hneed
  rw [h i g e he] at hactive
  contradiction

theorem Primed.moved (h : c.Primed) (hm : c.Moved c') : c'.Primed := by
  obtain ⟨l, l', hs, hm, rfl, rfl⟩ := hm
  cases hm with
  | slot ho hc =>
    intro hrun i g e he hneed
    rw [hc.running] at hrun
    rcases hc.need false ho hs.context.roster he hneed with hraised | ⟨hold, -⟩
    · exact hraised
    · apply hc.raised
      exact Or.inl (h hrun i g e hold hneed)
  | exitRequested he =>
    subst he
    intro hrun i g e he hneed
    simp [requestExit, raise, h hrun i g e he hneed]
  | exited he => exact he ▸ primed_of_idle (Loop.idle_exit hs)
  | refused he => exact he ▸ h

theorem Primed.recalled (h : c.Primed) (hr : c.Recalled c') : c'.Primed := by
  obtain ⟨watchers, rfl, hslots⟩ := hr
  intro hrun i g e he hneed
  obtain ⟨e₀, f, he₀, rfl⟩ := hslots i g e he
  exact h hrun i g e₀ he₀ hneed

end Context

theorem Dispatch.primed {l l' : Loop} {now : Nat} {stage : Stage} {stage' : Option Stage}
    (hs : l.Sound) (hd : Dispatch l now stage stage' l') (h : l.context.Primed) :
    l'.context.Primed := by
  intro hstop
  rcases hd.of_stopped hs hstop with hidle | ⟨-, c, roster, busy, hrecalled, hc⟩
  · exact Context.primed_of_idle hidle hstop
  · have hbefore : c.Primed := h.recalled hrecalled
    rw [hc] at hstop ⊢
    exact hbefore hstop

theorem stageInvariant_primed : Config.StageInvariant fun _ => Context.Primed where
  create := fun _ _ _ => Context.primed_of_idle fun _ _ _ h => nomatch h
  moved := fun _ _ _ hm h => h.moved hm
  entered := fun _ _ hs _ => Context.primed_of_running (World.entering_running hs)
  dispatched := fun _ _ _ _ _ hs hd h => hd.primed hs h

namespace World

/-- The watcher is ahead in the pass of its context. -/
def Ahead (w : World) (r : WatcherRef) : Prop :=
  ∃ c, w.context? r.owner = some c ∧ r.index ∈ c.roster.remaining

end World

namespace Transition

variable {t : Transition} {r : WatcherRef} {id d : Nat}

/-- When a run is entered, a timer that is active and dormant has raised its signal. -/
theorem signals_of_dormant (t : Transition) {e : Entry} {tm : Timer}
    (he : t.before.world.meant? r = some e) (ht : e.activeTimer? = some tm)
    (hdormant : tm.deadline = none) : t.before.world.Signals r.owner .timer := by
  obtain ⟨c, hc, hm⟩ := World.meant?_eq_some.mp he
  obtain ⟨g, hat, -⟩ := Context.meant?_eq_some.mp hm
  have hstop : c.running = false := by
    rw [← Bool.not_eq_true]
    intro hrun
    obtain ⟨d, hd⟩ := t.reachable.armed hc hrun r.index g e tm hat ht
    rw [hdormant] at hd
    contradiction
  refine ⟨c, hc, stageInvariant_primed.reachable t.reachable hc hstop r.index g e hat ?_⟩
  exact need_of_activeTimer ht

/-! ### On the way to a timer -/

/-- The watcher has its turn in a pass, when the clock shows this time. -/
structure TakesTurn (t : Transition) (r : WatcherRef) (now : Nat) : Prop where
  reading : t.before.world.reading? r.owner = some now
  ahead : t.before.world.Ahead r
  behind : ¬ t.after.world.Ahead r

end Transition

/-- An active timer with this deadline is on the way of a pass. -/
structure Config.Nears (s : Config) (r : WatcherRef) (d : Nat) : Prop where
  passes : ∃ signals, s.Passes r.owner signals
  running : s.world.isRunning r.owner = true
  ahead : s.world.Ahead r
  ticks : s.world.Ticks r d

namespace Transition

variable {t : Transition} {r : WatcherRef} {call : Call} {id d : Nat}

/-- A call is the turn of the watcher. -/
theorem Calls.takesTurn (h : t.Calls r call) {now : Nat}
    (hnow : t.before.world.reading? r.owner = some now) : t.TakesTurn r now := by
  obtain ⟨c, c', signals, -, hc, hc', hahead, hover⟩ := h.ahead
  refine ⟨hnow, ⟨c, hc, hahead⟩, ?_⟩
  rintro ⟨c₁, hc₁, hahead'⟩
  obtain rfl := Option.some.inj (hc'.symm.trans hc₁)
  exact hover hahead'

/-- The pass goes on to the timer, unless somebody sets or stops it first. At its turn the timer is
called if the clock is past the deadline. -/
theorem nears_onward (h : t.before.config.Nears r d) :
    (∃ signals, t.after.config.Passes r.owner signals) ∧
      (t.Retimes r ∨ (t.after.config.Nears r d ∧ ∀ call, ¬ t.Calls r call) ∨
        ∃ now, t.TakesTurn r now ∧ ((∃ call, t.Calls r call) ↔ d < now)) := by
  obtain ⟨⟨signals, hpasses⟩, hrun, hahead, hticks⟩ := h
  obtain ⟨c, hc, hi⟩ := hahead
  obtain ⟨hpasses', c', hc', -⟩ := t.passes_on hpasses hrun hc hi
  refine ⟨⟨signals, hpasses'⟩, ?_⟩
  obtain ⟨e, he, hd⟩ := hticks
  obtain ⟨tm, htm, hactive, hdeadline⟩ := Entry.deadline?_eq_some.mp hd
  by_cases hretimes : t.Retimes r
  · exact Or.inl hretimes
  right
  by_cases hcalls : ∃ call, t.Calls r call
  · right
    obtain ⟨call, hcalls⟩ := hcalls
    obtain ⟨now, d', hnow, hd', hdue, -⟩ := hcalls.fired he htm
    obtain rfl := Option.some.inj (hdeadline.symm.trans hd')
    exact ⟨now, hcalls.takesTurn hnow, iff_of_true ⟨call, hcalls⟩ hdue⟩
  · have hthere : ¬ t.after.world.Dropped r.owner := fun hgone => nomatch hgone.2.symm.trans hc'
    have hticks' : t.after.world.Ticks r d :=
      (ticks_keeps (not_exists.mp hcalls) hretimes ⟨e, he, hd⟩).resolve_right hthere
    by_cases hahead' : t.after.world.Ahead r
    · have hrun' : t.after.world.isRunning r.owner = true :=
        (t.runs_on hrun).resolve_right fun h => h.elim (fun h => hretimes (Or.inr h)) hthere
      exact Or.inl ⟨⟨⟨signals, hpasses'⟩, hrun', hahead', hticks'⟩, not_exists.mp hcalls⟩
    · right
      obtain ⟨e', he', hd'⟩ := hticks'
      rcases t.visited_or_ahead hpasses hrun ⟨c, hc, hi⟩ he (Entry.need_of_deadline hd) (by decide)
        he' (Entry.need_of_deadline hd') (by decide) with ⟨now, hnow, hvisit⟩ | hkept
      · have hnone := hvisit.resolve_right hcalls
        refine ⟨now, ⟨hnow, ⟨c, hc, hi⟩, hahead'⟩, iff_of_false hcalls fun hdue => ?_⟩
        exact Entry.visit_of_due hd hdue hnone
      · exact absurd hkept hahead'

/-- Until it ends, a pass that has a timer behind it neither comes back to it nor calls it. -/
theorem behind_keeps (hpasses : ∃ signals, t.before.config.Passes r.owner signals)
    (hover : ¬ t.before.world.Ahead r) (hends : ¬ t.EndsPass r.owner) :
    (∃ signals, t.after.config.Passes r.owner signals) ∧ ¬ t.after.world.Ahead r ∧
      ∀ call, ¬ t.Calls r call := by
  have hpasses' : ∃ signals, t.after.config.Passes r.owner signals := by
    by_contra hnot
    exact hends ⟨hpasses, not_exists.mp hnot⟩
  have hbegins : ¬ t.BeginsPass r.owner := by
    rintro ⟨⟨deadline, hst⟩, -⟩
    obtain ⟨signals, stage, hst', hsignals⟩ := hpasses
    obtain rfl := hst.unique t.state.1 hst'
    contradiction
  refine ⟨hpasses', ?_, fun call hcalls => ?_⟩
  · rintro ⟨c', hc', hahead⟩
    obtain ⟨signals, hpasses'⟩ := hpasses'
    obtain ⟨c, -, -, hc, hrest⟩ := t.pass_before hpasses' hbegins hc'
    exact hover ⟨c, hc, hrest.subset hahead⟩
  · obtain ⟨c, -, -, -, hc, -, hahead, -⟩ := hcalls.ahead
    exact hover ⟨c, hc, hahead⟩

end Transition

/-- How a pass has dealt with a timer so far that was on its way with this deadline. -/
inductive Machine.Met (m : Machine) (r : WatcherRef) (d : Nat) (pass : List Transition) : Prop
  /-- Somebody has set or stopped the timer before its turn. -/
  | retimed {u} : u ∈ pass → u.before.config.Nears r d → u.Retimes r → Met m r d pass
  /-- The timer is still on the way. -/
  | nearing : m.config.Nears r d → (∀ u ∈ pass, ∀ call, ¬ u.Calls r call) → Met m r d pass
  /-- The timer has had its turn, and was called if it was due. -/
  | passed {u now} : u ∈ pass → u.before.config.Nears r d → u.TakesTurn r now →
      ((∃ v ∈ pass, ∃ call, v.Calls r call) ↔ d < now) →
      (∃ signals, m.config.Passes r.owner signals) → ¬ m.world.Ahead r → Met m r d pass

/-- One step of the pass further. -/
theorem Machine.Met.step {r : WatcherRef} {d : Nat} {pass : List Transition} {t : Transition}
    (h : t.before.Met r d pass) (hends : ¬ t.EndsPass r.owner) : t.after.Met r d (pass ++ [t]) := by
  have hlast : t ∈ pass ++ [t] := List.mem_append_right pass List.mem_cons_self
  have hcalls : (∃ v ∈ pass ++ [t], ∃ call, v.Calls r call) ↔
      (∃ v ∈ pass, ∃ call, v.Calls r call) ∨ ∃ call, t.Calls r call := by
    simp only [List.mem_append, List.mem_singleton, or_and_right, exists_or, exists_eq_left]
  cases h with
  | retimed hu hnears hretimes => exact .retimed (List.mem_append_left [t] hu) hnears hretimes
  | nearing hnears hnone =>
    have hbefore : ¬ ∃ v ∈ pass, ∃ call, v.Calls r call := fun ⟨v, hv, call, h⟩ => hnone v hv call h
    obtain ⟨hpasses, hretimes | ⟨hnears', hnot⟩ | ⟨now, hturn, hdue⟩⟩ := t.nears_onward hnears
    · exact .retimed hlast hnears hretimes
    · refine .nearing hnears' fun v hv call hcall => ?_
      exact (hcalls.mp ⟨v, hv, call, hcall⟩).elim hbefore fun ⟨call, h⟩ => hnot call h
    · exact .passed hlast hnears hturn ((hcalls.trans (or_iff_right hbefore)).trans hdue) hpasses
        hturn.behind
  | passed hu hnears hturn hdue hpasses hover =>
    obtain ⟨hpasses', hover', hnot⟩ := t.behind_keeps hpasses hover hends
    exact .passed (List.mem_append_left [t] hu) hnears hturn
      ((hcalls.trans (or_iff_left (not_exists.mpr hnot))).trans hdue) hpasses' hover'

/-- What a pass makes of a timer that it has on its way, as long as it has not ended. -/
theorem History.met {past : List Transition} {m : Machine} (h : History past m) {r : WatcherRef}
    {d : Nat} {before pass : List Transition} {b : Transition} (hpast : past = before ++ b :: pass)
    (hnears : b.after.config.Nears r d) (hpass : ∀ u ∈ pass, ¬ u.EndsPass r.owner) :
    m.Met r d pass := by
  refine h.along (I := fun pass m => m.Met r d pass) hpast hpass ?_ fun done t hends hmet =>
    hmet.step hends
  exact .nearing hnears fun _ hu => absurd hu List.not_mem_nil

/-! ### Until the first pass -/

/-- No pass of the context is being made, and the timer has raised its signal and is armed with this
deadline, unless the context is gone. -/
structure Machine.Awaited (m : Machine) (r : WatcherRef) (d : Nat) : Prop where
  outside : ∀ signals, ¬ m.config.Passes r.owner signals
  armed : (m.world.Ticks r d ∧ m.world.Signals r.owner .timer) ∨ m.world.Dropped r.owner

namespace Transition

variable {t : Transition} {r : WatcherRef} {d : Nat}

/-- A run that is entered arms a dormant timer that is active. -/
theorem Enters.awaited (h : t.Enters r.owner) {e : Entry} {tm : Timer}
    (he : t.before.world.meant? r = some e) (ht : e.activeTimer? = some tm)
    (hdormant : tm.deadline = none) : ∃ now, t.before.world.reading? r.owner = some now ∧
      t.after.Awaited r (now + tm.timeout) := by
  obtain ⟨now, e', hnow, he', ht'⟩ := h.arms_dormant he ht hdormant
  obtain ⟨ha', htimer'⟩ := Entry.activeTimer?_eq_some.mp ht'
  obtain ⟨deadline, hst⟩ := h.waits
  have hout : ∀ signals, ¬ t.after.config.Passes r.owner signals := by
    rintro signals ⟨stage, hst', hsignals⟩
    obtain rfl := hst.unique t.state_after.1 hst'
    contradiction
  refine ⟨now, hnow, hout, ?_⟩
  have hbegins : ¬ t.BeginsPass r.owner := fun ⟨_, signals, hpasses⟩ => hout signals hpasses
  have hexits : ¬ t.Exits r.owner := by
    intro hexits
    exact nomatch h.isRunning.symm.trans hexits.isRunning
  have hraised := signals_keeps hbegins hexits (t.signals_of_dormant he ht hdormant)
  exact hraised.imp_left (.intro ⟨e', he', Entry.deadline?_eq_some.mpr ⟨_, htimer', ha', rfl⟩⟩)

/-- A timer is awaited until a pass begins, unless somebody sets or stops it. -/
theorem awaited_keeps (h : t.before.Awaited r d) (hbegins : ¬ t.BeginsPass r.owner)
    (hretimes : ¬ t.Retimes r) : t.after.Awaited r d where
  outside := by
    intro signals hpasses
    obtain ⟨c, hc⟩ : ∃ c, t.after.world.context? r.owner = some c := by
      obtain ⟨stage, hst, -⟩ := hpasses
      exact t.state_after.1.present _ hst
    obtain ⟨-, signals', hbefore, -⟩ := t.pass_before hpasses hbegins hc
    exact h.outside signals' hbefore
  armed := by
    rcases h.armed with ⟨hticks, hraised⟩ | hgone
    · have hcalls : ∀ call, ¬ t.Calls r call := by
        intro call hcalls
        obtain ⟨c, c', signals, hpasses, -⟩ := hcalls.ahead
        exact h.outside signals hpasses
      rcases ticks_keeps hcalls hretimes hticks with hticks' | hgone
      · have hkept := signals_keeps hbegins (fun h => hretimes (Or.inr h)) hraised
        exact hkept.imp_left (.intro hticks')
      · exact Or.inr hgone
    · exact Or.inr (t.step (Config.inductive_dropped r.owner) hgone t.state.1)

/-- The first pass is woken by the signal of the timer, and has it on its way. -/
theorem BeginsPass.nears (h : t.BeginsPass r.owner) (hawaited : t.before.Awaited r d) :
    (∃ signals, t.after.config.Passes r.owner signals ∧ signals.has .timer = true) ∧
      t.after.config.Nears r d := by
  obtain ⟨c, c', signals, hbegun⟩ := h.begun
  have hthere : ¬ t.before.world.Dropped r.owner :=
    fun hgone => nomatch hgone.2.symm.trans hbegun.before
  obtain ⟨⟨e, he, hd⟩, c₁, hc₁, hraised⟩ := hawaited.armed.resolve_right hthere
  obtain rfl := Option.some.inj (hbegun.before.symm.trans hc₁)
  obtain ⟨timeout, hwoken⟩ := hbegun.woken
  have hpasses : t.after.config.Passes r.owner signals := ⟨_, hbegun.stands, rfl⟩
  have htold := hbegun.told r rfl
  rw [he] at htold
  constructor
  · exact ⟨signals, hpasses, Wakeups.has_of_taken hwoken hraised⟩
  · exact ⟨⟨signals, hpasses⟩, hbegun.running,
      ⟨c', hbegun.after, hbegun.mem he (Entry.need_of_deadline hd)⟩, htold.ticks hd⟩

end Transition

/-- A timer with no timeout that is active and dormant when a run is entered is due as soon as the
clock goes on. It has raised its signal, and so the wait before the first pass is cut short. In this
pass the timer has its turn, unless somebody sets or stops it first, and is called if and only if
the clock then shows more than it did when the run was entered. -/
theorem first_pass_of_zero_timeout {past : List Transition} {t : Transition}
    (h : History past t.before) (r : WatcherRef) :
    ∀ earlier s wait b pass e tm, past = earlier ++ s :: (wait ++ b :: pass) →
      s.Enters r.owner → s.before.world.meant? r = some e → e.activeTimer? = some tm →
      tm.deadline = none → tm.timeout = 0 → (∀ u ∈ wait, ¬ u.BeginsPass r.owner) →
      b.BeginsPass r.owner → (∀ u ∈ pass, ¬ u.EndsPass r.owner) → t.EndsPass r.owner →
      (∃ u ∈ wait, u.Retimes r) ∨
        ∃ entered, s.before.world.reading? r.owner = some entered ∧
          (∃ signals, b.after.config.Passes r.owner signals ∧ signals.has .timer = true) ∧
          ((∃ u ∈ pass, u.before.config.Nears r entered ∧ u.Retimes r) ∨
            ∃ u ∈ pass, ∃ now, u.before.config.Nears r entered ∧ u.TakesTurn r now ∧
              ((∃ v ∈ pass, ∃ call, v.Calls r call) ↔ entered < now)) := by
  intro earlier s wait b pass e tm hpast henters he ht hdormant hzero hwait hbegins hpass hends
  by_cases hretimes : ∃ u ∈ wait, u.Retimes r
  · exact Or.inl hretimes
  right
  simp only [not_exists, not_and] at hretimes
  have hsplit : past = (earlier ++ s :: wait) ++ b :: pass := by
    rw [hpast, List.append_assoc, List.cons_append]
  obtain ⟨entered, hentered, hawaited⟩ := henters.awaited he ht hdormant
  rw [hzero, Nat.add_zero] at hawaited
  -- until the pass begins, the timer is awaited
  have hbefore : b.before.Awaited r entered := (h.before hsplit).since (P := (· = s))
    (Q := fun u => u ∈ wait) (I := fun m => m.Awaited r entered)
    ⟨earlier, s, wait, rfl, rfl, fun _ hu => hu⟩ (fun _ hu => hu ▸ hawaited)
    fun u hu hawaited => u.awaited_keeps hawaited (hwait u hu) (hretimes u hu)
  obtain ⟨hwoken, hnears⟩ := hbegins.nears hbefore
  refine ⟨entered, hentered, hwoken, ?_⟩
  cases h.met hsplit hnears hpass with
  | retimed hu hnears hretimes => exact Or.inl ⟨_, hu, hnears, hretimes⟩
  | nearing hnears =>
    -- the pass does not end as long as the timer is on its way
    obtain ⟨⟨signals, hpasses⟩, -⟩ := t.nears_onward hnears
    exact absurd hpasses (hends.2 signals)
  | passed hu hnears hturn hdue => exact Or.inr ⟨_, hu, _, hnears, hturn, hdue⟩

/-- A loop with a timer that has no timeout, at a clock that goes on by so much with every wait. -/
def Machine.beating (tick : Nat) : Machine :=
  ((Machine.create (World.create ⟨1000000, tick, false⟩ .standIn)).submit
    (.newContext .none .scenario)).submit (.create none "beat" (.timer 0 20) ⟨[], false⟩)

/-- The wait takes five milliseconds, and the timer is called in the first pass. -/
theorem first_pass_of_zero_timeout_beating : ∃ (earlier : List Transition) (s b u v t : Transition)
    (e : Entry) (tm : Timer), History (earlier ++ s :: ([] ++ b :: [u, v])) t.before ∧
    s.before = Machine.beating 5000 ∧ s.Enters 0 ∧ s.before.world.meant? ⟨0, 0, 0⟩ = some e ∧
    e.activeTimer? = some tm ∧ tm.deadline = none ∧ tm.timeout = 0 ∧ b.BeginsPass 0 ∧
    (∀ w ∈ [u, v], ¬ w.EndsPass 0) ∧ t.EndsPass 0 ∧
    ∃ w ∈ [u, v], ∃ call, w.Calls ⟨0, 0, 0⟩ call := by
  have hmade : (Machine.beating 5000).Reachable :=
    ((Machine.Reachable.start _ _).submit _ (by decide +kernel) (by decide +kernel)).submit _
      (by decide +kernel) (by decide +kernel)
  obtain ⟨earlier, hearlier⟩ := hmade.history
  -- the run, its wait, the call of the timer, its return, and the end of the pass
  obtain ⟨s, hs, -, hsdeed, hrun⟩ := hearlier.submit (.run none (Mask.full RunFlag))
    (by decide +kernel) (by decide +kernel)
  obtain ⟨b, hb, hb', -, hpass⟩ := hrun.dispatch (by decide +kernel) (by decide +kernel)
  obtain ⟨u, hu, hu', hudeed, hcall⟩ := hpass.dispatch (by decide +kernel) (by decide +kernel)
  obtain ⟨v, hv, hv', hvdeed, hreturn⟩ := hcall.dispatch (by decide +kernel) (by decide +kernel)
  obtain ⟨t, ht, ht', -⟩ := hreturn.dispatch (by decide +kernel) (by decide +kernel)
  have hhistory : History (earlier ++ s :: ([] ++ b :: [u, v])) t.before := by
    have hpast : earlier ++ s :: ([] ++ b :: [u, v]) =
        earlier ++ [s] ++ [b] ++ [u] ++ [v] := by simp
    rw [hpast, ht]
    exact hreturn
  have henters : s.Enters 0 := ⟨none, _, Mask.full RunFlag, some 1000, hsdeed⟩
  obtain ⟨e, tm, he, htm, hdormant, hzero⟩ : ∃ e tm, s.before.world.meant? ⟨0, 0, 0⟩ = some e ∧
      e.activeTimer? = some tm ∧ tm.deadline = none ∧ tm.timeout = 0 := by
    rw [hs]
    exact ⟨_, _, rfl, rfl, rfl, rfl⟩
  have hbegins : b.BeginsPass 0 := by
    refine ⟨⟨some 1000, ?_⟩, Mask.only .timer, ?_⟩
    · rw [hb]
      exact List.mem_cons_self
    · rw [hb']
      exact ⟨_, List.mem_cons_self, rfl⟩
  have hgoes : ∀ w ∈ [u, v], ¬ w.EndsPass 0 := by
    intro w hw hends
    have hone : w = u ∨ w = v := by simpa using hw
    apply hends.2 (Mask.only .timer)
    rcases hone with rfl | rfl
    · rw [hu']
      exact ⟨_, List.mem_cons_self, rfl⟩
    · rw [hv']
      exact ⟨_, List.mem_cons_self, rfl⟩
  have hends : t.EndsPass 0 := by
    refine ⟨⟨Mask.only .timer, ?_⟩, ?_⟩
    · rw [ht]
      exact ⟨_, List.mem_cons_self, rfl⟩
    · rintro signals ⟨stage, hst, -⟩
      rw [ht'] at hst
      exact absurd hst List.not_mem_nil
  have hlaw := first_pass_of_zero_timeout hhistory ⟨0, 0, 0⟩ earlier s [] b [u, v] e tm rfl henters
    he htm hdormant hzero (fun _ hw => nomatch hw) hbegins hgoes hends
  have hcalled : ∃ w ∈ [u, v], ∃ call, w.Calls ⟨0, 0, 0⟩ call := by
    rcases hlaw with ⟨w, hw, -⟩ | ⟨entered, hentered, -, ⟨w, hw, -, hretimes⟩ |
      ⟨w, hw, now, -, hturn, hcalls⟩⟩
    · exact absurd hw List.not_mem_nil
    · have hone : w = u ∨ w = v := by simpa using hw
      rcases hone with rfl | rfl
      · refine absurd hretimes (Transition.not_retimes_of_dispatch hudeed ?_)
        rw [hu']
        decide +kernel
      · refine absurd hretimes (Transition.not_retimes_of_dispatch hvdeed ?_)
        rw [hv']
        decide +kernel
    · obtain rfl : 1000 = entered := by
        rw [hs] at hentered
        exact Option.some.inj hentered
      have hnow : w.before.world.reading? 0 = some 1005 := by
        have hone : w = u ∨ w = v := by simpa using hw
        rcases hone with rfl | rfl
        · rw [hu]
          decide +kernel
        · rw [hv]
          decide +kernel
      obtain rfl := Option.some.inj (hnow.symm.trans hturn.reading)
      exact hcalls.mpr (by decide)
  exact ⟨earlier, s, b, u, v, t, e, tm, hhistory, hs, henters, he, htm, hdormant, hzero, hbegins,
    hgoes, hends, hcalled⟩

/-- Where the clock stands still, the run passes the timer over in its first and only pass, although
the timer waits for it with no timeout, and nobody sets or stops it or is called. -/
theorem first_pass_missed : ∃ (earlier : List Transition) (s b u t : Transition) (e : Entry)
    (tm : Timer), History (earlier ++ s :: ([] ++ b :: [u])) t.before ∧ s.before.stack = [] ∧
    s.Enters 0 ∧ s.before.world.reading? 0 = some 1000 ∧
    s.before.world.meant? ⟨0, 0, 0⟩ = some e ∧ e.activeTimer? = some tm ∧ tm.deadline = none ∧
    tm.timeout = 0 ∧ 0 < tm.period ∧ b.BeginsPass 0 ∧ t.EndsPass 0 ∧ t.after.stack = [] ∧
    (∀ w ∈ [b, u], ¬ w.Retimes ⟨0, 0, 0⟩) ∧
    ∀ w ∈ [b, u], ∀ r call, w.Calls r call → r.owner ≠ 0 := by
  have hmade : (Machine.beating 0).Reachable :=
    ((Machine.Reachable.start _ _).submit _ (by decide +kernel) (by decide +kernel)).submit _
      (by decide +kernel) (by decide +kernel)
  obtain ⟨earlier, hearlier⟩ := hmade.history
  -- the run, its wait, the visit of the timer, and the end of the pass
  obtain ⟨s, hs, -, hsdeed, hrun⟩ := hearlier.submit (.run none (Mask.full RunFlag))
    (by decide +kernel) (by decide +kernel)
  obtain ⟨b, hb, hb', hbdeed, hpass⟩ := hrun.dispatch (by decide +kernel) (by decide +kernel)
  obtain ⟨u, hu, hu', hudeed, hvisit⟩ := hpass.dispatch (by decide +kernel) (by decide +kernel)
  obtain ⟨t, ht, ht', -⟩ := hvisit.dispatch (by decide +kernel) (by decide +kernel)
  have hhistory : History (earlier ++ s :: ([] ++ b :: [u])) t.before := by
    have hpast : earlier ++ s :: ([] ++ b :: [u]) = earlier ++ [s] ++ [b] ++ [u] := by simp
    rw [hpast, ht]
    exact hvisit
  obtain ⟨e, tm, he, htm, hdormant, hzero, hperiod⟩ : ∃ e tm,
      s.before.world.meant? ⟨0, 0, 0⟩ = some e ∧ e.activeTimer? = some tm ∧ tm.deadline = none ∧
        tm.timeout = 0 ∧ 0 < tm.period := by
    rw [hs]
    exact ⟨_, _, rfl, rfl, rfl, rfl, by decide +kernel⟩
  refine ⟨earlier, s, b, u, t, e, tm, hhistory, ?_, ⟨none, _, Mask.full RunFlag, some 1000, hsdeed⟩,
    ?_, he, htm, hdormant, hzero, hperiod, ⟨⟨some 1000, ?_⟩, Mask.only .timer, ?_⟩,
    ⟨⟨Mask.only .timer, ?_⟩, ?_⟩, ?_, ?_, ?_⟩
  · rw [hs]
    rfl
  · rw [hs]
    decide +kernel
  · rw [hb]
    exact List.mem_cons_self
  · rw [hb']
    exact ⟨_, List.mem_cons_self, rfl⟩
  · rw [ht]
    exact ⟨_, List.mem_cons_self, rfl⟩
  · rintro signals ⟨stage, hst, -⟩
    rw [ht'] at hst
    exact absurd hst List.not_mem_nil
  · rw [ht']
    rfl
  · intro w hw
    have hone : w = b ∨ w = u := by simpa using hw
    rcases hone with rfl | rfl
    · refine Transition.not_retimes_of_dispatch hbdeed ?_
      rw [hb']
      decide +kernel
    · refine Transition.not_retimes_of_dispatch hudeed ?_
      rw [hu']
      decide +kernel
  · intro w hw
    have hone : w = b ∨ w = u := by simpa using hw
    rcases hone with rfl | rfl
    · refine (Transition.quiet_of_idle ?_ ?_).2
      · rw [hb']
        decide +kernel
      · rw [hb']
        decide +kernel
    · refine (Transition.quiet_of_idle ?_ ?_).2
      · rw [hu']
        decide +kernel
      · rw [hu']
        decide +kernel

end EventLoop
