import EventLoop.Proofs.ExitRequests

/-!
# A loop with one active watcher

An exit leaves no watcher of its loop active. If one of them is started again, the next pass passes
over all others, so that nobody is called before its turn comes; and there it is called if it is
ready.
-/
namespace EventLoop

/-- No watcher of the context is active but this one. -/
def World.Alone (w : World) (r : WatcherRef) : Prop :=
  ∀ s : WatcherRef, s.owner = r.owner → s ≠ r → ∀ e, w.meant? s = some e → e.isActive = false

namespace World

variable {w w' : World} {r : WatcherRef} {c c' : Context} {e : Entry}

theorem alone_congr (hc : w.context? r.owner = some c) (hc' : w'.context? r.owner = some c')
    (hw : c'.watchers = c.watchers) (h : w.Alone r) : w'.Alone r := by
  intro s hs hne e he
  rw [meant?_of_context? (hs ▸ hc'), Context.meant?, hw] at he
  exact h s hs hne e ((meant?_of_context? (hs ▸ hc)).trans he)

/-- All other slots are idle. -/
theorem Alone.idle (h : w.Alone r) (hc : w.context? r.owner = some c) {i : Nat}
    (hi : i ≠ r.index) : Loop.Idle (c.watchers.at? i) := by
  intro g e hat
  let s : WatcherRef := ⟨r.owner, i, e.serial⟩
  have he : c.meant? s = some e := Context.meant?_eq_some.mpr ⟨g, hat, rfl⟩
  exact h s rfl (fun hs => hi (congrArg WatcherRef.index hs)) e
    ((meant?_of_context? (r := s) hc).trans he)

/-- An active watcher is linked. -/
theorem linked_of_active (hs : w.Sound) (hc : w.context? r.owner = some c)
    (he : w.meant? r = some e) (hactive : e.isActive = true) : r.index ∈ c.roster.toList := by
  obtain ⟨g, hat, -⟩ := Context.meant?_eq_some.mp ((meant?_of_context? hc).symm.trans he)
  exact ((hs.context _ c hc).2.linked_iff r.index).mpr
    ⟨g, e, hat, Entry.isLinked_of_active hactive⟩

end World

/-- Who is alone stays so, unless another watcher is acted on or created. -/
theorem Transition.alone_keeps {t : Transition} {r : WatcherRef} (h : t.before.world.Alone r)
    (hacts : ∀ s action, t.Acts s action → s = r) (hmakes : ∀ s spec, ¬ t.Makes s spec) :
    t.after.world.Alone r := by
  intro s hs hne e' he'
  rw [← Bool.not_eq_true]
  intro hactive
  obtain ⟨v, heffect, htold⟩ := t.effect s
  rw [he'] at htold
  obtain ⟨e₁, rfl⟩ := htold.before
  rw [htold.isActive] at hactive
  cases hbefore : t.before.world.meant? s with
  | some e =>
    rw [hbefore] at heffect
    rcases heffect.isActive hactive with hold | ⟨action, hdone, -⟩
    · exact nomatch hold.symm.trans (h s hs hne e hbefore)
    · exact hne (hacts s action hdone)
  | none =>
    rw [hbefore] at heffect
    cases heffect with
    | commanded hdeed heffect =>
      cases heffect with
      | born hcommand hok =>
        refine hmakes s _ ⟨⟨_, _, _, _, _, hcommand ▸ hdeed, hok⟩, hbefore, ?_⟩
        rw [he']
        exact Option.some_ne_none e'

/-! ### Its turn -/

namespace Machine

variable {m : Machine} {a : Activation} {below : List Activation} {l : Loop} {pass : Pass} {i : Nat}

/-- An idle slot is passed over at its turn. -/
theorem step_skips (hm : m.stack = a :: below) (hl : m.world.loop? a.context = some l)
    (hp : a.phase = .passing pass) (hrun : l.context.running = true)
    (hi : l.context.roster.next.2 = some i) (hidle : Loop.Idle (l.context.watchers.at? i)) :
    m.step = { m with world := m.world.putContext a.context l.context.atTurn } := by
  have hvisit : l.context.atTurn.visit (m.world.now l.context) pass.signals i =
      ⟨l.context.atTurn, none, none⟩ := by
    cases hat : l.context.watchers.at? i with
    | none => exact Context.visit_of_none (c := l.context.atTurn) hat _ _
    | some v =>
      have hsame := Arena.put_self hat
      rw [Context.visit_of_some (c := l.context.atTurn) hat,
        Entry.visit_of_inactive (hidle v.1 v.2 hat)]
      simp only [Context.atTurn, hsame, Linking.ofVisit, Linking.apply, Option.map_none]
      rfl
  rw [step_passing hm hl hp, stepPassing_turn m a below pass l hi hrun, hvisit]
  have hsame : sooner pass.deadline none = pass.deadline := by cases pass.deadline <;> rfl
  simp only [afterVisit, hsame]
  rw [hm, ← hp]

end Machine

namespace History

variable {past : List Transition} {m : Machine} {a : Activation} {below : List Activation}
  {pass : Pass} {r : WatcherRef} {c : Context} {e : Entry}

/-- At its turn a watcher is called if it is ready. -/
theorem calls (h : History past m) (hm : m.stack = a :: below) (hgo : m.abort = none)
    (hp : a.phase = .passing pass) (ha : a.context = r.owner)
    (hc : m.world.context? r.owner = some c) (hrun : c.running = true)
    (hi : c.roster.next.2 = some r.index) (he : m.world.meant? r = some e)
    (hready : e.IsReady (toMillis (m.world.now c)) pass.signals) :
    ∃ (t : Transition) (call : Call), t.before = m ∧ t.Calls r call := by
  have hs := (reachable_pass h.reachable).1
  have hstage : a.standing.stage = .passing pass := by rw [Activation.standing, hp]
  have hl := World.loop?_of_context? (ha ▸ hc : m.world.context? a.context = some c)
  obtain ⟨t, rfl, hafter, hdeed, -⟩ := h.goOn hm hgo (hstage ▸ not_false)
  obtain ⟨s, l', stage, hd, -⟩ := Machine.stepPassing_advanced hs.world hm hl hp
  obtain ⟨e', ms, hturn, houtcome⟩ := Transition.turn hdeed hm hp hd hi hrun
  -- there is one watcher in the slot
  obtain ⟨g, hat, hserial⟩ :=
    Context.meant?_eq_some.mp ((World.meant?_of_context? hc).symm.trans he)
  obtain ⟨g', hat', -⟩ := Context.meant?_eq_some.mp
    ((World.meant?_of_context? (ha ▸ hc)).symm.trans hturn.present)
  obtain ⟨-, rfl⟩ := Prod.mk.inj (Option.some.inj (hat.symm.trans hat'))
  have hr : (⟨a.context, r.index, e.serial⟩ : WatcherRef) = r := by rw [ha, hserial]
  rw [hr] at hturn houtcome
  have hreading := hturn.reading
  rw [World.reading?, hc] at hreading
  obtain rfl := Option.some.inj hreading
  obtain ⟨polled, hfits⟩ := hs.world.fits he
  rcases houtcome with ⟨hnone, -⟩ | ⟨call, hcalls, -⟩
  · have hevents := (Entry.visit_events_iff hfits).mpr hready
    rw [hnone] at hevents
    contradiction
  · exact ⟨t, call, rfl, hcalls⟩

/-- A pass comes to the turn of a watcher that is ahead of it if no other watcher is active. -/
theorem comesTo (h : History past m) (hm : m.stack = a :: below) (hgo : m.abort = none)
    (hp : a.phase = .passing pass) (ha : a.context = r.owner)
    (hc : m.world.context? r.owner = some c) (hrun : c.running = true)
    (hahead : r.index ∈ c.roster.remaining) (halone : m.world.Alone r)
    (he : m.world.meant? r = some e)
    (hready : e.IsReady (toMillis (m.world.now c)) pass.signals) :
    ∃ (more : List Transition) (t : Transition) (call : Call),
      History (past ++ more) t.before ∧ t.Calls r call := by
  generalize hrest : c.roster.remaining = rest at hahead
  induction rest generalizing past m c with
  | nil => exact absurd hahead List.not_mem_nil
  | cons i rest ih =>
    have hs := (reachable_pass h.reachable).1
    have hw := (hs.world.context _ c hc).2.roster
    have hi : c.roster.next.2 = some i := by
      rw [hw.next_eq, hrest]
      rfl
    by_cases hself : i = r.index
    · obtain ⟨t, call, rfl, hcalls⟩ := h.calls hm hgo hp ha hc hrun (hself ▸ hi) he hready
      exact ⟨[], t, call, (List.append_nil past).symm ▸ h, hcalls⟩
    · -- the slot is idle, and its turn changes nothing but the place of the pass
      have hl := World.loop?_of_context? (ha ▸ hc : m.world.context? a.context = some c)
      have hstep := Machine.step_skips hm hl hp hrun hi (halone.idle hc hself)
      have hc' : (m.world.putContext a.context c.atTurn).context? r.owner = some c.atTurn :=
        ha ▸ World.context?_put_self hc c.atTurn
      obtain ⟨t, -, -, -, hnext⟩ := h.goOn hm hgo (by
        rw [Activation.standing, hp]
        exact not_false)
      rw [hstep] at hnext
      obtain ⟨more, u, call, hhistory, hcalls⟩ := ih hnext hm hgo hc' hrun
        (World.alone_congr hc hc' rfl halone)
        ((World.meant?_of_context? hc').trans ((World.meant?_of_context? hc).symm.trans he))
        hready
        (by
          change c.roster.next.1.remaining = rest
          rw [hw.next.2.1, hrest]
          rfl)
        ((List.mem_cons.mp hahead).resolve_left (Ne.symm hself))
      exact ⟨t :: more, u, call, by rwa [List.append_cons], hcalls⟩

/-- A run that does not block, and is not asked to exit, calls a watcher in its next pass if no
other is active and this one is ready then. -/
theorem callsNext {l : Loop} (h : History past m) (hwait : m.AtWait a below l)
    (ha : a.context = r.owner) (hblock : a.flags.has .nonblock = true)
    (hunasked : l.context.exitAsked = false)
    (halone : m.world.Alone r) (he : m.world.meant? r = some e) (hactive : e.isActive = true)
    (hready : ∀ ms signals,
      (m.world.clock.time ≤ counterMax → toMillis (m.world.now l.context) ≤ ms) →
      (∀ s, l.context.wakeups.raised.has s = true → signals.has s = true) →
      e.IsReady ms signals) :
    ∃ (more : List Transition) (t : Transition) (call : Call),
      History (past ++ more) t.before ∧ t.Calls r call := by
  have hs := (reachable_pass h.reachable).1
  have hc : m.world.context? r.owner = some l.context := ha ▸ (World.loop?_eq_some.mp hwait.loop).1
  have hends : (l.context.wakeups.wait (Mask.full Signal)
      (Machine.waitTimeout m.world a l.context)).2 ≠ .forever := by
    intro hforever
    have htimeout := Wakeups.timeout_of_forever hforever
    rw [Machine.waitTimeout, if_pos hblock] at htimeout
    contradiction
  obtain ⟨clock, waits, wakeups, signals, hstep, hclock, hsignals⟩ :=
    hwait.begins hunasked hends
  obtain ⟨t, -, -, -, hnext⟩ := h.goOn hwait.stack hwait.going hwait.idle
  rw [hstep, Machine.beginPass_eq hwait.stack hwait.loop] at hnext
  -- the context as the pass finds it
  let c : Context := { l.context with wakeups, roster := l.context.roster.rewind }
  have hc' : (({ m.world with clock, waits } : World).putContext a.context c).context? r.owner =
      some c := by
    rw [ha]
    exact World.context?_put_self (w := { m.world with clock, waits }) hc c
  have hmeant := (World.meant?_of_context? hc).symm.trans he
  have hnow : m.world.clock.time ≤ counterMax →
      m.world.now l.context ≤ clock.readOn m.world.host.time l.context.clock := by
    intro htime
    unfold World.now
    cases l.context.clock with
    | scenario => exact hclock htime
    | monotonic => exact Nat.le_refl _
  have hahead : r.index ∈ c.roster.remaining := by
    rw [(hs.world.context _ _ hc).2.roster.rewind.2.1]
    exact World.linked_of_active hs.world hc he hactive
  obtain ⟨more, u, call, hhistory, hcalls⟩ := hnext.comesTo rfl hwait.going rfl ha hc' hwait.running
    hahead (World.alone_congr hc hc' rfl halone) ((World.meant?_of_context? hc').trans hmeant)
    (hready _ signals (fun htime => Nat.div_le_div_right (hnow htime)) hsignals)
  exact ⟨t :: more, u, call, by rwa [List.append_cons], hcalls⟩

end History
end EventLoop
