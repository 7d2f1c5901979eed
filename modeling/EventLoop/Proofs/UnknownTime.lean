import EventLoop.Proofs.Expiry

/-!
# When the time is unknown

A clock that shows zero does not know the time. No timer fires at such a reading, but timers are
armed at it, and their deadlines are counted from zero then. So a timer that is armed when the time
is known does not fire early, whichever later readings fail. A timer that is armed when the time is
unknown can fire as soon as the time is known again.
-/
namespace EventLoop

variable {id : Nat} {past : List Transition} {t : Transition} {time : Nat → Nat} {r : WatcherRef}
  {call : Call}

/-- The true time of each transition, in milliseconds. Whatever the clock of a context shows is the
true time, or zero if the time is unknown. -/
structure TrueTimes (id : Nat) (past : List Transition) (time : Nat → Nat) : Prop where
  monotone : Monotone time
  positive : ∀ k, 0 < time k
  reads : ∀ (k : Nat) (t : Transition) (ms : Nat), past[k]? = some t →
    t.before.world.reading? id = some ms → ms = time k ∨ ms = 0

namespace TrueTimes

theorem nil (hmono : Monotone time) (hpos : ∀ k, 0 < time k) : TrueTimes id [] time :=
  ⟨hmono, hpos, fun _ _ _ hat => nomatch hat⟩

/-- A transition may read the time that it takes place at, or none. -/
theorem extend (h : TrueTimes id past time) (now : Nat) (hnow : time past.length = now)
    (hreads : t.before.world.reading? id ∈ [none, some 0, some now]) :
    TrueTimes id (past ++ [t]) time where
  monotone := h.monotone
  positive := h.positive
  reads := by
    intro k u ms hat hms
    rcases Nat.lt_trichotomy k past.length with hlt | rfl | hgt
    · rw [List.getElem?_append_left hlt] at hat
      exact h.reads k u ms hat hms
    · rw [List.getElem?_concat_length] at hat
      obtain rfl := Option.some.inj hat
      rw [hms] at hreads
      simp only [List.mem_cons, reduceCtorEq, Option.some.injEq, List.not_mem_nil, or_false,
        false_or] at hreads
      exact hnow ▸ hreads.symm
    · have hlen : (past ++ [t]).length ≤ k := by
        rw [List.length_append]
        exact hgt
      rw [List.getElem?_eq_none hlen] at hat
      contradiction

/-- A reading other than zero is the true time. -/
theorem known (h : TrueTimes id past time) {k ms : Nat} (hat : past[k]? = some t)
    (hms : t.before.world.reading? id = some ms) (hpos : 0 < ms) : ms = time k :=
  (h.reads k t ms hat hms).resolve_right (Nat.ne_of_gt hpos)

end TrueTimes

namespace Transition

/-- A step that sets or starts a timer is aimed at it or creates it. -/
theorem Assigns.aimed {current : Option Nat} {command : Command} {reaction : Reaction}
    (h : t.Assigns r) (hdeed : t.deed = .command current command reaction) :
    (∃ action, t.before.world.aim? current command = some (r, action)) ∨
      ∃ context name spec script, command = .create context name spec script := by
  have hacts : ∀ action, t.Acts r action →
      t.before.world.aim? current command = some (r, action) := by
    rintro action ⟨current', command', reaction', hdeed', haim, -⟩
    obtain ⟨rfl, rfl, -⟩ := Deed.command.inj (hdeed.symm.trans hdeed')
    exact haim
  have hmakes : ∀ spec, t.Makes r spec →
      ∃ context name spec script, command = .create context name spec script := by
    rintro spec ⟨⟨current', context, name, script, reaction', hdeed', -⟩, -⟩
    obtain ⟨-, rfl, -⟩ := Deed.command.inj (hdeed.symm.trans hdeed')
    exact ⟨context, name, spec, script, rfl⟩
  rcases h with ⟨timeout, period, hset | hmade | hmade⟩ | hstart
  · exact Or.inl ⟨_, hacts _ hset⟩
  · exact Or.inr (hmakes _ hmade)
  · exact Or.inr (hmakes _ hmade)
  · exact Or.inl ⟨_, hacts _ hstart⟩

/-- The timer is not due before this. It has no deadline only if it has been stopped. -/
def NotBefore (d : Nat) (tm : Timer) (active : Bool) : Prop :=
  (tm.deadline = none ∧ active = false) ∨ ∃ d', tm.deadline = some d' ∧ d ≤ d'

theorem Arms.notBefore {reading timeout : Nat} (h : t.Arms r reading timeout) :
    t.after.world.Has r (Entry.Times (NotBefore (reading + timeout))) :=
  ⟨h.armedFor.1, fun e he => (h.armedFor.2 e he).imp fun _ =>
    And.imp_right fun hd => Or.inr ⟨_, hd, Nat.le_refl _⟩⟩

/-- A timer that is neither set nor started becomes due no earlier. It is not armed again when a run
is entered, since it has its deadline, and when it fires its deadline moves on or it is stopped. -/
theorem notBefore_keeps {d : Nat} (hnot : ¬ t.Assigns r)
    (h : t.before.world.Has r (Entry.Times (NotBefore d))) :
    t.after.world.Has r (Entry.Times (NotBefore d)) := by
  refine t.keeps_timer h fun e tm e' tm' he ht he' ht' htiming hd => ?_
  generalize e.isActive = active at htiming hd
  generalize e'.isActive = active' at htiming
  cases htiming with
  | kept hidle =>
    refine hd.imp_left fun ⟨hnone, hstopped⟩ => ⟨hnone, Bool.eq_false_iff.mpr fun ha => ?_⟩
    exact nomatch (hidle ha).symm.trans hstopped
  | armed _ _ ha =>
    rcases hd with ⟨-, hstopped⟩ | ⟨d', hd', hle⟩
    · exact nomatch ha.symm.trans hstopped
    · exact Or.inr ⟨d', (Timer.arm_of_deadline _ hd').symm ▸ hd', hle⟩
  | @fired _ ms d₁ _ _ _ hd₁ hdue =>
    rcases hd with ⟨hnone, -⟩ | ⟨d', hd', hle⟩
    · exact nomatch hnone.symm.trans hd₁
    · obtain rfl := Option.some.inj (hd₁.symm.trans hd')
      rcases Nat.eq_zero_or_pos tm.period with hp | hp
      · rw [Timer.fire_once hd₁ hdue hp]
        exact Or.inl ⟨rfl, rfl⟩
      · rw [Timer.fire_again hd₁ hdue hp]
        exact Or.inr ⟨ms + tm.period, rfl, by omega⟩
  | assigned hacts hassigns =>
    cases hassigns with
    | set => exact absurd (Or.inl ⟨_, _, Or.inl hacts⟩) hnot
    | started => exact absurd (Or.inr hacts) hnot

end Transition

/-- Until a timer is set or started again, it is called only when its timeout has passed since the
reading at which it was armed. So a timer that was armed when the time was known is not called early,
whichever readings fail after that. -/
theorem not_early_of_known_arming (h : History past t.before)
    (htimes : TrueTimes r.owner (past ++ [t]) time) {before after : List Transition}
    {s : Transition} (hpast : past = before ++ s :: after) {reading timeout : Nat}
    (harms : s.Arms r reading timeout) (hnot : ∀ u ∈ after, ¬ u.Assigns r)
    (hcalls : t.Calls r call) :
    reading + timeout < time past.length ∧
      (0 < reading → time before.length + timeout < time past.length) := by
  have hdue := h.since (P := (· = s))
    (I := fun m => m.world.Has r (Entry.Times (Transition.NotBefore (reading + timeout))))
    ⟨before, s, after, hpast, rfl, hnot⟩ (fun _ hs => hs ▸ harms.notBefore)
    fun _ => Transition.notBefore_keeps
  obtain ⟨-, e, he, -⟩ := hcalls.isActive
  obtain ⟨tm, ht, hd⟩ := hdue.2 e he
  obtain ⟨now, d, hnow, hd', hlt, -⟩ := hcalls.fired he ht
  have hle : reading + timeout ≤ d := by
    rcases hd with ⟨hnone, -⟩ | ⟨d', hd'', hle⟩
    · exact nomatch hnone.symm.trans hd'
    · obtain rfl := Option.some.inj (hd'.symm.trans hd'')
      exact hle
  obtain rfl := htimes.known List.getElem?_concat_length hnow (Nat.zero_lt_of_lt hlt)
  have hlate := Nat.lt_of_le_of_lt hle hlt
  refine ⟨hlate, fun hknown => ?_⟩
  have hat : (past ++ [t])[before.length]? = some s := by
    rw [hpast, List.append_assoc, List.getElem?_append_right (Nat.le_refl _), Nat.sub_self]
    rfl
  exact htimes.known hat harms.1 hknown ▸ hlate

/-- A loop whose timer is due half a second after it is armed. -/
def Machine.halfSecond : Machine :=
  ((Machine.create (World.create ⟨1000000, 0, false⟩ .standIn)).submit
    (.newContext .none .scenario)).submit (.create none "timer" (.timer 500 0) ⟨[], false⟩)

theorem Machine.halfSecond_history : ∃ a b : Transition, History [a, b] Machine.halfSecond ∧
    ∀ time, Monotone time → (∀ k, 0 < time k) → time 1 = 1000 → TrueTimes 0 [a, b] time := by
  obtain ⟨a, ha, -, -, hcontext⟩ := (History.start ⟨1000000, 0, false⟩ .standIn).submit
    (.newContext .none .scenario) (by decide +kernel) (by decide +kernel)
  obtain ⟨b, hb, -, -, htimer⟩ := hcontext.submit
    (.create none "timer" (.timer 500 0) ⟨[], false⟩) (by decide +kernel) (by decide +kernel)
  refine ⟨a, b, htimer, fun time hmono hpos htime => ?_⟩
  have hnone : a.before.world.reading? 0 = none := by rw [ha]; decide +kernel
  have hread : b.before.world.reading? 0 = some 1000 := by rw [hb]; decide +kernel
  exact ((TrueTimes.nil hmono hpos).extend (time 0) rfl (by simp [hnone])).extend 1000 htime
    (by simp [hread])

/-- The timer is armed at the time 1000. Then a reading fails, and the timer is called at the
time 1502. -/
theorem not_early_of_known_arming_halfSecond : ∃ (past : List Transition) (s t : Transition)
    (before after : List Transition) (time : Nat → Nat) (call : Call),
    History past t.before ∧ TrueTimes 0 (past ++ [t]) time ∧ past = before ++ s :: after ∧
    s.before = Machine.halfSecond ∧ s.Arms ⟨0, 0, 0⟩ 1000 500 ∧
    (∃ u ∈ after, u.before.world.reading? 0 = some 0) ∧
    (∀ u ∈ after, ¬ u.Assigns ⟨0, 0, 0⟩) ∧ t.Calls ⟨0, 0, 0⟩ call ∧
    time before.length = 1000 ∧ time past.length = 1502 ∧
    time before.length + 500 < time past.length := by
  obtain ⟨a, b, hmade, htimes⟩ := Machine.halfSecond_history
  -- the run arms the timer, the time is unknown during its wait, and then it is known again
  obtain ⟨s, hs, hs', hsdeed, hrun⟩ := hmade.submit (.run none ∅) (by decide +kernel)
    (by decide +kernel)
  obtain ⟨u, hu, -, hudeed, hlost⟩ := hrun.interfere (.setClock 0) rfl
  obtain ⟨w, hw, -, hwdeed, hwaited⟩ := hlost.dispatch (by decide +kernel) (by decide +kernel)
  obtain ⟨v, hv, -, hvdeed, hfound⟩ := hwaited.interfere (.setClock 1502000) rfl
  obtain ⟨t, ht, ht', htdeed, -⟩ := hfound.dispatch (by decide +kernel) (by decide +kernel)
  have hunknown : w.before.world.reading? 0 = some 0 := by
    rw [hw]
    decide +kernel
  have harms : s.Arms ⟨0, 0, 0⟩ 1000 500 := by
    refine ⟨?_, ?_, Or.inr ⟨⟨none, _, ∅, some 1500, hsdeed⟩, ?_⟩⟩
    · rw [hs]; rfl
    · rw [hs']; exact ⟨_, _, rfl, rfl, rfl⟩
    · rw [hs]; exact ⟨_, _, rfl, rfl, rfl⟩
  have hnot : ∀ x ∈ [u, w, v], ¬ x.Assigns ⟨0, 0, 0⟩ := by
    intro x hx hassigns
    simp only [List.mem_cons, List.not_mem_nil, or_false] at hx
    rcases hx with rfl | rfl | rfl
    · rcases hassigns.aimed hudeed with ⟨_, haim⟩ | ⟨_, _, _, _, hcreate⟩ <;> contradiction
    · exact hassigns.not_dispatch hwdeed
    · rcases hassigns.aimed hvdeed with ⟨_, haim⟩ | ⟨_, _, _, _, hcreate⟩ <;> contradiction
  let time : Nat → Nat := fun k => if k ≤ 5 then 1000 else 1502
  have hmono : Monotone time := by
    intro j k hjk
    dsimp only [time]
    split <;> split <;> omega
  have hpos : ∀ k, 0 < time k := by
    intro k
    dsimp only [time]
    split <;> omega
  have htimes : TrueTimes 0 ([a, b] ++ [s] ++ [u] ++ [w] ++ [v] ++ [t]) time := by
    refine (((((htimes time hmono hpos rfl).extend 1000 rfl ?_).extend 1000 rfl ?_).extend
      1000 rfl ?_).extend 1000 rfl ?_).extend 1502 rfl ?_
    · rw [hs]; decide +kernel
    · rw [hu]; decide +kernel
    · rw [hw]; decide +kernel
    · rw [hv]; decide +kernel
    · rw [ht]; decide +kernel
  have hpassing : t.before.config.standings = [⟨0, .passing ⟨Mask.only .timer, 0, none⟩⟩] := by
    rw [ht]
    decide +kernel
  have hcalling : t.after.config.standings =
      [⟨0, .calling ⟨Mask.only .timer, 0, none⟩ ⟨0, ⟨0, 0⟩⟩⟩] := by
    rw [ht']
    decide +kernel
  obtain ⟨call, hcalls⟩ : ∃ call, t.Calls ⟨0, 0, 0⟩ call := by
    refine Transition.calls_of_standings htdeed hpassing hcalling ?_
    rw [ht]
    decide +kernel
  have hhistory : History ([a, b] ++ [s] ++ [u] ++ [w] ++ [v]) t.before := ht.symm ▸ hfound
  have hsplit : [a, b] ++ [s] ++ [u] ++ [w] ++ [v] = [a, b] ++ s :: [u, w, v] := rfl
  obtain ⟨-, hlate⟩ := not_early_of_known_arming hhistory htimes hsplit harms hnot hcalls
  exact ⟨_, s, t, [a, b], [u, w, v], time, call, hhistory, htimes, hsplit, hs, harms,
    ⟨w, by simp, hunknown⟩, hnot, hcalls, rfl, rfl, hlate (by decide)⟩

/-- A timer that is armed when the time is unknown can be called early. -/
theorem early_of_unknown_arming : ¬ ∀ (past : List Transition) (t : Transition)
    (time : Nat → Nat) (r : WatcherRef), History past t.before →
    TrueTimes r.owner (past ++ [t]) time →
    ∀ (before after : List Transition) (s : Transition) (reading timeout : Nat),
      past = before ++ s :: after → s.Arms r reading timeout → 0 < timeout →
      (∀ u ∈ after, ¬ u.Assigns r) → ∀ call, t.Calls r call →
        time before.length + timeout < time past.length := by
  intro hall
  obtain ⟨a, b, hmade, htimes⟩ := Machine.halfSecond_history
  -- the time gets lost, and a run that arms the timer makes one pass and returns
  obtain ⟨c, hc, -, -, hlost⟩ := hmade.submit (.setClock 0) (by decide +kernel)
    (by decide +kernel)
  obtain ⟨s, hs, hs', hsdeed, hrun⟩ := hlost.submit (.run none (Mask.full RunFlag))
    (by decide +kernel) (by decide +kernel)
  obtain ⟨u, hu, -, hudeed, hwaited⟩ := hrun.dispatch (by decide +kernel) (by decide +kernel)
  obtain ⟨v, hv, -, hvdeed, hvisited⟩ := hwaited.dispatch (by decide +kernel) (by decide +kernel)
  obtain ⟨w, hw, -, hwdeed, hreturned⟩ := hvisited.dispatch (by decide +kernel)
    (by decide +kernel)
  -- the time is known again, and the next run calls the timer, although no time has passed
  obtain ⟨x, hx, -, hxdeed, hfound⟩ := hreturned.submit (.setClock 1000000) (by decide +kernel)
    (by decide +kernel)
  obtain ⟨y, hy, -, hydeed, hagain⟩ := hfound.submit (.run none (Mask.full RunFlag))
    (by decide +kernel) (by decide +kernel)
  obtain ⟨z, hz, -, hzdeed, hpass⟩ := hagain.dispatch (by decide +kernel) (by decide +kernel)
  obtain ⟨t, ht, ht', htdeed, -⟩ := hpass.dispatch (by decide +kernel) (by decide +kernel)
  have harms : s.Arms ⟨0, 0, 0⟩ 0 500 := by
    refine ⟨?_, ?_, Or.inr ⟨⟨none, _, _, some 500, hsdeed⟩, ?_⟩⟩
    · rw [hs]; rfl
    · rw [hs']; exact ⟨_, _, rfl, rfl, rfl⟩
    · rw [hs]; exact ⟨_, _, rfl, rfl, rfl⟩
  have hnot : ∀ o ∈ [u, v, w, x, y, z], ¬ o.Assigns ⟨0, 0, 0⟩ := by
    intro o ho hassigns
    simp only [List.mem_cons, List.not_mem_nil, or_false] at ho
    rcases ho with rfl | rfl | rfl | rfl | rfl | rfl
    · exact hassigns.not_dispatch hudeed
    · exact hassigns.not_dispatch hvdeed
    · exact hassigns.not_dispatch hwdeed
    · rcases hassigns.aimed hxdeed with ⟨_, haim⟩ | ⟨_, _, _, _, hcreate⟩ <;> contradiction
    · rcases hassigns.aimed hydeed with ⟨_, haim⟩ | ⟨_, _, _, _, hcreate⟩ <;> contradiction
    · exact hassigns.not_dispatch hzdeed
  let time : Nat → Nat := fun _ => 1000
  have htimes : TrueTimes 0
      ([a, b] ++ [c] ++ [s] ++ [u] ++ [v] ++ [w] ++ [x] ++ [y] ++ [z] ++ [t]) time := by
    refine (((((((((htimes time (fun _ _ _ => Nat.le_refl _) (fun _ => by decide) rfl).extend
      1000 rfl ?_).extend 1000 rfl ?_).extend 1000 rfl ?_).extend 1000 rfl ?_).extend
      1000 rfl ?_).extend 1000 rfl ?_).extend 1000 rfl ?_).extend 1000 rfl ?_).extend
      1000 rfl ?_
    · rw [hc]; decide +kernel
    · rw [hs]; decide +kernel
    · rw [hu]; decide +kernel
    · rw [hv]; decide +kernel
    · rw [hw]; decide +kernel
    · rw [hx]; decide +kernel
    · rw [hy]; decide +kernel
    · rw [hz]; decide +kernel
    · rw [ht]; decide +kernel
  have hpassing : t.before.config.standings = [⟨0, .passing ⟨∅, 0, none⟩⟩] := by
    rw [ht]
    decide +kernel
  have hcalling : t.after.config.standings = [⟨0, .calling ⟨∅, 0, none⟩ ⟨0, ⟨0, 0⟩⟩⟩] := by
    rw [ht']
    decide +kernel
  obtain ⟨call, hcalls⟩ : ∃ call, t.Calls ⟨0, 0, 0⟩ call := by
    refine Transition.calls_of_standings htdeed hpassing hcalling ?_
    rw [ht]
    decide +kernel
  have hlate : 1000 + 500 < 1000 := hall _ t time ⟨0, 0, 0⟩ (ht.symm ▸ hpass) htimes [a, b, c]
    [u, v, w, x, y, z] s 0 500 rfl harms (by decide) hnot call hcalls
  contradiction

end EventLoop
