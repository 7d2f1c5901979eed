import EventLoop.Proofs.Lasting

/-!
# A stopped watcher is not called

A stop clears the flag that makes a watcher active, and may leave a deadline, readiness and a place
on the way of a pass behind. None of these gets the watcher called: its visit passes over it until
an action makes it active again. An event is never made active again, and a watcher that was
released never comes back. After an exit nobody is visited until a run is entered.
-/
namespace EventLoop

/-- Whether the action stops the watcher, for good or until it is started again. A timer that is set
to nothing is stopped. -/
def WatcherAction.halts : WatcherAction → Bool
  | .release => true
  | .ioStop => true
  | .timerStop => true
  | .eventStop => true
  | .timerSet timeout period => timeout = 0 && period = 0
  | _ => false

namespace Entry

variable {e e' : Entry} {now : Option Nat} {action : WatcherAction}

/-- The watcher is an event that is stopped. -/
def IsDead (e : Entry) : Prop := e.payload.kind = .event ∧ e.isActive = false

/-- An action that stops its watcher leaves it inactive, if it leaves it at all. -/
theorem Acted.inactive (h : e.Acted now action true (some e')) (hhalts : action.halts = true) :
    e'.isActive = false := by
  cases h with
  | asked hasks => cases action <;> contradiction
  | stopped => exact Loop.stopped_isActive e
  | @set t timeout period a b ht htimes =>
    simp only [WatcherAction.halts, Bool.and_eq_true, decide_eq_true_eq] at hhalts
    obtain ⟨rfl, rfl⟩ := hhalts
    obtain ⟨rfl, rfl⟩ : 0 = a ∧ 0 = b := Prod.mk.inj (Except.ok.inj htimes)
    rw [withTimer_isActive _ (by rw [ht]; rfl)]
    rfl
  | going => contradiction
  | started => contradiction
  | reaimed => contradiction
  | restarted => contradiction
  | posted => contradiction

end Entry

namespace Transition

variable {t : Transition} {r : WatcherRef}

/-- The watcher is stopped, by an action on it or because its loop exits. -/
def Stops (t : Transition) (r : WatcherRef) : Prop :=
  (∃ action, t.Acts r action ∧ action.halts = true) ∨
    (t.Exits r.owner ∧ t.before.world.meant? r ≠ none)

/-- The watcher is stopped for good: it is an event, or it is released. -/
def Ends (t : Transition) (r : WatcherRef) : Prop := t.Acts r .eventStop ∨ t.Acts r .release

/-- An action on the watcher starts it, and leaves it active. -/
def Restarts (t : Transition) (r : WatcherRef) : Prop :=
  (∃ action kind, t.Acts r action ∧ action.starts kind = true) ∧
    ∃ e, t.after.world.meant? r = some e ∧ e.isActive = true

/-! ### Until it is started again -/

theorem Stops.inactive (h : t.Stops r) : t.after.world.Has r fun e => e.isActive = false := by
  rcases h with ⟨action, hacts, hhalts⟩ | ⟨hexits, hthere⟩
  · obtain ⟨e, v, hm, hact, htold⟩ := hacts.effect
    refine has_of_before hm fun e' he' => ?_
    rw [he'] at htold
    obtain ⟨e₁, rfl⟩ := htold.before
    exact htold.isActive.trans (hact.inactive hhalts)
  · obtain ⟨e, hm⟩ := Option.ne_none_iff_exists'.mp hthere
    exact has_of_before hm fun e' he' => hexits.isActive he'

theorem inactive_keeps (hnot : ¬ t.Restarts r)
    (h : t.before.world.Has r fun e => e.isActive = false) :
    t.after.world.Has r fun e => e.isActive = false := by
  refine t.keeps h fun e e₁ e' _ he' heffect htold hidle => ?_
  rw [← Bool.not_eq_true] at hidle ⊢
  intro hactive
  rcases heffect.isActive (htold.isActive.symm.trans hactive) with hold | ⟨action, hacts, hstarts⟩
  · exact hidle hold
  · exact hnot ⟨⟨action, _, hacts, hstarts⟩, e', he', hactive⟩

/-! ### For good -/

theorem Ends.dead (h : t.Ends r) : t.after.world.Has r Entry.IsDead := by
  rcases h with hacts | hacts
  · obtain ⟨e, v, hm, hact, htold⟩ := hacts.effect
    refine has_of_before hm fun e' he' => ?_
    rw [he'] at htold
    obtain ⟨e₁, rfl⟩ := htold.before
    refine ⟨htold.frame.2.2.2.trans ?_, htold.isActive.trans (hact.inactive rfl)⟩
    cases hact with
    | asked hasks => contradiction
    | stopped hkind =>
      rw [Entry.stopped_kind]
      cases hk : e.payload.kind <;> rw [hk] at hkind <;> first | rfl | contradiction
  · obtain ⟨e, v, hm, hact, htold⟩ := hacts.effect
    refine has_of_before hm fun e' he' => ?_
    rw [he'] at htold
    obtain ⟨e₁, rfl⟩ := htold.before
    cases hact with
    | asked hasks => contradiction
    | stopped hkind => contradiction

theorem dead_keeps (h : t.before.world.Has r Entry.IsDead) : t.after.world.Has r Entry.IsDead := by
  refine t.keeps h fun e e₁ e' _ _ heffect htold hdead => ?_
  obtain ⟨hkind, hidle⟩ := hdead
  refine ⟨htold.frame.2.2.2.trans (heffect.kind.trans hkind), ?_⟩
  rw [← Bool.not_eq_true] at hidle ⊢
  intro hactive
  rcases heffect.isActive (htold.isActive.symm.trans hactive) with hold | ⟨action, -, hstarts⟩
  · exact hidle hold
  · rw [hkind, WatcherAction.starts_event] at hstarts
    contradiction

end Transition

/-! ### In every history -/

/-- A watcher that was stopped is not called until it is started again, and never if it is an event
or was released. After an exit no watcher of the loop is called until a run is entered. -/
theorem stopped_not_called {past : List Transition} {t : Transition} (h : History past t.before)
    (r : WatcherRef) :
    (Since (fun s => s.Stops r) (fun s => ¬ s.Restarts r) past → ∀ call, ¬ t.Calls r call) ∧
    ((∃ s ∈ past, s.Ends r) → ∀ call, ¬ t.Calls r call) ∧
    (Since (fun s => s.Exits r.owner) (fun s => ¬ s.Enters r.owner) past →
      ∀ call, ¬ t.Calls r call) := by
  refine ⟨fun hsince call hcalls => ?_, fun hended call hcalls => ?_, fun hsince call hcalls => ?_⟩
  · have hidle := h.since (I := fun m => m.world.Has r fun e => e.isActive = false) hsince
      (fun _ => Transition.Stops.inactive) fun _ => Transition.inactive_keeps
    obtain ⟨-, e, hm, hactive⟩ := hcalls.isActive
    rw [hidle.2 e hm] at hactive
    contradiction
  · obtain ⟨s, hs, hends⟩ := hended
    have hdead := h.ever (I := fun m => m.world.Has r Entry.IsDead) hs hends.dead
      fun _ => Transition.dead_keeps
    obtain ⟨-, e, hm, hactive⟩ := hcalls.isActive
    rw [(hdead.2 e hm).2] at hactive
    contradiction
  · have hstopped := h.since (I := fun m => m.world.isRunning r.owner = false) hsince
      (fun _ => Transition.Exits.isRunning) fun u hnot hbefore => by
        rw [← Bool.not_eq_true] at hbefore ⊢
        exact fun hafter => (u.isRunning hafter).elim hbefore hnot
    rw [hcalls.isActive.1] at hstopped
    contradiction

/-- A run of a loop with two timers that are due, in the callback of the first, which is about to
stop the second. -/
def Machine.stopping : Machine :=
  (((((Machine.create (World.create ⟨1000000, 5000, false⟩ .standIn)).submit
    (.newContext .none .scenario)).submit
    (.create none "second" (.remoteTimer 1 0) ⟨[], false⟩)).submit
    (.create none "first" (.timer 1 0) ⟨[[.watcher none "second" .timerStop]], false⟩)).submit
    (.run none ∅)).step.step

/-- The second timer is on the way of the pass, and it is not called at its turn. -/
theorem stopped_not_called_stopping :
    (Machine.stopping.world.context? 0).map (fun c => c.roster.remaining) = some [0] ∧
    ∃ (past : List Transition) (t : Transition), History past t.before ∧
      t.before = Machine.stopping.step.step ∧
      Since (fun s => s.Stops ⟨0, 0, 0⟩) (fun s => ¬ s.Restarts ⟨0, 0, 0⟩) past ∧
      ∀ call, ¬ t.Calls ⟨0, 0, 0⟩ call := by
  have hreach : Machine.stopping.Reachable :=
    (((((Machine.Reachable.start _ _).submit _ (by decide +kernel) (by decide +kernel)).submit _
      (by decide +kernel) (by decide +kernel)).submit _ (by decide +kernel)
      (by decide +kernel)).submit _ (by decide +kernel) (by decide +kernel)).advance
      (by decide +kernel) |>.advance (by decide +kernel)
  obtain ⟨past, hpast⟩ := hreach.history
  -- the callback stops the second timer and returns, and the second timer has its turn
  obtain ⟨s, hs, -, hsdeed, hstopped⟩ := hpast.command (by decide +kernel)
    (show Machine.stopping.next? = some (0, .watcher none "second" .timerStop) from rfl)
  obtain ⟨u, -, -, hudeed, hreturned⟩ := hstopped.dispatch (by decide +kernel) (by decide +kernel)
  obtain ⟨t, ht, -, -⟩ := hreturned.dispatch (by decide +kernel) (by decide +kernel)
  have hhistory : History (past ++ [s] ++ [u]) t.before := ht.symm ▸ hreturned
  have haim : s.before.world.aim? (some 0) (.watcher none "second" .timerStop) =
      some (⟨0, 0, 0⟩, .timerStop) := by
    rw [hs]
    decide +kernel
  have hstops : s.Stops ⟨0, 0, 0⟩ :=
    Or.inl ⟨.timerStop, ⟨some 0, _, _, hsdeed, haim, by decide +kernel⟩, rfl⟩
  have hrests : ¬ u.Restarts ⟨0, 0, 0⟩ := by
    rintro ⟨⟨action, kind, hacts, -⟩, -⟩
    exact hacts.not_dispatch hudeed
  have hsince : Since (fun s => s.Stops ⟨0, 0, 0⟩) (fun s => ¬ s.Restarts ⟨0, 0, 0⟩)
      (past ++ [s] ++ [u]) := (since_done hstops).extend hrests
  exact ⟨by decide +kernel, _, t, hhistory, ht, hsince,
    (stopped_not_called hhistory ⟨0, 0, 0⟩).1 hsince⟩

end EventLoop
