import EventLoop.Proofs.Beside
import EventLoop.Proofs.Idle

/-!
# Pollers are at rest after a call

Pollers are settled before a callback is called and after each of its steps. The turns of a pass that
call nobody leave them at rest, so that they still are when a pass ends that has called a watcher:
polls between that pass and the next wait would find nothing.
-/
namespace EventLoop

/-- A callback is being called in the pass, or has been. -/
def Phase.hasCalled : Phase → Bool
  | .waiting => false
  | .passing pass => decide (0 < pass.served)
  | .calling _ _ => true

/-- Whenever the innermost run has called somebody in its pass, all pollers are at rest. -/
def Machine.Rested (m : Machine) : Prop :=
  ∀ a ∈ m.stack.head?, a.phase.hasCalled = true → m.world.AtRest

/-- A watcher that is due at its turn has its callback. -/
theorem Loop.Sound.lends {l : Loop} {now i : Nat} {pass : Pass} {h : Handle} {events : Events}
    (hs : l.Sound) (hlent : l.context.Lent (some (.passing pass)))
    (hi : l.context.roster.next.2 = some i) (hrun : l.context.running = true)
    (hcall : (l.context.atTurn.visit now pass.signals i).call = some (h, events)) :
    ((l.context.atTurn.visit now pass.signals i).context.lendCallback h).2 ≠ none := by
  intro hnone
  obtain ⟨g, e, ht⟩ := (Dispatch.missed rfl hi hrun hcall hnone).turn hs hlent hi hrun
  obtain ⟨deadline, ⟨-, heq⟩ | ⟨-, heq⟩⟩ := ht.outcome
  · have hserved : pass.served + 1 = pass.served :=
      congrArg Pass.served (Stage.passing.inj (Option.some.inj heq))
    omega
  · exact nomatch Option.some.inj heq

namespace Machine

variable {m : Machine} {a : Activation} {below : List Activation} {l : Loop} {pass : Pass}

theorem Rested.of_atRest (h : m.world.AtRest) : m.Rested := fun _ _ _ => h

theorem Rested.of_idle (hm : m.stack = a :: below) (h : a.phase.hasCalled = false) : m.Rested := by
  intro b hb hcalled
  rw [hm] at hb
  obtain rfl := Option.some.inj hb
  exact nomatch h.symm.trans hcalled

theorem conclude_rested (m : Machine) (answer : Answer) : (m.conclude answer).Rested :=
  .of_atRest ((m.conclude_frame answer).1 ▸ m.world.settle_atRest)

theorem perform_rested (m : Machine) (current : Option Nat) (command : Command) :
    (m.perform current command).Rested := by
  unfold perform
  split
  · exact conclude_rested _ _
  · exact .of_idle rfl rfl

theorem enterPass_rested (m : Machine) (a : Activation) (below : List Activation) (l : Loop)
    (signals : Signals) : (m.enterPass a below l signals).Rested := by
  unfold enterPass
  split
  · exact conclude_rested _ _
  · exact .of_idle rfl rfl

theorem stepWaiting_rested (hm : m.stack = a :: below) (hp : a.phase = .waiting) :
    (m.stepWaiting a below l).Rested := by
  have hidle : a.phase.hasCalled = false := by rw [hp]; rfl
  cases hgoes : l.context.running && !l.context.roster.isEmpty with
  | false =>
    rw [stepWaiting_over m a below hgoes]
    exact conclude_rested _ _
  | true =>
    rw [stepWaiting_eq m a below hgoes]
    dsimp only
    unfold afterWait
    split
    · exact .of_idle hm hidle
    · exact enterPass_rested _ _ _ _ _
    · exact enterPass_rested _ _ _ _ _

theorem endPass_rested (m : Machine) (a : Activation) (below : List Activation) (l : Loop)
    (pass : Pass) : (m.endPass a below l pass).Rested := by
  unfold endPass
  split
  · exact conclude_rested _ _
  · exact .of_idle rfl rfl

theorem stepPassing_rested (h : m.Reachable) (hm : m.stack = a :: below)
    (hl : m.world.loop? a.context = some l) (hp : a.phase = .passing pass) (hr : m.Rested) :
    (m.stepPassing a below l pass).Rested := by
  obtain ⟨hs, -, hlent⟩ := reachable_pass h
  have hc := (World.loop?_eq_some.mp hl).1
  have hsound := (hs.world.loop hl).2
  cases hi : l.context.roster.next.2 with
  | none =>
    rw [stepPassing_last m a below pass l hi]
    exact endPass_rested _ _ _ _ _
  | some i =>
    cases hrun : l.context.running with
    | false =>
      rw [stepPassing_stopped m a below pass l hi hrun]
      exact endPass_rested _ _ _ _ _
    | true =>
      rw [stepPassing_turn m a below pass l hi hrun]
      unfold afterVisit
      dsimp only
      split
      · next handle events hcall =>
        have hstage : a.standing.stage = .passing pass := by rw [Activation.standing, hp]
        have hlends := hsound.lends (hstage ▸ lent_at hm hl hlent) hi hrun hcall
        unfold beginCall
        dsimp only
        split
        · next hnone => exact absurd hnone hlends
        · exact .of_atRest (World.settle_atRest _)
      · next hcall =>
        rw [Context.visit_of_uncalled (c := l.context.atTurn) hsound (h.armed hc) hrun rfl hcall]
        intro b hb hcalled
        obtain rfl := Option.some.inj hb
        have hrest := hr a (by rw [hm]; rfl) (by rw [hp]; exact hcalled)
        exact hrest.putContext_of_watchers hc rfl

/-- Every step leaves the pollers at rest once the innermost run has called somebody in its pass. -/
theorem Rested.step (h : m.Reachable) (hr : m.Rested) : m.step.Rested := by
  unfold Machine.step
  cases hm : m.stack with
  | nil => exact hr
  | cons a below =>
    dsimp only
    cases hl : m.world.loop? a.context with
    | none => exact hr
    | some l =>
      dsimp only
      cases hp : a.phase with
      | waiting => exact stepWaiting_rested hm hp
      | passing pass => exact stepPassing_rested h hm hl hp hr
      | calling pass call =>
        dsimp only
        split
        · have hrest := hr a (by rw [hm]; rfl) (by rw [hp]; rfl)
          refine .of_atRest (hrest.putContext (World.loop?_eq_some.mp hl).1 fun i g e hat => ?_)
          obtain ⟨watchers, hc, hslots⟩ := Context.recalled_return l.context call.watcher
            { call.callback with called := call.callback.called + 1 }
          rw [hc] at hat
          obtain ⟨e₀, f, hat₀, rfl⟩ := hslots i g e hat
          exact ⟨e₀, hat₀, rfl, rfl⟩
        · exact perform_rested _ _ _

end Machine
end EventLoop
