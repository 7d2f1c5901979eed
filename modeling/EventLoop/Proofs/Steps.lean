import EventLoop.Machine.Basic
import EventLoop.Proofs.Flags
import EventLoop.Proofs.World

/-!
# What each small step of a run is

A run with nothing to wait for is left, and otherwise waits. In a pass it ends the pass or visits the
watcher at its turn.
-/
namespace EventLoop

/-- The context at the next turn of its pass. -/
def Context.atTurn (c : Context) : Context := { c with roster := c.roster.next.1 }

/-- The cursor stays at the end of a pass. -/
theorem Context.atTurn_of_last {c : Context} (h : c.roster.next.2 = none) : c.atTurn = c := by
  have hsame : c.roster.next.1 = c.roster := by
    unfold Roster.next at h ⊢
    split
    · rfl
    · next hcursor => simp [hcursor] at h
  rw [atTurn, hsame]

namespace Machine

variable {m : Machine} {a : Activation} {below : List Activation} {l : Loop}

theorem step_waiting (hm : m.stack = a :: below) (hl : m.world.loop? a.context = some l)
    (hp : a.phase = .waiting) : m.step = m.stepWaiting a below l := by
  unfold step
  simp only [hm, hl, hp]

theorem step_passing {pass : Pass} (hm : m.stack = a :: below)
    (hl : m.world.loop? a.context = some l) (hp : a.phase = .passing pass) :
    m.step = m.stepPassing a below l pass := by
  unfold step
  simp only [hm, hl, hp]

/-! ### Waits -/

/-- A wait has been made, at the end of which the clock stands so. -/
def waited (m : Machine) (clock : Clock) : Machine :=
  { m with world := { m.world with waits := m.world.waits + 1, clock } }

/-- What follows a wait. -/
def afterWait (m : Machine) (a : Activation) (below : List Activation) (l : Loop)
    (wakeups : Wakeups) (wait : Wait) : Machine :=
  let l := l.mapContext fun c => { c with wakeups }
  let clock := m.world.clock.beginWait
  match wait with
  | .forever => { m.waited clock with abort := some .blocked }
  | .elapsed us => (m.waited (clock.elapse us)).enterPass a below l ∅
  | .woken signals => (m.waited clock).enterPass a below l signals

theorem stepWaiting_eq (m : Machine) (a : Activation) (below : List Activation)
    (hgoes : (l.context.running && !l.context.roster.isEmpty) = true) :
    m.stepWaiting a below l =
      let r := l.context.wakeups.wait (Mask.full Signal) (waitTimeout m.world a l.context)
      m.afterWait a below l r.1 r.2 := by
  obtain ⟨hrun, hlinked⟩ : l.context.running = true ∧ l.context.roster.isEmpty = false := by
    simpa using hgoes
  unfold stepWaiting
  rw [if_neg (by simp [hrun, hlinked])]
  dsimp only
  split <;> next hwait =>
    rw [hwait]
    rfl

/-- A run that does not abort has something to wait for. -/
theorem stepWaiting_waits {a : Activation} {below : List Activation}
    (hgoes : (l.context.running && !l.context.roster.isEmpty) = true)
    (habort : (m.stepWaiting a below l).abort = none) :
    (l.context.wakeups.wait (Mask.full Signal) (waitTimeout m.world a l.context)).2 ≠
      .forever := by
  intro hforever
  rw [stepWaiting_eq m a below hgoes] at habort
  dsimp only at habort
  rw [hforever] at habort
  contradiction

/-- A run with nothing to wait for is left. -/
theorem stepWaiting_over (m : Machine) (a : Activation) (below : List Activation)
    (hover : (l.context.running && !l.context.roster.isEmpty) = false) :
    m.stepWaiting a below l = m.leave a below l := by
  have hleaves : (!l.context.running || l.context.roster.isEmpty) = true := by
    rwa [Bool.and_eq_false_iff, Bool.not_eq_false', ← Bool.not_eq_true', ← Bool.or_eq_true] at hover
  exact if_pos hleaves

/-! ### Turns -/

/-- A run that goes on waits again after its pass. -/
theorem endPass_goesOn (m : Machine) (below : List Activation) (l : Loop) (pass : Pass)
    (h : a.flags = ∅) : m.endPass a below l pass =
      { m with stack := { a with phase := .waiting, deadline := pass.deadline } :: below } := by
  refine if_neg ?_
  rw [h, Mask.has_empty, Bool.false_and]
  exact Bool.false_ne_true

section Turns

variable (m : Machine) (a : Activation) (below : List Activation) (pass : Pass) (l : Loop)

/-- What follows the visit of a watcher. -/
def afterVisit (visit : Context.Visit) : Machine :=
  let pass := { pass with deadline := sooner pass.deadline visit.deadline }
  match visit.call with
  | some (h, events) => m.beginCall a below visit.context pass h events
  | none =>
    { m with
      world := m.world.putContext a.context visit.context
      stack := { a with phase := .passing pass } :: below }

theorem afterVisit_put (c : Context) (visit : Context.Visit) :
    ({ m with world := m.world.putContext a.context c } : Machine).afterVisit a below pass visit =
      m.afterVisit a below pass visit := by
  unfold afterVisit beginCall
  simp only [World.putContext_putContext]

theorem stepPassing_last (hi : l.context.roster.next.2 = none) :
    m.stepPassing a below l pass = m.endPass a below l pass := by
  have hsame : l.mapContext (fun _ => l.context.atTurn) = l := by
    rw [Context.atTurn_of_last hi]
    rfl
  unfold stepPassing
  dsimp only
  rw [hi]
  exact congrArg (m.endPass a below · pass) hsame

variable {i : Nat} (hi : l.context.roster.next.2 = some i)
include hi

theorem stepPassing_stopped (hrun : l.context.running = false) :
    m.stepPassing a below l pass =
      ({ m with world := m.world.putContext a.context l.context.atTurn } : Machine).endPass a below
        ⟨l.context.atTurn, l.poller⟩ pass := by
  unfold stepPassing
  dsimp only
  rw [hi]
  exact if_neg (by simp [Loop.mapContext, hrun])

theorem stepPassing_turn (hrun : l.context.running = true) :
    m.stepPassing a below l pass = m.afterVisit a below pass
      (l.context.atTurn.visit (m.world.now l.context) pass.signals i) := by
  rw [← afterVisit_put m a below pass l.context.atTurn]
  unfold stepPassing
  dsimp only
  rw [hi]
  exact if_pos hrun

end Turns

end Machine
end EventLoop
