import EventLoop.Machine.Basic
import EventLoop.Proofs.Persistence
import EventLoop.Proofs.Rest
import EventLoop.Proofs.Settings

/-!
# A run that goes on beside one that is made once

Of two machines that differ only in whether their outermost run goes on or is made once, each small
step does the same, runs within callbacks included, as long as both know the same deadline when they
wait. They part at the end of a pass that has called a watcher: there the one run waits again, and
the other is left.
-/
namespace EventLoop

/-- Whether a context is running and has anything linked. -/
def World.goesOn (w : World) (id : Nat) : Bool :=
  (w.context? id).any fun c => c.running && !c.roster.isEmpty

theorem World.settle_goesOn (w : World) (id : Nat) : w.settle.goesOn id = w.goesOn id :=
  settle_any (fun _ _ _ => rfl) w id

/-- What a run that goes on has behind it when one that is made once begins. -/
structure Headway where
  calls : List (CallRecord Answer)
  waits : Nat
  /-- The deadline that it knows. -/
  deadline : Option Nat

/-- The same run, if it goes on. -/
def Activation.goingOn (a : Activation) (k : Headway) : Activation :=
  { a with flags := ∅, deadline := k.deadline, calls := k.calls ++ a.calls }

/-- The runs on two stacks are the same but for the outermost ones, of which the first goes on and
the second is made once. -/
inductive Beside (id : Nat) (k : Headway) : List Activation → List Activation → Prop
  | outermost {a : Activation} : a.context = id → a.flags = Mask.only .once →
      (a.phase = .waiting → k.deadline = a.deadline) → Beside id k [a.goingOn k] [a]
  | within {as bs : List Activation} (a : Activation) : Beside id k as bs →
      Beside id k (a :: as) (a :: bs)

/-- The innermost runs on such stacks, and the runs below them. What deadline an outermost run knows
does not matter. -/
inductive Abreast (id : Nat) (k : Headway) :
    Activation → List Activation → Activation → List Activation → Prop
  | outermost {a : Activation} : a.context = id → a.flags = Mask.only .once →
      Abreast id k (a.goingOn k) [] a []
  | within {as bs : List Activation} (a : Activation) : Beside id k as bs → Abreast id k a as a bs

variable {id : Nat} {k : Headway} {a a' : Activation} {as bs : List Activation}

theorem Beside.ne_nil (h : Beside id k as bs) : bs ≠ [] := by
  cases h <;> exact List.cons_ne_nil _ _

theorem Beside.abreast {stack : List Activation} (h : Beside id k stack (a :: bs)) :
    ∃ a' as, stack = a' :: as ∧ Abreast id k a' as a bs ∧
      (a.phase = .waiting → a'.deadline = a.deadline) := by
  cases h with
  | outermost hid hflags hdeadline => exact ⟨_, _, rfl, .outermost hid hflags, hdeadline⟩
  | within a h => exact ⟨_, _, rfl, .within a h, fun _ => rfl⟩

namespace Abreast

theorem context (h : Abreast id k a' as a bs) : a'.context = a.context := by
  cases h <;> rfl

theorem phase (h : Abreast id k a' as a bs) : a'.phase = a.phase := by
  cases h <;> rfl

theorem nonblock (h : Abreast id k a' as a bs) : a'.flags.has .nonblock = a.flags.has .nonblock := by
  cases h with
  | outermost hid hflags =>
    rw [hflags]
    change (∅ : RunFlags).has .nonblock = _
    decide
  | within => rfl

/-- Runs stay abreast in a pass, whatever calls return in it. -/
theorem record (h : Abreast id k a' as a bs) (phase : Phase) (hp : phase ≠ .waiting)
    (calls : List (CallRecord Answer)) :
    Beside id k ({ a' with phase, calls := a'.calls ++ calls } :: as)
      ({ a with phase, calls := a.calls ++ calls } :: bs) := by
  cases h with
  | outermost hid hflags =>
    have hsame : { a.goingOn k with phase, calls := (a.goingOn k).calls ++ calls } =
        ({ a with phase, calls := a.calls ++ calls } : Activation).goingOn k := by
      simp only [Activation.goingOn, List.append_assoc]
    rw [hsame]
    exact .outermost hid hflags fun h => absurd h hp
  | within a h => exact .within _ h

theorem put (h : Abreast id k a' as a bs) (phase : Phase) (hp : phase ≠ .waiting) :
    Beside id k ({ a' with phase } :: as) ({ a with phase } :: bs) := by
  cases h with
  | outermost hid hflags => exact .outermost (a := { a with phase }) hid hflags fun h => absurd h hp
  | within a h => exact .within _ h

end Abreast

namespace Machine

/-- The outermost run of the first machine goes on, that of the second is made once. -/
structure Beside (m n : Machine) (id : Nat) (k : Headway) : Prop where
  world : m.world = n.world.later k.waits
  stack : EventLoop.Beside id k m.stack n.stack
  going : m.abort = none ∧ n.abort = none

/-- Both runs are over. -/
structure Ended (m n : Machine) (id : Nat) (k : Headway) : Prop where
  world : m.world = n.world.later k.waits
  runs : m.stack = [] ∧ n.stack = []
  going : m.abort = none ∧ n.abort = none
  answers : ∃ calls, n.answer = some (.ran none calls) ∧
    m.answer = some (.ran none (k.calls ++ calls))
  ceased : n.world.goesOn id = false

/-- A pass has called a watcher: the first run waits again in the world `w`, and the second was left
there. -/
structure Paused (m n : Machine) (id : Nat) (k : Headway) (w : World) (c : Context)
    (deadline : Option Nat) (calls : List (CallRecord Answer)) : Prop where
  context : w.context? id = some c
  atRest : w.AtRest
  worlds : m.world = w.later k.waits ∧ n.world = (w.putContext id { c with busy := false }).settle
  runs : m.stack = [⟨id, ∅, deadline, .waiting, k.calls ++ calls⟩] ∧ n.stack = []
  going : m.abort = none ∧ n.abort = none
  answer : n.answer = some (.ran none calls)

/-- What a step of both comes to. -/
inductive Joint (m n : Machine) (id : Nat) (k : Headway) : Prop
  | beside {k' : Headway} : k'.calls = k.calls → m.Beside n id k' → Joint m n id k
  | ended : m.Ended n id k → Joint m n id k
  | paused {w c deadline calls} : m.Paused n id k w c deadline calls → Joint m n id k

variable {m n : Machine} {l : Loop}

theorem Beside.conclude (h : m.Beside n id k) (answer : Answer) :
    (m.conclude answer).Beside (n.conclude answer) id k := by
  obtain ⟨hw, hs, hgo⟩ := h
  obtain ⟨mw, mstack, manswer, mabort⟩ := m
  obtain ⟨nw, nstack, nanswer, nabort⟩ := n
  have hsettle : mw.settle = nw.settle.later k.waits := by
    rw [← World.settle_later, ← hw]
  dsimp only at hs hgo
  cases hs with
  | outermost hid hflags hdeadline =>
    next a =>
    unfold Machine.conclude
    dsimp only [Activation.goingOn]
    split
    · next pass call hp =>
      exact ⟨hsettle, .outermost (a := { a with
        phase := .calling pass { call with answers := call.answers ++ [answer] } }) hid hflags
          (fun h => nomatch h), hgo⟩
    · exact ⟨hsettle, .outermost hid hflags hdeadline, hgo⟩
  | within a h =>
    unfold Machine.conclude
    dsimp only
    split
    · exact ⟨hsettle, .within _ h, hgo⟩
    · exact ⟨hsettle, .within _ h, hgo⟩

theorem Beside.perform (h : m.Beside n id k) (current : Option Nat) (command : Command) :
    (m.perform current command).Beside (n.perform current command) id k := by
  unfold Machine.perform
  rw [h.world, World.perform_later]
  generalize n.world.perform current command = r
  obtain ⟨w, reaction⟩ := r
  cases reaction with
  | answered answer =>
    exact Beside.conclude (m := { m with world := w.later k.waits }) (n := { n with world := w })
      ⟨rfl, h.stack, h.going⟩ answer
  | entered => exact ⟨rfl, .within _ h.stack, h.going⟩

/-! ### Leaving a run -/

theorem leave_beside (hw : m.world = n.world.later k.waits) (hgo : m.abort = none ∧ n.abort = none)
    (h : EventLoop.Beside id k as bs) (a : Activation) (l : Loop) :
    (m.leave a as l).Beside (n.leave a bs l) id k := by
  let left (m : Machine) (below : List Activation) : Machine :=
    { m with
      world := m.world.putLoop a.context (l.mapContext fun c => { c with busy := false })
      stack := below }
  have hbeside : (left m as).Beside (left n bs) id k :=
    ⟨(congrArg (World.putLoop · _ _) hw).trans (World.putLoop_later _ _ _ _), h, hgo⟩
  exact hbeside.conclude _

theorem leave_goesOn {c : Context} (hc : n.world.context? a.context = some c) (l : Loop) :
    (n.leave a [] l).world.goesOn a.context =
      (l.context.running && !l.context.roster.isEmpty) := by
  have hput := World.context?_putLoop_self hc (l.mapContext fun c => { c with busy := false })
  exact ((World.settle_goesOn _ _).trans (congrArg (Option.any _) hput) :)

/-- Where a run has nothing more to wait for, both are left. -/
theorem leave_joint (h : Abreast id k a' as a bs) (hw : m.world = n.world.later k.waits)
    (hgo : m.abort = none ∧ n.abort = none) {c : Context}
    (hc : n.world.context? a.context = some c)
    (hover : (l.context.running && !l.context.roster.isEmpty) = false) :
    (m.leave a' as l).Joint (n.leave a bs l) id k := by
  cases h with
  | outermost hid hflags =>
    refine .ended ⟨?_, ⟨rfl, rfl⟩, hgo, ⟨_, rfl, rfl⟩, ?_⟩
    · change (m.world.putLoop _ _).settle = World.later (n.world.putLoop _ _).settle _
      rw [hw, World.putLoop_later, World.settle_later]
      rfl
    · rw [← hid, leave_goesOn hc, hover]
  | within a h => exact .beside rfl (leave_beside hw hgo h a l)

theorem enterPass_joint (h : Abreast id k a' as a bs) (hw : m.world = n.world.later k.waits)
    (hgo : m.abort = none ∧ n.abort = none) {c : Context}
    (hc : n.world.context? a.context = some c) (l : Loop) (signals : Signals) :
    (m.enterPass a' as l signals).Joint (n.enterPass a bs l signals) id k := by
  unfold Machine.enterPass
  split
  · exact leave_joint h hw hgo hc rfl
  · refine .beside rfl ⟨?_, h.put _ (fun h => nomatch h), hgo⟩
    dsimp only
    rw [hw, h.context]
    rfl

/-! ### A step of both -/

theorem waited_later (h : m.world = n.world.later k.waits) (clock : Clock) :
    (m.waited clock).world = (n.waited clock).world.later k.waits := by
  unfold waited
  rw [h]
  simp only [World.later, World.under, World.settings, Nat.add_right_comm]

/-- Runs that wait go on together if the wait ends alike. -/
theorem stepWaiting_joint (hw : m.world = n.world.later k.waits)
    (hgo : m.abort = none ∧ n.abort = none) (h : Abreast id k a' as a bs)
    (hl : n.world.loop? a.context = some l)
    (hwait : l.context.wakeups.wait (Mask.full Signal) (waitTimeout m.world a' l.context) =
      l.context.wakeups.wait (Mask.full Signal) (waitTimeout n.world a l.context))
    (habort : (m.stepWaiting a' as l).abort = none) :
    (m.stepWaiting a' as l).Joint (n.stepWaiting a bs l) id k := by
  have hc := (World.loop?_eq_some.mp hl).1
  cases hgoes : l.context.running && !l.context.roster.isEmpty with
  | false =>
    rw [stepWaiting_over m a' as hgoes, stepWaiting_over n a bs hgoes]
    exact leave_joint h hw hgo hc hgoes
  | true =>
    have hforever := stepWaiting_waits hgoes habort
    have hclock : m.world.clock = n.world.clock := by
      rw [hw]
      rfl
    rw [stepWaiting_eq m a' as hgoes, stepWaiting_eq n a bs hgoes, hwait]
    rw [hwait] at hforever
    unfold afterWait
    dsimp only
    rw [hclock]
    generalize hr : (l.context.wakeups.wait (Mask.full Signal)
      (waitTimeout n.world a l.context)).2 = r at hforever
    cases r with
    | forever => exact absurd rfl hforever
    | elapsed us => exact enterPass_joint h (waited_later hw _) hgo hc _ _
    | woken signals => exact enterPass_joint h (waited_later hw _) hgo hc _ _

section Pass

variable {pass : Pass} (hw : m.world = n.world.later k.waits)
  (hgo : m.abort = none ∧ n.abort = none) (h : Abreast id k a' as a bs)
  (hl : n.world.loop? a.context = some l)
include hw hgo h hl

/-- The end of a pass is where the runs may part. -/
theorem endPass_joint (hrest : 0 < pass.served → n.world.AtRest) :
    (m.endPass a' as l pass).Joint (n.endPass a bs l pass) id k := by
  cases h with
  | outermost hid hflags =>
    subst hid
    have hback : (a.flags.has .once && (decide (0 < pass.served) || a.flags.has .nonblock)) =
        decide (0 < pass.served) := by
      have honce : (Mask.only .once : RunFlags).has .once = true := by decide
      have hnonblock : (Mask.only .once : RunFlags).has .nonblock = false := by decide
      rw [hflags, honce, hnonblock, Bool.true_and, Bool.or_false]
    rw [endPass_goesOn m [] l pass (a := a.goingOn k) rfl]
    unfold endPass
    rw [hback]
    split
    · next hserved =>
      have hleft := World.putLoop_of_poller (c := { l.context with busy := false }) hl rfl
      exact .paused ⟨(World.loop?_eq_some.mp hl).1, hrest (of_decide_eq_true hserved),
        ⟨hw, congrArg World.settle hleft⟩, ⟨rfl, rfl⟩, hgo, rfl⟩
    · have hcalls : ({ k with deadline := pass.deadline } : Headway).calls = k.calls := rfl
      refine .beside hcalls ⟨hw, ?_, hgo⟩
      exact .outermost (k := { k with deadline := pass.deadline })
        (a := { a with phase := .waiting, deadline := pass.deadline }) rfl hflags fun _ => rfl
  | within a h =>
    unfold endPass
    split
    · exact .beside rfl (leave_beside hw hgo h a l)
    · exact .beside rfl ⟨hw, .within _ h, hgo⟩

omit hl in
theorem beginCall_joint (c : Context) (handle : Handle) (events : Events) :
    (m.beginCall a' as c pass handle events).Joint (n.beginCall a bs c pass handle events) id k := by
  have hput : m.world.putContext a'.context (c.lendCallback handle).1 =
      (n.world.putContext a.context (c.lendCallback handle).1).later k.waits := by
    rw [hw, h.context]
    rfl
  have htime : m.world.clock = n.world.clock := by
    rw [hw]
    rfl
  unfold beginCall
  dsimp only
  split
  · exact .beside rfl ⟨hput, h.put _ (fun h => nomatch h), hgo⟩
  · refine .beside rfl ⟨?_, ?_, hgo⟩
    · rw [← World.settle_later, ← hput]
    · dsimp only [World.putContext]
      rw [htime]
      exact h.put _ (fun h => nomatch h)

omit hl in
theorem afterVisit_joint (visit : Context.Visit) :
    (m.afterVisit a' as pass visit).Joint (n.afterVisit a bs pass visit) id k := by
  unfold afterVisit
  dsimp only
  split
  · exact beginCall_joint hw hgo h _ _ _
  · refine .beside rfl ⟨?_, h.put _ (fun h => nomatch h), hgo⟩
    dsimp only
    rw [hw, h.context]
    rfl

theorem stepPassing_joint (hrest : 0 < pass.served → n.world.AtRest) :
    (m.stepPassing a' as l pass).Joint (n.stepPassing a bs l pass) id k := by
  cases hi : l.context.roster.next.2 with
  | none =>
    rw [stepPassing_last m a' as pass l hi, stepPassing_last n a bs pass l hi]
    exact endPass_joint hw hgo h hl hrest
  | some i =>
    cases hrun : l.context.running with
    | false =>
      rw [stepPassing_stopped m a' as pass l hi hrun, stepPassing_stopped n a bs pass l hi hrun]
      have hc := (World.loop?_eq_some.mp hl).1
      have hput : (n.world.putContext a.context l.context.atTurn).loop? a.context =
          some ⟨l.context.atTurn, l.poller⟩ :=
        World.loop?_eq_some.mpr ⟨World.context?_put_self hc _, (World.loop?_eq_some.mp hl).2⟩
      refine endPass_joint (m := { m with world := _ }) (n := { n with world := _ }) ?_ hgo h hput
        fun hserved => (hrest hserved).putContext_of_watchers hc rfl
      dsimp only
      rw [hw, h.context]
      rfl
    | true =>
      have hnow : m.world.now = n.world.now := by
        rw [hw]
        rfl
      rw [stepPassing_turn m a' as pass l hi hrun, stepPassing_turn n a bs pass l hi hrun, hnow]
      exact afterVisit_joint hw hgo h _

end Pass

theorem perform_joint (hw : m.world = n.world.later k.waits)
    (hgo : m.abort = none ∧ n.abort = none) (h : EventLoop.Beside id k as bs)
    (current : Option Nat) (command : Command) :
    (({ m with stack := as } : Machine).perform current command).Joint
      (({ n with stack := bs } : Machine).perform current command) id k :=
  have hbeside : ({ m with stack := as } : Machine).Beside { n with stack := bs } id k :=
    ⟨hw, h, hgo⟩
  .beside rfl (hbeside.perform current command)

/-- A step of both, as long as the second machine's pollers are at rest at the end of a pass that
has called a watcher. -/
theorem Beside.step (hb : m.Beside n id k)
    (hrest : ∀ a below pass, n.stack = a :: below → a.phase = .passing pass → 0 < pass.served →
      n.world.AtRest)
    (habort : m.step.abort = none) : m.step.Joint n.step id k := by
  obtain ⟨hw, hs, hgo⟩ := hb
  cases hn : n.stack with
  | nil =>
    rw [hn] at hs
    exact absurd rfl hs.ne_nil
  | cons a bs =>
    rw [hn] at hs
    obtain ⟨a', as, hm, h, hdeadline⟩ := hs.abreast
    unfold Machine.step at habort ⊢
    rw [hm] at habort ⊢
    rw [hn]
    have hloop : m.world.loop? a'.context = n.world.loop? a.context := by
      rw [hw, h.context]
      rfl
    dsimp only at habort ⊢
    rw [hloop, h.phase] at habort ⊢
    cases hl : n.world.loop? a.context with
    | none => exact .beside rfl ⟨hw, hn ▸ hs, hgo⟩
    | some l =>
      rw [hl] at habort
      dsimp only at habort ⊢
      cases hp : a.phase with
      | waiting =>
        rw [hp] at habort
        refine stepWaiting_joint hw hgo h hl ?_ habort
        unfold waitTimeout
        rw [h.nonblock, hdeadline hp, hw]
        rfl
      | passing pass =>
        exact stepPassing_joint hw hgo h hl fun hserved => hrest a bs pass hn hp hserved
      | calling pass call =>
        dsimp only
        split
        · have hstack := h.record (.passing { pass with served := pass.served + 1 })
            (fun h => nomatch h) [call.record]
          refine .beside rfl ⟨?_, hstack, hgo⟩
          dsimp only [endCall]
          rw [hw, h.context]
          rfl
        · next command rest hrest =>
          have hstack := h.put (.calling pass { call with rest }) (fun h => nomatch h)
          have hperform := perform_joint hw hgo hstack (some a.context) command
          rw [h.context]
          simpa only [h.context] using hperform

end Machine
end EventLoop
