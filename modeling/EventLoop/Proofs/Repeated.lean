import EventLoop.Proofs.Rested
import EventLoop.Proofs.Spinning

/-!
# A run that goes on is one that is made once, again and again

A run without flags makes the same calls as one that is made once and again for as long as the loop is
running and has anything linked, and leaves the same world behind. This is so although the one knows
from each pass the deadline of the next wait, and the other finds it anew by arming the timers: a
deadline that is out of date costs passes that call nobody.
-/
namespace EventLoop

namespace Clock

variable {c : Clock}

theorem Steady.elapse (h : c.Steady) (us : Nat) : (c.elapse us).Steady := by
  unfold Clock.elapse
  split
  · exact h
  · exact ⟨h.tick, h.frozen⟩

theorem Steady.beginWait (h : c.Steady) : c.beginWait.Steady := h.elapse _

end Clock

theorem World.Unwaited.steady {w w' : World} (h : w.Unwaited w') (hs : w.clock.Steady) :
    w'.clock.Steady :=
  ⟨(congrArg Settings.tick h.settings).trans hs.tick,
    (congrArg Settings.frozen h.settings).trans hs.frozen⟩

/-- At the top level a run is entered alike with all flags. -/
theorem World.perform_run {w : World} (hs : w.Sound) {id : Nat} {l : Loop}
    (hu : w.usable? none id = some l) (flags : RunFlags) :
    w.perform none (.run (some id) flags) =
      (w.putContext id (w.entering l).1, .entered id flags (w.entering l).2) := by
  have hidle : l.context.busy = false := by
    rw [← Bool.not_eq_true]
    exact fun hbusy => nomatch (World.usable?_eq_some hu).2 hbusy
  exact World.perform_run_idle hs hu hidle flags

namespace Machine

variable {m m' n : Machine} {id : Nat} {k : Headway}

/-- No step changes how a wait moves the clock. -/
theorem step_steady (h : m.world.clock.Steady) : m.step.world.clock.Steady := by
  unfold step
  cases hm : m.stack with
  | nil => exact h
  | cons a below =>
    dsimp only
    cases hl : m.world.loop? a.context with
    | none => exact h
    | some l =>
      dsimp only
      cases hp : a.phase with
      | waiting =>
        dsimp only
        cases hgoes : l.context.running && !l.context.roster.isEmpty with
        | false =>
          rw [stepWaiting_over m a below hgoes]
          exact (leave_unwaited (.refl _) a below l).steady h
        | true =>
          rw [stepWaiting_eq m a below hgoes]
          dsimp only
          unfold afterWait
          split
          · exact h.beginWait
          · exact (enterPass_unwaited _ _ _ _ _).steady (h.beginWait.elapse _)
          · exact (enterPass_unwaited _ _ _ _ _).steady h.beginWait
      | passing pass => exact (stepPassing_unwaited m a below l pass).steady h
      | calling pass call =>
        dsimp only
        split
        · exact h
        · exact (perform_unwaited _ _ _).steady h

/-! ### Running to the end -/

/-- Small steps bring a step of the scenario to its end, or abort it. -/
inductive Finishes : Machine → Machine → Prop
  | done {m : Machine} : m.isDone = true → Finishes m m
  | step {m m' : Machine} : m.isDone = false → Finishes m.step m' → Finishes m m'

/-- A run that is made once comes to its end, and another one is begun for as long as the loop goes
on. These are the calls of all of them, and the machine at the end. -/
inductive RunsOver (id : Nat) : Machine → List (CallRecord Answer) → Machine → Prop
  | last {m m' : Machine} {calls : List (CallRecord Answer)} : m.Finishes m' → m'.abort = none →
      m'.answer = some (.ran none calls) → m'.world.goesOn id = false → RunsOver id m calls m'
  | again {m m₁ m' : Machine} {calls calls' : List (CallRecord Answer)} : m.Finishes m₁ →
      m₁.abort = none → m₁.answer = some (.ran none calls) → m₁.world.goesOn id = true →
      RunsOver id (m₁.submit (.run (some id) (Mask.only .once))) calls' m' →
      RunsOver id m (calls ++ calls') m'

theorem isDone_eq_false : m.isDone = false ↔ m.stack ≠ [] ∧ m.abort = none := by
  rw [isDone, Bool.or_eq_false_iff, List.isEmpty_eq_false_iff, Option.isSome_eq_false_iff,
    Option.isNone_iff_eq_none]

theorem isDone_of_nil (h : m.stack = []) : m.isDone = true := by
  rw [isDone, h]
  rfl

theorem Finishes.eq_of_done (h : m.Finishes m') (hdone : m.isDone = true) : m' = m := by
  cases h with
  | done => rfl
  | step hgo => exact nomatch hdone.symm.trans hgo

theorem Finishes.next (h : m.Finishes m') (hgo : m.isDone = false) : m.step.Finishes m' := by
  cases h with
  | done hdone => exact nomatch hdone.symm.trans hgo
  | step _ h => exact h

theorem Finishes.going (h : m.Finishes m') (hgo : m'.abort = none) : m.abort = none := by
  cases h with
  | done => exact hgo
  | step hgo => exact (isDone_eq_false.mp hgo).2

theorem Finishes.unique {m₁ m₂ : Machine} (h₁ : m.Finishes m₁) (h₂ : m.Finishes m₂) : m₁ = m₂ := by
  induction h₁ with
  | done hdone => exact (h₂.eq_of_done hdone).symm
  | step hgo _ ih => exact ih (h₂.next hgo)

theorem finishes_of_driveToWait {steps : Nat} (h : (driveToWait steps m).Finishes m') :
    m.Finishes m' := by
  induction steps generalizing m with
  | zero => exact h
  | succ steps ih =>
    unfold driveToWait at h
    split at h
    · exact h
    · next hgo =>
      rw [Bool.not_eq_true, Bool.or_eq_false_iff] at hgo
      exact .step hgo.1 (ih h)

theorem drive_of_done (hdone : (driveToWait m.cost m).isDone = true) (waits : Nat) :
    m.drive waits = driveToWait m.cost m := by
  cases waits <;> exact if_pos hdone

/-- What driving a machine comes to, unless it waits too often or aborts. -/
theorem finishes_drive {waits : Nat} (habort : (m.drive waits).abort = none) :
    m.Finishes (m.drive waits) := by
  induction waits generalizing m with
  | zero =>
    cases hdone : (driveToWait m.cost m).isDone with
    | true => exact drive_of_done hdone 0 ▸ finishes_of_driveToWait (.done hdone)
    | false =>
      have hlimit : m.drive 0 = { driveToWait m.cost m with abort := some .runLimit } :=
        if_neg (by simp [hdone])
      rw [hlimit] at habort
      contradiction
  | succ waits ih =>
    cases hdone : (driveToWait m.cost m).isDone with
    | true => exact drive_of_done hdone (waits + 1) ▸ finishes_of_driveToWait (.done hdone)
    | false =>
      have hnext : m.drive (waits + 1) = (driveToWait m.cost m).step.drive waits :=
        if_neg (by simp [hdone])
      rw [hnext] at habort ⊢
      exact finishes_of_driveToWait (.step hdone (ih habort))

theorem RunsOver.step {calls : List (CallRecord Answer)} (hgo : m.isDone = false)
    (h : RunsOver id m.step calls m') : RunsOver id m calls m' := by
  cases h with
  | last hfin => exact .last (.step hgo hfin) ‹_› ‹_› ‹_›
  | again hfin => exact .again (.step hgo hfin) ‹_› ‹_› ‹_› ‹_›

/-! ### Where a run is left and begun again -/

theorem submit_run (hs : m.world.Sound) {l : Loop} (hu : m.world.usable? none id = some l)
    (flags : RunFlags) : m.submit (.run (some id) flags) =
      { m with
        world := ({ m.world with waits := 0 } : World).putContext id (m.world.entering l).1
        stack := ⟨id, flags, (m.world.entering l).2, .waiting, []⟩ :: m.stack
        answer := none } := by
  have hperform := World.perform_run (w := { m.world with waits := 0 })
    (hs.act (.quiet rfl rfl rfl (.of_eq rfl))) hu flags
  unfold submit perform
  dsimp only
  rw [hperform]
  rfl

/-- Without a loop to run a run is refused. -/
theorem submit_run_refused (hstack : m.stack = []) (hu : m.world.usable? none id = none)
    (flags : RunFlags) : (m.submit (.run (some id) flags)).stack = [] ∧
      (m.submit (.run (some id) flags)).answer = some (.refused .noContext) := by
  let w : World := { m.world with waits := 0 }
  have hu' : w.usable? none id = none := hu
  have hperform : w.perform none (.run (some id) flags) = (w, .answered (.refused .noContext)) :=
    World.withLoop_of_unusable _ hu'
  unfold submit perform
  dsimp only
  rw [hperform, hstack]
  exact ⟨rfl, rfl⟩

namespace Paused

variable {w : World} {c : Context} {deadline : Option Nat} {calls : List (CallRecord Answer)}

theorem goesOn (h : m.Paused n id k w c deadline calls) :
    n.world.goesOn id = (c.running && !c.roster.isEmpty) := by
  have hself := World.context?_put_self h.context { c with busy := false }
  rw [h.worlds.2, World.settle_goesOn]
  exact (congrArg (Option.any _) hself :)

/-- With nothing more to wait for, the run that goes on is left as the other was. -/
theorem ends (h : m.Paused n id k w c deadline calls) (hover : n.world.goesOn id = false) :
    m.step.Ended n id k := by
  have hl := World.loop?_of_context? h.context
  have hl' : m.world.loop? id = _ := (congrArg (World.loop? · id) h.worlds.1).trans hl
  have hput := World.putLoop_of_poller (c := { c with busy := false }) hl' rfl
  rw [step_waiting h.runs.1 hl' rfl, stepWaiting_over _ _ _ (h.goesOn.symm.trans hover)]
  refine ⟨?_, ⟨rfl, h.runs.2⟩, h.going, ⟨calls, h.answer, rfl⟩, hover⟩
  change (m.world.putLoop id _).settle = _
  rw [h.worlds.2, ← World.settle_later]
  refine congrArg World.settle (hput.trans ?_)
  rw [h.worlds.1]
  rfl

/-- A run that is begun where the other was left finds everything as it was there. -/
theorem resumes (h : m.Paused n id k w c deadline calls) (hm : m.Reachable) (hn : n.Reachable)
    (hgoes : n.world.goesOn id = true)
    (hsource : ∀ c, n.world.context? id = some c → c.clock = .scenario)
    (hsteady : n.world.clock.Steady) :
    let b : Activation := ⟨id, Mask.only .once, c.earliest c.roster.toList none, .waiting, []⟩
    let k' : Headway := ⟨k.calls ++ calls, w.waits + k.waits, deadline⟩
    (n.submit (.run (some id) (Mask.only .once))).Poised id b c ∧
      m.world = (n.submit (.run (some id) (Mask.only .once))).world.later k'.waits ∧
      m.stack = [b.goingOn k'] := by
  intro b k'
  have hc : m.world.context? id = some c := by
    rw [h.worlds.1]
    exact h.context
  obtain ⟨hs, -, -⟩ := reachable_pass hm
  have hbusy : c.busy = true :=
    (hs.busy id c hc).mpr ⟨_, by rw [config, h.runs.1]; exact List.mem_cons_self, rfl⟩
  have hrun : c.running = true := by
    rw [h.goesOn] at hgoes
    exact (Bool.and_eq_true_iff.mp hgoes).1
  have hid := (hs.world.context id c hc).1
  have hrest : (w.putContext id { c with busy := false }).AtRest :=
    h.atRest.putContext_of_watchers h.context rfl
  have hworld : n.world = w.putContext id { c with busy := false } := h.worlds.2.trans hrest.settle
  have hc₀ : n.world.context? id = some { c with busy := false } := by
    rw [hworld]
    exact World.context?_put_self h.context _
  have hu : n.world.usable? none id =
      some ⟨{ c with busy := false }, c.poller.bind fun p => n.world.pollers[p]?⟩ := by
    rw [World.usable?, World.loop?_of_context? hc₀]
    rfl
  have hentering : n.world.entering ⟨{ c with busy := false },
      c.poller.bind fun p => n.world.pollers[p]?⟩ = (c, c.earliest c.roster.toList none) := by
    have hsame : ∀ busy running, c.busy = busy → c.running = running →
        { c with busy, running } = c := by
      rintro _ _ rfl rfl
      rfl
    rw [World.entering, hsame _ _ hbusy hrun, Context.armAll_of_armed (hm.armed hc) hrun]
  have hback : ({ n.world with waits := 0 } : World).putContext id c = { w with waits := 0 } := by
    rw [hworld]
    exact (World.putContext_putContext { w with waits := 0 } id _ c).trans
      (World.putContext_self h.context)
  have hsubmit : n.submit (.run (some id) (Mask.only .once)) =
      { n with world := { w with waits := 0 }, stack := [b], answer := none } := by
    rw [submit_run (reachable_pass hn).1.world hu, hentering, h.runs.2, hback]
  rw [hsubmit]
  refine ⟨⟨rfl, h.going.2, rfl, rfl, rfl, h.context, h.goesOn.symm.trans hgoes, rfl, ?_, ?_⟩,
    ?_, ?_⟩
  · exact hsource { c with busy := false } hc₀
  · have hclock : w.clock = n.world.clock := by
      rw [hworld]
      rfl
    exact hclock ▸ hsteady
  · rw [h.worlds.1]
    simp only [World.later, World.under, World.settings, k', Nat.zero_add]
  · rw [h.runs.1]
    simp only [Activation.goingOn, b, k', List.append_nil]

end Paused

/-! ### One run follows the other -/

/-- What holds wherever the run stands that is made once. -/
structure Tracked (n : Machine) (id : Nat) : Prop where
  reachable : n.Reachable
  rested : n.Rested
  steady : n.world.clock.Steady
  known : id < n.world.contexts.length
  source : ∀ c, n.world.context? id = some c → c.clock = .scenario

theorem Tracked.via {n' : Machine} (h : n.Tracked id) (hstep : n.Step n') (hr : n'.Rested)
    (hs : n'.world.clock.Steady) : n'.Tracked id := by
  obtain ⟨hknown, hsource⟩ := ((Config.inductive_clock id .scenario).step
    (reachable_pass h.reachable).1 ⟨h.known, h.source⟩ hstep).2
  exact ⟨h.reachable.step hstep, hr, hs, hknown, hsource⟩

theorem Tracked.step (h : n.Tracked id) (hne : n.stack ≠ []) (hgo : n.abort = none) :
    n.step.Tracked id :=
  h.via (.advanced hne hgo) (h.rested.step h.reachable) (step_steady h.steady)

theorem Tracked.submit (h : n.Tracked id) (hnil : n.stack = []) (hgo : n.abort = none)
    (command : Command) : (n.submit command).Tracked id := by
  refine h.via (.submitted command hnil hgo) (perform_rested _ _ _) ?_
  have hsame : n.world.clock.Steady := h.steady
  exact (perform_unwaited { n with world := { n.world with waits := 0 }, answer := none } none
    command).steady hsame

/-- Where a run that goes on may stand while the other is made once. -/
inductive Follows (m n : Machine) (id : Nat) (k : Headway) : Prop
  | beside : m.Beside n id k → Follows m n id k
  /-- It waits for another deadline than the other. -/
  | late {b : Activation} {c : Context} : n.Poised id b c → m.world = n.world.later k.waits →
      m.stack = [b.goingOn k] → m.abort = none → Follows m n id k
  | spins {b : Activation} {c : Context} {phase : Phase} {clock : Clock} {cursor : Option Nat} :
      n.Poised id b c → m.Spins n id k b c phase clock cursor → Follows m n id k

namespace Follows

theorem going (h : m.Follows n id k) :
    (m.stack ≠ [] ∧ m.abort = none) ∧ n.stack ≠ [] ∧ n.abort = none := by
  cases h with
  | beside h =>
    refine ⟨⟨fun hnil => ?_, h.going.1⟩, h.stack.ne_nil, h.going.2⟩
    have hs := h.stack
    rw [hnil] at hs
    cases hs
  | late hp _ hs hgo => exact ⟨⟨by simp [hs], hgo⟩, by simp [hp.stack], hp.going⟩
  | spins hp h => exact ⟨⟨by simp [h.stack], h.going⟩, by simp [hp.stack], hp.going⟩

/-- A step of the run that goes on is one of both, or the other has still to wait. -/
theorem step (h : m.Follows n id k) (hm : m.Reachable) (hn : n.Tracked id)
    (habort : m.step.abort = none) :
    m.step.Joint n.step id k ∨ ∃ k', k'.calls = k.calls ∧ m.step.Follows n id k' := by
  cases h with
  | beside h =>
    refine Or.inl (h.step (fun a below pass hs hp hserved => ?_) habort)
    refine hn.rested a (by rw [hs]; rfl) ?_
    rw [hp]
    exact decide_eq_true hserved
  | late hp hw hs hgo =>
    rcases hp.step hm hw hs hgo habort with h | ⟨k', phase, clock, cursor, hk, h⟩
    · exact Or.inl h
    · exact Or.inr ⟨k', hk, .spins hp h⟩
  | @spins b c phase clock cursor hp h =>
    rcases h.known with ⟨rfl, -⟩ | ⟨deadline, rfl, -⟩
    · exact Or.inl (.beside rfl (h.wakes hp habort))
    · obtain ⟨k', phase, cursor, hk, h⟩ := h.turn hm hp
      exact Or.inr ⟨k', hk, .spins hp h⟩

end Follows

/-- If the run that goes on comes to its end, then so do those that are made once, with the same calls
and the same world. -/
theorem Finishes.runsOver {all : List (CallRecord Answer)} (hfin : m.Finishes m')
    (hgo : m'.abort = none) (hanswer : m'.answer = some (.ran none all)) :
    m.Reachable → ∀ {n k}, n.Tracked id → m.Follows n id k →
      ∃ calls n' waits, RunsOver id n calls n' ∧ all = k.calls ++ calls ∧
        m'.world = n'.world.later waits := by
  induction hfin with
  | done hdone =>
    intro _ n k _ h
    exact nomatch hdone.symm.trans (isDone_eq_false.mpr h.going.1)
  | @step m m' hnotDone hfin ih =>
    intro hm n k hn h
    obtain ⟨⟨hne, hgo₁⟩, hne', hgo'⟩ := h.going
    have hm₁ := hm.step (.advanced hne hgo₁)
    have hnotDone' := isDone_eq_false.mpr ⟨hne', hgo'⟩
    have hended : ∀ {m₁ : Machine}, m₁.Finishes m' → m₁.Ended n.step id k →
        ∃ calls n' waits, RunsOver id n calls n' ∧ all = k.calls ++ calls ∧
          m'.world = n'.world.later waits := by
      intro m₁ hfin h
      obtain rfl := hfin.eq_of_done (isDone_of_nil h.runs.1)
      obtain ⟨calls, hn', hm'⟩ := h.answers
      obtain ⟨-, rfl⟩ := Answer.ran.inj (Option.some.inj (hanswer.symm.trans hm'))
      exact ⟨calls, n.step, k.waits, .last (.step hnotDone' (.done (isDone_of_nil h.runs.2)))
        h.going.2 hn' h.ceased, rfl, h.world⟩
    rcases h.step hm hn (hfin.going hgo) with hjoint | ⟨k', hk, h'⟩
    · have hn₁ := hn.step hne' hgo'
      cases hjoint with
      | @beside k' hk h' =>
        obtain ⟨calls, n', waits, hruns, hall, hworld⟩ := ih hgo hanswer hm₁ hn₁ (.beside h')
        exact ⟨calls, n', waits, hruns.step hnotDone', hk ▸ hall, hworld⟩
      | ended h' => exact hended hfin h'
      | @paused w c deadline calls h' =>
        have hnotDone₁ : m.step.isDone = false :=
          isDone_eq_false.mpr ⟨by simp [h'.runs.1], h'.going.1⟩
        cases hgoes : n.step.world.goesOn id with
        | false => exact hended (hfin.next hnotDone₁) (h'.ends hgoes)
        | true =>
          obtain ⟨hp, hw, hs⟩ := h'.resumes hm₁ hn₁.reachable hgoes hn₁.source
            hn₁.steady
          obtain ⟨calls', n', waits, hruns, hall, hworld⟩ := ih hgo hanswer hm₁
            (hn₁.submit h'.runs.2 h'.going.2 _) (.late hp hw hs h'.going.1)
          exact ⟨calls ++ calls', n', waits, .again (.step hnotDone' (.done
            (isDone_of_nil h'.runs.2))) h'.going.2 h'.answer hgoes hruns,
            hall.trans (List.append_assoc _ _ _), hworld⟩
    · obtain ⟨calls, n', waits, hruns, hall, hworld⟩ := ih hgo hanswer hm₁ hn h'
      exact ⟨calls, n', waits, hruns, hk ▸ hall, hworld⟩

end Machine

open Machine in
/-- Whenever a run without flags comes to its end, so do runs that are made once, begun again for as
long as the loop is running and has anything linked: they make the same calls, and leave the same
world behind but for the count of waits. The clock is one that waits move by their timeouts only. -/
theorem run_eq_repeated {m m' : Machine} {id : Nat} {calls : List (CallRecord Answer)}
    (h : m.Reachable) (hstack : m.stack = []) (hgo : m.abort = none)
    (hsource : ∀ c, m.world.context? id = some c → c.clock = .scenario)
    (hsteady : m.world.clock.Steady) (hfin : (m.submit (.run (some id) ∅)).Finishes m')
    (hend : m'.abort = none) (hanswer : m'.answer = some (.ran none calls)) :
    ∃ n', RunsOver id (m.submit (.run (some id) (Mask.only .once))) calls n' ∧
      n'.world = { m'.world with waits := n'.world.waits } := by
  have hs := (reachable_pass h).1.world
  have hsubmit := fun flags => h.step (.submitted (.run (some id) flags) hstack hgo)
  cases hu : m.world.usable? none id with
  | none =>
    obtain ⟨hnil, hrefused⟩ := submit_run_refused hstack hu ∅
    obtain rfl := hfin.eq_of_done (isDone_of_nil hnil)
    exact nomatch hrefused.symm.trans hanswer
  | some l =>
    obtain ⟨hl, -⟩ := World.usable?_eq_some hu
    have htracked : m.Tracked id := ⟨h, fun a ha => by simp [hstack] at ha, hsteady,
      World.context?_lt (World.loop?_eq_some.mp hl).1, hsource⟩
    have hbeside : (m.submit (.run (some id) ∅)).Beside
        (m.submit (.run (some id) (Mask.only .once))) id ⟨[], 0, (m.world.entering l).2⟩ := by
      rw [submit_run hs hu, submit_run hs hu, hstack]
      exact ⟨rfl, .outermost (a := ⟨id, Mask.only .once, _, .waiting, []⟩) rfl rfl fun _ => rfl,
        hgo, hgo⟩
    obtain ⟨calls', n', waits, hruns, rfl, hworld⟩ := hfin.runsOver hend hanswer (hsubmit ∅)
      (htracked.submit hstack hgo _) (.beside hbeside)
    refine ⟨n', hruns, ?_⟩
    rw [hworld]
    rfl

/-- A loop with three timers, of which the one that is due first stops the one that is due next. -/
def Machine.outdated : Machine :=
  ((((Machine.create (World.create ⟨1000000, 0, false⟩ .standIn)).submit
    (.newContext .none .scenario)).submit (.create none "late" (.timer 9 0) ⟨[], false⟩)).submit
    (.create none "early" (.timer 1 0) ⟨[[.watcher none "stopped" .timerStop]], false⟩)).submit
    (.create none "stopped" (.timer 5 0) ⟨[], false⟩)

/-- The calls of a run that has come to its end without an error. -/
def Answer.calls? : Answer → Option (List (CallRecord Answer))
  | .ran none calls => some calls
  | _ => none

theorem Answer.eq_ran_of_calls? {answer : Answer} {calls : List (CallRecord Answer)}
    (h : answer.calls? = some calls) : answer = .ran none calls := by
  unfold calls? at h
  split at h
  · rw [Option.some.inj h]
  · contradiction

/-- The run waits a fourth time for the deadline of the timer that was stopped. Two runs that are made
once call the same timers at the same times. -/
theorem run_eq_repeated_outdated :
    ((Machine.outdated.submit (.run (some 0) ∅)).drive 8).world.waits = 4 ∧
    ∃ calls n', Machine.RunsOver 0 (Machine.outdated.submit (.run (some 0) (Mask.only .once)))
        calls n' ∧
      calls.map (fun c => (c.label, c.time)) = [("early", 1002000), ("late", 1010000)] ∧
      n'.world.clock.time = 1010000 := by
  have hreach : Machine.outdated.Reachable :=
    ((((Machine.Reachable.start _ _).submit _ (by decide +kernel) (by decide +kernel)).submit _
      (by decide +kernel) (by decide +kernel)).submit _ (by decide +kernel)
      (by decide +kernel)).submit _ (by decide +kernel) (by decide +kernel)
  have hsource : ∀ c, Machine.outdated.world.context? 0 = some c → c.clock = .scenario := by
    have hall : (Machine.outdated.world.context? 0).all (fun c => c.clock = .scenario) = true := by
      decide +kernel
    intro c hc
    rw [hc] at hall
    exact of_decide_eq_true hall
  have hwaits : ((Machine.outdated.submit (.run (some 0) ∅)).drive 8).world.waits = 4 := by
    decide +kernel
  have htime : ((Machine.outdated.submit (.run (some 0) ∅)).drive 8).world.clock.time = 1010000 := by
    decide +kernel
  have habort : ((Machine.outdated.submit (.run (some 0) ∅)).drive 8).abort = none := by decide +kernel
  have hcalls : (((Machine.outdated.submit (.run (some 0) ∅)).drive 8).answer.bind Answer.calls?).map
      (fun calls => calls.map fun c => (c.label, c.time)) =
        some [("early", 1002000), ("late", 1010000)] := by
    decide +kernel
  have hfin := Machine.finishes_drive habort
  revert hwaits htime habort hcalls hfin
  generalize ((Machine.outdated.submit (.run (some 0) ∅)).drive 8) = m'
  intro hwaits htime habort hcalls hfin
  obtain ⟨calls, hcalls, hseen⟩ := Option.map_eq_some_iff.mp hcalls
  obtain ⟨answer, hanswer, hran⟩ := Option.bind_eq_some_iff.mp hcalls
  obtain rfl := Answer.eq_ran_of_calls? hran
  obtain ⟨n', hruns, hworld⟩ := run_eq_repeated hreach (by decide +kernel) (by decide +kernel)
    hsource ⟨by decide +kernel, by decide +kernel⟩ hfin habort hanswer
  exact ⟨hwaits, calls, n', hruns, hseen, (congrArg (fun w : World => w.clock.time) hworld).trans
    htime⟩

end EventLoop
