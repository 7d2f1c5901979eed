import EventLoop.Proofs.Beside
import EventLoop.Proofs.Idle
import EventLoop.Proofs.Termination

/-!
# Waits for a deadline that is out of date

The deadline that a run that goes on knows after a pass is that of a timer which may have been stopped
or set anew since. It is not later than any deadline, so that at worst the wait is too short: the
pass after it finds nothing to call, comes to know the deadline that arming the timers would have
found, and the next wait ends when one wait for that deadline would have ended.
-/
namespace EventLoop

/-! ### Clocks that only waits move -/

namespace Clock

variable {c : Clock} {x y d : Nat}

/-- A wait moves the clock by its timeout and nothing else. -/
structure Steady (c : Clock) : Prop where
  tick : c.tick = 0
  frozen : c.frozen = false

/-- When a timer with this deadline is due. -/
def due (d : Nat) : Nat := satMul (satAdd d 1) 1000

theorem timeUntilDue_eq (now d : Nat) : timeUntilDue now (some d) = some (due d - now) := rfl

theorem due_le (d : Nat) : due d ≤ counterMax ∧ due d ≤ (d + 1) * 1000 := by
  simp only [due, satMul, satAdd]
  omega

theorem due_mono (h : y ≤ x) : due y ≤ due x := by
  simp only [due, satMul, satAdd]
  omega

/-- The clock after a wait until a timer with this deadline is due. -/
def till (c : Clock) (d : Nat) : Clock := c.beginWait.elapse (due d - c.time)

theorem Steady.till_eq (h : c.Steady) (d : Nat) :
    c.till d = { c with time := max (min c.time counterMax) (due d) } := by
  have htime : satAdd (satAdd c.time 0) (due d - c.time) =
      max (min c.time counterMax) (due d) := by
    have hle := (due_le d).1
    simp only [satAdd]
    omega
  rw [← htime]
  simp only [till, beginWait, elapse, h.frozen, h.tick, advance]
  rfl

theorem Steady.till (h : c.Steady) (d : Nat) : (c.till d).Steady := by
  rw [h.till_eq]
  exact ⟨h.tick, h.frozen⟩

/-- A shorter wait on the way makes no difference. -/
theorem Steady.till_till (h : c.Steady) (hle : y ≤ x) : (c.till y).till x = c.till x := by
  have hmono := due_mono hle
  have hmax := (due_le x).1
  rw [(h.till y).till_eq, h.till_eq, h.till_eq, Clock.mk.injEq]
  refine ⟨?_, rfl, rfl⟩
  dsimp only
  omega

/-- If something is due after the shorter wait, then the longer one is no longer. -/
theorem Steady.till_due (h : c.Steady) (hyx : y ≤ x) (hxd : x ≤ d)
    (hdue : d < toMillis (c.till y).time) :
    timeUntilDue c.time (some y) = timeUntilDue c.time (some x) := by
  rw [h.till_eq, toMillis] at hdue
  dsimp only at hdue
  rw [timeUntilDue_eq, timeUntilDue_eq]
  rcases Nat.lt_or_ge (min c.time counterMax) (due y) with hlt | hge
  · -- the time is when a timer with the earlier deadline is due
    have hle := (due_le y).2
    obtain rfl : y = x := by omega
    rfl
  · -- no wait is needed
    have hle := (due_le x).2
    have hmono := due_mono hyx
    have hy : due y - c.time = 0 := by omega
    have hx : due x - c.time = 0 := by omega
    rw [hy, hx]

end Clock

/-! ### Passes that call nobody -/

/-- The context with its pass at some watcher. -/
def Context.withCursor (c : Context) (cursor : Option Nat) : Context :=
  { c with roster := { c.roster with cursor } }

theorem Context.atTurn_withCursor (c : Context) (cursor : Option Nat) :
    ∃ cursor', (c.withCursor cursor).atTurn = c.withCursor cursor' := by
  cases cursor with
  | none => exact ⟨none, rfl⟩
  | some i => exact ⟨_, rfl⟩

namespace Machine

/-- A run that is made once has been entered, and is about to wait: it knows the earliest deadline of
all timers. -/
structure Poised (n : Machine) (id : Nat) (b : Activation) (c : Context) : Prop where
  stack : n.stack = [b]
  going : n.abort = none
  waiting : b.phase = .waiting
  flags : b.flags = Mask.only .once
  owner : b.context = id
  context : n.world.context? id = some c
  goes : (c.running && !c.roster.isEmpty) = true
  known : b.deadline = c.earliest c.roster.toList none
  source : c.clock = .scenario
  steady : n.world.clock.Steady

/-- Meanwhile a run that goes on makes passes that call nobody: its clock is ahead of that of the
other, but not beyond the time until which that is about to wait. -/
structure Spins (m n : Machine) (id : Nat) (k : Headway) (b : Activation) (c : Context)
    (phase : Phase) (clock : Clock) (cursor : Option Nat) : Prop where
  quiet : c.wakeups.Quiet
  world : m.world = (({ n.world with clock } : World).later k.waits).putContext id
    (c.withCursor cursor)
  stack : m.stack = [{ b.goingOn k with phase }]
  going : m.abort = none
  idle : ∀ i d, c.slotDeadline i = some d → ¬ d < toMillis clock.time
  steady : clock.Steady
  till : ∀ d, b.deadline = some d → clock.till d = n.world.clock.till d
  known : (phase = .waiting ∧ k.deadline = b.deadline) ∨
    ∃ deadline, phase = .passing ⟨∅, 0, deadline⟩ ∧
      c.earliest (c.withCursor cursor).roster.remaining deadline = b.deadline

variable {m n : Machine} {id : Nat} {k : Headway} {b : Activation} {c : Context} {phase : Phase}
  {clock : Clock} {cursor : Option Nat}

/-- A wait after the clock of a world has moved and a context been replaced, which is replaced
again. -/
theorem waited_put {c₁ c₂ : Context} {waits : Nat}
    (h : m.world = (({ n.world with clock } : World).later waits).putContext id c₁)
    (clock' : Clock) :
    (m.waited clock').world.putContext id c₂ =
      ((n.waited clock').world.putContext id c₂).later waits := by
  unfold waited
  rw [h]
  simp only [World.putContext, World.later, World.under, World.settings, List.set_set,
    Nat.add_right_comm]

theorem waitTimeout_of_blocking {w : World} {a : Activation} {c : Context}
    (h : a.flags.has .nonblock = false) : waitTimeout w a c = timeUntilDue (w.now c) a.deadline :=
  if_neg (by simp [h])

/-- A wait that nothing ends early begins a pass when the deadline is due. -/
theorem stepWaiting_elapsed {a : Activation} {l : Loop} {d : Nat} (below : List Activation)
    (hgoes : (l.context.running && !l.context.roster.isEmpty) = true)
    (hquiet : l.context.wakeups.Quiet) (hblock : a.flags.has .nonblock = false)
    (hsource : l.context.clock = .scenario) (hd : a.deadline = some d) :
    m.stepWaiting a below l = { m with
      world := (m.waited (m.world.clock.till d)).world.putContext a.context
        (l.context.withCursor l.context.roster.head)
      stack := { a with phase := .passing ⟨∅, 0, none⟩ } :: below } := by
  have htimeout : waitTimeout m.world a l.context =
      some (Clock.due d - m.world.clock.time) := by
    rw [waitTimeout_of_blocking hblock, World.now, hsource, hd]
    rfl
  rw [stepWaiting_eq m a below hgoes, htimeout, hquiet.wait]
  rfl

namespace Spins

theorem loop (h : m.Spins n id k b c phase clock cursor) (hp : n.Poised id b c) :
    ∃ poller, m.world.loop? id = some ⟨c.withCursor cursor, poller⟩ := by
  refine ⟨_, World.loop?_of_context? ?_⟩
  rw [h.world]
  exact World.context?_put_self hp.context _

theorem now (h : m.Spins n id k b c phase clock cursor) (hp : n.Poised id b c) :
    m.world.now (c.withCursor cursor) = clock.time := by
  rw [h.world]
  change Clock.readOn _ _ c.clock = _
  rw [hp.source]
  rfl

/-- A turn takes such a pass on to the next watcher, and the last one to the next wait. -/
theorem turn {deadline : Option Nat} (hm : m.Reachable) (hp : n.Poised id b c)
    (h : m.Spins n id k b c (.passing ⟨∅, 0, deadline⟩) clock cursor) :
    ∃ k' phase cursor, k'.calls = k.calls ∧ m.step.Spins n id k' b c phase clock cursor := by
  have howner := hp.owner
  subst howner
  obtain ⟨poller, hl⟩ := h.loop hp
  have hs := ((reachable_pass hm).1.world.loop hl).2
  have hrun : c.running = true := (Bool.and_eq_true_iff.mp hp.goes).1
  have hnext := hs.context.roster.next_eq
  have hrest := hs.context.roster.next.2.1
  rw [step_passing h.stack hl rfl]
  have hearliest : c.earliest (c.withCursor cursor).roster.remaining deadline = b.deadline := by
    rcases h.known with hwaiting | ⟨deadline', hphase, hearliest⟩
    · exact nomatch hwaiting.1
    · obtain rfl : deadline = deadline' := congrArg Pass.deadline (Phase.passing.inj hphase)
      exact hearliest
  cases hi : (c.withCursor cursor).roster.next.2 with
  | none =>
    rw [stepPassing_last _ _ _ _ _ hi, endPass_goesOn _ _ _ _ rfl]
    have hnil : (c.withCursor cursor).roster.remaining = [] :=
      List.head?_eq_none_iff.mp (hnext.symm.trans hi)
    rw [hnil] at hearliest
    exact ⟨{ k with deadline }, .waiting, cursor, rfl, h.quiet, h.world, rfl, h.going, h.idle,
      h.steady, h.till, Or.inl ⟨rfl, hearliest⟩⟩
  | some i =>
    have hcons : (c.withCursor cursor).roster.remaining =
        i :: (c.withCursor cursor).roster.next.1.remaining := by
      rw [hrest]
      exact (List.cons_head?_tail (hnext.symm.trans hi)).symm
    have hcall : ((c.withCursor cursor).atTurn.visit clock.time ∅ i).call = none :=
      Context.visit_uncalled hs rfl (h.idle i)
    have hvisit := Context.visit_of_uncalled (c := (c.withCursor cursor).atTurn) hs
      (hm.armed (World.loop?_eq_some.mp hl).1) hrun rfl hcall
    rw [stepPassing_turn _ _ _ _ _ hi hrun, h.now hp, hvisit]
    obtain ⟨cursor', hcursor⟩ := c.atTurn_withCursor cursor
    refine ⟨k, _, cursor', rfl, h.quiet, ?_, rfl, h.going, h.idle, h.steady, h.till,
      Or.inr ⟨_, rfl, ?_⟩⟩
    · change m.world.putContext b.context (c.withCursor cursor).atTurn = _
      rw [h.world, World.putContext_putContext, hcursor]
    · rw [← hearliest, hcons, ← hcursor]
      rfl

/-- The next wait ends when the wait of the other run does. -/
theorem wakes (hp : n.Poised id b c) (h : m.Spins n id k b c .waiting clock cursor)
    (habort : m.step.abort = none) : m.step.Beside n.step id k := by
  have howner := hp.owner
  subst howner
  obtain ⟨poller, hl⟩ := h.loop hp
  have hdeadline : k.deadline = b.deadline := by
    rcases h.known with ⟨-, hdeadline⟩ | ⟨_, hphase, -⟩
    · exact hdeadline
    · exact nomatch hphase
  rw [step_waiting h.stack hl rfl] at habort ⊢
  have hforever := stepWaiting_waits hp.goes habort
  have hblock : ({ b.goingOn k with phase := .waiting } : Activation).flags.has .nonblock = false :=
    Mask.has_empty RunFlag.nonblock
  rw [waitTimeout_of_blocking hblock] at hforever
  cases hd : b.deadline with
  | none =>
    change (c.wakeups.wait _ (timeUntilDue _ k.deadline)).2 ≠ _ at hforever
    rw [hdeadline, hd, h.quiet.wait] at hforever
    exact absurd rfl hforever
  | some d =>
    have hl' := World.loop?_of_context? hp.context
    have hblock' : b.flags.has .nonblock = false := by
      rw [hp.flags]
      decide
    rw [stepWaiting_elapsed (l := ⟨c.withCursor cursor, poller⟩) [] hp.goes h.quiet hblock
        hp.source (hdeadline.trans hd),
      step_waiting hp.stack hl' hp.waiting,
      stepWaiting_elapsed (l := ⟨c, _⟩) [] hp.goes h.quiet hblock' hp.source hd]
    refine ⟨?_, ?_, h.going, hp.going⟩
    · have hclock : m.world.clock = clock := by
        rw [h.world]
        rfl
      rw [hclock, h.till d hd]
      exact waited_put h.world _
    · exact .outermost (a := { b with phase := .passing ⟨∅, 0, none⟩ }) rfl hp.flags
        fun h => nomatch h

end Spins

/-- While a run is about to wait and nothing was signalled, no deadline is earlier than the one it
knows. -/
theorem Reachable.notLater {a : Activation} {below : List Activation} (h : m.Reachable)
    (hm : m.stack = a :: below) (hp : a.phase = .waiting) (hc : m.world.context? a.context = some c)
    (hquiet : c.wakeups.Quiet) {i d : Nat} (hd : c.slotDeadline i = some d) :
    NotLater a.deadline d := by
  obtain ⟨-, hq⟩ := stageInvariant_watchful.inductive.reachable (fun _ _ id c _ hc => nomatch hc) h
  have hstands := Config.standsAt_of_mem (hm ▸ List.mem_cons_self : a ∈ m.stack)
  rw [Activation.standing, hp] at hstands
  exact (hq a.context c _ hc hstands).2.notLater (hquiet.has .timer) hd

namespace Poised

/-- The deadline that the run knows is that of some timer. -/
theorem attained (hp : n.Poised id b c) {x : Nat} (hx : b.deadline = some x) :
    ∃ i, c.slotDeadline i = some x := by
  rcases Context.earliest_attained _ _ (hp.known.symm.trans hx) with hnone | ⟨i, -, hd⟩
  · contradiction
  · exact ⟨i, hd⟩

/-- If a timer is due when a wait for no later deadline ends, then the wait of the run ends then. -/
theorem timeUntilDue_eq (hp : n.Poised id b c) (hs : c.Sound) {y i d : Nat}
    (hle : ∀ i d, c.slotDeadline i = some d → y ≤ d) (hd : c.slotDeadline i = some d)
    (hdue : d < toMillis (n.world.clock.till y).time) :
    timeUntilDue n.world.clock.time (some y) = timeUntilDue n.world.clock.time b.deadline := by
  obtain ⟨x, hx, hxd⟩ := Context.notLater_earliest (c := c) c.roster.toList none
    (Or.inr ⟨i, hs.mem_of_deadline hd, hd⟩)
  rw [← hp.known] at hx
  obtain ⟨j, hj⟩ := hp.attained hx
  rw [hx]
  exact hp.steady.till_due (hle j x hj) hxd hdue

/-- If no timer is due when that wait ends, then the pass after it calls nobody. -/
theorem spins (hp : n.Poised id b c) (hs : c.Sound) (hw : m.world = n.world.later k.waits)
    (hgo : m.abort = none) (hquiet : c.wakeups.Quiet) {y : Nat}
    (hle : ∀ i d, c.slotDeadline i = some d → y ≤ d)
    (hidle : ∀ i d, c.slotDeadline i = some d → ¬ d < toMillis (n.world.clock.till y).time) :
    Spins { m with
        world := (m.waited (n.world.clock.till y)).world.putContext id (c.withCursor c.roster.head)
        stack := [{ b.goingOn k with phase := .passing ⟨∅, 0, none⟩ }] }
      n id { k with waits := k.waits + 1 } b c (.passing ⟨∅, 0, none⟩) (n.world.clock.till y)
      c.roster.head := by
  refine ⟨hquiet, ?_, rfl, hgo, hidle, hp.steady.till y, fun x hx => ?_, Or.inr ⟨none, rfl, ?_⟩⟩
  · unfold waited
    rw [hw]
    rfl
  · obtain ⟨i, hi⟩ := hp.attained hx
    exact hp.steady.till_till (hle i x hi)
  · rw [hp.known]
    exact congrArg (c.earliest · none) hs.roster.rewind.2.1

/-- A run that goes on waits for a deadline that may be out of date. Both runs go on from there, or
the first comes to make passes that call nobody. -/
theorem step (hp : n.Poised id b c) (hm : m.Reachable) (hw : m.world = n.world.later k.waits)
    (hstack : m.stack = [b.goingOn k]) (hgo : m.abort = none) (habort : m.step.abort = none) :
    m.step.Joint n.step id k ∨ ∃ k' phase clock cursor, k'.calls = k.calls ∧
      m.step.Spins n id k' b c phase clock cursor := by
  have howner := hp.owner
  subst howner
  have hl := World.loop?_of_context? hp.context
  have hl' : m.world.loop? b.context = _ := (congrArg (World.loop? · b.context) hw).trans hl
  have hc' := (World.loop?_eq_some.mp hl').1
  have hs := ((reachable_pass hm).1.world.loop hl').2.context
  have habreast : Abreast b.context k (b.goingOn k) [] b [] := .outermost rfl hp.flags
  have hclock : m.world.clock = n.world.clock := by
    rw [hw]
    rfl
  have hblock : (b.goingOn k).flags.has .nonblock = false := Mask.has_empty RunFlag.nonblock
  have hblock' : b.flags.has .nonblock = false := habreast.nonblock.symm.trans hblock
  rw [step_waiting hstack hl' hp.waiting] at habort ⊢
  rw [step_waiting hp.stack hl hp.waiting]
  have hjoint := stepWaiting_joint hw ⟨hgo, hp.going⟩ habreast hl
  by_cases hquiet : c.wakeups.Quiet
  · have hforever := stepWaiting_waits hp.goes habort
    have htimeout : waitTimeout m.world (b.goingOn k) c =
        timeUntilDue n.world.clock.time k.deadline := by
      rw [waitTimeout_of_blocking hblock, World.now, hp.source, hclock]
      rfl
    have htimeout' : waitTimeout n.world b c = timeUntilDue n.world.clock.time b.deadline := by
      rw [waitTimeout_of_blocking hblock', World.now, hp.source]
      rfl
    obtain ⟨y, hy⟩ : ∃ y, k.deadline = some y := by
      refine Option.ne_none_iff_exists'.mp fun hnone => ?_
      dsimp only at hforever
      rw [htimeout, hnone, hquiet.wait] at hforever
      exact hforever rfl
    have hle : ∀ i d, c.slotDeadline i = some d → y ≤ d := by
      intro i d hd
      obtain ⟨y', hy', hle⟩ := hm.notLater hstack hp.waiting hc' hquiet hd
      exact Option.some.inj (hy.symm.trans hy') ▸ hle
    by_cases hdue : ∃ i d, c.slotDeadline i = some d ∧ d < toMillis (n.world.clock.till y).time
    · obtain ⟨i, d, hd, hlate⟩ := hdue
      refine Or.inl (hjoint ?_ habort)
      dsimp only
      rw [htimeout, htimeout', hy, hp.timeUntilDue_eq hs hle hd hlate]
    · rw [stepWaiting_elapsed (l := ⟨c, _⟩) [] hp.goes hquiet hblock hp.source hy, hclock]
      exact Or.inr ⟨{ k with waits := k.waits + 1 }, _, _, _, rfl,
        hp.spins hs hw hgo hquiet hle fun i d hd hlate => hdue ⟨i, d, hd, hlate⟩⟩
  · exact Or.inl (hjoint (Wakeups.wait_of_not_quiet hquiet _ _) habort)

end Poised
end Machine
end EventLoop
