import EventLoop.Machine.Drive
import EventLoop.Proofs.Perform
import EventLoop.Proofs.Steps

/-!
# What a small step can do

The system makes small steps, takes on the next step of the scenario once it is done, and meanwhile
other threads use their handles and pollers poll. Of all this an invariant sees the world and where
the runs stand. Every step is a course of acts, or enters a run, or is one action of the dispatcher
that calm acts may follow.
-/
namespace EventLoop

/-- The steps that other threads may make between any two small steps: those through handles, and
those on pollers, sockets and the clock. Each is made at one moment. -/
def Command.isForeign : Command → Bool
  | .timerHandle _ _ => true
  | .post _ => true
  | .requestExit _ => true
  | .isRunning _ => true
  | .newPoller _ => true
  | .poller _ _ => true
  | .socket _ => true
  | .setClock _ => true
  | .advance _ => true
  | _ => false

namespace Machine

/-- What may happen meanwhile, between any two small steps. A small step is not divided: a wait, the
look at the request to exit and the beginning of the pass are one moment, so are the visit of a
watcher and the beginning of its call, and so are the parts of a step that another thread makes. -/
inductive Meanwhile (m : Machine) : Machine → Prop
  /-- Another thread makes a step. -/
  | interfered (command : Command) : command.isForeign = true →
      Meanwhile m { m with world := (m.world.perform none command).1 }
  /-- A poll ends. It may have begun long before, with any entries that were listed then. -/
  | polled (p : Nat) (entries : List Watched) :
      (∀ q, m.world.pollers[p]? = some q → q.HasListed entries) →
      Meanwhile m { m with world := m.world.pollAmong p entries }

/-- One step of the whole system. -/
inductive Step (m : Machine) : Machine → Prop
  /-- The next step of the scenario is begun. -/
  | submitted (command : Command) : m.stack = [] → m.abort = none → Step m (m.submit command)
  | advanced : m.stack ≠ [] → m.abort = none → Step m m.step
  | meanwhile {m' : Machine} : m.Meanwhile m' → Step m m'

/-- What a scenario can come to, whatever its steps and whatever happens meanwhile. -/
inductive Reachable : Machine → Prop
  | start (clock : Clock) (host : Host) : Reachable (create (World.create clock host))
  | step {m m' : Machine} : Reachable m → m.Step m' → Reachable m'

theorem Reachable.submit {m : Machine} (h : m.Reachable) (command : Command)
    (hstack : m.stack.isEmpty = true) (habort : m.abort.isNone = true) :
    (m.submit command).Reachable :=
  h.step (.submitted command (List.isEmpty_iff.mp hstack) (Option.isNone_iff_eq_none.mp habort))

theorem going_of_not_done {m : Machine} (h : m.isDone = false) : m.stack ≠ [] ∧ m.abort = none := by
  simpa only [isDone, Bool.or_eq_false_iff, List.isEmpty_eq_false_iff, Option.isSome_eq_false_iff,
    Option.isNone_iff_eq_none] using h

theorem Reachable.advance {m : Machine} (h : m.Reachable) (hgo : m.isDone = false) :
    m.step.Reachable :=
  h.step (.advanced (going_of_not_done hgo).1 (going_of_not_done hgo).2)

theorem Reachable.driveToWait {m : Machine} (h : m.Reachable) (steps : Nat) :
    (driveToWait steps m).Reachable := by
  induction steps generalizing m with
  | zero => exact h
  | succ steps ih =>
    unfold Machine.driveToWait
    split
    · exact h
    · next hgo =>
      rw [Bool.not_eq_true, Bool.or_eq_false_iff] at hgo
      exact ih (h.advance hgo.1)

/-- Driving a step of a scenario comes through reachable states only, until it waits too often. -/
theorem Reachable.drive {m : Machine} (h : m.Reachable) (waits : Nat) :
    ∃ m' : Machine, m'.Reachable ∧
      (m.drive waits = m' ∨ m.drive waits = { m' with abort := some .runLimit }) := by
  have hwait := h.driveToWait m.cost
  induction waits generalizing m with
  | zero =>
    refine ⟨_, hwait, ?_⟩
    unfold Machine.drive
    dsimp only
    split
    · exact Or.inl rfl
    · exact Or.inr rfl
  | succ waits ih =>
    unfold Machine.drive
    dsimp only
    split
    · exact ⟨_, hwait, Or.inl rfl⟩
    · next hgo =>
      have hstep := hwait.advance (Bool.not_eq_true _ ▸ hgo)
      exact ih hstep (hstep.driveToWait _)

end Machine

/-- Where a run stands, as far as the state of its context depends on it. -/
inductive Stage where
  /-- Before a wait, knowing the earliest deadline. -/
  | waiting (deadline : Option Nat)
  | passing (pass : Pass)
  /-- In the callback of a watcher. -/
  | calling (pass : Pass) (watcher : Handle)

/-- A run of a context, and where it stands. -/
structure Standing where
  context : Nat
  stage : Stage

def Activation.standing (a : Activation) : Standing where
  context := a.context
  stage :=
    match a.phase with
    | .waiting => .waiting a.deadline
    | .passing pass => .passing pass
    | .calling pass call => .calling pass call.watcher

deriving instance DecidableEq for Pass, Stage, Standing

/-- The world, and where the runs stand, the innermost first. -/
structure Config where
  world : World
  standings : List Standing

def Machine.config (m : Machine) : Config := ⟨m.world, m.stack.map Activation.standing⟩

/-- The run is inside a callback. -/
def Stage.IsCalling : Stage → Prop
  | .calling _ _ => True
  | _ => False

/-- What the dispatcher does to its loop in one step of a run, at the time `now`, and where the run
stands then; nowhere if it has ended. -/
inductive Dispatch (l : Loop) (now : Nat) : Stage → Option Stage → Loop → Prop
  /-- The loop has exited or nothing is linked. -/
  | finished {deadline} :
      Dispatch l now (.waiting deadline) none ⟨{ l.context with busy := false }, l.poller⟩
  /-- The run was woken to exit. -/
  | honoured {deadline wakeups} : l.context.running = true → l.context.exitAsked = true →
      Dispatch l now (.waiting deadline) none
        ((Loop.exit ⟨{ l.context with wakeups }, l.poller⟩).mapContext
          fun c => { c with busy := false })
  | woken {deadline timeout signals} : l.context.running = true →
      (l.context.wakeups.wait (Mask.full Signal) timeout).2 = .woken signals ∨
        ((∃ us, (l.context.wakeups.wait (Mask.full Signal) timeout).2 = .elapsed us) ∧
          signals = ∅) →
      (signals.has .exit && l.context.exitAsked) = false →
      Dispatch l now (.waiting deadline) (some (.passing ⟨signals, 0, none⟩))
        ⟨{ l.context with
            wakeups := (l.context.wakeups.wait (Mask.full Signal) timeout).1
            roster := l.context.roster.rewind }, l.poller⟩
  /-- The watcher at its turn is not due. -/
  | visited {pass c i} : c = { l.context with roster := l.context.roster.next.1 } →
      l.context.roster.next.2 = some i → l.context.running = true →
      (c.visit now pass.signals i).call = none →
      Dispatch l now (.passing pass)
        (some (.passing
          { pass with deadline := sooner pass.deadline (c.visit now pass.signals i).deadline }))
        ⟨(c.visit now pass.signals i).context, l.poller⟩
  | called {pass c i h events callback} :
      c = { l.context with roster := l.context.roster.next.1 } →
      l.context.roster.next.2 = some i → l.context.running = true →
      (c.visit now pass.signals i).call = some (h, events) →
      ((c.visit now pass.signals i).context.lendCallback h).2 = some callback →
      Dispatch l now (.passing pass)
        (some (.calling
          { pass with deadline := sooner pass.deadline (c.visit now pass.signals i).deadline } h))
        ⟨((c.visit now pass.signals i).context.lendCallback h).1, l.poller⟩
  /-- The watcher is due but has no callback. -/
  | missed {pass c i h events} : c = { l.context with roster := l.context.roster.next.1 } →
      l.context.roster.next.2 = some i → l.context.running = true →
      (c.visit now pass.signals i).call = some (h, events) →
      ((c.visit now pass.signals i).context.lendCallback h).2 = none →
      Dispatch l now (.passing pass)
        (some (.passing
          { pass with
            deadline := sooner pass.deadline (c.visit now pass.signals i).deadline
            served := pass.served + 1 }))
        ⟨((c.visit now pass.signals i).context.lendCallback h).1, l.poller⟩
  | returned {pass h callback} :
      Dispatch l now (.calling pass h) (some (.passing { pass with served := pass.served + 1 }))
        ⟨l.context.returnCallback h callback, l.poller⟩
  /-- The pass is over, and with it perhaps the run. -/
  | passed {pass} : l.context.roster.next.2 = none ∨ l.context.running = false →
      Dispatch l now (.passing pass) (some (.waiting pass.deadline))
        ⟨{ l.context with roster := l.context.roster.next.1 }, l.poller⟩
  | passedLast {pass} : l.context.roster.next.2 = none ∨ l.context.running = false →
      Dispatch l now (.passing pass) none
        ⟨{ l.context with roster := l.context.roster.next.1, busy := false }, l.poller⟩

/-! ### The dispatcher keeps a loop sound -/

/-- Soundness looks at the list of linked slots, not at the cursor. -/
theorem Context.Sound.cursor {c c' : Context} (h : c.Sound) (hw : c'.watchers = c.watchers)
    (hr : c'.roster.WellFormed) (hl : c'.roster.toList = c.roster.toList)
    (hp : c'.poller = c.poller) (hn : c'.nextSerial = c.nextSerial) : c'.Sound where
  arena := hw ▸ h.arena
  roster := hr
  linked_iff := by
    rw [hl, hw]
    exact h.linked_iff
  fits := by
    rw [hw, hp]
    exact h.fits
  serial := by
    rw [hw, hn]
    exact h.serial

namespace Dispatch

variable {l l' : Loop} {now : Nat} {stage : Stage} {stage' : Option Stage}

theorem sound_next (hs : l.Sound) :
    Loop.Sound ⟨{ l.context with roster := l.context.roster.next.1 }, l.poller⟩ :=
  have hn := hs.context.roster.next
  ⟨hs.context.cursor rfl hn.1 hn.2.2 rfl rfl, hs.poller⟩

theorem sound_lend (hs : l.Sound) (h : Handle) :
    Loop.Sound ⟨(l.context.lendCallback h).1, l.poller⟩ := by
  cases hf : l.context.find h with
  | error err =>
    rw [Context.lendCallback, hf]
    exact hs
  | ok e =>
    rw [Context.lendCallback_ok hf]
    exact hs.callback hf none

theorem lend_alike (c : Context) (h : Handle) : c.Alike (c.lendCallback h).1 := by
  cases hf : c.find h with
  | error err =>
    rw [Context.lendCallback, hf]
    exact .refl c
  | ok e =>
    rw [Context.lendCallback_ok hf]
    exact Loop.alike_callback (l := ⟨c, none⟩) hf none

theorem sound (hs : l.Sound) (h : Dispatch l now stage stage' l') : l'.Sound := by
  cases h with
  | finished => exact ⟨hs.context.congr rfl rfl rfl rfl, hs.poller⟩
  | @honoured deadline wakeups =>
    have hs' := hs.wakeups wakeups
    exact ⟨hs'.exit.context.congr rfl rfl rfl rfl, hs'.exit.poller⟩
  | woken =>
    have hr := hs.context.roster.rewind
    exact ⟨hs.context.cursor rfl hr.1 hr.2.2 rfl rfl, hs.poller⟩
  | visited hc => exact hc ▸ (sound_next hs).visit _ _ _
  | called hc => exact hc ▸ sound_lend ((sound_next hs).visit _ _ _) _
  | missed hc => exact hc ▸ sound_lend ((sound_next hs).visit _ _ _) _
  | returned =>
    rename_i pass h callback
    rcases l.context.returnCallback_cases h callback with he | ⟨e, hf, -, he⟩
    · exact he.symm ▸ hs
    · exact he.symm ▸ hs.callback hf (some callback)
  | passed => exact sound_next hs
  | passedLast =>
    have hn := hs.context.roster.next
    exact ⟨hs.context.cursor rfl hn.1 hn.2.2 rfl rfl, hs.poller⟩

/-- Apart from an exit, the dispatcher leaves watchers with the traits that they have. -/
theorem alike_or_exit (h : Dispatch l now stage stage' l') :
    (l.context.Alike l'.context ∧ l'.poller = l.poller) ∨
      ∃ wakeups, l' = (Loop.exit ⟨{ l.context with wakeups }, l.poller⟩).mapContext
        fun c => { c with busy := false } := by
  have hnext : l.context.Alike { l.context with roster := l.context.roster.next.1 } :=
    ⟨rfl, rfl, rfl, fun _ => rfl⟩
  cases h with
  | finished => exact Or.inl ⟨⟨rfl, rfl, rfl, fun _ => rfl⟩, rfl⟩
  | honoured => exact Or.inr ⟨_, rfl⟩
  | woken => exact Or.inl ⟨⟨rfl, rfl, rfl, fun _ => rfl⟩, rfl⟩
  | visited hc => exact Or.inl ⟨hc ▸ hnext.trans (Loop.visit_alike _ _ _ _), rfl⟩
  | called hc =>
    exact Or.inl ⟨hc ▸ (hnext.trans (Loop.visit_alike _ _ _ _)).trans (lend_alike _ _), rfl⟩
  | missed hc =>
    exact Or.inl ⟨hc ▸ (hnext.trans (Loop.visit_alike _ _ _ _)).trans (lend_alike _ _), rfl⟩
  | returned =>
    rename_i pass h callback
    refine Or.inl ⟨?_, rfl⟩
    rcases l.context.returnCallback_cases h callback with he | ⟨e, hf, -, he⟩
    · exact he.symm ▸ .refl _
    · exact he.symm ▸ Loop.alike_callback hf (some callback)
  | passed => exact Or.inl ⟨hnext, rfl⟩
  | passedLast => exact Or.inl ⟨⟨rfl, rfl, rfl, fun _ => rfl⟩, rfl⟩

/-- Apart from an exit, the dispatcher changes watchers, their list and wake-ups only, and is no
longer busy with the loop once the run has ended. -/
theorem fields (h : Dispatch l now stage stage' l') :
    (∃ watchers roster wakeups, l'.context = { l.context with
        watchers, roster, wakeups, busy := l.context.busy && stage'.isSome }) ∨
      (stage' = none ∧ ∃ wakeups, l' = (Loop.exit ⟨{ l.context with wakeups }, l.poller⟩).mapContext
        fun c => { c with busy := false }) := by
  have hvisit : ∀ c now signals i, c = { l.context with roster := l.context.roster.next.1 } →
      ∃ watchers roster, (c.visit now signals i).context =
        { l.context with watchers, roster, busy := l.context.busy && true } := by
    rintro c now signals i rfl
    rw [Bool.and_true]
    exact Context.visit_frame _ now signals i
  have hlend : ∀ c now signals i h, c = { l.context with roster := l.context.roster.next.1 } →
      ∃ watchers roster, ((c.visit now signals i).context.lendCallback h).1 =
        { l.context with watchers, roster, busy := l.context.busy && true } := by
    intro c now signals i h hc
    obtain ⟨_, roster, hv⟩ := hvisit c now signals i hc
    obtain ⟨watchers, hw⟩ := (c.visit now signals i).context.lendCallback_frame h
    exact ⟨watchers, roster, by rw [hw, hv]⟩
  cases h with
  | finished => exact Or.inl ⟨_, _, _, by rw [Option.isSome_none, Bool.and_false]⟩
  | honoured => exact Or.inr ⟨rfl, _, rfl⟩
  | woken => exact Or.inl ⟨_, _, _, by rw [Option.isSome_some, Bool.and_true]⟩
  | visited hc =>
    obtain ⟨watchers, roster, hv⟩ := hvisit _ _ _ _ hc
    exact Or.inl ⟨watchers, roster, _, hv⟩
  | called hc =>
    obtain ⟨watchers, roster, hv⟩ := hlend _ _ _ _ _ hc
    exact Or.inl ⟨watchers, roster, _, hv⟩
  | missed hc =>
    obtain ⟨watchers, roster, hv⟩ := hlend _ _ _ _ _ hc
    exact Or.inl ⟨watchers, roster, _, hv⟩
  | @returned pass h callback =>
    obtain ⟨watchers, hw⟩ := l.context.returnCallback_frame h callback
    exact Or.inl ⟨watchers, _, _, by dsimp only; rw [hw, Option.isSome_some, Bool.and_true]⟩
  | passed => exact Or.inl ⟨_, _, _, by rw [Option.isSome_some, Bool.and_true]⟩
  | passedLast => exact Or.inl ⟨_, _, _, by rw [Option.isSome_none, Bool.and_false]⟩

theorem frame (hs : l.Sound) (h : Dispatch l now stage stage' l') :
    l'.context.id = l.context.id ∧ l'.context.poller = l.context.poller := by
  rcases h.alike_or_exit with ⟨ha, -⟩ | ⟨wakeups, rfl⟩
  · exact ⟨ha.id, ha.number⟩
  · have hs' := hs.wakeups wakeups
    exact ⟨(Loop.exit_frame hs').1, (Loop.exit_frame hs').2.1⟩

end Dispatch

namespace Config

/-- A course of acts is taken, and the runs stay where they are. -/
structure Acted (s s' : Config) : Prop where
  course : s.world.Course s'.world
  standings : s'.standings = s.standings

/-- Calm acts happen, and the runs stay where they are. -/
structure Calmed (s s' : Config) : Prop where
  calms : s.world.Calms s'.world
  standings : s'.standings = s.standings

/-- At most the pollers are settled, and the runs stay where they are. -/
structure Settled (s s' : Config) : Prop where
  world : s'.world = s.world ∨ s'.world = s.world.settle
  standings : s'.standings = s.standings

/-- Nothing happens but that time goes on. -/
structure Waited (s s' : Config) : Prop where
  contexts : s'.world.contexts = s.world.contexts
  pollers : s'.world.pollers = s.world.pollers
  timerHandles : s'.world.timerHandles = s.world.timerHandles
  orphans : s'.world.orphans = s.world.orphans
  standings : s'.standings = s.standings

/-- A run of a loop is entered. -/
structure Entered (s s' : Config) (l : Loop) : Prop where
  replaced : s.world.Replaced s'.world l.context.id l ⟨(s.world.entering l).1, l.poller⟩
  idle : l.context.busy = false
  within : ∀ x ∈ s.standings.head?, x.stage.IsCalling
  standings : s'.standings =
    ⟨l.context.id, .waiting (s.world.entering l).2⟩ :: s.standings

/-- The loop of the innermost run is replaced, and the run goes over to another stage or ends. -/
structure Shifted (s s' : Config) (x : Standing) (below : List Standing) (l l' : Loop)
    (stage : Option Stage) : Prop where
  replaced : s.world.Replaced s'.world x.context l l'
  before : s.standings = x :: below
  after : s'.standings = (stage.map (Standing.mk x.context)).toList ++ below

/-- The innermost run does one thing. -/
structure Dispatched (s s' : Config) (x : Standing) (below : List Standing) (l l' : Loop)
    (stage : Option Stage) : Prop extends Shifted s s' x below l l' stage where
  dispatch : Dispatch l (s.world.now l.context) x.stage stage l'

variable {s s' s'' : Config} {l l' : Loop} {x : Standing} {below : List Standing}
  {stage : Option Stage}

theorem Acted.refl (s : Config) : s.Acted s := ⟨.refl _, rfl⟩

theorem Acted.andThen (h : s.Acted s') (h' : s'.Calmed s'') : s.Acted s'' :=
  ⟨h.course.andThen h'.calms, h'.standings.trans h.standings⟩

theorem Calmed.acted (h : s.Calmed s') : s.Acted s' := ⟨.before h.calms (.refl _), h.standings⟩

theorem Settled.calmed (hs : s.world.Sound) (h : s.Settled s') : s.Calmed s' := by
  refine ⟨?_, h.standings⟩
  rcases h.world with he | he
  · exact he ▸ .refl
  · exact he ▸ World.settle_calms hs

theorem Waited.acted (h : s.Waited s') : s.Acted s' :=
  ⟨.quiet h.contexts h.pollers h.timerHandles h.orphans, h.standings⟩

theorem Entered.sound (hs : s.world.Sound) (h : s.Entered s' l) : s'.world.Sound :=
  have hsl := (hs.loop h.replaced.loop).2
  have ha := World.entering_alike (w := s.world) hsl
  hs.replaced h.replaced (World.entering_sound hsl) ha.id ha.number

theorem Dispatched.sound (hs : s.world.Sound) (h : s.Dispatched s' x below l l' stage) :
    s'.world.Sound := by
  have hsl := (hs.loop h.replaced.loop).2
  obtain ⟨hid, hn⟩ := h.dispatch.frame hsl
  exact hs.replaced h.replaced (h.dispatch.sound hsl) hid hn

end Config

namespace World

variable {w w₁ w' : World} {id : Nat} {l l₁ l' : Loop}

theorem loop?_congr (hc : w'.contexts = w.contexts) (hp : w'.pollers = w.pollers) (id : Nat) :
    w'.loop? id = w.loop? id := by
  rw [loop?, loop?, context?_congr hc, hp]

/-- What else changes does not matter to a replaced loop. -/
theorem Replaced.quiet (h : w₁.Replaced w' id l l') (hc : w₁.contexts = w.contexts)
    (hp : w₁.pollers = w.pollers) (ht : w₁.timerHandles = w.timerHandles)
    (ho : w₁.orphans = w.orphans) : w.Replaced w' id l l' where
  loop := loop?_congr hc hp id ▸ h.loop
  context_self := h.context_self
  context_other := fun j hj => (h.context_other j hj).trans (context?_congr hc j)
  contexts_length := hc ▸ h.contexts_length
  pollers_length := hp ▸ h.pollers_length
  poller_self := h.poller_self
  poller_other := fun p hn => hp ▸ h.poller_other p hn
  timerHandles := h.timerHandles.trans ht
  orphans := h.orphans.trans ho

theorem Replaced.trans (h : w.Replaced w₁ id l l₁) (h' : w₁.Replaced w' id l₁ l')
    (hn : l₁.context.poller = l.context.poller) : w.Replaced w' id l l' where
  loop := h.loop
  context_self := h'.context_self
  context_other := fun j hj => (h'.context_other j hj).trans (h.context_other j hj)
  contexts_length := h'.contexts_length.trans h.contexts_length
  pollers_length := h'.pollers_length.trans h.pollers_length
  poller_self := fun p hp => h'.poller_self p (hn.trans hp)
  poller_other := fun p hp =>
    (h'.poller_other p (hn.symm ▸ hp)).trans (h.poller_other p hp)
  timerHandles := h'.timerHandles.trans h.timerHandles
  orphans := h'.orphans.trans h.orphans

theorem Replaced.refl (h : w.loop? id = some l) : w.Replaced w id l l where
  loop := h
  context_self := (loop?_eq_some.mp h).1
  context_other := fun _ _ => rfl
  contexts_length := rfl
  pollers_length := rfl
  poller_self := fun p hp => by
    rw [(loop?_eq_some.mp h).2, hp]
    rfl
  poller_other := fun _ _ => rfl
  timerHandles := rfl
  orphans := rfl

/-- A replaced loop is what the world has afterwards. -/
theorem Replaced.loop_after (h : w.Replaced w' id l l')
    (hn : l'.context.poller = l.context.poller) (hs : l'.Sound) : w'.loop? id = some l' := by
  refine loop?_eq_some.mpr ⟨h.context_self, ?_⟩
  cases hp : l'.context.poller with
  | none =>
    rw [Option.bind_none, ← Option.not_isSome_iff_eq_none, hs.poller, hp]
    exact Bool.false_ne_true
  | some p => exact (h.poller_self p (hn.symm.trans hp)).symm

end World

namespace Machine

variable {m : Machine} {a : Activation} {below : List Activation} {l : Loop}

open Config

theorem conclude_settled (m : Machine) (answer : Answer) :
    m.config.Settled (m.conclude answer).config := by
  rw [conclude]
  cases hm : m.stack with
  | nil => exact ⟨Or.inr rfl, by simp [config, hm]⟩
  | cons a below =>
    dsimp only
    cases hp : a.phase with
    | waiting => exact ⟨Or.inr rfl, by simp [config, hm]⟩
    | passing pass => exact ⟨Or.inr rfl, by simp [config, hm]⟩
    | calling pass call => exact ⟨Or.inr rfl, by simp [config, hm, Activation.standing, hp]⟩

/-- What a step of the scenario or of a callback comes to. -/
theorem perform_cases (hs : m.world.Sound) (current : Option Nat) (command : Command)
    (hw : ∀ x ∈ m.config.standings.head?, x.stage.IsCalling) :
    m.config.Acted (m.perform current command).config ∨
      ∃ l, m.config.Entered (m.perform current command).config l := by
  have hperf := World.perform_performed hs current command
  unfold perform
  generalize m.world.perform current command = r at hperf
  rcases hperf with ⟨answer, hr, hcourse⟩ | ⟨l, flags, hl, hb, rfl⟩
  · obtain ⟨w, reaction⟩ := r
    obtain rfl : reaction = .answered answer := hr
    left
    have hact : m.config.Acted { m with world := w }.config := ⟨hcourse, rfl⟩
    exact hact.andThen ((conclude_settled _ answer).calmed (hs.acts hcourse.acts))
  · right
    exact ⟨l, World.replaced_putContext hl _, hb, hw, rfl⟩

/-- A step that says that it enters a run does so. -/
theorem perform_entered (hs : m.world.Sound) {current : Option Nat} {command : Command}
    (hw : ∀ x ∈ m.config.standings.head?, x.stage.IsCalling) {id : Nat} {flags : RunFlags}
    {deadline : Option Nat}
    (hr : (m.world.perform current command).2 = .entered id flags deadline) :
    ∃ l, l.context.id = id ∧ m.config.Entered (m.perform current command).config l := by
  have hperf := World.perform_performed hs current command
  unfold perform
  generalize m.world.perform current command = r at hperf hr
  rcases hperf with ⟨answer, ha, -⟩ | ⟨l, flags, hl, hb, rfl⟩
  · exact nomatch hr.symm.trans ha
  · exact ⟨l, (Reaction.entered.inj hr).1, World.replaced_putContext hl _, hb, hw, rfl⟩

/-- The end of a run: its loop is put back, and the rest goes on. -/
theorem leave_settled (m : Machine) (a : Activation) (below : List Activation) (l : Loop) :
    Config.Settled ⟨m.world.putLoop a.context (l.mapContext fun c => { c with busy := false }),
      below.map Activation.standing⟩ (m.leave a below l).config :=
  conclude_settled { m with
    world := m.world.putLoop a.context (l.mapContext fun c => { c with busy := false })
    stack := below } _

/-- The innermost run does one thing, and the pollers may be settled afterwards. -/
def Advanced (m m' : Machine) (a : Activation) (below : List Activation) (l : Loop) : Prop :=
  ∃ s l' stage, m.config.Dispatched s a.standing (below.map Activation.standing) l l' stage ∧
    s.Settled m'.config

theorem Dispatched.leave {w : World} {l₁ : Loop}
    (hm : m.stack = a :: below) (hr : m.world.Replaced w a.context l
      (l₁.mapContext fun c => { c with busy := false }))
    (hd : Dispatch l (m.world.now l.context) a.standing.stage none
      (l₁.mapContext fun c => { c with busy := false }))
    {m₁ : Machine} (hw : m₁.world.putLoop a.context
      (l₁.mapContext fun c => { c with busy := false }) = w) :
    m.Advanced (m₁.leave a below l₁) a below l := by
  have hdisp : m.config.Dispatched ⟨w, below.map Activation.standing⟩ a.standing
      (below.map Activation.standing) l (l₁.mapContext fun c => { c with busy := false }) none :=
    ⟨⟨hr, by rw [config, hm]; rfl, rfl⟩, hd⟩
  subst hw
  exact ⟨_, _, _, hdisp, leave_settled m₁ a below l₁⟩

theorem Dispatched.stay {m' : Machine} {w : World} {l' : Loop} (a' : Activation)
    (hm : m.stack = a :: below) (hr : m.world.Replaced w a.context l l')
    (hd : Dispatch l (m.world.now l.context) a.standing.stage (some a'.standing.stage) l')
    (ha : a'.context = a.context) (hm' : m'.stack = a' :: below)
    (hw : m'.world = w ∨ m'.world = w.settle) :
    m.Advanced m' a below l := by
  have hdisp : m.config.Dispatched ⟨w, m'.stack.map Activation.standing⟩ a.standing
      (below.map Activation.standing) l l' (some a'.standing.stage) := by
    refine ⟨⟨hr, by rw [config, hm]; rfl, ?_⟩, hd⟩
    rw [hm']
    change _ = Standing.mk a.context a'.standing.stage :: _
    rw [← ha]
    rfl
  exact ⟨_, _, _, hdisp, hw, rfl⟩

theorem enterPass_advanced (hs : m.world.Sound) (hm : m.stack = a :: below)
    (hl : m.world.loop? a.context = some l) (hp : a.phase = .waiting)
    (hrun : l.context.running = true) {timeout : Option Nat} {signals : Signals}
    (hw : (l.context.wakeups.wait (Mask.full Signal) timeout).2 = .woken signals ∨
      ((∃ us, (l.context.wakeups.wait (Mask.full Signal) timeout).2 = .elapsed us) ∧
        signals = ∅)) (clock : Clock) (waits : Nat) :
    m.Advanced
      ({ m with world := { m.world with clock, waits } }.enterPass a below
        (l.mapContext fun c =>
          { c with wakeups := (l.context.wakeups.wait (Mask.full Signal) timeout).1 }) signals)
      a below l := by
  have hsl := (hs.loop hl).2
  have hstage : a.standing.stage = .waiting a.deadline := by rw [Activation.standing, hp]
  have hl₁ : World.loop? { m.world with clock, waits } a.context = some l := hl
  have hs₁ : Loop.Sound (l.mapContext fun c =>
      { c with wakeups := (l.context.wakeups.wait (Mask.full Signal) timeout).1 }) :=
    hsl.wakeups _
  unfold enterPass
  split
  · next hexit =>
    obtain ⟨-, hn, -⟩ := Loop.exit_frame hs₁
    have hasked : l.context.exitAsked = true := (Bool.and_eq_true_iff.mp hexit).2
    refine Dispatched.leave hm ?_ (hstage ▸ .honoured hrun hasked) rfl
    refine (World.replaced_putLoop hl₁ ?_ ?_).quiet rfl rfl rfl rfl
    · exact hn
    · exact (hs₁.exit.poller.trans (congrArg Option.isSome hn)).trans hs₁.poller.symm
  · next hexit =>
    have hr := World.replaced_putContext hl₁ { l.context with
      wakeups := (l.context.wakeups.wait (Mask.full Signal) timeout).1
      roster := l.context.roster.rewind }
    refine Dispatched.stay { a with phase := .passing ⟨signals, 0, none⟩ } hm
      (hr.quiet rfl rfl rfl rfl) ?_ rfl rfl (Or.inl rfl)
    rw [hstage]
    exact .woken hrun hw (Bool.not_eq_true _ ▸ hexit)

theorem stepWaiting_advanced (hs : m.world.Sound) (hm : m.stack = a :: below)
    (hl : m.world.loop? a.context = some l) (hp : a.phase = .waiting) :
    m.config.Waited (m.stepWaiting a below l).config ∨
      m.Advanced (m.stepWaiting a below l) a below l := by
  have hstage : a.standing.stage = .waiting a.deadline := by rw [Activation.standing, hp]
  unfold stepWaiting
  split
  · refine Or.inr (Dispatched.leave hm ?_ (hstage ▸ .finished) rfl)
    exact World.replaced_putLoop hl rfl rfl
  · next hgo =>
    have hrun : l.context.running = true := by
      simp only [Bool.or_eq_true, not_or, Bool.not_eq_true', Bool.not_eq_false] at hgo
      exact hgo.1
    dsimp only
    cases hw : (l.context.wakeups.wait (Mask.full Signal)
        (waitTimeout m.world a l.context)).2 with
    | forever => exact Or.inl ⟨rfl, rfl, rfl, rfl, rfl⟩
    | elapsed us =>
      exact Or.inr (enterPass_advanced hs hm hl hp hrun (Or.inr ⟨⟨us, hw⟩, rfl⟩) _ _)
    | woken signals => exact Or.inr (enterPass_advanced hs hm hl hp hrun (Or.inl hw) _ _)

/-- The end of a pass, with the roster as it is then. -/
theorem endPass_advanced (hs : m.world.Sound) (hm : m.stack = a :: below)
    (hl : m.world.loop? a.context = some l) {pass : Pass} (hp : a.phase = .passing pass)
    (hend : l.context.roster.next.2 = none ∨ l.context.running = false) {w : World} {l' : Loop}
    (hl' : l' = ⟨l.context.atTurn, l.poller⟩) (hw : m.world.Replaced w a.context l l') :
    m.Advanced ({ m with world := w }.endPass a below l' pass) a below l := by
  have hstage : a.standing.stage = .passing pass := by rw [Activation.standing, hp]
  subst hl'
  have hl₁ := hw.loop_after rfl (Dispatch.sound_next (hs.loop hl).2)
  unfold endPass
  split
  · refine Dispatched.leave hm ?_ (hstage ▸ .passedLast hend) rfl
    exact hw.trans (World.replaced_putLoop hl₁ rfl rfl) rfl
  · refine Dispatched.stay { a with phase := .waiting, deadline := pass.deadline } hm hw ?_ rfl rfl
      (Or.inl rfl)
    rw [hstage]
    exact .passed hend

/-- The watcher at its turn is called, or passed over. -/
theorem afterVisit_advanced (hm : m.stack = a :: below)
    (hl : m.world.loop? a.context = some l) {pass : Pass} (hp : a.phase = .passing pass) {i : Nat}
    (hi : l.context.roster.next.2 = some i) (hrun : l.context.running = true) {v : Context.Visit}
    (hv : l.context.atTurn.visit (m.world.now l.context) pass.signals i = v) :
    m.Advanced (m.afterVisit a below pass v) a below l := by
  have hstage : a.standing.stage = .passing pass := by rw [Activation.standing, hp]
  subst hv
  unfold afterVisit
  dsimp only
  split
  · next h events hcall =>
    unfold beginCall
    generalize hlend : (Context.Visit.context _).lendCallback h = lent
    obtain ⟨c, callback⟩ := lent
    have hput := World.replaced_putContext hl c
    cases callback with
    | none =>
      have hd := Dispatch.missed (c := l.context.atTurn) rfl hi hrun hcall (congrArg Prod.snd hlend)
      rw [hlend, ← hstage] at hd
      exact Dispatched.stay { a with phase := .passing { pass with
          deadline := sooner pass.deadline _
          served := pass.served + 1 } }
        hm hput hd rfl rfl (Or.inl rfl)
    | some callback =>
      have hd := Dispatch.called (c := l.context.atTurn) rfl hi hrun hcall (congrArg Prod.snd hlend)
      rw [hlend, ← hstage] at hd
      exact Dispatched.stay { a with
          phase := .calling { pass with deadline := sooner pass.deadline _ }
            ⟨h, events, _, callback, callback.actions, []⟩ }
        hm hput hd rfl rfl (Or.inr rfl)
  · next hcall =>
    have hd := Dispatch.visited (c := l.context.atTurn) rfl hi hrun hcall
    rw [← hstage] at hd
    exact Dispatched.stay { a with
        phase := .passing { pass with deadline := sooner pass.deadline _ } }
      hm (World.replaced_putContext hl _) hd rfl rfl (Or.inl rfl)

theorem stepPassing_advanced (hs : m.world.Sound) (hm : m.stack = a :: below)
    (hl : m.world.loop? a.context = some l) {pass : Pass} (hp : a.phase = .passing pass) :
    m.Advanced (m.stepPassing a below l pass) a below l := by
  cases hi : l.context.roster.next.2 with
  | none =>
    have hsame : l = ⟨l.context.atTurn, l.poller⟩ := by rw [Context.atTurn_of_last hi]
    rw [stepPassing_last m a below pass l hi]
    exact endPass_advanced hs hm hl hp (Or.inl hi) hsame (.refl hl)
  | some i =>
    cases hrun : l.context.running with
    | false =>
      rw [stepPassing_stopped m a below pass l hi hrun]
      exact endPass_advanced hs hm hl hp (Or.inr hrun) rfl (World.replaced_putContext hl _)
    | true =>
      rw [stepPassing_turn m a below pass l hi hrun]
      exact afterVisit_advanced hm hl hp hi hrun rfl

theorem endCall_advanced (hm : m.stack = a :: below)
    (hl : m.world.loop? a.context = some l) {pass : Pass} {call : Call}
    (hp : a.phase = .calling pass call) :
    m.Advanced (m.endCall a below l pass call) a below l := by
  have hstage : a.standing.stage = .calling pass call.watcher := by rw [Activation.standing, hp]
  let callback : Callback := { call.callback with called := call.callback.called + 1 }
  have hd : Dispatch l (m.world.now l.context) (.calling pass call.watcher)
      (some (.passing { pass with served := pass.served + 1 }))
      ⟨l.context.returnCallback call.watcher callback, l.poller⟩ := .returned
  rw [← hstage] at hd
  exact Dispatched.stay
    { a with
      phase := .passing { pass with served := pass.served + 1 }
      calls := a.calls ++ [call.record] }
    hm (World.replaced_putContext hl _) hd rfl rfl (Or.inl rfl)

/-- What one step of the whole system comes to. -/
inductive Outcome (m m' : Machine) : Prop
  | acted : m.config.Acted m'.config → Outcome m m'
  | entered {l : Loop} : m.config.Entered m'.config l → Outcome m m'
  | dispatched {s x below l l' stage} : m.config.Dispatched s x below l l' stage →
      s.Settled m'.config → Outcome m m'

theorem Advanced.outcome {m' : Machine} (h : m.Advanced m' a below l) : m.Outcome m' := by
  obtain ⟨s, l', stage, hd, hsettled⟩ := h
  exact .dispatched hd hsettled

/-- What the innermost callback does next, and the context that it is called for. -/
def next? (m : Machine) : Option (Nat × Command) :=
  match m.stack with
  | [] => none
  | a :: _ =>
    match a.phase with
    | .calling _ call => call.rest.head?.map fun command => (a.context, command)
    | _ => none

/-- Outside a callback the innermost run goes on by itself. -/
theorem next?_of_idle (hm : m.stack = a :: below) (hidle : ¬ a.standing.stage.IsCalling) :
    m.next? = none := by
  rw [Activation.standing] at hidle
  simp only [next?, hm]
  cases hp : a.phase with
  | calling => simp [hp, Stage.IsCalling] at hidle
  | waiting => rfl
  | passing => rfl

/-- A small step in which a callback makes a step of its own. -/
theorem step_commanded {current : Nat} {command : Command} (h : m.next? = some (current, command))
    (hl : m.world.loop? current = some l) :
    ∃ m₁ : Machine, m₁.world = m.world ∧ m₁.config = m.config ∧ m₁.abort = m.abort ∧
      (∀ x ∈ m₁.config.standings.head?, x.stage.IsCalling) ∧
      m.step = m₁.perform (some current) command := by
  unfold next? at h
  split at h
  · contradiction
  · next a below hm =>
    split at h
    · next pass call hp =>
      obtain ⟨command', hrest, heq⟩ := Option.map_eq_some_iff.mp h
      obtain ⟨rfl, rfl⟩ := Prod.mk.inj heq
      obtain ⟨rest, hrest⟩ := List.head?_eq_some_iff.mp hrest
      refine ⟨{ m with stack := { a with phase := .calling pass { call with rest } } :: below },
        rfl, by simp [config, hm, Activation.standing, hp], rfl, ?_, ?_⟩
      · intro x hx
        obtain rfl := Option.some.inj hx
        trivial
      · rw [step, hm]
        simp only [hl, hp, hrest]
    · contradiction

/-- A small step that the dispatcher makes. -/
theorem step_dispatched (hs : m.world.Sound) (h : m.next? = none) :
    m.config.Waited m.step.config ∨
      ∃ a below l, m.stack = a :: below ∧ m.Advanced m.step a below l := by
  unfold step
  split
  · exact Or.inl ⟨rfl, rfl, rfl, rfl, rfl⟩
  · next a below hm =>
    split
    · exact Or.inl ⟨rfl, rfl, rfl, rfl, rfl⟩
    · next l hl =>
      split
      · next hp =>
        exact (stepWaiting_advanced hs hm hl hp).imp_right fun h => ⟨a, below, l, hm, h⟩
      · next pass hp => exact Or.inr ⟨a, below, l, hm, stepPassing_advanced hs hm hl hp⟩
      · next pass call hp =>
        split
        · exact Or.inr ⟨a, below, l, hm, endCall_advanced hm hl hp⟩
        · next command rest hrest =>
          rw [next?, hm] at h
          simp only [hp, hrest, List.head?_cons, Option.map_some] at h
          contradiction

theorem step_outcome (hs : m.world.Sound) : m.Outcome m.step := by
  cases hnext : m.next? with
  | none =>
    rcases step_dispatched hs hnext with hwaited | ⟨a, below, l, -, hadvanced⟩
    · exact .acted hwaited.acted
    · exact hadvanced.outcome
  | some v =>
    obtain ⟨current, command⟩ := v
    cases hl : m.world.loop? current with
    | none =>
      have hsame : m.step = m := by
        unfold next? at hnext
        split at hnext
        · contradiction
        · next a below hm =>
          split at hnext
          · obtain ⟨_, -, heq⟩ := Option.map_eq_some_iff.mp hnext
            obtain ⟨rfl, -⟩ := Prod.mk.inj heq
            simp only [step, hm, hl]
          · contradiction
      rw [hsame]
      exact .acted (.refl _)
    | some l =>
      obtain ⟨m₁, hworld, hsame, -, hcalling, hstep⟩ := step_commanded hnext hl
      rw [hstep]
      rcases perform_cases (hworld ▸ hs) (some current) command hcalling with hacted | ⟨l, hentered⟩
      · exact .acted (hsame ▸ hacted)
      · exact .entered (hsame ▸ hentered)

theorem submit_cases (hs : m.world.Sound) (hm : m.stack = []) (command : Command) :
    m.config.Acted (m.submit command).config ∨
      ∃ l, m.config.Entered (m.submit command).config l := by
  let m₁ : Machine := { m with world := { m.world with waits := 0 }, answer := none }
  have hcalm : m.world.Calm m₁.world := World.calm_quiet rfl rfl rfl rfl
  have hempty : ∀ x ∈ m₁.config.standings.head?, x.stage.IsCalling := by simp [m₁, config, hm]
  have hs₁ : m₁.world.Sound := hs.act hcalm.act
  rcases perform_cases hs₁ none command hempty with h | ⟨l, h⟩
  · exact Or.inl ⟨.before (.single hcalm) h.course, h.standings⟩
  · exact Or.inr ⟨l, h.replaced.quiet rfl rfl rfl rfl, h.idle, h.within, h.standings⟩

theorem foreign_course (hs : m.world.Sound) {command : Command} (hf : command.isForeign = true) :
    m.world.Course (m.world.perform none command).1 := by
  rcases World.perform_performed hs none command with ⟨-, -, hcourse⟩ | ⟨l, flags, -, -, hr⟩
  · exact hcourse
  · have hreaction := congrArg Prod.snd hr
    cases command <;> simp only [Command.isForeign, Bool.false_eq_true] at hf <;> contradiction

theorem Meanwhile.acted {m' : Machine} (hs : m.world.Sound) (h : m.Meanwhile m') :
    m.config.Acted m'.config := by
  cases h with
  | interfered command hf => exact ⟨foreign_course hs hf, rfl⟩
  | polled p entries => exact ⟨.before (World.pollAmong_calms hs p entries) (.refl _), rfl⟩

/-- Every step of the whole system is a course of acts, enters a run, or is one action of the
dispatcher after which the pollers may be settled. -/
theorem Step.outcome {m' : Machine} (hs : m.world.Sound) (h : m.Step m') : m.Outcome m' := by
  cases h with
  | submitted command hm =>
    rcases submit_cases hs hm command with hacted | ⟨l, hentered⟩
    · exact .acted hacted
    · exact .entered hentered
  | advanced => exact step_outcome hs
  | meanwhile h => exact .acted (h.acted hs)

end Machine
end EventLoop
