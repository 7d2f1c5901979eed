import EventLoop.Proofs.Settings
import EventLoop.Proofs.Turn
import Mathlib.Algebra.GroupWithZero.Nat
import Mathlib.Algebra.Order.BigOperators.Group.List
import Mathlib.Algebra.Order.Group.Nat
import Mathlib.Data.Prod.Lex
import Mathlib.Logic.Function.Iterate

/-!
# Every step of a scenario comes to an end, or goes on to wait

Between two waits each small step takes a slot off the way of a pass, or leaves the runs on the stack
with less to do. Slots that are linked meanwhile are not on the way of any pass. So within any number
of waits there are only so many small steps.
-/
namespace EventLoop

/-! ### How often the world has waited -/

namespace World

/-- No wait has been made. -/
structure Unwaited (w w' : World) : Prop where
  settings : w'.settings = w.settings

variable {w w' w'' : World}

theorem Unwaited.refl (w : World) : w.Unwaited w := ⟨rfl⟩

theorem Unwaited.trans (h : w.Unwaited w') (h' : w'.Unwaited w'') : w.Unwaited w'' :=
  ⟨h'.settings.trans h.settings⟩

theorem Unwaited.waits (h : w.Unwaited w') : w'.waits = w.waits :=
  congrArg Settings.waits h.settings

theorem unwaited_putContext (w : World) (id : Nat) (c : Context) :
    w.Unwaited (w.putContext id c) := ⟨rfl⟩

theorem unwaited_putLoop (w : World) (id : Nat) (l : Loop) : w.Unwaited (w.putLoop id l) :=
  ⟨w.putLoop_settings id l⟩

theorem unwaited_settle (w : World) : w.Unwaited w.settle := ⟨w.settle_settings⟩

/-- No step of a scenario waits: a run is only entered. -/
theorem unwaited_perform (w : World) (current : Option Nat) (command : Command) :
    w.Unwaited (w.perform current command).1 :=
  ⟨w.perform_settings current command⟩

end World

/-! ### What the passes have on their way -/

/-- How many slots a run has on its way at a stage; none if it has ended. -/
def Stage.ahead : Option Stage → Context → Nat
  | none, _ => 0
  | some (.waiting _), _ => 0
  | some _, c => c.roster.remaining.length

theorem Stage.ahead_le (stage : Option Stage) (c : Context) :
    Stage.ahead stage c ≤ c.roster.remaining.length := by
  cases stage with
  | none => exact Nat.zero_le _
  | some stage =>
    cases stage with
    | waiting => exact Nat.zero_le _
    | passing => exact Nat.le_refl _
    | calling => exact Nat.le_refl _

theorem Stage.ahead_mono (stage : Option Stage) {c c' : Context}
    (h : c'.roster.remaining.length ≤ c.roster.remaining.length) :
    Stage.ahead stage c' ≤ Stage.ahead stage c := by
  cases stage with
  | none => exact Nat.le_refl _
  | some stage =>
    cases stage with
    | waiting => exact Nat.le_refl _
    | passing => exact h
    | calling => exact h

/-- A turn takes a slot off the way. -/
theorem Dispatch.ahead_lt {l l' : Loop} {now i : Nat} {pass : Pass} {stage' : Option Stage}
    (hs : l.Sound) (hlent : l.context.Lent (some (.passing pass)))
    (hi : l.context.roster.next.2 = some i) (hrun : l.context.running = true)
    (hd : Dispatch l now (.passing pass) stage' l') :
    Stage.ahead stage' l'.context < Stage.ahead (some (.passing pass)) l.context := by
  obtain ⟨g, e, ht⟩ := hd.turn hs hlent hi hrun
  have hrest := ht.progress.rest.length_le
  rw [List.length_append, List.length_singleton, Nat.add_comm] at hrest
  exact Nat.lt_of_lt_of_le (Nat.lt_succ_of_le (Stage.ahead_le stage' l'.context)) hrest

/-- After a wait the dispatcher puts nothing on the way of a pass. -/
theorem Dispatch.ahead_le {l l' : Loop} {now : Nat} {stage : Stage} {stage' : Option Stage}
    (hs : l.Sound) (hlent : l.context.Lent (some stage)) (hd : Dispatch l now stage stage' l')
    (hw : ∀ deadline, stage ≠ .waiting deadline) :
    Stage.ahead stage' l'.context ≤ Stage.ahead (some stage) l.context := by
  have hturn := hd
  cases hd with
  | finished | honoured | woken => exact absurd rfl (hw _)
  | visited _ hi hrun | called _ hi hrun | missed _ hi hrun =>
    exact Nat.le_of_lt (hturn.ahead_lt hs hlent hi hrun)
  | @returned pass h callback =>
    obtain ⟨watchers, hc⟩ := l.context.returnCallback_frame h callback
    refine Nat.le_of_eq ?_
    dsimp only [Stage.ahead]
    rw [hc]
  | passed => exact Nat.zero_le _
  | passedLast => exact Nat.zero_le _

namespace Config

/-- How many slots a run has on its way. -/
def ahead (s : Config) (x : Standing) : Nat :=
  ((s.world.context? x.context).map (Stage.ahead (some x.stage))).getD 0

/-- How many slots all runs have on their way. -/
def pending (s : Config) : Nat := (s.standings.map s.ahead).sum

variable {s s' s'' : Config} {id : Nat} {c c' : Context} {l l' : Loop} {x : Standing}
  {below : List Standing} {stage : Stage} {stage' : Option Stage}

theorem ahead_congr (h : s'.world.context? x.context = s.world.context? x.context) :
    s'.ahead x = s.ahead x := by
  rw [ahead, ahead, h]

theorem ahead_le (hc : s.world.context? x.context = some c)
    (hc' : s'.world.context? x.context = some c')
    (h : c'.roster.remaining.length ≤ c.roster.remaining.length) : s'.ahead x ≤ s.ahead x := by
  rw [ahead, ahead, hc, hc']
  exact Stage.ahead_mono _ h

/-- What happens meanwhile lets the pass of a run go on where it stands. -/
theorem Acted.onward (hs : s.Sound) (hm : s.world.Mirrored) (h : s.Acted s')
    (hst : s.StandsAt id (some stage)) (hc : s.world.context? id = some c) :
    s'.StandsAt id (some stage) ∧ ∃ c', s'.world.context? id = some c' ∧ c.Onward c' :=
  ⟨hst.acted h.standings, h.course.onward hs.world hm hc (hst.busy hs hc)⟩

/-- What follows an action of the dispatcher leaves the run and its loop as they are then. -/
theorem Dispatched.settled (hs : s.Sound) (hd : s.Dispatched s' x below l l' (some stage))
    (h : s'.Settled s'') : s''.StandsAt x.context (some stage) ∧
      ∃ c, s''.world.context? x.context = some c ∧ c.roster = l'.context.roster ∧
        l'.context.Alike c := by
  have hs' := hs.dispatched hd
  have hstands := hd.standsAt
  have hself : s'.world.context? x.context = some l'.context := hd.replaced.context_self
  obtain ⟨c, hc, -, hr, ha⟩ :=
    (h.calmed hs'.world).calms.still hs'.world hself (hstands.busy hs' hself)
  exact ⟨hstands.acted h.standings, c, hc, hr, ha⟩

theorem Acted.pending_le (hs : s.Sound) (hm : s.world.Mirrored) (h : s.Acted s') :
    s'.pending ≤ s.pending := by
  rw [pending, pending, h.standings]
  refine List.sum_le_sum fun x hx => ?_
  obtain ⟨c, hc⟩ := hs.present x hx
  have hstands : s.StandsAt x.context (some x.stage) := hx
  obtain ⟨-, c', hc', hon⟩ := h.onward hs hm hstands hc
  exact ahead_le hc hc' hon.rest.length_le

theorem Calmed.pending_le (hs : s.Sound) (h : s.Calmed s') : s'.pending ≤ s.pending := by
  rw [pending, pending, h.standings]
  refine List.sum_le_sum fun x hx => ?_
  obtain ⟨c, hc⟩ := hs.present x hx
  have hstands : s.StandsAt x.context (some x.stage) := hx
  obtain ⟨c', hc', -, hr, -⟩ := h.calms.still hs.world hc (hstands.busy hs hc)
  exact ahead_le hc hc' (Nat.le_of_eq (by rw [hr]))

/-- A run that is entered waits first. -/
theorem Entered.pending_le (hs : s.Sound) (h : s.Entered s' l) : s'.pending ≤ s.pending := by
  have hloop := (World.loop?_eq_some.mp h.replaced.loop).1
  have hnew : s'.ahead ⟨l.context.id, .waiting (s.world.entering l).2⟩ = 0 := by
    rw [ahead, h.replaced.context_self]
    rfl
  rw [pending, pending, h.standings, List.map_cons, List.sum_cons, hnew, Nat.zero_add]
  refine List.sum_le_sum fun x hx => Nat.le_of_eq (ahead_congr ?_)
  refine h.replaced.context_other _ fun hid => ?_
  have hbusy := (hs.busy l.context.id l.context hloop).mpr ⟨x, hx, hid⟩
  rw [h.idle] at hbusy
  contradiction

/-- Only the innermost run gets on its way. -/
theorem Shifted.pending (hs : s.Sound) (h : s.Shifted s' x below l l' stage') :
    s'.pending + Stage.ahead (some x.stage) l.context =
      s.pending + Stage.ahead stage' l'.context := by
  have hnodup := hs.nodup
  rw [h.before, List.map_cons, List.nodup_cons] at hnodup
  have hbelow : below.map s'.ahead = below.map s.ahead := by
    refine List.map_congr_left fun y hy => ahead_congr (h.replaced.context_other _ fun hid => ?_)
    exact hnodup.1 (hid ▸ List.mem_map_of_mem hy)
  have hx : s.ahead x = Stage.ahead (some x.stage) l.context := by
    rw [ahead, (World.loop?_eq_some.mp h.replaced.loop).1]
    rfl
  have hafter : s'.pending = Stage.ahead stage' l'.context + (below.map s.ahead).sum := by
    rw [Config.pending, h.after, List.map_append, List.sum_append, hbelow]
    cases stage' with
    | none => rfl
    | some stage =>
      simp [ahead, h.replaced.context_self]
  rw [hafter, Config.pending, h.before, List.map_cons, List.sum_cons, hx]
  omega

end Config

/-! ### What the runs have still to do -/

/-- What a run has still to do before it waits again or ends, apart from the turns of its pass. A
step of a callback can be a run. -/
def Activation.load (a : Activation) : Nat :=
  match a.phase with
  | .waiting => 1
  | .passing _ => 2
  | .calling _ call => 2 * call.rest.length + 3

namespace Machine

/-- What all runs have still to do. -/
def load (m : Machine) : Nat := (m.stack.map Activation.load).sum

variable {m : Machine} {w : World} {a : Activation} {below : List Activation} {l : Loop}
  {pass : Pass}

theorem load_cons {as : List Activation} (h : m.stack = a :: as) :
    m.load = a.load + (as.map Activation.load).sum := by
  rw [load, h, List.map_cons, List.sum_cons]

/-- An answer is taken down, which is nothing that was to be done. -/
theorem conclude_load (m : Machine) (answer : Answer) : (m.conclude answer).load = m.load := by
  unfold conclude
  dsimp only
  split
  · rfl
  · next a below hm =>
    split
    · next pass call hp => simp [load, hm, Activation.load, hp]
    · rfl

theorem conclude_unwaited (h : w.Unwaited m.world) (answer : Answer) :
    w.Unwaited (m.conclude answer).world := by
  have hsettle := h.trans m.world.unwaited_settle
  unfold conclude
  dsimp only
  split
  · exact hsettle
  · split <;> exact hsettle

theorem leave_load (m : Machine) (a : Activation) (below : List Activation) (l : Loop) :
    (m.leave a below l).load = (below.map Activation.load).sum :=
  conclude_load _ _

theorem leave_unwaited (h : w.Unwaited m.world) (a : Activation) (below : List Activation)
    (l : Loop) : w.Unwaited (m.leave a below l).world :=
  conclude_unwaited (h.trans (m.world.unwaited_putLoop _ _)) _

theorem perform_load (m : Machine) (current : Option Nat) (command : Command) :
    (m.perform current command).load ≤ m.load + 1 := by
  unfold perform
  split
  · rw [conclude_load]
    exact Nat.le_succ _
  · rw [load_cons rfl, Nat.add_comm]
    rfl

theorem perform_unwaited (m : Machine) (current : Option Nat) (command : Command) :
    m.world.Unwaited (m.perform current command).world := by
  have h := m.world.unwaited_perform current command
  unfold perform
  split
  · next w answer hr =>
    rw [hr] at h
    exact conclude_unwaited h _
  · next w context flags deadline hr =>
    rw [hr] at h
    exact h

theorem endPass_load (m : Machine) (a : Activation) (below : List Activation) (l : Loop)
    (pass : Pass) : (m.endPass a below l pass).load ≤ 1 + (below.map Activation.load).sum := by
  unfold endPass
  split
  · rw [leave_load]
    exact Nat.le_add_left _ _
  · exact Nat.le_refl _

theorem endPass_unwaited (h : w.Unwaited m.world) (a : Activation) (below : List Activation)
    (l : Loop) (pass : Pass) : w.Unwaited (m.endPass a below l pass).world := by
  unfold endPass
  split
  · exact leave_unwaited h _ _ _
  · exact h

theorem beginCall_unwaited (hw : w.Unwaited m.world) (a : Activation) (below : List Activation)
    (c : Context) (pass : Pass) (h : Handle) (events : Events) :
    w.Unwaited (m.beginCall a below c pass h events).world := by
  have hput := hw.trans (m.world.unwaited_putContext a.context (c.lendCallback h).1)
  unfold beginCall
  dsimp only
  split
  · exact hput
  · exact hput.trans (World.unwaited_settle _)

theorem stepPassing_unwaited (m : Machine) (a : Activation) (below : List Activation) (l : Loop)
    (pass : Pass) : m.world.Unwaited (m.stepPassing a below l pass).world := by
  unfold stepPassing
  dsimp only
  split
  · exact endPass_unwaited (.refl _) _ _ _ _
  · have hput := m.world.unwaited_putContext a.context
      { l.context with roster := l.context.roster.next.1 }
    split
    · split
      · exact beginCall_unwaited hput _ _ _ _ _ _
      · exact hput.trans (World.unwaited_putContext _ _ _)
    · exact endPass_unwaited hput _ _ _ _

/-- The last visit of a pass ends it. -/
theorem stepPassing_ends (m : Machine) (a : Activation) (below : List Activation) (pass : Pass)
    (h : l.context.roster.next.2 = none ∨ l.context.running = false) :
    ∃ w l', m.stepPassing a below l pass =
      ({ m with world := w } : Machine).endPass a below l' pass := by
  cases hi : l.context.roster.next.2 with
  | none => exact ⟨m.world, l, stepPassing_last m a below pass l hi⟩
  | some i =>
    rw [hi] at h
    have hrun := h.resolve_left (Option.some_ne_none i)
    exact ⟨_, _, stepPassing_stopped m a below pass l hi hrun⟩

theorem enterPass_unwaited (m : Machine) (a : Activation) (below : List Activation) (l : Loop)
    (signals : Signals) : m.world.Unwaited (m.enterPass a below l signals).world := by
  unfold enterPass
  split
  · exact leave_unwaited (.refl _) _ _ _
  · exact ⟨rfl⟩

/-- A run that waits ends without a wait, or makes one. -/
theorem stepWaiting_cases (m : Machine) (a : Activation) (below : List Activation) (l : Loop) :
    m.stepWaiting a below l = m.leave a below l ∨
      (m.stepWaiting a below l).abort.isSome = true ∨
      (m.stepWaiting a below l).world.waits = m.world.waits + 1 := by
  unfold stepWaiting
  split
  · exact Or.inl rfl
  · refine Or.inr ?_
    dsimp only
    split
    · exact Or.inl rfl
    · exact Or.inr (enterPass_unwaited _ _ _ _ _).waits
    · exact Or.inr (enterPass_unwaited _ _ _ _ _).waits

/-! ### Every small step leaves less to go -/

/-- The waits that are left if there are to be no more than so many, then the slots on the way of
the passes, then what the runs have still to do. -/
def toGo (limit : ℕ) (m : Machine) : ℕ ×ₗ ℕ ×ₗ ℕ :=
  toLex (limit - m.world.waits, toLex (m.config.pending, m.load))

variable {limit : ℕ} {m' : Machine}

theorem toGo_lt_of_waits (hw : m'.world.waits = m.world.waits + 1)
    (hmore : m.world.waits < limit) : m'.toGo limit < m.toGo limit := by
  rw [toGo, toGo, Prod.Lex.toLex_lt_toLex, hw]
  exact Or.inl (by dsimp only; omega)

theorem toGo_lt_of_pending (hw : m.world.Unwaited m'.world)
    (h : m'.config.pending < m.config.pending) : m'.toGo limit < m.toGo limit := by
  rw [toGo, toGo, Prod.Lex.toLex_lt_toLex, hw.waits]
  exact Or.inr ⟨rfl, Prod.Lex.toLex_lt_toLex.mpr (Or.inl h)⟩

theorem toGo_lt_of_load (hw : m.world.Unwaited m'.world)
    (h : m'.config.pending ≤ m.config.pending) (hload : m'.load < m.load) :
    m'.toGo limit < m.toGo limit := by
  rcases Nat.lt_or_eq_of_le h with hlt | heq
  · exact toGo_lt_of_pending hw hlt
  · rw [toGo, toGo, Prod.Lex.toLex_lt_toLex, hw.waits]
    exact Or.inr ⟨rfl, Prod.Lex.toLex_lt_toLex.mpr (Or.inr ⟨heq, hload⟩)⟩

theorem perform_pending_le (hs : m.config.Sound) (hmirrored : m.world.Mirrored)
    (current : Option Nat) (command : Command)
    (hw : ∀ x ∈ m.config.standings.head?, x.stage.IsCalling) :
    (m.perform current command).config.pending ≤ m.config.pending := by
  rcases perform_cases hs.world current command hw with hacted | ⟨l, hentered⟩
  · exact hacted.pending_le hs hmirrored
  · exact hentered.pending_le hs

theorem Advanced.pending (hs : m.config.Sound) (h : m.Advanced m' a below l) :
    ∃ stage l', Dispatch l (m.world.now l.context) a.standing.stage stage l' ∧
      m'.config.pending + Stage.ahead (some a.standing.stage) l.context ≤
        m.config.pending + Stage.ahead stage l'.context := by
  obtain ⟨s, l', stage, hd, hsettled⟩ := h
  have hs' := hs.dispatched hd
  have hshift := hd.pending hs
  have hle := (hsettled.calmed hs'.world).pending_le hs'
  exact ⟨stage, l', hd.dispatch, by omega⟩

variable (hs : m.config.Sound) (hm : m.stack = a :: below)
  (hl : m.world.loop? a.context = some l)
include hs hm hl

omit hs in
theorem lent_at (hlent : m.config.Holds Context.Lent) :
    l.context.Lent (some a.standing.stage) := by
  exact hlent _ _ _ (World.loop?_eq_some.mp hl).1
    (Config.standsAt_of_mem (hm ▸ List.mem_cons_self))

theorem Advanced.pending_le (hlent : m.config.Holds Context.Lent)
    (hw : ∀ deadline, a.standing.stage ≠ .waiting deadline) (h : m.Advanced m' a below l) :
    m'.config.pending ≤ m.config.pending := by
  obtain ⟨stage, l', hd, hle⟩ := h.pending hs
  have hahead := hd.ahead_le (hs.world.loop hl).2 (lent_at hm hl hlent) hw
  omega

theorem leave_toGo (hp : a.phase = .waiting) :
    (m.leave a below l).toGo limit < m.toGo limit := by
  have hstage : a.standing.stage = .waiting a.deadline := by rw [Activation.standing, hp]
  let s : Config := ⟨m.world.putLoop a.context (l.mapContext fun c => { c with busy := false }),
    below.map Activation.standing⟩
  have hd : m.config.Dispatched s a.standing (below.map Activation.standing) l
      (l.mapContext fun c => { c with busy := false }) none :=
    ⟨⟨World.replaced_putLoop hl rfl rfl, by rw [config, hm]; rfl, rfl⟩, hstage ▸ .finished⟩
  have hcalm : s.Calmed (m.leave a below l).config :=
    (leave_settled m a below l).calmed (hd.sound hs.world)
  have hpending := hd.pending hs
  rw [hstage] at hpending
  refine toGo_lt_of_load (leave_unwaited (.refl _) _ _ _) ?_ ?_
  · exact (hcalm.pending_le (hs.dispatched hd)).trans (Nat.le_of_eq hpending)
  · rw [leave_load, load_cons hm, Activation.load, hp]
    exact Nat.lt_add_of_pos_left Nat.one_pos

theorem stepWaiting_toGo (hp : a.phase = .waiting)
    (habort : (m.stepWaiting a below l).abort = none) (hmore : m.world.waits < limit) :
    (m.stepWaiting a below l).toGo limit < m.toGo limit := by
  rcases m.stepWaiting_cases a below l with hleave | hnone | hw
  · rw [hleave]
    exact leave_toGo hs hm hl hp
  · rw [habort] at hnone
    contradiction
  · exact toGo_lt_of_waits hw hmore

theorem stepPassing_toGo (hlent : m.config.Holds Context.Lent) (hp : a.phase = .passing pass) :
    (m.stepPassing a below l pass).toGo limit < m.toGo limit := by
  have hstage : a.standing.stage = .passing pass := by rw [Activation.standing, hp]
  have hadvanced := stepPassing_advanced hs.world hm hl hp
  have hunwaited := m.stepPassing_unwaited a below l pass
  by_cases hend : l.context.roster.next.2 = none ∨ l.context.running = false
  · -- the pass ends, which leaves the run with less to do
    have hpending := hadvanced.pending_le hs hm hl hlent (by simp [hstage])
    obtain ⟨w, l', hends⟩ := m.stepPassing_ends a below pass hend
    refine toGo_lt_of_load hunwaited hpending ?_
    have hle := endPass_load { m with world := w } a below l' pass
    rw [hends, load_cons hm, Activation.load, hp]
    dsimp only
    omega
  · -- a turn takes a slot off the way
    rw [not_or] at hend
    obtain ⟨i, hi⟩ := Option.ne_none_iff_exists'.mp hend.1
    obtain ⟨stage, l', hd, hle⟩ := hadvanced.pending hs
    have hlent' := lent_at hm hl hlent
    rw [hstage] at hd hle hlent'
    have hlt := hd.ahead_lt (hs.world.loop hl).2 hlent' hi (by simpa using hend.2)
    exact toGo_lt_of_pending hunwaited (by omega)

theorem endCall_toGo (hlent : m.config.Holds Context.Lent) {call : Call}
    (hp : a.phase = .calling pass call) :
    (m.endCall a below l pass call).toGo limit < m.toGo limit := by
  have hstage : a.standing.stage = .calling pass call.watcher := by rw [Activation.standing, hp]
  have hadvanced := endCall_advanced hm hl hp
  refine toGo_lt_of_load ⟨rfl⟩ (hadvanced.pending_le hs hm hl hlent (by simp [hstage])) ?_
  rw [load_cons hm, Activation.load, hp, load_cons rfl]
  dsimp only [Activation.load]
  omega

omit hl in
theorem command_toGo (hmirrored : m.world.Mirrored) {call : Call} {command : Command}
    {rest : List Command} (hp : a.phase = .calling pass call)
    (hrest : call.rest = command :: rest) :
    (({ m with stack := { a with phase := .calling pass { call with rest } } :: below } :
      Machine).perform (some a.context) command).toGo limit < m.toGo limit := by
  let m₁ : Machine :=
    { m with stack := { a with phase := .calling pass { call with rest } } :: below }
  have hsame : m₁.config = m.config := by simp [m₁, config, hm, Activation.standing, hp]
  have hcalling : ∀ x ∈ m₁.config.standings.head?, x.stage.IsCalling := by
    simp [m₁, config, Activation.standing, Stage.IsCalling]
  have hs₁ : m₁.config.Sound := hsame ▸ hs
  have hpending := perform_pending_le hs₁ hmirrored (some a.context) command hcalling
  refine toGo_lt_of_load (m₁.perform_unwaited _ _) (hsame ▸ hpending) ?_
  refine Nat.lt_of_le_of_lt (m₁.perform_load _ command) ?_
  rw [load_cons hm, load_cons (m := m₁) rfl, Activation.load, Activation.load, hp]
  dsimp only
  rw [hrest, List.length_cons]
  omega

omit hm hl in
/-- Every small step leaves less to go, unless it aborts or may not wait. -/
theorem step_toGo (hmirrored : m.world.Mirrored) (hlent : m.config.Holds Context.Lent)
    (hne : m.stack ≠ []) (habort : m.step.abort = none) (hmore : m.world.waits < limit) :
    m.step.toGo limit < m.toGo limit := by
  obtain ⟨a, below, hm⟩ := List.exists_cons_of_ne_nil hne
  obtain ⟨c, hc⟩ := hs.present _ (Config.standsAt_of_mem (hm ▸ List.mem_cons_self : a ∈ m.stack))
  obtain ⟨l, hl⟩ : ∃ l, m.world.loop? a.context = some l := ⟨_, World.loop?_of_context? hc⟩
  unfold step at habort ⊢
  simp only [hm, hl] at habort ⊢
  cases hp : a.phase with
  | waiting =>
    simp only [hp] at habort ⊢
    exact stepWaiting_toGo hs hm hl hp habort hmore
  | passing pass => exact stepPassing_toGo hs hm hl hlent hp
  | calling pass call =>
    cases hrest : call.rest with
    | nil =>
      simp only [hrest]
      exact endCall_toGo hs hm hl hlent hp
    | cons command rest =>
      simp only [hrest]
      exact command_toGo hs hm hmirrored hp hrest

end Machine

/-! ### The end -/

theorem inductive_pass :
    Config.Inductive fun s => s.world.Mirrored ∧ s.Holds Context.Lent :=
  inductive_mirrored.and stageInvariant_lent.inductive

theorem reachable_pass {m : Machine} (h : m.Reachable) :
    m.config.Sound ∧ m.world.Mirrored ∧ m.config.Holds Context.Lent :=
  inductive_pass.reachable
    (fun _ _ => ⟨(fun _ _ hq => nomatch hq), fun _ _ _ hc => nomatch hc⟩) h

theorem Machine.Reachable.advances {m : Machine} (h : m.Reachable) (n : Nat)
    (hgo : ∀ k < n, (Machine.step^[k] m).isDone = false) : (Machine.step^[n] m).Reachable := by
  induction n with
  | zero => exact h
  | succ n ih =>
    rw [Function.iterate_succ_apply']
    exact (ih fun k hk => hgo k (Nat.lt_succ_of_lt hk)).advance (hgo n n.lt_succ_self)

/-- Small steps bring every step of a scenario to its end, or abort it, or make as many waits as one
likes. -/
theorem Machine.Reachable.terminates {m : Machine} (h : m.Reachable) (limit : ℕ) :
    ∃ n, (Machine.step^[n] m).isDone = true ∨ limit ≤ (Machine.step^[n] m).world.waits := by
  induction hgo : m.toGo limit using WellFoundedLT.induction generalizing m with
  | ind go ih =>
    subst hgo
    cases hdone : m.isDone with
    | true => exact ⟨0, Or.inl hdone⟩
    | false =>
      obtain ⟨hne, hnone⟩ := Machine.going_of_not_done hdone
      have hstep : m.step.Reachable := h.step (.advanced hne hnone)
      rcases Nat.lt_or_ge m.world.waits limit with hmore | hmany
      · cases habort : m.step.abort with
        | some abort => exact ⟨1, Or.inl (by simp [isDone, habort])⟩
        | none =>
          obtain ⟨hs, hmirrored, hlent⟩ := reachable_pass h
          obtain ⟨n, hn⟩ := ih _ (step_toGo hs hmirrored hlent hne habort hmore) hstep rfl
          exact ⟨n + 1, hn⟩
      · exact ⟨0, Or.inr hmany⟩

end EventLoop
