import EventLoop.Proofs.Deadline

/-!
# Requests to exit

A request to exit leaves a note in the context and raises a signal, both in one step. The note lasts
until the loop exits, because the request is honoured or for any other reason; the signal lasts until
a wait takes it. A wait honours a request if it finds both, and as long as the note is there, so is
the signal whenever a run is about to wait. So a request ends one run at most, and a signal that is
left over ends none.
-/
namespace EventLoop
namespace World

variable {w : World} {id : Nat} {current : Option Nat} {command : Command} {c : Context}

/-- Whether the loop of a context has been asked to exit, and has not exited since. -/
def isAsked (w : World) (id : Nat) : Bool := (w.context? id).any Context.exitAsked

/-- Whether anything is linked in a context. -/
def hasLinked (w : World) (id : Nat) : Bool := (w.context? id).any fun c => !c.roster.isEmpty

/-- The loop that a step asks to exit. -/
def asks? (w : World) : Command → Option Nat
  | .requestExit handle => (w.loopHandles.find? handle).filter fun id => (w.context? id).isSome
  | _ => none

theorem isAsked_of_context? (h : w.context? id = some c) : w.isAsked id = c.exitAsked := by
  rw [isAsked, h, Option.any_some]

theorem isAsked_iff : w.isAsked id = true ↔ ∃ c, w.context? id = some c ∧ c.exitAsked = true := by
  simp only [isAsked, Option.any_eq_true]

theorem not_isAsked_of_dropped (h : w.Dropped id) : w.isAsked id = false := by
  rw [isAsked, h.2]
  rfl

/-- After a request the loop is asked to exit. -/
theorem perform_isAsked (h : w.asks? command = some id) :
    (w.perform current command).1.isAsked id = true := by
  unfold asks? at h
  split at h
  · next handle =>
    obtain ⟨hname, hthere⟩ := Option.filter_eq_some_iff.mp h
    obtain ⟨c, hc⟩ := Option.isSome_iff_exists.mp hthere
    rw [perform, withName, hname]
    dsimp only
    rw [throughHandle, hc]
    exact isAsked_of_context? (context?_put_self hc _)
  · contradiction

/-- A loop is asked to exit after a step only if the step asks it to, or it was asked before. -/
theorem asked_before (hs : w.Sound) (h : (w.perform current command).1.isAsked id = true) :
    w.asks? command = some id ∨ w.isAsked id = true := by
  obtain ⟨c', hc', hasked⟩ := isAsked_iff.mp h
  have heffect := perform_contextEffect hs current command id
  rw [hc'] at heffect
  cases heffect with
  | kept hsame => exact Or.inr (isAsked_iff.mpr ⟨c', hsame.symm, hasked⟩)
  | created => contradiction
  | operated _ hl hoperated =>
    obtain ⟨hid, hsl⟩ := hs.loop hl
    have hc := (loop?_eq_some.mp hl).1
    have hsame : _ = w.isAsked id := (isAsked_of_context? hc).symm
    cases hoperated with
    | touched ht => exact Or.inr (hsame.symm.trans (ht.frame.2.1.symm.trans hasked))
    | asked hcommand hname =>
      rw [hid] at hname
      exact Or.inl (hcommand ▸ Option.filter_eq_some_iff.mpr ⟨hname, by rw [hc]; rfl⟩)
    | exited => contradiction
    | entered =>
      obtain ⟨watchers, he, -⟩ := entering_spec (w := w) hsl
      rw [he] at hasked
      exact Or.inr (hsame.symm.trans hasked)

/-- A loop that is asked to exit stays so, unless the step exits it or drops its context. -/
theorem perform_asked_on (hs : w.Sound) (current : Option Nat) (command : Command)
    (h : w.isAsked id = true) : (w.perform current command).1.isAsked id = true ∨
      w.exits? current command = some id ∨
      ∃ l, command = .dropContext id ∧ w.usable? none id = some l := by
  obtain ⟨c, hc, hasked⟩ := isAsked_iff.mp h
  have heffect := perform_contextEffect hs current command id
  generalize hafter : (w.perform current command).1.context? id = after at heffect
  cases heffect with
  | kept hsame => exact Or.inl (isAsked_iff.mpr ⟨c, hafter.trans (hsame.trans hc), hasked⟩)
  | created hnone => exact nomatch hnone.symm.trans hc
  | operated _ hl hoperated =>
    obtain ⟨hid, hsl⟩ := hs.loop hl
    obtain rfl := Option.some.inj ((loop?_eq_some.mp hl).1.symm.trans hc)
    cases hoperated with
    | touched ht => exact Or.inl ((isAsked_of_context? hafter).trans (ht.frame.2.1.trans hasked))
    | asked => exact Or.inl (isAsked_of_context? hafter)
    | exited hexits => exact Or.inr (Or.inl (hid ▸ hexits))
    | dropped hcommand hu => exact Or.inr (Or.inr ⟨_, hid ▸ hcommand, hid ▸ hu⟩)
    | entered =>
      obtain ⟨watchers, he, -⟩ := entering_spec (w := w) hsl
      exact Or.inl ((isAsked_of_context? hafter).trans (he ▸ hasked))

end World

namespace Transition

variable {t : Transition} {id : Nat}

/-! ### When a loop is asked to exit -/

/-- A loop is asked to exit, through a handle. -/
def Requests (t : Transition) (id : Nat) : Prop :=
  ∃ current command reaction, t.deed = .command current command reaction ∧
    t.before.world.asks? command = some id

theorem settled_isAsked {w w' : World} (h : w' = w ∨ w' = w.settle) :
    w'.isAsked id = w.isAsked id := World.settled_any (fun _ _ _ => rfl) h id

theorem Requests.isAsked (h : t.Requests id) : t.after.world.isAsked id = true := by
  obtain ⟨current, command, reaction, hdeed, hasks⟩ := h
  obtain ⟨waits, w, -, hperform, hw⟩ := commanded hdeed
  have hasked : (World.perform { t.before.world with waits } current command).1.isAsked id = true :=
    World.perform_isAsked hasks
  rw [hperform] at hasked
  exact (settled_isAsked hw).trans hasked

theorem Exits.not_isAsked (h : t.Exits id) : t.after.world.isAsked id = false := by
  obtain ⟨w, c, hw, hc, -, hasked, -⟩ := h.stopped
  exact (settled_isAsked hw).trans ((World.isAsked_of_context? hc).trans hasked)

/-- The dispatcher leaves a loop running and asked to exit as it is, or honours a request. -/
theorem dispatched_asked (hdeed : t.deed = .dispatch) :
    (t.after.world.isRunning id = t.before.world.isRunning id ∧
      t.after.world.isAsked id = t.before.world.isAsked id) ∨
      (t.Exits id ∧ t.before.world.isAsked id = true) := by
  have hsame : ∀ w : World, w.context? id = t.before.world.context? id →
      w.isRunning id = t.before.world.isRunning id ∧ w.isAsked id = t.before.world.isAsked id :=
    fun w hc => ⟨World.isRunning_congr hc, congrArg (Option.any _) hc⟩
  rcases dispatched hdeed with hsettled | ⟨a, below, l, s, l', stage, -, hd, hw, -⟩
  · exact Or.inl (hsame _ (World.context?_congr hsettled id))
  · rw [settled_isAsked hw, World.settled_isRunning hw]
    by_cases hid : id = a.context
    · have hc : t.before.world.context? id = some l.context :=
        hid ▸ (World.loop?_eq_some.mp hd.replaced.loop).1
      have hc' : s.world.context? id = some l'.context := hid ▸ hd.replaced.context_self
      rw [World.isAsked_of_context? hc', World.isAsked_of_context? hc,
        World.isRunning_of_context? hc', World.isRunning_of_context? hc]
      refine hd.dispatch.asked.imp_right fun ⟨hrun, hasked, hstopped, _⟩ => ⟨?_, hasked⟩
      refine Or.inr ⟨hdeed, (World.isRunning_of_context? hc).trans hrun, ?_⟩
      rw [World.settled_isRunning hw, World.isRunning_of_context? hc', hstopped]
    · exact Or.inl (hsame _ (hd.replaced.context_other id hid))

/-- The dispatcher exits a loop only if it is asked to. -/
theorem Exits.asked_of_dispatch (h : t.Exits id) (hdeed : t.deed = .dispatch) :
    t.before.world.isAsked id = true := by
  rcases h with ⟨_, _, _, hdeed', -⟩ | ⟨-, hrun, hstopped⟩
  · exact nomatch hdeed.symm.trans hdeed'
  · rcases dispatched_asked hdeed with ⟨hsame, -⟩ | ⟨-, hasked⟩
    · exact nomatch hrun.symm.trans (hsame.symm.trans hstopped)
    · exact hasked

theorem asked_before (h : t.after.world.isAsked id = true) :
    t.Requests id ∨ t.before.world.isAsked id = true := by
  cases hdeed : t.deed with
  | command current command reaction =>
    obtain ⟨waits, w, hs, hperform, hw⟩ := commanded hdeed
    have hafter : (World.perform { t.before.world with waits } current command).1.isAsked id =
        true := by
      rw [hperform]
      exact (settled_isAsked hw).symm.trans h
    exact (World.asked_before hs hafter).imp_left fun hasks =>
      ⟨current, command, reaction, hdeed, hasks⟩
  | dispatch =>
    exact Or.inr ((dispatched_asked hdeed).elim (fun hsame => hsame.2.symm.trans h) And.right)
  | poll =>
    obtain ⟨p, entries, -, hw⟩ := polled hdeed
    rw [hw] at h
    exact Or.inr ((World.pollAmong_any (fun _ _ _ => rfl) t.before.world p entries id).symm.trans h)

/-- A loop that is asked to exit stays so until it exits, or its context is dropped. -/
theorem asked_on (h : t.before.world.isAsked id = true) :
    t.after.world.isAsked id = true ∨ t.Exits id ∨ t.after.world.Dropped id := by
  cases hdeed : t.deed with
  | command current command reaction =>
    obtain ⟨waits, w, hs, hperform, hw⟩ := commanded hdeed
    have hafter := World.perform_asked_on hs current command h
    rw [hperform] at hafter
    rw [settled_isAsked hw]
    refine hafter.imp_right fun hafter => hafter.imp (fun hexits => ?_) fun ⟨l, hcommand, hu⟩ => ?_
    · exact Or.inl ⟨current, command, reaction, hdeed, hexits⟩
    · exact dropped (hcommand ▸ hdeed) hu
  | dispatch =>
    exact (dispatched_asked hdeed).imp (fun hsame => hsame.2.trans h) fun h => Or.inl h.1
  | poll =>
    obtain ⟨p, entries, -, hw⟩ := polled hdeed
    rw [hw]
    exact Or.inl ((World.pollAmong_any (fun _ _ _ => rfl) t.before.world p entries id).trans h)

/-- A pass begins only if the loop is not asked to exit. -/
theorem BeginsPass.not_isAsked (h : t.BeginsPass id) : t.before.world.isAsked id = false := by
  obtain ⟨deadline, hst⟩ := h.1
  obtain ⟨c, c', signals, hbegun⟩ := h.begun
  rw [World.isAsked_of_context? hbegun.before, ← Bool.not_eq_true]
  intro hasked
  have hraised := (t.reachable.signalled hbegun.before hst).exit hasked
  obtain ⟨timeout, hwoken⟩ := hbegun.woken
  have htaken : signals.has .exit = true := Wakeups.has_of_taken hwoken hraised
  have hunasked := hbegun.unasked
  rw [htaken, hasked] at hunasked
  contradiction

end Transition

/-- A loop is asked to exit from a request on, until it exits or its context is dropped. -/
theorem History.isAsked_iff {past : List Transition} {m : Machine} {id : Nat} (h : History past m) :
    m.world.isAsked id = true ↔
      Since (fun s => s.Requests id) (fun s => ¬ s.Exits id) past ∧ ¬ m.world.Dropped id := by
  constructor
  · refine fun hasked => ⟨h.origin (I := fun m => m.world.isAsked id = true) hasked ?_ ?_, ?_⟩
    · exact fun _ _ h => nomatch h
    · intro t hafter
      refine (t.asked_before hafter).imp_right fun hbefore => ⟨hbefore, fun hexits => ?_⟩
      exact nomatch hafter.symm.trans hexits.not_isAsked
    · exact fun hgone => nomatch hasked.symm.trans (World.not_isAsked_of_dropped hgone)
  · rintro ⟨hsince, hthere⟩
    refine (h.since (I := fun m => m.world.isAsked id = true ∨ m.world.Dropped id) hsince
      (fun _ hrequests => Or.inl hrequests.isAsked) fun t hexits hbefore => ?_).resolve_right hthere
    rcases hbefore with hasked | hgone
    · exact (t.asked_on hasked).imp_right fun h => h.resolve_left hexits
    · exact Or.inr (t.step (Config.inductive_dropped id) hgone t.state.1)

namespace Clock

variable {c : Clock}

/-- A wait takes time off no clock, unless a step has set it beyond its largest value. -/
theorem le_elapse (us : Nat) (h : c.time ≤ counterMax) :
    c.time ≤ (c.elapse us).time ∧ (c.elapse us).time ≤ counterMax := by
  unfold elapse
  split
  · exact ⟨Nat.le_refl _, h⟩
  · simp only [advance, satAdd]
    omega

theorem le_beginWait (h : c.time ≤ counterMax) : c.time ≤ c.beginWait.time := (le_elapse _ h).1

theorem le_elapse_beginWait (us : Nat) (h : c.time ≤ counterMax) :
    c.time ≤ (c.beginWait.elapse us).time :=
  (le_beginWait h).trans (le_elapse us (le_elapse c.tick h).2).1

end Clock

/-! ### Waits of a loop that is asked to exit -/

namespace Machine

variable {m m' : Machine} {a : Activation} {below : List Activation} {l : Loop} {id : Nat}

/-- The innermost run, which is one of the context, returns in the next step. It answers these calls
and no error. -/
def Returns (m : Machine) (id : Nat) (calls : List (CallRecord Answer)) : Prop :=
  ∃ a below world, m.stack = a :: below ∧ a.context = id ∧ a.calls = calls ∧
    m.step = ({ m with world, stack := below } : Machine).conclude (.ran none calls)

/-- The loop is neither running nor asked to exit, and none of its watchers is active. -/
structure Stopped (m : Machine) (id : Nat) : Prop where
  running : m.world.isRunning id = false
  unasked : m.world.isAsked id = false
  idle : ∀ r : WatcherRef, r.owner = id → ∀ e, m.world.meant? r = some e → e.isActive = false

theorem AtWait.step (h : m.AtWait a below l) :
    m.step = m.afterWait a below l
      (l.context.wakeups.wait (Mask.full Signal) (waitTimeout m.world a l.context)).1
      (l.context.wakeups.wait (Mask.full Signal) (waitTimeout m.world a l.context)).2 := by
  rw [step_waiting h.stack h.loop h.waiting,
    stepWaiting_eq m a below (by rw [h.running, h.linked]; rfl)]

theorem AtWait.standsAt (h : m.AtWait a below l) :
    m.config.StandsAt a.context (some (.waiting a.deadline)) := by
  have hst := Config.standsAt_of_mem (h.stack ▸ List.mem_cons_self : a ∈ m.stack)
  rwa [Activation.standing, h.waiting] at hst

theorem AtWait.idle (h : m.AtWait a below l) : ¬ a.standing.stage.IsCalling := by
  rw [Activation.standing, h.waiting]
  exact not_false

/-- A run that leaves its loop returns the calls that it has made. -/
theorem returns_of_leave {m₁ : Machine} {l : Loop} {world : World} (hm : m.stack = a :: below)
    (hm₁ : m₁ = { m with world }) (hstep : m.step = m₁.leave a below l) :
    m.Returns a.context a.calls := by
  subst hm₁
  exact ⟨a, below, _, hm, rfl, rfl, hstep⟩

theorem leave_context? {c : Context} (m : Machine) (below : List Activation) {l : Loop}
    (hc : m.world.context? a.context = some c) : ∃ w : World,
      (m.leave a below l).world = w.settle ∧
        w.context? a.context = some { l.context with busy := false } := by
  refine ⟨_, (conclude_frame _ _).1, ?_⟩
  exact World.context?_putLoop_self hc (l.mapContext fun c => { c with busy := false })

/-- A run that leaves a loop that has exited leaves it stopped. -/
theorem leave_stopped {c : Context} (m : Machine) (below : List Activation) (l : Loop)
    (hc : m.world.context? a.context = some c) :
    (m.leave a below l.exit).world.isRunning a.context = false := by
  obtain ⟨w, hw, hc'⟩ := leave_context? m below (l := l.exit) hc
  rw [World.settled_isRunning (Or.inr hw), World.isRunning_of_context? hc']
  rfl

/-- A wait that finds a request honours it: the run returns and the loop is stopped. -/
theorem AtWait.honours (h : m.AtWait a below l) (hreach : m.Reachable)
    (hasked : l.context.exitAsked = true) :
    m.Returns a.context a.calls ∧ m.step.Stopped a.context := by
  have hc := (World.loop?_eq_some.mp h.loop).1
  have hraised := (hreach.signalled hc h.standsAt).exit hasked
  obtain ⟨signals, hwoken, htaken⟩ :=
    Wakeups.woken_of_raised hraised (waitTimeout m.world a l.context)
  have hleave : ∃ l₁ : Loop, m.step = (m.waited m.world.clock.beginWait).leave a below l₁.exit := by
    rw [h.step, hwoken]
    exact ⟨_, if_pos (Bool.and_eq_true_iff.mpr ⟨htaken, hasked⟩)⟩
  obtain ⟨l₁, hleave⟩ := hleave
  let t : Transition := ⟨m, .dispatch, m.step, hreach,
    .dispatched (h.stack ▸ List.cons_ne_nil a below) h.going (next?_of_idle h.stack h.idle)⟩
  have hexits : t.Exits a.context := by
    refine Or.inr ⟨rfl, (World.isRunning_of_context? hc).trans h.running, ?_⟩
    show m.step.world.isRunning a.context = false
    rw [hleave]
    exact leave_stopped (m.waited m.world.clock.beginWait) below l₁ hc
  exact ⟨returns_of_leave h.stack rfl hleave, hexits.isRunning, hexits.not_isAsked,
    fun r hr e he => Transition.Exits.isActive (hr.symm ▸ hexits) he⟩

/-- A wait that ends without a request begins a pass with all that was raised. -/
theorem AtWait.begins (h : m.AtWait a below l) (hunasked : l.context.exitAsked = false)
    (hends : (l.context.wakeups.wait (Mask.full Signal)
      (waitTimeout m.world a l.context)).2 ≠ .forever) :
    ∃ clock waits wakeups signals, m.step = m.beginPass clock waits wakeups signals ∧
      (m.world.clock.time ≤ counterMax → m.world.clock.time ≤ clock.time) ∧
      ∀ s, l.context.wakeups.raised.has s = true → signals.has s = true := by
  have hpass : ∀ clock signals,
      (m.waited clock).enterPass a below
        (l.mapContext fun c => { c with
          wakeups := (l.context.wakeups.wait (Mask.full Signal)
            (waitTimeout m.world a l.context)).1 }) signals =
        m.beginPass clock (m.world.waits + 1) (l.context.wakeups.wait (Mask.full Signal)
          (waitTimeout m.world a l.context)).1 signals := by
    intro clock signals
    rw [beginPass_eq h.stack h.loop]
    refine if_neg ?_
    change ¬ (signals.has .exit && l.context.exitAsked) = true
    rw [hunasked, Bool.and_false]
    exact Bool.false_ne_true
  have hstep := h.step
  cases hwait : (l.context.wakeups.wait (Mask.full Signal)
      (waitTimeout m.world a l.context)).2 with
  | forever => exact absurd hwait hends
  | elapsed us =>
    rw [hwait] at hstep
    refine ⟨_, _, _, ∅, hstep.trans (hpass _ _), Clock.le_elapse_beginWait us, fun s hs => ?_⟩
    rw [Wakeups.has_of_not_woken (fun signals he => nomatch hwait.symm.trans he)] at hs
    contradiction
  | woken signals =>
    rw [hwait] at hstep
    refine ⟨_, _, _, signals, hstep.trans (hpass _ _), Clock.le_beginWait, fun s hs => ?_⟩
    rw [Wakeups.woken_has hwait, hs]

/-- A signal to exit that is left over ends no run: the pass begins all the same. -/
theorem AtWait.passes (h : m.AtWait a below l) (hasked : l.context.exitAsked = false)
    (hraised : l.context.wakeups.raised.has .exit = true) :
    ∃ signals, signals.has .exit = true ∧ m.step.config.Passes a.context signals := by
  obtain ⟨_, hwoken, -⟩ :=
    Wakeups.woken_of_raised hraised (waitTimeout m.world a l.context)
  obtain ⟨_, _, _, signals, hstep, -, htaken⟩ := h.begins hasked
    fun hforever => nomatch hwoken.symm.trans hforever
  rw [beginPass_eq h.stack h.loop] at hstep
  refine ⟨signals, htaken .exit hraised, .passing ⟨signals, 0, none⟩, ?_, rfl⟩
  rw [hstep]
  exact List.mem_cons_self

/-- A run with nothing linked returns, and leaves a request as it is. -/
theorem returns_of_empty (hm : m.stack = a :: below) (hp : a.phase = .waiting)
    (hl : m.world.loop? a.context = some l) (hempty : l.context.roster.isEmpty = true) :
    m.Returns a.context a.calls ∧ m.step.world.isAsked a.context = m.world.isAsked a.context := by
  have hc := (World.loop?_eq_some.mp hl).1
  have hleave : m.step = m.leave a below l := by
    rw [step_waiting hm hl hp, stepWaiting_over]
    rw [hempty, Bool.not_true, Bool.and_false]
  refine ⟨returns_of_leave hm rfl hleave, ?_⟩
  obtain ⟨w, hw, hc'⟩ := leave_context? m below (l := l) hc
  rw [← hleave] at hw
  rw [Transition.settled_isAsked (Or.inr hw), World.isAsked_of_context? hc',
    World.isAsked_of_context? hc]

end Machine

/-! ### Runs that are entered while the loop is asked to exit -/

theorem World.any_putContext {w : World} {f : Context → Bool} {j : Nat} {c c' : Context}
    (hc : w.context? j = some c) (hsame : f c' = f c) (id : Nat) :
    ((w.putContext j c').context? id).any f = (w.context? id).any f := by
  by_cases hid : id = j
  · rw [hid, context?_put_self hc, hc]
    exact hsame
  · rw [context?_put_other hid]

section

variable {f : Context → Bool}
  (hf : ∀ c watchers wakeups exitAsked, f { c with watchers, wakeups, exitAsked } = f c)

include hf

/-- Writing a remote timer changes watchers only. -/
theorem World.putCell_any (w : World) (r : WatcherRef) (t : RemoteTimer) (id : Nat) :
    ((w.putCell r t).context? id).any f = (w.context? id).any f := by
  rw [putCell]
  split
  · rfl
  · next c hc =>
    split
    · rfl
    · exact any_putContext hc (hf c _ c.wakeups c.exitAsked) id

/-- Waking a dispatcher changes its wake-ups only. -/
theorem World.raise_any (w : World) (j : Nat) (s : Signal) (id : Nat) :
    ((w.raise j s).context? id).any f = (w.context? id).any f := by
  rw [raise]
  split
  · next c hc => exact any_putContext hc (hf c c.watchers _ c.exitAsked) id
  · rfl

theorem World.actOnTimerHandle_any (w : World) (r : WatcherRef) (action : TimerHandleAction)
    (id : Nat) :
    ((w.actOnTimerHandle r action).1.context? id).any f = (w.context? id).any f := by
  have hassigned : ∀ result,
      ((w.assignCell r result).1.context? id).any f = (w.context? id).any f := by
    intro result
    rw [assignCell.eq_def]
    split
    · rfl
    · next t => exact (raise_any hf _ r.owner .timer id).trans (putCell_any hf w r t id)
  rw [actOnTimerHandle]
  split
  · rfl
  · cases action with
    | set timeout period => exact hassigned _
    | start => exact hassigned _
    | stop => exact putCell_any hf w r _ id
    | isActive => rfl

/-- What other threads do changes the watchers and wake-ups of a context, and asks it to exit. -/
theorem World.foreign_any (w : World) {command : Command} (hforeign : command.isForeign = true)
    (id : Nat) : ((w.perform none command).1.context? id).any f = (w.context? id).any f := by
  have hthrough : ∀ j (g : Context → Context), (∀ c, f (g c) = f c) →
      ((w.throughHandle j g).1.context? id).any f = (w.context? id).any f := by
    intro j g hg
    unfold throughHandle
    split
    · next c hc => exact any_putContext hc (hg c) id
    · rfl
  cases command with
  | timerHandle handle action =>
    rw [perform, withName]
    split
    · next r _ => exact actOnTimerHandle_any hf w r action id
    · rfl
  | post handle =>
    rw [perform, withName]
    split
    · next r _ =>
      refine hthrough _ _ fun c => ?_
      unfold Context.post
      split
      · split <;> exact hf c _ _ c.exitAsked
      · exact hf c c.watchers _ c.exitAsked
    · rfl
  | requestExit handle =>
    rw [perform, withName]
    split
    · exact hthrough _ _ fun c => hf c c.watchers _ true
    · rfl
  | isRunning handle =>
    rw [perform, withName]
    split <;> rfl
  | newPoller stack =>
    rw [perform, newPoller]
    split <;> rfl
  | poller number action =>
    obtain ⟨pollers, numbers, hw⟩ := w.perform_poller_frame none number action
    rw [hw]
    rfl
  | socket action => cases action <;> rfl
  | setClock us => rfl
  | advance us => rfl
  | _ => contradiction

end

namespace Machine

variable {m m' : Machine} {a : Activation} {below : List Activation} {id : Nat} {d : Deed}

theorem Meanwhile.runs (h : m.Meanwhile m') : ∃ world, m' = { m with world } := by
  cases h <;> exact ⟨_, rfl⟩

theorem Meanwhile.any {f : Context → Bool} (hf : ∀ c watchers wakeups exitAsked,
    f { c with watchers, wakeups, exitAsked } = f c) (h : m.Meanwhile m') (id : Nat) :
    (m'.world.context? id).any f = (m.world.context? id).any f := by
  cases h with
  | interfered command hforeign => exact World.foreign_any hf m.world hforeign id
  | polled p entries =>
    exact World.pollAmong_any (fun c _ _ => hf c _ _ c.exitAsked) m.world p entries id

/-- Only other threads and pollers do anything while the innermost run is not in a callback and does
not go on. -/
theorem Does.meanwhile (h : m.Does d m') (hm : m.stack = a :: below)
    (hidle : ¬ a.standing.stage.IsCalling) (hd : d ≠ .dispatch) : m.Meanwhile m' := by
  rcases h.of_idle hm hidle with ⟨hdispatch, -⟩ | ⟨-, hforeign⟩
  · exact absurd hdispatch hd
  · cases h with
    | submitted _ hnil => exact absurd (hm.symm.trans hnil) (List.cons_ne_nil _ _)
    | called => exact nomatch (hforeign _ _ _ rfl).1
    | dispatched => exact absurd rfl hd
    | interfered command hf => exact .interfered command hf
    | polled p entries hlisted => exact .polled p entries hlisted

/-- A run that is entered is the innermost, and has made no call. -/
theorem perform_enters {current : Option Nat} {command : Command} {flags : RunFlags}
    {deadline : Option Nat}
    (h : (m.world.perform current command).2 = .entered id flags deadline) :
    (m.perform current command).stack = ⟨id, flags, deadline, .waiting, []⟩ :: m.stack ∧
      (m.perform current command).abort = m.abort := by
  unfold perform
  generalize m.world.perform current command = r at h
  obtain ⟨w, reaction⟩ := r
  obtain rfl : reaction = .entered id flags deadline := h
  exact ⟨rfl, rfl⟩

theorem Does.enters (hs : m.config.Sound) {current : Option Nat} {command : Command}
    {flags : RunFlags} {deadline : Option Nat}
    (h : m.Does (.command current command (.entered id flags deadline)) m') :
    ∃ below, m'.stack = ⟨id, flags, deadline, .waiting, []⟩ :: below ∧ m'.abort = none := by
  generalize hr : Reaction.entered id flags deadline = reaction at h
  cases h with
  | submitted command _ habort =>
    obtain ⟨hstack, hsame⟩ := perform_enters
      (m := { m with world := { m.world with waits := 0 }, answer := none }) hr.symm
    exact ⟨_, hstack, hsame.trans habort⟩
  | called habort hnext =>
    obtain ⟨l, hl⟩ := loop?_of_next? hs hnext
    obtain ⟨m₁, hworld, -, hgoing, -, hstep⟩ := step_commanded hnext hl
    rw [← hworld] at hr
    obtain ⟨hstack, hsame⟩ := perform_enters hr.symm
    rw [hstep]
    exact ⟨_, hstack, hsame.trans (hgoing.trans habort)⟩
  | interfered command hf => cases command <;> contradiction

/-- The innermost run has been entered just now, of a loop that is asked to exit and has something
linked. -/
structure AtStart (m : Machine) (id : Nat) : Prop where
  stack : ∃ a below, m.stack = a :: below ∧ a.context = id ∧ a.phase = .waiting ∧ a.calls = []
  going : m.abort = none
  running : m.world.isRunning id = true
  linked : m.world.hasLinked id = true
  asked : m.world.isAsked id = true

theorem AtStart.atWait (h : m.AtStart id) : ∃ a below l, m.AtWait a below l ∧ a.context = id ∧
    a.calls = [] ∧ l.context.exitAsked = true := by
  obtain ⟨a, below, hm, rfl, hp, hcalls⟩ := h.stack
  obtain ⟨c, hc, hrun⟩ := World.isRunning_iff.mp h.running
  have hlinked := h.linked
  have hasked := h.asked
  rw [World.hasLinked, hc, Option.any_some, Bool.not_eq_true'] at hlinked
  rw [World.isAsked_of_context? hc] at hasked
  exact ⟨a, below, _, ⟨hm, h.going, hp, World.loop?_of_context? hc, hrun, hlinked⟩, rfl, hcalls,
    hasked⟩

end Machine

namespace Transition

variable {t : Transition} {id : Nat}

theorem Enters.atStart (h : t.Enters id) (hasked : t.before.world.isAsked id = true)
    (hlinked : t.before.world.hasLinked id = true) : t.after.AtStart id := by
  obtain ⟨current, command, flags, deadline, hdeed⟩ := h
  have hs := t.state.1
  have hdoes : t.before.Does _ t.after := hdeed ▸ t.does
  obtain ⟨l, rfl, he⟩ := hdoes.entered hs
  obtain ⟨below, hm, hgoing⟩ := hdoes.enters hs
  have hsl := (hs.world.loop he.replaced.loop).2
  have hc : t.before.world.context? l.context.id = some l.context :=
    (World.loop?_eq_some.mp he.replaced.loop).1
  have hc' : t.after.world.context? l.context.id = some (t.before.world.entering l).1 :=
    he.replaced.context_self
  obtain ⟨watchers, henter, -⟩ := World.entering_spec (w := t.before.world) hsl
  rw [henter] at hc'
  rw [World.isAsked_of_context? hc] at hasked
  rw [World.hasLinked, hc] at hlinked
  refine ⟨⟨_, below, hm, rfl, rfl, rfl⟩, hgoing, World.isRunning_of_context? hc', ?_,
    (World.isAsked_of_context? hc').trans hasked⟩
  rw [World.hasLinked, hc']
  exact hlinked

theorem atStart_keeps (hd : t.deed ≠ .dispatch) (h : t.before.AtStart id) :
    t.after.AtStart id := by
  obtain ⟨⟨a, below, hm, rfl, hp, hcalls⟩, hgoing, hrun, hlinked, hasked⟩ := h
  have hidle : ¬ a.standing.stage.IsCalling := by
    rw [Activation.standing, hp]
    exact not_false
  have hst := Config.standsAt_of_mem (hm ▸ List.mem_cons_self : a ∈ t.before.stack)
  have hmeanwhile := t.does.meanwhile hm hidle hd
  obtain ⟨world, hsame⟩ := hmeanwhile.runs
  have hrun' : t.after.world.isRunning a.context = true :=
    (hmeanwhile.any (fun _ _ _ _ => rfl) _).trans hrun
  refine ⟨⟨a, below, by rw [hsame, hm], rfl, hp, hcalls⟩, by rw [hsame, hgoing], hrun',
    (hmeanwhile.any (fun _ _ _ _ => rfl) _).trans hlinked, ?_⟩
  refine (t.asked_on hasked).resolve_right ?_
  rintro (hexits | hgone)
  · exact hd (hexits.dispatch_of_idle hst hidle)
  · obtain ⟨c, hc, -⟩ := World.isRunning_iff.mp hrun'
    rw [hgone.2] at hc
    contradiction

end Transition

/-! ### The rest of a pass -/

namespace Transition

variable {t : Transition} {r : WatcherRef} {call : Call} {id : Nat} {signals : Signals}
  {stage' : Stage}

/-- A run that stands anywhere but before a wait has not just been entered. -/
theorem stood_before (hst' : t.after.config.StandsAt id (some stage')) :
    (∃ stage, t.before.config.StandsAt id (some stage)) ∨
      ∃ deadline, stage' = .waiting deadline := by
  have hsame : ∀ {s s' : Config}, s'.standings = s.standings → s'.StandsAt id (some stage') →
      ∃ stage, s.StandsAt id (some stage) := fun h hst => ⟨_, hst.acted h.symm⟩
  have hs := t.state.1
  cases hdeed : t.deed with
  | command current command reaction =>
    have hdoes : t.before.Does (.command current command reaction) t.after := hdeed ▸ t.does
    rcases hdoes.commanded hs with hacted | ⟨l, hentered⟩
    · exact Or.inl (hsame hacted.standings hst')
    · rw [Config.StandsAt, hentered.standings] at hst'
      rcases List.mem_cons.mp hst' with hnew | hold
      · exact Or.inr ⟨_, congrArg Standing.stage hnew⟩
      · exact Or.inl ⟨_, hold⟩
  | poll =>
    have hdoes : t.before.Does .poll t.after := hdeed ▸ t.does
    exact Or.inl (hsame (hdoes.idled hs).standings hst')
  | dispatch =>
    have hdoes : t.before.Does .dispatch t.after := hdeed ▸ t.does
    rcases hdoes.advanced hs with hw | ⟨a, below, l, -, s, l', stage, hd, hsettled⟩
    · exact Or.inl (hsame hw.standings hst')
    · rw [Config.StandsAt, hsettled.standings, hd.after] at hst'
      rcases List.mem_append.mp hst' with hself | hbelow
      · obtain ⟨st, -, heq⟩ := Option.map_eq_some_iff.mp (Option.mem_toList.mp hself)
        have hid : a.standing.context = id := congrArg Standing.context heq
        refine Or.inl ⟨a.standing.stage, ?_⟩
        rw [Config.StandsAt, hd.before, ← hid]
        exact List.mem_cons_self
      · exact Or.inl ⟨_, by rw [Config.StandsAt, hd.before]; exact List.mem_cons_of_mem _ hbelow⟩

/-- A run is in a pass only if it was so before, or the pass begins. What is ahead was ahead
before. -/
theorem pass_before (hp' : t.after.config.Passes id signals) (hnot : ¬ t.BeginsPass id)
    {c' : Context} (hc' : t.after.world.context? id = some c') : ∃ c signals,
      t.before.config.Passes id signals ∧ t.before.world.context? id = some c ∧
      c'.roster.remaining.Sublist c.roster.remaining := by
  have hs := t.state.1
  obtain ⟨stage', hst', hsignals⟩ := hp'
  obtain ⟨stage, hst⟩ : ∃ stage, t.before.config.StandsAt id (some stage) := by
    refine (stood_before hst').resolve_right ?_
    rintro ⟨deadline, rfl⟩
    contradiction
  obtain ⟨c, hc⟩ : ∃ c, t.before.world.context? id = some c := hs.present _ hst
  rcases t.onward hst hc with ⟨hstill, c₁, hc₁, hon⟩ |
    ⟨a, below, s, l, l', st, hdeed, hm, rfl, hstage, rfl, hd, hsettled⟩
  · obtain rfl := hst'.unique t.state_after.1 hstill
    obtain rfl := Option.some.inj (hc'.symm.trans hc₁)
    exact ⟨c, signals, ⟨_, hst, hsignals⟩, hc, hon.rest⟩
  · obtain rfl := hd.toShifted.stage_eq hs t.state_after.1 hsettled hst'
    obtain ⟨-, c₁, hc₁, hr₁, -⟩ := hd.settled hs hsettled
    obtain rfl := Option.some.inj (hc'.symm.trans hc₁)
    have hsl := (hs.world.loop hd.replaced.loop).2
    have hlent := Machine.lent_at hm hd.replaced.loop t.state.2.2
    have hdispatch := hd.dispatch
    rw [hstage] at hlent hdispatch
    rw [hr₁]
    cases stage with
    | waiting deadline => exact absurd ⟨⟨_, hst⟩, signals, stage', hst', hsignals⟩ hnot
    | calling pass h =>
      obtain ⟨-, hr, -⟩ := hdispatch.returns
      exact ⟨_, pass.signals, ⟨_, hst, rfl⟩, hc, hr ▸ .refl _⟩
    | passing pass =>
      refine ⟨_, pass.signals, ⟨_, hst, rfl⟩, hc, ?_⟩
      have hturn : ∀ i, l.context.roster.next.2 = some i → l.context.running = true →
          l'.context.roster.remaining.Sublist l.context.roster.remaining := by
        intro i hi hrun
        obtain ⟨g, e, ht⟩ := hdispatch.turn hsl hlent hi hrun
        exact (List.sublist_append_right _ _).trans ht.progress.rest
      cases hdispatch with
      | visited _ hi hrun => exact hturn _ hi hrun
      | called _ hi hrun => exact hturn _ hi hrun
      | missed _ hi hrun => exact hturn _ hi hrun
      | passed => contradiction

/-- Whoever is called was ahead in the pass, and is not any more. -/
theorem Calls.ahead (h : t.Calls r call) : ∃ c c' signals,
    t.before.config.Passes r.owner signals ∧ t.before.world.context? r.owner = some c ∧
      t.after.world.context? r.owner = some c' ∧ r.index ∈ c.roster.remaining ∧
      r.index ∉ c'.roster.remaining := by
  have hs := t.state.1
  obtain ⟨a, below, pass, pass', s, l, l', i, e, ms, hm, hp, hd, hsettled, hi, hrun, rfl, -⟩ :=
    h.dispatched
  have hstage : a.standing.stage = .passing pass := by rw [Activation.standing, hp]
  have hsl := (hs.world.loop hd.replaced.loop).2
  have hlent := Machine.lent_at hm hd.replaced.loop t.state.2.2
  have hdispatch := hd.dispatch
  rw [hstage] at hlent hdispatch
  obtain ⟨g, e', hturn⟩ := hdispatch.turn hsl hlent hi hrun
  obtain ⟨-, c', hc', hr', -⟩ := hd.settled hs hsettled
  have hrest := hturn.progress.rest
  have hnodup := hrest.nodup hsl.context.roster.nodup_remaining
  have hst := Config.standsAt_of_mem (hm ▸ List.mem_cons_self : a ∈ t.before.stack)
  rw [hstage] at hst
  refine ⟨l.context, c', pass.signals, ⟨_, hst, rfl⟩, (World.loop?_eq_some.mp hd.replaced.loop).1,
    hc', hrest.subset List.mem_cons_self, ?_⟩
  rw [hr']
  exact (List.nodup_cons.mp hnodup).1

end Transition

/-- The loop is asked to exit, or gone, and what is ahead in the pass that its run makes, if any, is
like `P`. -/
structure Machine.Ending (m : Machine) (id : Nat) (P : List Nat → Prop) : Prop where
  asked : m.world.isAsked id = true ∨ m.world.Dropped id
  rest : ∀ signals c, m.config.Passes id signals → m.world.context? id = some c →
    P c.roster.remaining

/-- No pass begins until the loop exits, and the one that is made gets shorter. -/
theorem Transition.ending_keeps {t : Transition} {id : Nat} {P : List Nat → Prop}
    (hP : ∀ {as bs : List Nat}, bs.Sublist as → P as → P bs) (hexits : ¬ t.Exits id)
    (h : t.before.Ending id P) : t.after.Ending id P where
  asked := by
    rcases h.asked with hasked | hgone
    · exact (t.asked_on hasked).imp_right fun h => h.resolve_left hexits
    · exact Or.inr (t.step (Config.inductive_dropped id) hgone t.state.1)
  rest := by
    intro signals c' hp' hc'
    have hnot : ¬ t.BeginsPass id := by
      intro hbegins
      rcases h.asked with hasked | hgone
      · exact nomatch hasked.symm.trans hbegins.not_isAsked
      · obtain ⟨_, _, _, hbegun⟩ := hbegins.begun
        exact nomatch hgone.2.symm.trans hbegun.before
    obtain ⟨c, signals, hp, hc, hrest⟩ := t.pass_before hp' hnot hc'
    exact hP hrest (h.rest signals c hp hc)

theorem History.ending {past : List Transition} {m : Machine} {id : Nat} {P : List Nat → Prop}
    (h : History past m) (hP : ∀ {as bs : List Nat}, bs.Sublist as → P as → P bs)
    {before since : List Transition} {s : Transition} (hpast : past = before ++ s :: since)
    (hexits : ∀ u ∈ since, ¬ u.Exits id) (hs : s.after.Ending id P) : m.Ending id P :=
  h.since (I := fun m => m.Ending id P) ⟨before, s, since, hpast, rfl, hexits⟩
    (fun _ he => he ▸ hs) fun _ => Transition.ending_keeps hP

/-- After a request, and until the loop exits, a watcher is called only in the pass that was being
made at the request, if it was ahead then and has not been called since. -/
theorem Transition.Calls.rest_of_request {t : Transition} {r : WatcherRef} {call : Call}
    (hcalls : t.Calls r call) {past before since : List Transition} {s : Transition}
    (h : History past t.before) (hpast : past = before ++ s :: since)
    (hrequests : s.Requests r.owner) (hexits : ∀ u ∈ since, ¬ u.Exits r.owner) :
    (∃ signals, s.after.config.Passes r.owner signals) ∧
      (∃ c, s.after.world.context? r.owner = some c ∧ r.index ∈ c.roster.remaining) ∧
      ∀ u ∈ since, ∀ r' call', u.Calls r' call' → r'.owner = r.owner → r'.index ≠ r.index := by
  obtain ⟨c, -, signals, hp, hc, -, hahead, -⟩ := hcalls.ahead
  -- what is ahead was ahead at the request
  let P (as : List Nat) : Prop := (∃ signals, s.after.config.Passes r.owner signals) ∧
    ∃ c, s.after.world.context? r.owner = some c ∧ as.Sublist c.roster.remaining
  have hP : ∀ {as bs : List Nat}, bs.Sublist as → P as → P bs :=
    fun hsub ⟨hp, c, hc, h⟩ => ⟨hp, c, hc, hsub.trans h⟩
  have hbegin : s.after.Ending r.owner P :=
    ⟨Or.inl hrequests.isAsked, fun signals c hp hc => ⟨⟨signals, hp⟩, c, hc, .refl _⟩⟩
  obtain ⟨hpasses, c₀, hc₀, hsub⟩ := (h.ending hP hpast hexits hbegin).rest signals c hp hc
  refine ⟨hpasses, ⟨c₀, hc₀, hsub.subset hahead⟩, fun u hu r' call' hcalls' howner hindex => ?_⟩
  -- what was called is not ahead any more
  obtain ⟨since₁, since₂, rfl⟩ := List.append_of_mem hu
  have hpast' : past = (before ++ s :: since₁) ++ u :: since₂ := by
    rw [hpast, List.append_assoc, List.cons_append]
  have hbefore := (h.before hpast').ending hP rfl
    (fun v hv => hexits v (List.mem_append_left _ hv)) hbegin
  have hgone : u.after.Ending r.owner fun as => r.index ∉ as := by
    refine ⟨(ending_keeps hP (hexits u hu) hbefore).asked, fun _ c₁ _ hc₁ => ?_⟩
    obtain ⟨-, c₂, -, -, -, hc₂, -, hnot⟩ := hcalls'.ahead
    obtain rfl := Option.some.inj (hc₁.symm.trans (howner ▸ hc₂))
    exact hindex ▸ hnot
  exact (h.ending (fun hsub h hmem => h (hsub.subset hmem)) hpast'
    (fun v hv => hexits v (List.mem_append_right _ (List.mem_cons_of_mem _ hv))) hgone).rest
    signals c hp hc hahead

/-- What requests to exit a loop have come to, after all that was done. -/
structure ExitRequests (past : List Transition) (m : Machine) (id : Nat) : Prop where
  /-- A request is pending until the loop exits, however many runs return meanwhile. -/
  pending : m.world.isAsked id = true ↔
    Since (fun s => s.Requests id) (fun s => ¬ s.Exits id) past ∧ ¬ m.world.Dropped id
  /-- No pass begins while one is pending. -/
  unasked : ∀ t : Transition, t.before = m → t.BeginsPass id → m.world.isAsked id = false
  /-- A wait honours it: the run returns, and the loop is stopped. -/
  honoured : ∀ a below l, m.AtWait a below l → a.context = id → l.context.exitAsked = true →
    m.Returns id a.calls ∧ m.step.Stopped id
  /-- A run that is entered while one is pending, with anything linked, does so at once. -/
  atOnce : Since (fun s => s.Enters id ∧ s.before.world.isAsked id = true ∧
      s.before.world.hasLinked id = true) (fun s => s.deed ≠ .dispatch) past →
    m.Returns id [] ∧ m.step.Stopped id
  /-- With nothing linked a run returns as well, and the request stays. -/
  empty : ∀ a below l, m.stack = a :: below → a.context = id → a.phase = .waiting →
    m.world.loop? id = some l → l.context.roster.isEmpty = true →
    m.Returns id a.calls ∧ m.step.world.isAsked id = m.world.isAsked id
  /-- From a request until the loop exits, watchers are called only in the pass that was being made
  at the request: those that were ahead, each once. -/
  rest : ∀ before s since, past = before ++ s :: since → s.Requests id →
    (∀ u ∈ since, ¬ u.Exits id) → ∀ t : Transition, t.before = m →
    ∀ r call, t.Calls r call → r.owner = id →
      (∃ signals, s.after.config.Passes id signals) ∧
      (∃ c, s.after.world.context? id = some c ∧ r.index ∈ c.roster.remaining) ∧
      ∀ u ∈ since, ∀ r' call', u.Calls r' call' → r'.owner = id → r'.index ≠ r.index
  /-- The dispatcher exits the loop only for a request that was made since the last exit. -/
  fresh : ∀ t : Transition, t.before = m → t.deed = .dispatch → t.Exits id →
    Since (fun s => s.Requests id) (fun s => ¬ s.Exits id) past
  /-- Without one, a signal that is left over ends no run. -/
  leftOver : ∀ a below l, m.AtWait a below l → a.context = id → l.context.exitAsked = false →
    l.context.wakeups.raised.has .exit = true →
    ∃ signals, signals.has .exit = true ∧ m.step.config.Passes id signals

/-- Requests to exit are honoured promptly and once. Whatever has been done, and in whatever order
handles, callbacks and runs have done it: no pass begins while a request is pending. A run that
waits honours it, at once if it has just been entered. A request that is made in a pass lets the
rest of this pass be made and no more. A request is pending until the loop exits, and ends no run
after that. -/
theorem exit_requests_honoured {past : List Transition} {m : Machine} (h : History past m)
    (id : Nat) : ExitRequests past m id where
  pending := h.isAsked_iff
  unasked := by
    rintro t rfl hbegins
    exact hbegins.not_isAsked
  honoured := by
    rintro a below l hwait rfl hasked
    exact hwait.honours h.reachable hasked
  atOnce := by
    intro hsince
    have hstart := h.since (I := fun m => m.AtStart id) hsince
      (fun _ hs => hs.1.atStart hs.2.1 hs.2.2) fun _ => Transition.atStart_keeps
    obtain ⟨a, below, l, hwait, rfl, hcalls, hasked⟩ := hstart.atWait
    exact hcalls ▸ hwait.honours h.reachable hasked
  empty := by
    rintro a below l hm rfl hp hl hempty
    exact Machine.returns_of_empty hm hp hl hempty
  rest := by
    rintro before s since hpast hrequests hexits t rfl r call hcalls rfl
    exact hcalls.rest_of_request h hpast hrequests hexits
  fresh := by
    rintro t rfl hdeed hexits
    exact (h.isAsked_iff.mp (hexits.asked_of_dispatch hdeed)).1
  leftOver := by
    rintro a below l hwait rfl hasked hraised
    exact hwait.passes hasked hraised

/-- A loop with two timers, of which the first to be called asks the loop to exit. -/
def Machine.dismissing : Machine :=
  ((((Machine.create (World.create ⟨1000000, 5000, false⟩ .standIn)).submit
    (.newContext .none .scenario)).submit
    (.context none (.loopHandle "quit"))).submit
    (.create none "second" (.timer 1 1) ⟨[], false⟩)).submit
    (.create none "first" (.timer 1 0) ⟨[[.requestExit "quit"]], false⟩)

/-- A run of the loop, after the pass that has called both. -/
def Machine.dismissed : Machine := Machine.step^[7] (Machine.dismissing.submit (.run none ∅))

/-- The run returns the two calls, and the second timer is stopped although it is periodic. -/
theorem exit_requests_honoured_dismissed :
    ∃ past calls, History past Machine.dismissed ∧
      Since (fun s => s.Requests 0) (fun s => ¬ s.Exits 0) past ∧ calls.length = 2 ∧
      Machine.dismissed.Returns 0 calls ∧ Machine.dismissed.step.Stopped 0 := by
  have hmade : Machine.dismissing.Reachable :=
    ((((Machine.Reachable.start _ _).submit _ (by decide +kernel) (by decide +kernel)).submit _
      (by decide +kernel) (by decide +kernel)).submit _ (by decide +kernel)
      (by decide +kernel)).submit _ (by decide +kernel) (by decide +kernel)
  have hreach : Machine.dismissed.Reachable :=
    (hmade.submit (.run none ∅) (by decide +kernel) (by decide +kernel)).advances 7
      (by decide +kernel)
  obtain ⟨past, hpast⟩ := hreach.history
  have hlaw := exit_requests_honoured hpast 0
  have hstands : Machine.dismissed.config.StandsAt 0 (some (.waiting (some 1006))) := by
    decide +kernel
  obtain ⟨a, below, hstack, ha⟩ := Machine.innermost
    (reachable_pass hreach).1 hstands not_false
  have hid : a.context = 0 := congrArg Standing.context ha
  have hwaiting : a.phase = .waiting := Transition.phase_of_waiting (congrArg Standing.stage ha)
  have hcalls : Machine.dismissed.stack.head?.map (fun a => a.calls.length) = some 2 := by
    decide +kernel
  rw [hstack, List.head?_cons, Option.map_some, Option.some.injEq] at hcalls
  have hloop : (Machine.dismissed.world.loop? 0).map (fun l =>
      (l.context.running, l.context.roster.isEmpty, l.context.exitAsked)) =
        some (true, false, true) := by
    decide +kernel
  obtain ⟨l, hl, hseen⟩ := Option.map_eq_some_iff.mp hloop
  simp only [Prod.mk.injEq] at hseen
  have hgoing : Machine.dismissed.abort = none := by
    rw [← Option.isNone_iff_eq_none]
    decide +kernel
  obtain ⟨hreturns, hstopped⟩ := hlaw.honoured a below l
    ⟨hstack, hgoing, hwaiting, hid ▸ hl, hseen.1, hseen.2.1⟩ hid hseen.2.2
  exact ⟨past, a.calls, hpast, (hlaw.pending.mp (by decide +kernel)).1, hcalls, hreturns, hstopped⟩

end EventLoop
