import EventLoop.Proofs.Termination

/-!
# One pass over the watchers

A pass visits the watchers that were linked when it began, one after the other, unless they have
been unlinked by then, and calls those that are ready at their turn. Callbacks and other threads may
do meanwhile what they like.
-/
namespace EventLoop

/-! ### What happens in a pass -/

namespace Machine

/-- The innermost run begins a pass after a wait: the time and the waits have gone on, and the
signals are taken. -/
def beginPass (m : Machine) (clock : Clock) (waits : Nat) (wakeups : Wakeups) (signals : Signals) :
    Machine :=
  match m.stack with
  | [] => m
  | a :: below =>
    match m.world.loop? a.context with
    | none => m
    | some l =>
      let world : World := { m.world with clock, waits }
      { m with
        world := world.putContext a.context
          { l.context with wakeups, roster := l.context.roster.rewind }
        stack := { a with phase := .passing ⟨signals, 0, none⟩ } :: below }

/-- The watcher that the innermost run is calling. -/
def called? (m : Machine) : Option Handle :=
  match m.stack with
  | a :: _ =>
    match a.phase with
    | .calling _ call => some call.watcher
    | _ => none
  | [] => none

end Machine

/-- A turn of a pass: what was seen of the pass before, the context and the time then, the slot that
is visited, and the watcher that is called. -/
structure Turn where
  seen : List Machine
  context : Context
  now : Nat
  index : Nat
  call : Option Handle

/-- A pass of the run of a context, from its beginning on: the turns taken, all that was seen of it,
the latest first, and what it has come to. -/
inductive PassTrace (m₀ : Machine) (id : Nat) : List Turn → List Machine → Machine → Prop
  | begun : PassTrace m₀ id [] [m₀] m₀
  | meanwhile {turns seen m m'} : PassTrace m₀ id turns seen m → m.Meanwhile m' →
      PassTrace m₀ id turns (m' :: seen) m'
  /-- A step in a callback of the pass, or of a run that the callback has entered, or the return of
  the callback. -/
  | within {turns seen m a pass call} : PassTrace m₀ id turns seen m → m.abort = none →
      a ∈ m.stack → a.context = id → a.phase = .calling pass call →
      PassTrace m₀ id turns (m.step :: seen) m.step
  | turn {turns seen m a below pass l i} : PassTrace m₀ id turns seen m → m.abort = none →
      m.stack = a :: below → a.context = id → a.phase = .passing pass →
      m.world.loop? id = some l → l.context.running = true →
      l.context.roster.next.2 = some i →
      PassTrace m₀ id (turns ++ [⟨seen, l.context, m.world.now l.context, i, m.step.called?⟩])
        (m.step :: seen) m.step

/-- Who has the place of a slot in the roster of a context. -/
def Machine.tenure? (m : Machine) (id i : Nat) : Option (Nat × Option Nat) :=
  (m.world.context? id).bind fun c => c.tenure? i

/-- The watcher has kept its place since the pass began, its callback is there, and it is called
exactly if it is ready. -/
structure Turn.Correct (t : Turn) (id : Nat) (signals : Signals) (c₀ : Context) : Prop where
  undisturbed : ∀ m ∈ t.seen, m.tenure? id t.index = c₀.tenure? t.index
  ready : ∃ g e, t.context.find ⟨id, ⟨t.index, g⟩⟩ = .ok e ∧ e.callback.isSome = true ∧
    (e.IsReady (toMillis t.now) signals → t.call = some ⟨id, ⟨t.index, g⟩⟩) ∧
    (¬ e.IsReady (toMillis t.now) signals → t.call = none)

/-- The run is in a pass in which these watchers were called. -/
def Stage.Serves (signals : Signals) (calls : List Handle) : Stage → Prop
  | .waiting _ => False
  | .passing pass => pass.signals = signals ∧ pass.served = calls.length
  | .calling pass h =>
    pass.signals = signals ∧ pass.served + 1 = calls.length ∧ calls.getLast? = some h

/-- Where the pass stands on its way: it has taken turns in the order of the roster at its
beginning, and has still to visit those slots where the watcher has kept its place since. -/
structure Context.OnTheWay (c₀ c : Context) (id : Nat) (turns : List Turn) (seen : List Machine) :
    Prop where
  order : (turns.map Turn.index ++ c.roster.remaining).Sublist c₀.roster.toList
  remaining_iff : ∀ i, i ∈ c.roster.remaining ↔ i ∈ c₀.roster.toList ∧
    i ∉ turns.map Turn.index ∧ ∀ m ∈ seen, m.tenure? id i = c₀.tenure? i

/-! ### One step further -/

theorem Context.Onward.progress {c c' : Context} (h : c.Onward c') : c.Progress [] c' :=
  ⟨h.rest, fun i hi _ => h.kept i hi⟩

theorem Context.OnTheWay.step {c₀ c c' : Context} {id : Nat} {turns ts : List Turn}
    {seen : List Machine} {m m' : Machine} {visited : List Nat} (h : c₀.OnTheWay c id turns seen)
    (hnodup : c₀.roster.toList.Nodup) (hm : m ∈ seen) (hc : m.world.context? id = some c)
    (hc' : m'.world.context? id = some c') (hts : ts.map Turn.index = visited)
    (hp : c.Progress visited c') : c₀.OnTheWay c' id (turns ++ ts) (m' :: seen) := by
  have htenure : m.tenure? id = c.tenure? := by
    funext i
    rw [Machine.tenure?, hc, Option.bind_some]
  have htenure' : m'.tenure? id = c'.tenure? := by
    funext i
    rw [Machine.tenure?, hc', Option.bind_some]
  have hnext : (visited ++ c'.roster.remaining).Nodup :=
    hp.rest.nodup ((List.nodup_append.mp (h.order.nodup hnodup)).2.1)
  refine ⟨?_, fun i => ?_⟩
  · rw [List.map_append, hts, List.append_assoc]
    exact (hp.rest.append_left _).trans h.order
  · rw [List.map_append, hts, List.mem_append, not_or, List.forall_mem_cons, htenure']
    constructor
    · intro hi
      have hold := hp.rest.subset (List.mem_append_right visited hi)
      have hnot : i ∉ visited := fun hv => (List.nodup_append.mp hnext).2.2 i hv i hi rfl
      obtain ⟨hmem, hturns, hseen⟩ := (h.remaining_iff i).mp hold
      refine ⟨hmem, ⟨hturns, hnot⟩, ?_, hseen⟩
      rw [(hp.kept i hold hnot).mp hi, ← htenure]
      exact hseen m hm
    · rintro ⟨hmem, ⟨hturns, hnot⟩, hnow, hseen⟩
      have hold := (h.remaining_iff i).mpr ⟨hmem, hturns, hseen⟩
      refine (hp.kept i hold hnot).mpr (hnow.trans ?_)
      rw [← htenure]
      exact (hseen m hm).symm

/-- Entering another run lets the pass of a run go on where it stands. -/
theorem Config.Entered.onward {s s' : Config} {id : Nat} {c : Context} {stage : Stage} {l : Loop}
    (hs : s.Sound) (he : s.Entered s' l) (hst : s.StandsAt id (some stage))
    (hc : s.world.context? id = some c) :
    s'.StandsAt id (some stage) ∧ ∃ c', s'.world.context? id = some c' ∧ c.Onward c' := by
  have hid : id ≠ l.context.id := by
    rintro rfl
    obtain rfl := Option.some.inj ((World.loop?_eq_some.mp he.replaced.loop).1.symm.trans hc)
    have hb := hst.busy hs hc
    rw [he.idle] at hb
    contradiction
  refine ⟨?_, c, (he.replaced.context_other id hid).trans hc, .of_same rfl fun _ => rfl⟩
  rw [Config.StandsAt, he.standings]
  exact List.mem_cons_of_mem _ hst

/-- Polls let the pass of a run go on where it stands. -/
theorem Config.Settled.onward {s s' : Config} {id : Nat} {c : Context} {stage : Stage}
    (hs : s.Sound) (h : s.Settled s') (hst : s.StandsAt id (some stage))
    (hc : s.world.context? id = some c) :
    s'.StandsAt id (some stage) ∧ ∃ c', s'.world.context? id = some c' ∧ c.Onward c' := by
  obtain ⟨c', hc', -, hr, ha⟩ := (h.calmed hs.world).calms.still hs.world hc (hst.busy hs hc)
  exact ⟨hst.acted h.standings, c', hc', .of_same (by rw [hr]) fun i => ha.tenure? (by rw [hr])⟩

/-- What the dispatcher does in another run leaves the pass of a run where it stands. -/
theorem Config.Dispatched.beside {s s' : Config} {id : Nat} {c : Context} {stage : Stage}
    {x : Standing} {below : List Standing} {l l' : Loop} {stage' : Option Stage}
    (hd : s.Dispatched s' x below l l' stage') (hid : x.context ≠ id)
    (hst : s.StandsAt id (some stage)) (hc : s.world.context? id = some c) :
    s'.StandsAt id (some stage) ∧ s'.world.context? id = some c := by
  refine ⟨?_, (hd.replaced.context_other id (Ne.symm hid)).trans hc⟩
  have hmem : (⟨id, stage⟩ : Standing) ∈ s.standings := hst
  rw [hd.before] at hmem
  rw [Config.StandsAt, hd.after]
  refine List.mem_append_right _ ((List.mem_cons.mp hmem).resolve_left ?_)
  rintro rfl
  exact hid rfl

/-- A step of the system lets the pass of a run go on where it stands, unless it is a step of the
dispatcher in that run. -/
theorem Machine.Outcome.onward {m m' : Machine} {id : Nat} {c : Context} {stage : Stage}
    (hs : m.config.Sound) (hm : m.world.Mirrored) (h : m.Outcome m')
    (hst : m.config.StandsAt id (some stage)) (hc : m.world.context? id = some c) :
    (m'.config.StandsAt id (some stage) ∧
      ∃ c', m'.world.context? id = some c' ∧ c.Onward c') ∨
    ∃ s below l l' stage', m.config.Dispatched s ⟨id, stage⟩ below l l' stage' ∧
      s.Settled m'.config := by
  cases h with
  | acted ha => exact Or.inl (ha.onward hs hm hst hc)
  | entered he => exact Or.inl (he.onward hs hst hc)
  | @dispatched s x below l l' stage' hd hsettled =>
    by_cases hid : x.context = id
    · right
      have hx : m.config.StandsAt id (some x.stage) := by
        rw [Config.StandsAt, hd.before, ← hid]
        exact List.mem_cons_self
      obtain rfl := hst.unique hs hx
      subst hid
      exact ⟨s, below, l, l', stage', hd, hsettled⟩
    · obtain ⟨hstands, hother⟩ := hd.beside hid hst hc
      exact Or.inl (hsettled.onward (hs.dispatched hd) hstands hother)

/-- The callback returns, and the pass goes on from where it was. -/
theorem Dispatch.returns {l l' : Loop} {now : Nat} {pass : Pass} {h : Handle}
    {stage' : Option Stage} (hd : Dispatch l now (.calling pass h) stage' l') :
    stage' = some (.passing { pass with served := pass.served + 1 }) ∧
      l'.context.roster = l.context.roster ∧ l.context.Alike l'.context := by
  cases hd with
  | @returned _ _ callback =>
    refine ⟨rfl, ?_⟩
    rcases l.context.returnCallback_cases h callback with he | ⟨e, hf, -, he⟩
    · exact he.symm ▸ ⟨rfl, .refl _⟩
    · exact he.symm ▸ ⟨rfl, Loop.alike_callback hf (some callback)⟩

/-- The watcher that is called at the stage, if one is. -/
def Stage.called? : Stage → Option Handle
  | .calling _ h => some h
  | _ => none

theorem Machine.called?_eq {m : Machine} {x : Standing} {below : List Standing}
    (h : m.config.standings = x :: below) : m.called? = x.stage.called? := by
  obtain ⟨a, rest, hm, rfl, -⟩ := List.map_eq_cons_iff.mp h
  rw [called?, hm]
  cases hp : a.phase <;> simp [Activation.standing, hp, Stage.called?]

/-- At its turn a watcher is called exactly if it is ready, and a call is counted. -/
theorem TurnTaken.serves {l l' : Loop} {now i : Nat} {pass : Pass} {stage' : Option Stage}
    {g : Generation} {e : Entry} {signals : Signals} {calls : List Handle}
    (ht : TurnTaken l l' now pass i stage' g e) (h : Stage.Serves signals calls (.passing pass)) :
    ∃ stage, stage' = some stage ∧ stage.Serves signals (calls ++ stage.called?.toList) ∧
      (e.IsReady (toMillis now) signals → stage.called? = some ⟨l.context.id, ⟨i, g⟩⟩) ∧
      (¬ e.IsReady (toMillis now) signals → stage.called? = none) := by
  obtain ⟨rfl, hserved⟩ := h
  obtain ⟨deadline, ⟨hnot, rfl⟩ | ⟨hready, rfl⟩⟩ := ht.outcome
  · refine ⟨_, rfl, ⟨rfl, ?_⟩, fun hready => absurd hready hnot, fun _ => rfl⟩
    rw [List.length_append]
    exact hserved
  · refine ⟨_, rfl, ⟨rfl, ?_, List.getLast?_concat⟩, fun _ => rfl,
      fun hnot => absurd hready hnot⟩
    rw [List.length_append, hserved]
    rfl

/-! ### All that holds in the course of a pass -/

/-- The invariant of a pass. -/
structure PassState (id : Nat) (signals : Signals) (c₀ : Context) (turns : List Turn)
    (seen : List Machine) (m : Machine) : Prop where
  sound : m.config.Sound
  mirrored : m.world.Mirrored
  lent : m.config.Holds Context.Lent
  here : m ∈ seen
  stage : ∃ stage, m.config.StandsAt id (some stage) ∧
    stage.Serves signals (turns.filterMap Turn.call)
  way : ∃ c, m.world.context? id = some c ∧ c₀.OnTheWay c id turns seen
  correct : ∀ t ∈ turns, t.Correct id signals c₀

theorem Context.Progress.still {c c' c'' : Context} {visited : List Nat}
    (h : c.Progress visited c') (hr : c''.roster = c'.roster) (ha : c'.Alike c'') :
    c.Progress visited c'' where
  rest := hr ▸ h.rest
  kept := fun i hi hv => by
    rw [hr, ha.tenure? (by rw [hr])]
    exact h.kept i hi hv

namespace PassState

variable {id : Nat} {signals : Signals} {c₀ : Context} {turns : List Turn} {seen : List Machine}
  {m m' : Machine}

theorem serves {a : Activation} (h : PassState id signals c₀ turns seen m) (ha : a ∈ m.stack)
    (hid : a.context = id) :
    m.config.StandsAt id (some a.standing.stage) ∧
      a.standing.stage.Serves signals (turns.filterMap Turn.call) := by
  obtain ⟨stage, hst, hserves⟩ := h.stage
  have hstands := hid ▸ Config.standsAt_of_mem ha
  exact ⟨hstands, hst.unique h.sound hstands ▸ hserves⟩

/-- One step of the system, in which the turns `ts` are taken. -/
theorem step (h : PassState id signals c₀ turns seen m) (hnodup : c₀.roster.toList.Nodup)
    (hstep : m.Step m') (ts : List Turn) {visited : List Nat} (hts : ts.map Turn.index = visited)
    (hcorrect : ∀ t ∈ ts, t.Correct id signals c₀)
    (hstage : ∃ stage, m'.config.StandsAt id (some stage) ∧
      stage.Serves signals ((turns ++ ts).filterMap Turn.call))
    (hway : ∀ c, m.world.context? id = some c →
      ∃ c', m'.world.context? id = some c' ∧ c.Progress visited c') :
    PassState id signals c₀ (turns ++ ts) (m' :: seen) m' := by
  obtain ⟨hs, hm, hlent⟩ := inductive_pass.step h.sound ⟨h.mirrored, h.lent⟩ hstep
  obtain ⟨c, hc, hon⟩ := h.way
  obtain ⟨c', hc', hp⟩ := hway c hc
  refine ⟨hs, hm, hlent, List.mem_cons_self, hstage, ⟨c', hc', ?_⟩, fun t ht => ?_⟩
  · exact hon.step hnodup h.here hc hc' hts hp
  · exact (List.mem_append.mp ht).elim (h.correct t) (hcorrect t)

/-- A step in which no turn is taken. -/
theorem pause (h : PassState id signals c₀ turns seen m) (hnodup : c₀.roster.toList.Nodup)
    (hstep : m.Step m')
    (hstage : ∃ stage, m'.config.StandsAt id (some stage) ∧
      stage.Serves signals (turns.filterMap Turn.call))
    (hway : ∀ c, m.world.context? id = some c →
      ∃ c', m'.world.context? id = some c' ∧ c.Progress [] c') :
    PassState id signals c₀ turns (m' :: seen) m' := by
  have hnext := h.step hnodup hstep [] rfl (fun _ ht => nomatch ht)
    (by rwa [List.append_nil]) hway
  rwa [List.append_nil] at hnext

theorem meanwhile (h : PassState id signals c₀ turns seen m) (hnodup : c₀.roster.toList.Nodup)
    (hm : m.Meanwhile m') : PassState id signals c₀ turns (m' :: seen) m' := by
  obtain ⟨stage, hst, hserves⟩ := h.stage
  have honward := fun c hc => (hm.acted h.sound.world).onward (c := c) h.sound h.mirrored hst hc
  obtain ⟨c, hc, -⟩ := h.way
  refine h.pause hnodup (.meanwhile hm) ⟨stage, (honward c hc).1, hserves⟩ fun c hc => ?_
  obtain ⟨c', hc', hon⟩ := (honward c hc).2
  exact ⟨c', hc', hon.progress⟩

theorem within {a : Activation} {pass : Pass} {call : Call}
    (h : PassState id signals c₀ turns seen m) (hnodup : c₀.roster.toList.Nodup)
    (habort : m.abort = none) (ha : a ∈ m.stack) (hid : a.context = id)
    (hp : a.phase = .calling pass call) : PassState id signals c₀ turns (m.step :: seen) m.step := by
  obtain ⟨hstands, hserves⟩ := h.serves ha hid
  rw [Activation.standing, hp] at hstands hserves
  have hstep : m.Step m.step := .advanced (List.ne_nil_of_mem ha) habort
  obtain ⟨c, hc, -⟩ := h.way
  rcases (hstep.outcome h.sound.world).onward h.sound h.mirrored hstands hc with
    ⟨hst, c', hc', hon⟩ | ⟨s, below, l, l', stage', hd, hsettled⟩
  · refine h.pause hnodup hstep ⟨_, hst, hserves⟩ fun c₁ hc₁ => ?_
    obtain rfl := Option.some.inj (hc.symm.trans hc₁)
    exact ⟨c', hc', hon.progress⟩
  · obtain ⟨rfl, hr, halike⟩ := hd.dispatch.returns
    obtain rfl := Option.some.inj ((World.loop?_eq_some.mp hd.replaced.loop).1.symm.trans hc)
    obtain ⟨hst', c', hc', hr', ha'⟩ := hd.settled h.sound hsettled
    refine h.pause hnodup hstep ⟨_, hst', hserves.1, hserves.2.1⟩ fun c₁ hc₁ => ?_
    obtain rfl := Option.some.inj (hc.symm.trans hc₁)
    have hon : l.context.Onward l'.context :=
      .of_same (by rw [hr]) fun i => halike.tenure? (by rw [hr])
    exact ⟨c', hc', hon.progress.still hr' ha'⟩

/-- The slot `i` has its turn. -/
theorem turn {a : Activation} {below : List Activation} {pass : Pass} {l : Loop} {i : Nat}
    (h : PassState id signals c₀ turns seen m) (hnodup : c₀.roster.toList.Nodup)
    (habort : m.abort = none) (hm : m.stack = a :: below) (hid : a.context = id)
    (hp : a.phase = .passing pass) (hl : m.world.loop? id = some l)
    (hrun : l.context.running = true) (hi : l.context.roster.next.2 = some i) :
    PassState id signals c₀
      (turns ++ [⟨seen, l.context, m.world.now l.context, i, m.step.called?⟩]) (m.step :: seen)
      m.step := by
  subst hid
  have hstage : a.standing.stage = .passing pass := by rw [Activation.standing, hp]
  obtain ⟨hstands, hserves⟩ := h.serves (hm ▸ List.mem_cons_self : a ∈ m.stack) rfl
  rw [hstage] at hstands hserves
  obtain ⟨c, hc, hon⟩ := h.way
  obtain ⟨hloop, -⟩ := World.loop?_eq_some.mp hl
  obtain rfl := Option.some.inj (hloop.symm.trans hc)
  obtain ⟨hlid, hsl⟩ := h.sound.world.loop hl
  -- the action of the dispatcher
  obtain ⟨s, l', stage', hd, hsettled⟩ : m.Advanced m.step a below l :=
    Machine.step_passing hm hl hp ▸ Machine.stepPassing_advanced h.sound.world hm hl hp
  have hlent := h.lent a.context l.context (some (.passing pass)) hc hstands
  have hdispatch := hd.dispatch
  rw [hstage] at hdispatch
  obtain ⟨g, e, ht⟩ := hdispatch.turn hsl hlent hi hrun
  -- the run goes on in the pass or in a callback
  obtain ⟨st, rfl, hserves', hcall, hpass⟩ := ht.serves hserves
  obtain ⟨hst', c', hc', hr', ha'⟩ := hd.settled h.sound hsettled
  have hcalled : m.step.called? = st.called? :=
    Machine.called?_eq (hsettled.standings.trans hd.after)
  have hfind : l.context.find ⟨a.context, ⟨i, g⟩⟩ = .ok e :=
    Context.find_of_at? hlid.symm ht.at_self
  have hne : m.stack ≠ [] := hm ▸ List.cons_ne_nil a below
  refine h.step hnodup (.advanced hne habort) _ rfl ?_ ⟨st, hst', ?_⟩ ?_
  · intro t ht'
    obtain rfl := List.mem_singleton.mp ht'
    have hrest : i ∈ l.context.roster.remaining := ht.progress.rest.subset List.mem_cons_self
    exact ⟨((hon.remaining_iff i).mp hrest).2.2, g, e, hfind, ht.callback,
      fun hready => hcalled.trans (hlid ▸ hcall hready), fun hnot => hcalled.trans (hpass hnot)⟩
  · rw [List.filterMap_append, hcalled]
    cases hst : st.called? <;> exact hst ▸ hserves'
  · intro c₁ hc₁
    obtain rfl := Option.some.inj (hc.symm.trans hc₁)
    exact ⟨c', hc', ht.progress.still hr' ha'⟩

/-- Whatever happens in the course of a pass. -/
theorem trace {m₀ : Machine} (h₀ : PassState id signals c₀ [] [m₀] m₀)
    (hnodup : c₀.roster.toList.Nodup) (h : PassTrace m₀ id turns seen m) :
    PassState id signals c₀ turns seen m := by
  induction h with
  | begun => exact h₀
  | meanwhile _ hm ih => exact ih.meanwhile hnodup hm
  | within _ habort ha hid hp ih => exact ih.within hnodup habort ha hid hp
  | turn _ habort hm hid hp hl hrun hi ih => exact ih.turn hnodup habort hm hid hp hl hrun hi

end PassState

/-! ### The beginning and the end -/

theorem Machine.beginPass_eq {m : Machine} {a : Activation} {below : List Activation} {l : Loop}
    (hm : m.stack = a :: below) (hl : m.world.loop? a.context = some l) (clock : Clock)
    (waits : Nat) (wakeups : Wakeups) (signals : Signals) :
    m.beginPass clock waits wakeups signals =
      { m with
        world := ({ m.world with clock, waits } : World).putContext a.context
          { l.context with wakeups, roster := l.context.roster.rewind }
        stack := { a with phase := .passing ⟨signals, 0, none⟩ } :: below } := by
  unfold beginPass
  simp only [hm, hl]

/-- A pass that begins in a reachable state has its way before it. -/
theorem passState_begin {m : Machine} {a : Activation} {below : List Activation} {l : Loop}
    (h : m.Reachable) (hm : m.stack = a :: below) (hp : a.phase = .waiting)
    (hl : m.world.loop? a.context = some l) (clock : Clock) (waits : Nat) (wakeups : Wakeups)
    (signals : Signals) :
    PassState a.context signals l.context [] [m.beginPass clock waits wakeups signals]
      (m.beginPass clock waits wakeups signals) := by
  rw [Machine.beginPass_eq hm hl]
  obtain ⟨hs, hmirrored, hlent⟩ := reachable_pass h
  let c' : Context := { l.context with wakeups, roster := l.context.roster.rewind }
  let m₀ : Machine :=
    { m with
      world := ({ m.world with clock, waits } : World).putContext a.context c'
      stack := { a with phase := .passing ⟨signals, 0, none⟩ } :: below }
  obtain ⟨hloop, -⟩ := World.loop?_eq_some.mp hl
  obtain ⟨-, hsl⟩ := hs.world.loop hl
  have hstage : a.standing.stage = .waiting a.deadline := by rw [Activation.standing, hp]
  have hstands := Config.standsAt_of_mem (hm ▸ List.mem_cons_self : a ∈ m.stack)
  have hrewind := hsl.context.roster.rewind
  have hsl' : Loop.Sound ⟨c', l.poller⟩ :=
    ⟨hsl.context.cursor rfl hrewind.1 hrewind.2.2 rfl rfl, hsl.poller⟩
  have hl₁ : World.loop? { m.world with clock, waits } a.context = some l := hl
  have hshift : m.config.Shifted m₀.config a.standing (below.map Activation.standing) l
      ⟨c', l.poller⟩ (some (.passing ⟨signals, 0, none⟩)) :=
    ⟨(World.replaced_putContext hl₁ c').quiet rfl rfl rfl rfl, by rw [Machine.config, hm]; rfl, rfl⟩
  have hbusy : l.context.busy = true := hstands.busy hs hloop
  have hself : m₀.world.context? a.context = some c' := hshift.replaced.context_self
  refine ⟨hs.shifted hshift hsl' ⟨rfl, rfl⟩ hbusy, ?_, ?_, List.mem_cons_self, ?_, ?_, ?_⟩
  · exact hmirrored.replaced hs.world hshift.replaced rfl fun _ _ hl => hl.congr rfl fun _ => rfl
  · refine Config.Holds.shifted hlent hs hshift (Context.lent_of_callback fun i g e hat => ?_)
    have hwaiting := hlent a.context l.context _ hloop hstands
    rw [hstage] at hwaiting
    refine hwaiting.callback (fun _ _ he => ?_) hat
    have hsame := Option.some.inj he
    contradiction
  · exact ⟨_, List.mem_cons_self, rfl, rfl⟩
  · refine ⟨c', hself, ?_, fun i => ?_⟩
    · rw [List.map_nil, List.nil_append, hrewind.2.1]
    · have htenure : m₀.tenure? a.context i = l.context.tenure? i := by
        rw [Machine.tenure?, hself]
        rfl
      rw [hrewind.2.1]
      refine ⟨fun hi => ⟨hi, List.not_mem_nil, fun m₁ hm₁ => ?_⟩, fun h => h.1⟩
      obtain rfl := List.mem_singleton.mp hm₁
      exact htenure
  · exact fun _ ht => absurd ht List.not_mem_nil

/-- The pass ends. Unless the loop has exited, it has visited every slot where the watcher has kept
its place. -/
structure PassEnds (id : Nat) (c₀ : Context) (turns : List Turn) (seen : List Machine)
    (m m' : Machine) : Prop where
  ends : ∃ a below pass w l, m.stack = a :: below ∧ a.context = id ∧ a.phase = .passing pass ∧
    pass.served = (turns.filterMap Turn.call).length ∧
    m' = ({ m with world := w } : Machine).endPass a below l pass
  complete : (∃ c, m.world.context? id = some c ∧ c.running = false) ∨
    ∀ i ∈ c₀.roster.toList, i ∈ turns.map Turn.index ∨
      ∃ m₁ ∈ seen, m₁.tenure? id i ≠ c₀.tenure? i

/-- A run that is in a pass and not in a callback takes the next turn, or ends the pass. -/
theorem PassState.proceed {id : Nat} {signals : Signals} {c₀ : Context} {turns : List Turn}
    {seen : List Machine} {m₀ m : Machine} {a : Activation} {below : List Activation} {pass : Pass}
    (h : PassState id signals c₀ turns seen m) (ht : PassTrace m₀ id turns seen m)
    (habort : m.abort = none) (hm : m.stack = a :: below) (hid : a.context = id)
    (hp : a.phase = .passing pass) :
    (∃ t, PassTrace m₀ id (turns ++ [t]) (m.step :: seen) m.step) ∨
      PassEnds id c₀ turns seen m m.step := by
  obtain ⟨-, hserves⟩ := h.serves (hm ▸ List.mem_cons_self : a ∈ m.stack) hid
  rw [Activation.standing, hp] at hserves
  obtain ⟨c, hc, hon⟩ := h.way
  obtain ⟨q, hl⟩ : ∃ q, m.world.loop? id = some ⟨c, q⟩ := ⟨_, World.loop?_of_context? hc⟩
  obtain ⟨-, hsl⟩ := h.sound.world.loop hl
  have hunfold : m.step = m.stepPassing a below ⟨c, q⟩ pass :=
    Machine.step_passing hm (hid.symm ▸ hl) hp
  have hends : c.roster.next.2 = none ∨ c.running = false →
      PassEnds id c₀ turns seen m m.step := by
    intro hend
    obtain ⟨w, l, hstep⟩ := m.stepPassing_ends (l := ⟨c, q⟩) a below pass hend
    refine ⟨⟨a, below, pass, w, l, hm, hid, hp, hserves.2, hunfold.trans hstep⟩, ?_⟩
    refine hend.symm.imp (fun hexited => ⟨c, hc, hexited⟩) fun hnone i hmem => ?_
    have hrest : c.roster.remaining = [] := by
      rw [hsl.context.roster.next_eq] at hnone
      exact List.head?_eq_none_iff.mp hnone
    by_contra hnot
    simp only [not_or, not_exists, not_and, not_not] at hnot
    have hrem := (hon.remaining_iff i).mpr ⟨hmem, hnot⟩
    rw [hrest] at hrem
    exact absurd hrem List.not_mem_nil
  cases hi : c.roster.next.2 with
  | none => exact Or.inr (hends (Or.inl hi))
  | some i =>
    cases hrun : c.running with
    | true => exact Or.inl ⟨_, ht.turn habort hm hid hp hl hrun hi⟩
    | false => exact Or.inr (hends (Or.inr hrun))

/-- Every step of the system goes on with the pass, or ends it. -/
theorem PassState.next {id : Nat} {signals : Signals} {c₀ : Context} {turns : List Turn}
    {seen : List Machine} {m₀ m m' : Machine} (h : PassState id signals c₀ turns seen m)
    (ht : PassTrace m₀ id turns seen m) (hstep : m.Step m') :
    (∃ ts, PassTrace m₀ id (turns ++ ts) (m' :: seen) m') ∨ PassEnds id c₀ turns seen m m' := by
  obtain ⟨stage, hst, hserves⟩ := h.stage
  obtain ⟨a, ha, hstanding⟩ := List.mem_map.mp hst
  have hid : a.context = id := congrArg Standing.context hstanding
  have hstage : a.standing.stage = stage := congrArg Standing.stage hstanding
  cases hstep with
  | submitted command hm =>
    rw [hm] at ha
    exact absurd ha List.not_mem_nil
  | meanwhile hm => exact Or.inl ⟨[], (List.append_nil turns).symm ▸ ht.meanwhile hm⟩
  | advanced hne habort =>
    cases hp : a.phase with
    | waiting =>
      rw [Activation.standing, hp] at hstage
      exact absurd hserves (hstage ▸ fun h => h)
    | calling pass call =>
      exact Or.inl ⟨[], (List.append_nil turns).symm ▸ ht.within habort ha hid hp⟩
    | passing pass =>
      -- a run that is not in a callback is the innermost
      obtain ⟨b, below, hm⟩ := List.exists_cons_of_ne_nil hne
      obtain rfl : a = b := by
        rw [hm] at ha
        refine (List.mem_cons.mp ha).resolve_right fun hbelow => ?_
        have htail : a.standing ∈ m.config.standings.tail := by
          rw [Machine.config, hm]
          exact List.mem_map_of_mem hbelow
        have hcalling := h.sound.calling _ htail
        rw [Activation.standing, hp] at hcalling
        exact hcalling
      rcases h.proceed ht habort hm hid hp with ⟨t, htrace⟩ | hends
      · exact Or.inl ⟨[t], htrace⟩
      · exact Or.inr hends

/-- Small steps bring a pass to its end, or abort the scenario, or make as many waits as one likes: a
run that a callback enters may wait for ever, or again and again. -/
theorem PassState.ends {id : Nat} {signals : Signals} {c₀ : Context} {m₀ : Machine}
    (h₀ : PassState id signals c₀ [] [m₀] m₀) (hnodup : c₀.roster.toList.Nodup)
    {turns : List Turn} {seen : List Machine} {m : Machine} (ht : PassTrace m₀ id turns seen m)
    (habort : m.abort = none) (limit : Nat) :
    ∃ n ts seen', PassTrace m₀ id (turns ++ ts) seen' (Machine.step^[n] m) ∧
      ((Machine.step^[n] m).abort.isSome = true ∨ limit ≤ (Machine.step^[n] m).world.waits ∨
        PassEnds id c₀ (turns ++ ts) seen' (Machine.step^[n] m) (Machine.step^[n] m).step) := by
  induction hgo : m.toGo limit using WellFoundedLT.induction generalizing turns seen m with
  | ind go ih =>
    subst hgo
    have h := h₀.trace hnodup ht
    have hne : m.stack ≠ [] := by
      obtain ⟨stage, hst, -⟩ := h.stage
      exact fun hnil => List.ne_nil_of_mem hst (by rw [Machine.config, hnil]; rfl)
    rcases Nat.lt_or_ge m.world.waits limit with hmore | hmany
    · rcases h.next ht (.advanced hne habort) with ⟨ts, ht'⟩ | hends
      · cases habort' : m.step.abort with
        | some abort => exact ⟨1, ts, _, ht', Or.inl (by simp [habort'])⟩
        | none =>
          have hlt := Machine.step_toGo h.sound h.mirrored h.lent hne habort' hmore
          obtain ⟨n, ts', seen', hrest⟩ := ih _ hlt ht' habort' rfl
          rw [List.append_assoc] at hrest
          exact ⟨n + 1, ts ++ ts', seen', hrest⟩
      · refine ⟨0, [], seen, by rwa [List.append_nil], Or.inr (Or.inr ?_)⟩
        rwa [List.append_nil]
    · exact ⟨0, [], seen, by rwa [List.append_nil], Or.inr (Or.inl hmany)⟩

/-- What a pass has come to that began at `m₀` with the roster of `c₀`. -/
structure PassReport (m₀ : Machine) (id : Nat) (signals : Signals) (c₀ : Context)
    (turns : List Turn) (seen : List Machine) (m : Machine) : Prop where
  nodup : c₀.roster.toList.Nodup
  bounded : turns.length ≤ c₀.roster.toList.length
  way : ∃ c, m.world.context? id = some c ∧ c₀.OnTheWay c id turns seen
  correct : ∀ t ∈ turns, t.Correct id signals c₀
  served : ∃ a ∈ m.stack, a.context = id ∧
    a.standing.stage.Serves signals (turns.filterMap Turn.call)
  /-- Outside callbacks the run takes the next turn, or ends the pass. -/
  proceeds : ∀ a below pass, m.stack = a :: below → a.context = id → a.phase = .passing pass →
    m.abort = none → (∃ t, PassTrace m₀ id (turns ++ [t]) (m.step :: seen) m.step) ∨
      PassEnds id c₀ turns seen m m.step
  /-- No step of the system leads out of the pass but the one that ends it. -/
  next : ∀ m', m.Step m' → (∃ ts, PassTrace m₀ id (turns ++ ts) (m' :: seen) m') ∨
    PassEnds id c₀ turns seen m m'
  /-- Small steps bring the pass to its end, or abort the scenario in a callback, or make as many
  waits as one likes in the runs that callbacks enter. -/
  ends : m.abort = none → ∀ limit,
    ∃ n ts seen', PassTrace m₀ id (turns ++ ts) seen' (Machine.step^[n] m) ∧
      ((Machine.step^[n] m).abort.isSome = true ∨ limit ≤ (Machine.step^[n] m).world.waits ∨
        PassEnds id c₀ (turns ++ ts) seen' (Machine.step^[n] m) (Machine.step^[n] m).step)

/-- A pass that is begun in a reachable state, by whatever signals and whatever its callbacks and
others do meanwhile, visits watchers of the roster as it was then, in its order, each at most once,
and calls those that are ready. It leaves out only those that were unlinked before their turn, and
counts the calls that it makes. -/
theorem pass_serves_ready {m m' : Machine} {a : Activation} {below : List Activation} {l : Loop}
    (h : m.Reachable) (hm : m.stack = a :: below) (hp : a.phase = .waiting)
    (hl : m.world.loop? a.context = some l) (clock : Clock) (waits : Nat) (wakeups : Wakeups)
    (signals : Signals) {turns : List Turn} {seen : List Machine}
    (ht : PassTrace (m.beginPass clock waits wakeups signals) a.context turns seen m') :
    PassReport (m.beginPass clock waits wakeups signals) a.context signals l.context turns seen
      m' := by
  have h₀ := passState_begin h hm hp hl clock waits wakeups signals
  have hnodup : l.context.roster.toList.Nodup :=
    ((reachable_pass h).1.world.loop hl).2.context.roster.nodup
  have hstate := h₀.trace hnodup ht
  obtain ⟨c, hc, hon⟩ := hstate.way
  obtain ⟨stage, hst, hserves⟩ := hstate.stage
  obtain ⟨x, hx, hstanding⟩ := List.mem_map.mp hst
  have hlen := hon.order.length_le
  rw [List.length_append, List.length_map] at hlen
  exact {
    nodup := hnodup
    bounded := by omega
    way := ⟨c, hc, hon⟩
    correct := hstate.correct
    served := ⟨x, hx, congrArg Standing.context hstanding, by rwa [hstanding]⟩
    proceeds := fun a below pass hm hid hp habort => hstate.proceed ht habort hm hid hp
    next := fun m'' => hstate.next ht
    ends := h₀.ends hnodup ht }

/-- A run of a loop with two timers, of which the first to be visited exits the loop. -/
def Machine.exiting : Machine :=
  ((((Machine.create (World.create ⟨1000000, 0, false⟩ .standIn)).submit
    (.newContext .none .scenario)).submit
    (.create none "second" (.timer 1 0) ⟨[], false⟩)).submit
    (.create none "first" (.timer 1 0) ⟨[[.context none .exit]], false⟩)).submit
    (.run none ∅)

/-- A pass of the run, a second later. -/
def Machine.exitingPass : Machine :=
  Machine.exiting.beginPass ⟨2000000, 0, false⟩ 1 Wakeups.empty ∅

/-- The first timer is called at its turn, and the second has its turn before it. -/
theorem pass_serves_ready_exiting :
    ∃ turns c, PassTrace Machine.exitingPass 0 turns [Machine.exitingPass.step, Machine.exitingPass]
        Machine.exitingPass.step ∧
      turns.map Turn.index = [1] ∧ turns.filterMap Turn.call = [⟨0, ⟨1, 0⟩⟩] ∧
      Machine.exitingPass.step.world.context? 0 = some c ∧ c.roster.remaining = [0] ∧
      ∃ c₀, Machine.exiting.world.context? 0 = some c₀ ∧ c₀.roster.toList = [1, 0] ∧
        c₀.OnTheWay c 0 turns [Machine.exitingPass.step, Machine.exitingPass] := by
  have hreach : Machine.exiting.Reachable :=
    ((((Machine.Reachable.start _ _).submit _ (by decide +kernel) (by decide +kernel)).submit _
      (by decide +kernel) (by decide +kernel)).submit _ (by decide +kernel)
      (by decide +kernel)).submit _ (by decide +kernel) (by decide +kernel)
  obtain ⟨a, l, hstack, hid, hphase, hloop⟩ : ∃ a l, Machine.exiting.stack = [a] ∧
      a.context = 0 ∧ a.phase = .waiting ∧ Machine.exiting.world.loop? a.context = some l :=
    ⟨_, _, rfl, rfl, rfl, rfl⟩
  obtain ⟨b, l₁, pass, hstack₁, hid₁, hphase₁, hloop₁⟩ : ∃ b l₁ pass,
      Machine.exitingPass.stack = [b] ∧ b.context = 0 ∧ b.phase = .passing pass ∧
        Machine.exitingPass.world.loop? 0 = some l₁ := ⟨_, _, _, rfl, rfl, rfl, rfl⟩
  have hfirst : (Machine.exitingPass.world.loop? 0).map
      (fun l => (l.context.running, l.context.roster.next.2)) = some (true, some 1) := by
    decide +kernel
  rw [hloop₁, Option.map_some, Option.some.injEq, Prod.mk.injEq] at hfirst
  have htrace := PassTrace.turn .begun (by decide +kernel) hstack₁ hid₁ hphase₁ hloop₁ hfirst.1
    hfirst.2
  obtain ⟨c, hc, hon⟩ := (pass_serves_ready hreach hstack hphase hloop
    ⟨2000000, 0, false⟩ 1 Wakeups.empty ∅ (hid ▸ htrace)).way
  rw [hid] at hc hon hloop
  have hcalled : Machine.exitingPass.step.called? = some ⟨0, ⟨1, 0⟩⟩ := by decide +kernel
  have hrest : (Machine.exitingPass.step.world.context? 0).map (fun c => c.roster.remaining) =
      some [0] := by decide +kernel
  have horder : (Machine.exiting.world.loop? 0).map (fun l => l.context.roster.toList) =
      some [1, 0] := by decide +kernel
  rw [hloop] at horder
  have hc' : Machine.exitingPass.step.world.context? 0 = some c := hc
  rw [hc'] at hrest
  refine ⟨_, c, htrace, rfl, ?_, hc, Option.some.inj hrest, l.context,
    (World.loop?_eq_some.mp hloop).1, Option.some.inj horder, hon⟩
  rw [List.nil_append, List.filterMap_cons, hcalled]
  rfl

end EventLoop
