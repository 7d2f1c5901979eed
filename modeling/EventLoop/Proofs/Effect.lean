import EventLoop.Proofs.History
import EventLoop.Proofs.Persistence
import EventLoop.Proofs.Termination

/-!
# What a transition makes of each watcher

A transition makes of a watcher what the command says that is carried out, or what its visit in a
pass says, and exits of its loop stop it. Afterwards polls may tell it something. A callback starts
only at such a visit, and with the events of the visit.
-/
namespace EventLoop

namespace World

variable {w w' : World} {r : WatcherRef} {v v' : Option Entry}

/-- The number of waits does not matter to what a step makes of a watcher. -/
theorem Effect.waits {waits : Nat} {current : Option Nat} {command : Command} {reaction : Reaction}
    (h : World.Effect { w with waits } current command reaction r v v') :
    w.Effect current command reaction r v v' := by
  cases h with
  | kept => exact .kept
  | acted ha hact => exact .acted ha hact
  | born hcommand hok hborn => exact .born hcommand hok hborn
  | exited he => exact .exited he
  | dropped he hu => exact .dropped he hu
  | armed he hms => exact .armed he hms

end World

/-! ### What is done in a transition -/

namespace Transition

/-- An action on the watcher is carried out, and succeeds. -/
def Acts (t : Transition) (r : WatcherRef) (action : WatcherAction) : Prop :=
  ∃ current command reaction, t.deed = .command current command reaction ∧
    t.before.world.aim? current command = some (r, action) ∧ reaction.isOk = true

/-- The watcher is created. -/
def Makes (t : Transition) (r : WatcherRef) (spec : WatcherSpec) : Prop :=
  (∃ current context name script reaction,
    t.deed = .command current (.create context name spec script) reaction ∧
      reaction.isOk = true) ∧
    t.before.world.meant? r = none ∧ t.after.world.meant? r ≠ none

/-- A loop exits, by a step or because it was asked to. -/
def Exits (t : Transition) (id : Nat) : Prop :=
  (∃ current command reaction, t.deed = .command current command reaction ∧
    t.before.world.exits? current command = some id) ∨
  (t.deed = .dispatch ∧ t.before.world.isRunning id = true ∧ t.after.world.isRunning id = false)

/-- A run of a context is entered. -/
def Enters (t : Transition) (id : Nat) : Prop :=
  ∃ current command flags deadline, t.deed = .command current command (.entered id flags deadline)

/-- The innermost run, in the middle of a pass, starts a callback. -/
def Starts (t : Transition) (call : Call) : Prop :=
  ∃ a below pass pass', t.before.stack = a :: below ∧ a.phase = .passing pass ∧
    t.after.stack = { a with phase := .calling pass' call } :: below

/-- The callback of a watcher starts: the handle that is passed to it finds the watcher. -/
def Calls (t : Transition) (r : WatcherRef) (call : Call) : Prop :=
  t.Starts call ∧ ∃ c e, t.before.world.context? r.owner = some c ∧
    c.find call.watcher = .ok e ∧ c.refTo call.watcher.key.index e = r

/-- What a transition makes of a watcher, there or not, before polls tell it anything. -/
inductive Effect (t : Transition) (r : WatcherRef) : Option Entry → Option Entry → Prop
  | kept {v : Option Entry} : Effect t r v v
  | commanded {current command reaction} {v v' : Option Entry} :
      t.deed = .command current command reaction →
      t.before.world.Effect current command reaction r v v' → Effect t r v v'
  | exited {e : Entry} : t.Exits r.owner → Effect t r (some e) (some e.stopped)
  /-- The watcher is visited and not called. -/
  | visited {e : Entry} {ms signals callback} : t.before.world.reading? r.owner = some ms →
      t.before.world.isRunning r.owner = true → (e.visit ms signals).events = none →
      Effect t r (some e) (some { (e.visit ms signals).entry with callback })
  | called {e : Entry} {ms signals callback call} : t.Calls r call →
      t.before.world.reading? r.owner = some ms → t.before.world.isRunning r.owner = true →
      (e.visit ms signals).events = some call.events →
      Effect t r (some e) (some { (e.visit ms signals).entry with callback })
  /-- A callback goes back to its watcher. -/
  | returned {e : Entry} {callback} : Effect t r (some e) (some { e with callback })

variable {t : Transition} {r : WatcherRef} {call call' : Call} {id : Nat}

theorem state (t : Transition) : t.before.config.Sound ∧ t.before.world.Mirrored ∧
    t.before.config.Holds Context.Lent := reachable_pass t.reachable

theorem state_after (t : Transition) : t.after.config.Sound ∧ t.after.world.Mirrored ∧
    t.after.config.Holds Context.Lent := reachable_pass t.reachable_after

/-- A step that is carried out makes of the world what it says, whatever the number of waits. -/
theorem commanded {current : Option Nat} {command : Command} {reaction : Reaction}
    (hdeed : t.deed = .command current command reaction) : ∃ waits w,
    World.Sound { t.before.world with waits } ∧
      World.perform { t.before.world with waits } current command = (w, reaction) ∧
      (t.after.world = w ∨ t.after.world = w.settle) := by
  have hdoes : t.before.Does (.command current command reaction) t.after := hdeed ▸ t.does
  obtain ⟨waits, w, hperform, hw⟩ := hdoes.performed t.state.1
  exact ⟨waits, w, t.state.1.world.act (.quiet rfl rfl rfl (.of_eq rfl)), hperform, hw⟩

/-- When the innermost run goes on by itself, time goes on or its loop is dispatched. -/
theorem dispatched (hdeed : t.deed = .dispatch) :
    t.after.world.contexts = t.before.world.contexts ∨ ∃ a below l s l' stage,
      t.before.stack = a :: below ∧ t.before.config.Dispatched s a.standing
        (below.map Activation.standing) l l' stage ∧
      (t.after.world = s.world ∨ t.after.world = s.world.settle) ∧ s.Settled t.after.config := by
  have hdoes : t.before.Does .dispatch t.after := hdeed ▸ t.does
  rcases hdoes.advanced t.state.1 with hw | ⟨a, below, l, hm, s, l', stage, hd, hsettled⟩
  · exact Or.inl hw.contexts
  · exact Or.inr ⟨a, below, l, s, l', stage, hm, hd, hsettled.world, hsettled⟩

theorem polled (hdeed : t.deed = .poll) :
    ∃ (p : Nat) (entries : List Watched),
      (∀ q, t.before.world.pollers[p]? = some q → q.HasListed entries) ∧
        t.after.world = t.before.world.pollAmong p entries := by
  have hdoes : t.before.Does .poll t.after := hdeed ▸ t.does
  exact hdoes.poll

/-- The world in the course of a transition, when all is done but what polls tell the watchers. -/
inductive Unpolled (t : Transition) (w : World) : Prop
  | performed {current command reaction waits} : t.deed = .command current command reaction →
      World.perform { t.before.world with waits } current command = (w, reaction) →
      (t.after.world = w ∨ t.after.world = w.settle) → Unpolled t w
  | waited : t.deed = .dispatch → t.after.world = w → w.contexts = t.before.world.contexts →
      Unpolled t w
  | dispatched {a below l s l' stage} : t.deed = .dispatch → t.before.stack = a :: below →
      t.before.config.Dispatched s a.standing (below.map Activation.standing) l l' stage →
      s.Settled t.after.config → s.world = w → Unpolled t w
  | polled {p entries} : t.deed = .poll → t.before.world = w →
      (∀ q, w.pollers[p]? = some q → Poller.HasListed q entries) →
      t.after.world = w.pollAmong p entries → Unpolled t w

theorem unpolled (t : Transition) : ∃ w, t.Unpolled w := by
  cases hdeed : t.deed with
  | command current command reaction =>
    obtain ⟨waits, w, -, hperform, hw⟩ := commanded hdeed
    exact ⟨w, .performed hdeed hperform hw⟩
  | dispatch =>
    rcases dispatched hdeed with hc | ⟨a, below, l, s, l', stage, hm, hd, -, hsettled⟩
    · exact ⟨t.after.world, .waited hdeed rfl hc⟩
    · exact ⟨s.world, .dispatched hdeed hm hd hsettled rfl⟩
  | poll =>
    obtain ⟨p, entries, hlisted, hw⟩ := polled hdeed
    exact ⟨t.before.world, .polled hdeed rfl hlisted hw⟩

theorem Unpolled.told {w : World} (h : t.Unpolled w) (r : WatcherRef) :
    t.after.world.Told r (w.meant? r) (t.after.world.meant? r) := by
  cases h with
  | performed _ _ hw => exact World.settled_told hw r
  | waited _ hw => exact hw ▸ .same
  | dispatched _ _ _ hsettled hw => exact World.settled_told (hw ▸ hsettled.world) r
  | polled _ _ hlisted hw => exact World.polled_told hlisted hw r

/-- The dispatcher carries out no action. -/
theorem Acts.not_dispatch {action : WatcherAction} (h : t.Acts r action) : t.deed ≠ .dispatch := by
  obtain ⟨_, _, _, hdeed, -⟩ := h
  exact fun h => nomatch h.symm.trans hdeed

theorem Makes.not_dispatch {spec : WatcherSpec} (h : t.Makes r spec) : t.deed ≠ .dispatch := by
  obtain ⟨⟨_, _, _, _, _, hdeed, -⟩, -⟩ := h
  exact fun h => nomatch h.symm.trans hdeed

theorem Enters.not_dispatch {id : Nat} (h : t.Enters id) : t.deed ≠ .dispatch := by
  obtain ⟨_, _, _, _, hdeed⟩ := h
  exact fun h => nomatch h.symm.trans hdeed

/-! ### A callback starts in a small step of the dispatcher -/

/-- It is the dispatcher that starts a callback. -/
theorem Starts.dispatch (h : t.Starts call) : t.deed = .dispatch := by
  obtain ⟨before, deed, after, hreach, hdoes⟩ := t
  obtain ⟨a, below, pass, pass', hm, hp, hm'⟩ := h
  dsimp only at hm hm' ⊢
  have hsame : before.stack ≠ after.stack := by
    intro he
    have ha := (List.cons.inj (hm.symm.trans (he.trans hm'))).1
    rw [ha] at hp
    contradiction
  cases hdoes with
  | submitted _ hnil => exact absurd (hm.symm.trans hnil) (List.cons_ne_nil _ _)
  | called _ hnext =>
    rw [Machine.next?, hm] at hnext
    simp only [hp] at hnext
    contradiction
  | dispatched => rfl
  | interfered => exact absurd rfl hsame
  | polled => exact absurd rfl hsame

/-- At most one callback starts. -/
theorem Starts.unique (h : t.Starts call) (h' : t.Starts call') : call = call' := by
  obtain ⟨a, below, pass, pass₁, -, -, hm⟩ := h
  obtain ⟨a', below', pass', pass₁', -, -, hm'⟩ := h'
  have hphase := congrArg Activation.phase (List.cons.inj (hm.symm.trans hm')).1
  exact (Phase.calling.inj hphase).2

/-- A callback starts when the innermost run is in a pass. -/
theorem Starts.passing {a : Activation} {below : List Activation} (h : t.Starts call)
    (hm : t.before.stack = a :: below) : ∃ pass, a.phase = .passing pass := by
  obtain ⟨a', below', pass, pass', hm', hp, -⟩ := h
  obtain ⟨rfl, -⟩ := List.cons.inj (hm.symm.trans hm')
  exact ⟨pass, hp⟩

/-- The innermost run goes over to the callback that starts. -/
theorem Starts.dispatched (h : t.Starts call) : ∃ a below pass pass' s l l',
    t.before.stack = a :: below ∧ a.phase = .passing pass ∧
      t.before.config.Dispatched s a.standing (below.map Activation.standing) l l'
        (some (.calling pass' call.watcher)) ∧
      s.Settled t.after.config := by
  have hdoes : t.before.Does .dispatch t.after := h.dispatch ▸ t.does
  obtain ⟨a, below, pass, pass', hm, hp, hm'⟩ := h
  have hbefore : t.before.config.standings =
      ⟨a.context, .passing pass⟩ :: below.map Activation.standing := by
    simp [Machine.config, hm, Activation.standing, hp]
  have hafter : t.after.config.standings =
      ⟨a.context, .calling pass' call.watcher⟩ :: below.map Activation.standing := by
    simp [Machine.config, hm', Activation.standing]
  rcases hdoes.advanced t.state.1 with hw | ⟨a₁, below₁, l, hm₁, s, l', stage, hd, hsettled⟩
  · have hsame := hafter.symm.trans (hw.standings.trans hbefore)
    have hstage := congrArg Standing.stage (List.cons.inj hsame).1
    contradiction
  · obtain ⟨rfl, rfl⟩ := List.cons.inj (hm.symm.trans hm₁)
    have hstands := hd.after.symm.trans (hsettled.standings.symm.trans hafter)
    cases stage with
    | none =>
      have hlen := congrArg List.length hstands
      simp at hlen
    | some stage =>
      have hstage : stage = .calling pass' call.watcher :=
        congrArg Standing.stage (List.cons.inj hstands).1
      exact ⟨a, below, pass, pass', s, l, l', hm, hp, hstage ▸ hd, hsettled⟩

end Transition

/-- The small step in which a watcher is called. -/
theorem Machine.step_called {m : Machine} {a : Activation} {below : List Activation} {l : Loop}
    {pass : Pass} {i : Nat} {h : Handle} {events : Events} {callback : Callback}
    (hm : m.stack = a :: below) (hl : m.world.loop? a.context = some l)
    (hp : a.phase = .passing pass) (hi : l.context.roster.next.2 = some i)
    (hrun : l.context.running = true)
    (hcall : (Context.visit { l.context with roster := l.context.roster.next.1 }
      (m.world.now l.context) pass.signals i).call = some (h, events))
    (hlend : ((Context.visit { l.context with roster := l.context.roster.next.1 }
      (m.world.now l.context) pass.signals i).context.lendCallback h).2 = some callback) :
    ∃ pass' call, m.step.stack = { a with phase := .calling pass' call } :: below ∧
      call.watcher = h ∧ call.events = events := by
  rw [step_passing hm hl hp, stepPassing_turn m a below pass l hi hrun]
  unfold afterVisit
  dsimp only
  rw [Context.atTurn, hcall]
  dsimp only
  unfold beginCall
  dsimp only
  rw [hlend]
  exact ⟨_, _, rfl, rfl, rfl⟩

namespace Transition

variable {t : Transition} {r : WatcherRef} {call call' : Call} {id : Nat}

/-- The turn of a watcher, at the reading `ms`, in a pass that was woken by `signals`. It leads to
the world `w`, before polls tell anybody anything. -/
structure TurnOf (t : Transition) (w : World) (r : WatcherRef) (e : Entry) (ms : Nat)
    (signals : Signals) : Prop where
  present : t.before.world.meant? r = some e
  reading : t.before.world.reading? r.owner = some ms
  running : t.before.world.isRunning r.owner = true
  becomes : ∃ callback,
    t.before.world.Becomes w r (some { (e.visit ms signals).entry with callback })

section Turn

variable {a : Activation} {below : List Activation} {pass : Pass} {s : Config} {l l' : Loop}
  {stage : Option Stage} {i : Nat}

/-- At its turn a watcher is called with the events of its visit, or the pass goes on. -/
theorem turn (hdeed : t.deed = .dispatch) (hm : t.before.stack = a :: below)
    (hp : a.phase = .passing pass)
    (hd : t.before.config.Dispatched s a.standing (below.map Activation.standing) l l' stage)
    (hi : l.context.roster.next.2 = some i) (hrun : l.context.running = true) :
    ∃ e ms, t.TurnOf s.world ⟨a.context, i, e.serial⟩ e ms pass.signals ∧
      (((e.visit ms pass.signals).events = none ∧ ∃ pass', stage = some (.passing pass')) ∨
        ∃ call, t.Calls ⟨a.context, i, e.serial⟩ call ∧
          (e.visit ms pass.signals).events = some call.events) := by
  have hloop : t.before.world.loop? a.context = some l := hd.replaced.loop
  have hc := (World.loop?_eq_some.mp hloop).1
  obtain ⟨hid, hsl⟩ := t.state.1.world.loop hloop
  have hstage : a.standing.stage = .passing pass := by rw [Activation.standing, hp]
  have hlent := Machine.lent_at hm hloop t.state.2.2
  have hdispatch := hd.dispatch
  rw [hstage] at hlent hdispatch
  obtain ⟨g, e, ht⟩ := hdispatch.turn hsl hlent hi hrun
  have hat := ht.at_self
  obtain ⟨callback, hw⟩ := ht.becomes
  refine ⟨e, _, ⟨?_, ?_, ?_, callback, hd.replaced.becomes rfl (Context.becomes_put hat rfl ?_ hw)⟩,
    ?_⟩
  · exact (World.meant?_of_context? hc).trans (Context.meant?_eq_some.mpr ⟨g, hat, rfl⟩)
  · rw [World.reading?, hc, Option.map_some]
    rfl
  · exact (World.isRunning_of_context? hc).trans hrun
  · exact Context.traits_serial Entry.visit_traits
  obtain ⟨deadline, ⟨hnot, rfl⟩ | ⟨-, rfl⟩⟩ := ht.outcome
  · rw [← Entry.visit_events_iff (hsl.context.fits i g e hat), Bool.not_eq_true,
      Option.isSome_eq_false_iff, Option.isNone_iff_eq_none] at hnot
    exact Or.inl ⟨hnot, _, rfl⟩
  · cases hdispatch with
    | @called _ c j h events callback hcursor hj _ hcall hlend =>
      subst hcursor
      obtain rfl := Option.some.inj (hi.symm.trans hj)
      obtain ⟨pass', call, hstack, hwatcher, hevents⟩ :=
        Machine.step_called hm hloop hp hi hrun hcall hlend
      rw [Context.visit_of_some (c := { l.context with roster := l.context.roster.next.1 }) hat]
        at hcall
      obtain ⟨events', hvisit, heq⟩ := Option.map_eq_some_iff.mp hcall
      obtain ⟨-, rfl⟩ := Prod.mk.inj heq
      have hdoes : t.before.Does .dispatch t.after := hdeed ▸ t.does
      refine Or.inr ⟨call, ⟨⟨a, below, pass, pass', hm, hp, hdoes.stepped ▸ hstack⟩, l.context, e,
        hc, ?_, ?_⟩, hevents ▸ hvisit⟩
      · rw [hwatcher]
        exact Context.find_of_at? rfl hat
      · rw [hwatcher, Context.refTo, hid]

end Turn

/-- A callback is that of one watcher. -/
theorem Calls.unique {r' : WatcherRef} (h : t.Calls r call) (h' : t.Calls r' call) : r = r' := by
  obtain ⟨-, c, e, hc, hfind, href⟩ := h
  obtain ⟨-, c', e', hc', hfind', href'⟩ := h'
  have hs := t.state.1.world
  have howner : r.owner = r'.owner := by
    rw [← (hs.context _ c hc).1, ← (hs.context _ c' hc').1, ← (Context.find_ok hfind).1,
      ← (Context.find_ok hfind').1]
  obtain rfl := Option.some.inj (hc.symm.trans (howner ▸ hc'))
  obtain rfl := Except.ok.inj (hfind.symm.trans hfind')
  exact href.symm.trans href'

/-- A callback starts where the innermost run dispatches its loop at the turn of the watcher. -/
theorem Calls.dispatched (h : t.Calls r call) : ∃ a below pass pass' s l l' i e ms,
    t.before.stack = a :: below ∧ a.phase = .passing pass ∧
      t.before.config.Dispatched s a.standing (below.map Activation.standing) l l'
        (some (.calling pass' call.watcher)) ∧
      s.Settled t.after.config ∧ l.context.roster.next.2 = some i ∧ l.context.running = true ∧
      r = ⟨a.context, i, e.serial⟩ ∧ t.TurnOf s.world r e ms pass.signals ∧
      (e.visit ms pass.signals).events = some call.events := by
  have hstarts := h.1
  obtain ⟨a, below, pass, pass', s, l, l', hm, hp, hd, hsettled⟩ := hstarts.dispatched
  have hstage : a.standing.stage = .passing pass := by rw [Activation.standing, hp]
  obtain ⟨i, hi, hrun⟩ : ∃ i, l.context.roster.next.2 = some i ∧ l.context.running = true := by
    have hdispatch := hd.dispatch
    rw [hstage] at hdispatch
    cases hdispatch with
    | called _ hi hrun => exact ⟨_, hi, hrun⟩
  obtain ⟨e, ms, ht, ⟨-, _, hnot⟩ | ⟨call', hcalls, hevents⟩⟩ :=
    Transition.turn hstarts.dispatch hm hp hd hi hrun
  · have hsame := Option.some.inj hnot
    contradiction
  · obtain rfl := hstarts.unique hcalls.1
    obtain rfl := h.unique hcalls
    exact ⟨a, below, pass, pass', s, l, l', i, e, ms, hm, hp, hd, hsettled, hi, hrun, rfl, ht,
      hevents⟩

/-- A callback starts at the turn of its watcher, with the events of the visit. -/
theorem Calls.turn (h : t.Calls r call) : ∃ s e ms signals, t.TurnOf s r e ms signals ∧
    (t.after.world = s ∨ t.after.world = s.settle) ∧
    (e.visit ms signals).events = some call.events := by
  obtain ⟨a, below, pass, pass', s, l, l', i, e, ms, -, -, -, hsettled, -, -, -, ht, hevents⟩ :=
    h.dispatched
  exact ⟨s.world, e, ms, pass.signals, ht, hsettled.world, hevents⟩

/-! ### Every transition -/

theorem phase_of_stage {a : Activation} {pass : Pass} (h : a.standing.stage = .passing pass) :
    a.phase = .passing pass := by
  rw [Activation.standing] at h
  split at h
  · contradiction
  · next pass' hp => exact hp.trans (congrArg Phase.passing (Stage.passing.inj h))
  · contradiction

theorem phase_of_waiting {a : Activation} {deadline : Option Nat}
    (h : a.standing.stage = .waiting deadline) : a.phase = .waiting := by
  rw [Activation.standing] at h
  split at h
  · assumption
  · contradiction
  · contradiction

/-- A callback starts where the innermost run goes over from a pass to a call. -/
theorem calls_of_standings {pass pass' : Pass} {below : List Standing} {h : Handle}
    (hdeed : t.deed = .dispatch)
    (hbefore : t.before.config.standings = ⟨id, .passing pass⟩ :: below)
    (hafter : t.after.config.standings = ⟨id, .calling pass' h⟩ :: below)
    (hfound : (t.before.world.context? r.owner).bind
      (fun c => (c.find h).toOption.map (c.refTo h.key.index)) = some r) :
    ∃ call, t.Calls r call := by
  have hdoes : t.before.Does .dispatch t.after := hdeed ▸ t.does
  obtain ⟨c, hc, hfound⟩ := Option.bind_eq_some_iff.mp hfound
  obtain ⟨e, he, href⟩ := Option.map_eq_some_iff.mp hfound
  have hfind : c.find h = .ok e := by
    cases hf : c.find h with
    | ok e' =>
      rw [hf] at he
      exact congrArg _ (Option.some.inj he)
    | error err =>
      rw [hf] at he
      contradiction
  rcases hdoes.advanced t.state.1 with hw | ⟨a, rest, l, hm, s, l', stage, hd, hsettled⟩
  · have hsame := hafter.symm.trans (hw.standings.trans hbefore)
    exact nomatch congrArg Standing.stage (List.cons.inj hsame).1
  · obtain ⟨ha, hrest⟩ := List.cons.inj ((congrArg (List.map _) hm).symm.trans hbefore)
    have hstands := hd.after.symm.trans (hsettled.standings.symm.trans hafter)
    rw [hrest] at hstands
    -- the run goes on, as there are as many as before
    obtain rfl : stage = some (.calling pass' h) := by
      cases stage with
      | none => exact absurd (congrArg List.length hstands) (by simp)
      | some stage => exact congrArg some (congrArg Standing.stage (List.cons.inj hstands).1)
    have hp : a.phase = .passing pass := phase_of_stage (congrArg Standing.stage ha)
    have hdispatch := hd.dispatch
    rw [ha] at hdispatch
    cases hdispatch with
    | @called _ c' i _ events callback hcursor hi hrun hcall hlend =>
      subst hcursor
      obtain ⟨pass', call, hstack, hwatcher, -⟩ :=
        Machine.step_called hm hd.replaced.loop hp hi hrun hcall hlend
      exact ⟨call, ⟨a, rest, pass, pass', hm, hp, hdoes.stepped ▸ hstack⟩, c, e, hc,
        hwatcher.symm ▸ hfind, hwatcher.symm ▸ href⟩

/-- The turn of one watcher makes nothing of the others. -/
theorem TurnOf.effect {w : World} {r₀ : WatcherRef} {e : Entry} {ms : Nat} {signals : Signals}
    (h : t.TurnOf w r₀ e ms signals)
    (hcall : (e.visit ms signals).events = none ∨
      ∃ call, t.Calls r₀ call ∧ (e.visit ms signals).events = some call.events) (r : WatcherRef) :
    t.Effect r (t.before.world.meant? r) (w.meant? r) := by
  obtain ⟨callback, hb⟩ := h.becomes
  by_cases hr : r = r₀
  · subst hr
    rw [h.present, hb.self]
    rcases hcall with hnone | ⟨call, hcalls, hevents⟩
    · exact .visited h.reading h.running hnone
    · exact .called hcalls h.reading h.running hevents
  · rw [hb.other r hr]
    exact .kept

/-- A run that is woken to exit stops the watchers of its loop. -/
theorem exit_effect {w : World} {id : Nat} {l l' : Loop} {wakeups : Wakeups}
    (hdeed : t.deed = .dispatch) (hr : t.before.world.Replaced w id l l')
    (hw : t.after.world = w ∨ t.after.world = w.settle) (hrun : l.context.running = true)
    (hl' : l' = (Loop.exit ⟨{ l.context with wakeups }, l.poller⟩).mapContext
      fun c => { c with busy := false }) (r : WatcherRef) :
    t.Effect r (t.before.world.meant? r) (w.meant? r) := by
  have hc := (World.loop?_eq_some.mp hr.loop).1
  have hexits : t.Exits id := by
    refine Or.inr ⟨hdeed, (World.isRunning_of_context? hc).trans hrun, ?_⟩
    rw [World.settled_isRunning hw, World.isRunning_of_context? hr.context_self, hl']
    rfl
  by_cases hid : r.owner = id
  · subst hid
    have hsl := (t.state.1.world.loop hr.loop).2
    have hstopped : l'.context.meant? r = l.context.meant? r ∨
        l'.context.meant? r = (l.context.meant? r).map Entry.stopped :=
      hl' ▸ Loop.exit_meant (hsl.wakeups wakeups) r
    rw [hr.meant?_before rfl, hr.meant?_self rfl]
    rcases hstopped with he | he
    · exact he ▸ .kept
    · rw [he]
      cases l.context.meant? r with
      | none => exact .kept
      | some e => exact .exited hexits
  · rw [hr.meant?_other hid]
    exact .kept

/-- What the dispatcher makes of each watcher. -/
theorem dispatched_effect {a : Activation} {below : List Activation} {l l' : Loop} {s : Config}
    {stage' : Option Stage} (hdeed : t.deed = .dispatch) (hm : t.before.stack = a :: below)
    (hd : t.before.config.Dispatched s a.standing (below.map Activation.standing) l l' stage')
    (hw : t.after.world = s.world ∨ t.after.world = s.world.settle) (r : WatcherRef) :
    t.Effect r (t.before.world.meant? r) (s.world.meant? r) := by
  have hkept : l'.context.watchers = l.context.watchers →
      t.Effect r (t.before.world.meant? r) (s.world.meant? r) := by
    intro hsame
    have he : s.world.meant? r = t.before.world.meant? r := hd.replaced.meant?_of_watchers hsame
    rw [he]
    exact .kept
  have hturn : ∀ pass i, a.standing.stage = .passing pass → l.context.roster.next.2 = some i →
      l.context.running = true → t.Effect r (t.before.world.meant? r) (s.world.meant? r) := by
    intro pass i hstage hi hrun
    obtain ⟨e, ms, ht, hcall⟩ := turn hdeed hm (phase_of_stage hstage) hd hi hrun
    exact ht.effect (hcall.imp_left And.left) r
  have hdispatch := hd.dispatch
  generalize hstage : a.standing.stage = stage at hdispatch
  cases hdispatch with
  | finished => exact hkept rfl
  | woken => exact hkept rfl
  | passed => exact hkept rfl
  | passedLast => exact hkept rfl
  | visited _ hi hrun => exact hturn _ _ hstage hi hrun
  | called _ hi hrun => exact hturn _ _ hstage hi hrun
  | missed _ hi hrun => exact hturn _ _ hstage hi hrun
  | honoured hrun => exact exit_effect hdeed hd.replaced hw hrun rfl r
  | @returned pass h callback =>
    rcases l.context.returnCallback_cases h callback with hsame | ⟨e, hf, -, hput⟩
    · exact hkept (congrArg Context.watchers hsame)
    · have hat := (Context.find_ok hf).2
      let r₀ : WatcherRef := ⟨a.context, h.key.index, e.serial⟩
      have hm₀ : t.before.world.meant? r₀ = some e :=
        (hd.replaced.meant?_before rfl).trans (Context.meant?_eq_some.mpr ⟨_, hat, rfl⟩)
      have hb : t.before.world.Becomes s.world r₀ (some { e with callback := some callback }) :=
        hd.replaced.becomes rfl (Context.becomes_put hat rfl rfl (congrArg Context.watchers hput))
      by_cases hr : r = r₀
      · rw [hr, hm₀, hb.self]
        exact .returned
      · rw [hb.other r hr]
        exact .kept

/-- What a transition makes of each watcher before polls tell it anything. -/
theorem Unpolled.effect {w : World} (h : t.Unpolled w) (r : WatcherRef) :
    t.Effect r (t.before.world.meant? r) (w.meant? r) := by
  cases h with
  | @performed current command reaction waits hdeed hperform =>
    have hs : World.Sound { t.before.world with waits } :=
      t.state.1.world.act (.quiet rfl rfl rfl (.of_eq rfl))
    have heffect := World.perform_effect hs current command r
    rw [hperform] at heffect
    exact .commanded hdeed heffect.waits
  | waited _ _ hc => exact World.meant?_of_contexts hc ▸ .kept
  | dispatched hdeed hm hd hsettled hw => exact hw ▸ dispatched_effect hdeed hm hd hsettled.world r
  | polled _ hw => exact hw ▸ .kept

/-- What a transition makes of each watcher, and what polls tell it then. -/
theorem effect (t : Transition) (r : WatcherRef) :
    ∃ v, t.Effect r (t.before.world.meant? r) v ∧
      t.after.world.Told r v (t.after.world.meant? r) := by
  obtain ⟨w, h⟩ := t.unpolled
  exact ⟨w.meant? r, h.effect r, h.told r⟩

end Transition
end EventLoop
