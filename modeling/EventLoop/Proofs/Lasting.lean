import EventLoop.Proofs.Effect

/-!
# What lasts from one transition to the next

A property of a watcher lasts if everything that a transition can make of the watcher keeps it. No
transition changes the kind of a watcher, and only some actions make it active.
-/
namespace EventLoop

/-- Whether the action makes watchers of this kind active, or may do so. -/
def WatcherAction.starts : WatcherAction → WatcherKind → Bool
  | .ioStart, .io => true
  | .ioSet _ _, .io => true
  | .timerStart, .timer => true
  | .timerStart, .remoteTimer => true
  | .timerSet _ _, .timer => true
  | .timerSet _ _, .remoteTimer => true
  | _, _ => false

/-- An event is started only once, when it is created. -/
theorem WatcherAction.starts_event (action : WatcherAction) : action.starts .event = false := by
  cases action <;> rfl

namespace Entry

variable {e e' : Entry} {now : Option Nat} {action : WatcherAction} {ok : Bool} {ms : Nat}
  {signals : Signals}

theorem traits_kind (h : e'.traits = e.traits) : e'.payload.kind = e.payload.kind :=
  congrArg (fun t => t.2.1) h

theorem stopped_kind (e : Entry) : e.stopped.payload.kind = e.payload.kind := by
  obtain ⟨serial, active, callback, payload⟩ := e
  cases payload <;> rfl

theorem withTimer_kind (e : Entry) (t : Timer) : (e.withTimer t).payload.kind = e.payload.kind := by
  obtain ⟨serial, active, callback, payload⟩ := e
  cases payload <;> rfl

theorem withTimer_isActive (t : Timer) (h : (e.payload.timer?).isSome = true) :
    (e.withTimer t).isActive = t.isSet := by
  cases hp : e.payload with
  | timer => simp [withTimer, isActive, hp]
  | remote => simp [withTimer, isActive, hp]
  | io => rw [hp] at h; contradiction
  | event => rw [hp] at h; contradiction

/-- No action changes the kind of a watcher. -/
theorem Acted.kind (h : e.Acted now action ok (some e')) : e'.payload.kind = e.payload.kind := by
  cases h with
  | refused => rfl
  | asked => rfl
  | stopped => exact stopped_kind e
  | going => rfl
  | started hp => rw [hp]; rfl
  | reaimed hp => rw [hp]; rfl
  | set => exact withTimer_kind e _
  | restarted => exact withTimer_kind e _
  | posted hp => rw [hp]; rfl

theorem kind_of_timer? {t : Timer} (h : e.payload.timer? = some t) :
    e.payload.kind = .timer ∨ e.payload.kind = .remoteTimer := by
  cases hp : e.payload with
  | timer => exact Or.inl rfl
  | remote => exact Or.inr rfl
  | io => rw [hp] at h; contradiction
  | event => rw [hp] at h; contradiction

/-- An action makes a watcher active only if it starts watchers of that kind, and succeeds. -/
theorem Acted.isActive (h : e.Acted now action ok (some e')) (ha : e'.isActive = true) :
    e.isActive = true ∨ (ok = true ∧ action.starts e.payload.kind = true) := by
  cases h with
  | refused => exact Or.inl ha
  | asked => exact Or.inl ha
  | stopped =>
    rw [Loop.stopped_isActive] at ha
    contradiction
  | going => exact Or.inl ha
  | started hp => exact Or.inr ⟨ha, by rw [hp]; rfl⟩
  | reaimed hp => exact Or.inr ⟨ha, by rw [hp]; rfl⟩
  | set ht => exact Or.inr ⟨rfl, by rcases kind_of_timer? ht with hk | hk <;> rw [hk] <;> rfl⟩
  | restarted ht => exact Or.inr ⟨rfl, by rcases kind_of_timer? ht with hk | hk <;> rw [hk] <;> rfl⟩
  | posted hp => exact Or.inl (by simpa [Entry.isActive, hp] using ha)

theorem arm_isActive : (e.arm ms).isActive = e.isActive := by
  obtain ⟨serial, active, callback, payload⟩ := e
  cases payload <;> simp only [arm] <;> (try split) <;> rfl

/-- A watcher that is not active is passed over. -/
theorem visit_of_inactive (h : e.isActive = false) :
    e.visit ms signals = ⟨e, false, none, none⟩ := by
  obtain ⟨serial, active, callback, payload⟩ := e
  cases payload <;> simp_all [visit, isActive]

theorem visit_isActive (h : (e.visit ms signals).entry.isActive = true) : e.isActive = true := by
  by_contra hnot
  rw [Bool.not_eq_true] at hnot
  rw [visit_of_inactive hnot, hnot] at h
  contradiction

end Entry

/-! ### What a transition makes of a watcher -/

/-- The watcher was there once, and has the property as long as it is there. -/
def World.Has (w : World) (r : WatcherRef) (P : Entry → Prop) : Prop :=
  w.Knows r ∧ ∀ e, w.meant? r = some e → P e

namespace Transition

variable {t : Transition} {r : WatcherRef} {e e' : Entry} {P : Entry → Prop} {id : Nat}
  {action : WatcherAction} {call : Call}

theorem Effect.kind (h : t.Effect r (some e) (some e')) : e'.payload.kind = e.payload.kind := by
  cases h with
  | kept => rfl
  | commanded _ h =>
    cases h with
    | kept => rfl
    | acted _ hact => exact hact.kind
    | exited => exact Entry.stopped_kind e
    | armed => exact Entry.traits_kind Entry.arm_traits
  | exited => exact Entry.stopped_kind e
  | visited => exact Entry.traits_kind Entry.visit_traits
  | called => exact Entry.traits_kind Entry.visit_traits
  | returned => rfl

/-- A watcher that is active now was so before, or has been started. -/
theorem Effect.isActive (h : t.Effect r (some e) (some e')) (ha : e'.isActive = true) :
    e.isActive = true ∨ ∃ action, t.Acts r action ∧ action.starts e.payload.kind = true := by
  cases h with
  | kept => exact Or.inl ha
  | commanded hdeed h =>
    cases h with
    | kept => exact Or.inl ha
    | acted haim hact =>
      exact (hact.isActive ha).imp_right fun h => ⟨_, ⟨_, _, _, hdeed, haim, h.1⟩, h.2⟩
    | exited =>
      rw [Loop.stopped_isActive] at ha
      contradiction
    | armed => exact Or.inl (Entry.arm_isActive ▸ ha)
  | exited =>
    rw [Loop.stopped_isActive] at ha
    contradiction
  | visited => exact Or.inl (Entry.visit_isActive ha)
  | called => exact Or.inl (Entry.visit_isActive ha)
  | returned => exact Or.inl ha

/-- A successful action makes of its watcher what it says. -/
theorem Unpolled.acted {w : World} (hu : t.Unpolled w) (h : t.Acts r action) : ∃ e,
    t.before.world.meant? r = some e ∧
      e.Acted (t.before.world.armingTime? r.owner) action true (w.meant? r) := by
  obtain ⟨current, command, reaction, hdeed, haim, hok⟩ := h
  cases hu with
  | @performed _ _ _ waits hdeed' hperform =>
    obtain ⟨rfl, rfl, rfl⟩ := Deed.command.inj (hdeed.symm.trans hdeed')
    have hs : World.Sound { t.before.world with waits } :=
      t.state.1.world.act (.quiet rfl rfl rfl (.of_eq rfl))
    obtain ⟨e, v, hm, hact, hb⟩ := World.perform_aimed hs haim
    rw [hperform] at hact hb
    exact ⟨e, hm, hb.self ▸ hok ▸ hact⟩
  | waited hdeed' => exact nomatch hdeed.symm.trans hdeed'
  | dispatched hdeed' => exact nomatch hdeed.symm.trans hdeed'
  | polled hdeed' => exact nomatch hdeed.symm.trans hdeed'

theorem Acts.effect (h : t.Acts r action) : ∃ e v, t.before.world.meant? r = some e ∧
    e.Acted (t.before.world.armingTime? r.owner) action true v ∧
    t.after.world.Told r v (t.after.world.meant? r) := by
  obtain ⟨w, hu⟩ := t.unpolled
  obtain ⟨e, hm, hact⟩ := hu.acted h
  exact ⟨e, w.meant? r, hm, hact, hu.told r⟩

/-- A creation leaves a new watcher. -/
theorem Unpolled.made {w : World} {spec : WatcherSpec} (hu : t.Unpolled w) (h : t.Makes r spec) :
    ∃ e, w.meant? r = some e ∧ e.Born (t.before.world.armingTime? r.owner) spec := by
  obtain ⟨⟨current, context, name, script, reaction, hdeed, -⟩, hnone, hsome⟩ := h
  have heffect := hu.effect r
  have htold := hu.told r
  rw [hnone] at heffect
  generalize w.meant? r = v at heffect htold
  cases heffect with
  | kept => exact absurd (Entry.told_none htold) hsome
  | commanded hdeed' heffect =>
    cases heffect with
    | kept => exact absurd (Entry.told_none htold) hsome
    | born hcommand _ hborn =>
      obtain ⟨-, hcreate, -⟩ := Deed.command.inj (hdeed.symm.trans hdeed')
      obtain ⟨-, -, rfl, -⟩ := Command.create.inj (hcreate.trans hcommand)
      exact ⟨_, rfl, hborn⟩

/-- A callback that starts is what the visit of its watcher asks for. -/
theorem Calls.effect (h : t.Calls r call) : ∃ e ms signals callback,
    t.before.world.meant? r = some e ∧ t.before.world.reading? r.owner = some ms ∧
    t.before.world.isRunning r.owner = true ∧ (e.visit ms signals).events = some call.events ∧
    t.after.world.Told r (some { (e.visit ms signals).entry with callback })
      (t.after.world.meant? r) := by
  obtain ⟨w, e, ms, signals, hturn, hw, hevents⟩ := h.turn
  obtain ⟨callback, hb⟩ := hturn.becomes
  have htold := World.settled_told hw r
  rw [hb.self] at htold
  exact ⟨e, ms, signals, callback, hturn.present, hturn.reading, hturn.running, hevents, htold⟩

/-! ### Properties that last -/

theorem has_of_before (h : t.before.world.meant? r = some e)
    (hafter : ∀ e', t.after.world.meant? r = some e' → P e') : t.after.world.Has r P :=
  ⟨t.step (Config.inductive_knows r) (World.knows_of_meant? t.state.1.world h) t.state.1, hafter⟩

/-- A property of a watcher lasts over a transition if what is made of the watcher, and what it is
told then, keep it. -/
theorem keeps (t : Transition) (h : t.before.world.Has r P)
    (hstep : ∀ e e₁ e', t.before.world.meant? r = some e → t.after.world.meant? r = some e' →
      t.Effect r (some e) (some e₁) → t.after.world.Told r (some e₁) (some e') → P e → P e') :
    t.after.world.Has r P := by
  refine ⟨t.step (Config.inductive_knows r) h.1 t.state.1, fun e' he' => ?_⟩
  obtain ⟨v, heffect, htold⟩ := t.effect r
  rw [he'] at htold
  obtain ⟨e₁, rfl⟩ := htold.before
  cases hbefore : t.before.world.meant? r with
  | none =>
    have hgone := (t.step (Config.inductive_lacks r) ⟨h.1, hbefore⟩ t.state.1).2
    exact nomatch he'.symm.trans hgone
  | some e =>
    rw [hbefore] at heffect
    exact hstep e e₁ e' hbefore he' heffect htold (h.2 e hbefore)

/-- A watcher is of the same kind for ever. -/
theorem kind_keeps {kind : WatcherKind}
    (h : t.before.world.Has r fun e => e.payload.kind = kind) :
    t.after.world.Has r fun e => e.payload.kind = kind :=
  t.keeps h fun _ _ _ _ _ heffect htold hkind =>
    htold.frame.2.2.2.trans (heffect.kind.trans hkind)

theorem has_kind (h : t.before.world.meant? r = some e) :
    t.after.world.Has r fun e' => e'.payload.kind = e.payload.kind :=
  t.kind_keeps ⟨World.knows_of_meant? t.state.1.world h, fun e' he' => by
    rw [Option.some.inj (h.symm.trans he')]⟩

/-! ### Loops that exit -/

/-- A context that is dropped is gone when the step is over. -/
theorem dropped {current : Option Nat} {reaction : Reaction} {l : Loop}
    (hdeed : t.deed = .command current (.dropContext id) reaction)
    (hu : t.before.world.usable? none id = some l) : t.after.world.Dropped id := by
  obtain ⟨waits, w, hs, hperform, hw⟩ := commanded hdeed
  have hgone := World.dropContext_dropped hs hu
  have hsound := hs.acts (World.dropContext_course hs id).acts
  obtain rfl : (World.dropContext { t.before.world with waits } id).1 = w :=
    congrArg Prod.fst hperform
  rcases hw with he | he
  · exact he ▸ hgone
  · exact he ▸ (World.settle_calms hsound).acts.dropped hsound hgone

/-- A loop is running only if it was before, or a run of it is entered. -/
theorem isRunning (t : Transition) (h : t.after.world.isRunning id = true) :
    t.before.world.isRunning id = true ∨ t.Enters id := by
  cases hdeed : t.deed with
  | command current command reaction =>
    obtain ⟨waits, w, hs, hperform, hw⟩ := commanded hdeed
    rw [World.settled_isRunning hw] at h
    have hrun := @World.perform_isRunning _ id hs current command
    rw [hperform] at hrun
    refine (hrun h).imp_right fun ⟨flags, deadline, he⟩ => ?_
    exact ⟨current, command, flags, deadline, he ▸ hdeed⟩
  | dispatch =>
    left
    rcases dispatched hdeed with hc | ⟨a, below, l, s, l', stage, hm, hd, hw, -⟩
    · rwa [World.isRunning, World.context?_congr hc id] at h
    · rw [World.settled_isRunning hw] at h
      by_cases hid : id = a.context
      · have hc : t.before.world.context? id = some l.context :=
          hid ▸ (World.loop?_eq_some.mp hd.replaced.loop).1
        have hc' : s.world.context? id = some l'.context := hid ▸ hd.replaced.context_self
        rw [World.isRunning_of_context? hc'] at h
        exact (World.isRunning_of_context? hc).trans (hd.dispatch.running h)
      · rwa [World.isRunning, hd.replaced.context_other id hid] at h
  | poll =>
    obtain ⟨p, entries, -, hw⟩ := polled hdeed
    rw [hw, World.pollAmong_isRunning] at h
    exact Or.inl h

/-- A loop that has just exited is not running, and asked for nothing, and none of its watchers is
active. -/
theorem Exits.stopped (h : t.Exits id) : ∃ w c, (t.after.world = w ∨ t.after.world = w.settle) ∧
    w.context? id = some c ∧ c.running = false ∧ c.exitAsked = false ∧
      ∀ i, Loop.Idle (c.watchers.at? i) := by
  rcases h with ⟨current, command, reaction, hdeed, hexits⟩ | ⟨hdeed, hbefore, hafter⟩
  · obtain ⟨waits, w, hs, hperform, hw⟩ := commanded hdeed
    obtain ⟨c, hc, hidle⟩ := World.perform_exit hs hexits
    rw [hperform] at hc
    exact ⟨w, c, hw, hc, hidle⟩
  · rcases dispatched hdeed with hc | ⟨a, below, l, s, l', stage, hm, hd, hw, -⟩
    · rw [World.isRunning, World.context?_congr hc id] at hafter
      exact absurd (hafter.symm.trans hbefore) Bool.false_ne_true
    · rw [World.settled_isRunning hw] at hafter
      by_cases hid : id = a.context
      · have hc : t.before.world.context? id = some l.context :=
          hid ▸ (World.loop?_eq_some.mp hd.replaced.loop).1
        have hc' : s.world.context? id = some l'.context := hid ▸ hd.replaced.context_self
        rw [World.isRunning_of_context? hc] at hbefore
        rw [World.isRunning_of_context? hc'] at hafter
        rcases hd.dispatch.asked with ⟨hsame, -⟩ | ⟨-, -, -, hasked⟩
        · exact absurd (hafter.symm.trans (hsame.trans hbefore)) Bool.false_ne_true
        · exact ⟨s.world, l'.context, hw, hc', hafter, hasked, hd.dispatch.idle_of_exit
            (t.state.1.world.loop hd.replaced.loop).2 hbefore hafter⟩
      · rw [World.isRunning, hd.replaced.context_other id hid] at hafter
        exact absurd (hafter.symm.trans hbefore) Bool.false_ne_true

theorem Exits.isRunning (h : t.Exits id) : t.after.world.isRunning id = false := by
  obtain ⟨w, c, hw, hc, hrun, -⟩ := h.stopped
  rw [World.settled_isRunning hw, World.isRunning_of_context? hc, hrun]

theorem Exits.isActive (h : t.Exits r.owner) (he : t.after.world.meant? r = some e) :
    e.isActive = false := by
  obtain ⟨w, c, hw, hc, -, -, hidle⟩ := h.stopped
  have htold := World.settled_told hw r
  rw [he] at htold
  obtain ⟨e₁, he₁⟩ := htold.before
  rw [he₁] at htold
  obtain ⟨g, hat, -⟩ := Context.meant?_eq_some.mp ((World.meant?_of_context? hc).symm.trans he₁)
  rw [htold.isActive]
  exact hidle r.index g e₁ hat

/-- Only active watchers of running loops are called. -/
theorem Calls.isActive (h : t.Calls r call) : t.before.world.isRunning r.owner = true ∧
    ∃ e, t.before.world.meant? r = some e ∧ e.isActive = true := by
  obtain ⟨e, ms, signals, -, he, -, hrun, hevents, -⟩ := h.effect
  refine ⟨hrun, e, he, ?_⟩
  by_contra hnot
  rw [Bool.not_eq_true] at hnot
  rw [Entry.visit_of_inactive hnot] at hevents
  contradiction

end Transition
end EventLoop
