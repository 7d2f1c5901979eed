import EventLoop.Proofs.Lasting

/-!
# The remote timers that handles share

A remote timer is kept with its watcher, or it was left behind when the watcher was released or went
with its context. What is left behind has been cut off, and its watcher does not come back. So a
remote timer is attached exactly while its watcher is in its slot, and no handle ever loses it.
-/
namespace EventLoop

/-! ### What is left behind -/

namespace World

variable {w w' : World} {r : WatcherRef} {e : Entry} {t : RemoteTimer} {l : Loop}
  {current : Option Nat} {command : Command}

theorem Act.leavesBehind (ha : w.Act w') : w.LeavesBehind w' := by
  cases ha with
  | quiet _ _ _ h => exact h
  | moved hr => exact .of_eq hr.orphans
  | contextMade _ _ _ _ _ _ ho => exact .of_eq ho
  | contextDropped _ _ _ _ _ _ ho => exact .of_eq ho
  | pollerMade _ _ _ ho => exact .of_eq ho
  | pollerKilled _ _ _ _ ho => exact .of_eq ho
  | handleMade _ _ _ _ _ _ _ ho => exact .of_eq ho

/-- A release leaves the remote timer of the watcher behind. -/
theorem release_leavesBehind (haim : w.aim? current command = some (r, .release))
    (hm : w.meant? r = some e) (hs : w.Sound) (hp : e.payload = .remote t) :
    ∃ t', (r, t') ∈ (w.perform current command).1.orphans := by
  cases command with
  | watcher context name action =>
    obtain ⟨l, hu, haim⟩ := Option.bind_eq_some_iff.mp haim
    obtain ⟨h, hname, haim⟩ := Option.bind_eq_some_iff.mp haim
    obtain ⟨e', hf, heq⟩ := Option.map_eq_some_iff.mp haim
    obtain ⟨rfl, rfl⟩ := Prod.mk.inj heq
    replace hf : l.context.find h = .ok e' := by
      cases hfind : l.context.find h with
      | error err => rw [hfind] at hf; contradiction
      | ok e'' => rw [hfind] at hf; exact congrArg Except.ok (Option.some.inj hf)
    have hc := (loop?_eq_some.mp (usable?_loop hs hu)).1
    obtain rfl : e' = e := by
      have hm' := (meant?_of_context? hc).symm.trans hm
      rw [Context.meant?_eq_some.mpr ⟨_, (Context.find_ok hf).2, rfl⟩] at hm'
      exact Option.some.inj hm'
    have hleaves := (Loop.release_leaves hf).1
    rw [perform, withLoop_of_usable _ hu, withName_of_find _ hname]
    dsimp only
    rw [actOnWatcher, ← Prod.eta (l.release h), hleaves]
    simp only [Loop.leftBehind, hp, keep, Option.toList]
    exact ⟨_, List.mem_append_left _ (List.mem_singleton.mpr rfl)⟩
  | timerHandle handle action =>
    obtain ⟨s, -, haim⟩ := Option.bind_eq_some_iff.mp haim
    obtain ⟨v, -, heq⟩ := Option.map_eq_some_iff.mp haim
    cases action <;> cases heq
  | post handle =>
    obtain ⟨s, -, haim⟩ := Option.bind_eq_some_iff.mp haim
    obtain ⟨v, -, heq⟩ := Option.map_eq_some_iff.mp haim
    cases heq
  | _ => contradiction

/-- A context that is dropped leaves the remote timers of all its watchers behind. -/
theorem dropContext_leavesBehind (hs : w.Sound) (hu : w.usable? none r.owner = some l)
    (hm : w.meant? r = some e) (hp : e.payload = .remote t) :
    ∃ t', (r, t') ∈ (w.dropContext r.owner).1.orphans := by
  obtain ⟨hl, -⟩ := usable?_eq_some hu
  obtain ⟨hid, hsl⟩ := hs.loop hl
  rw [meant?_of_context? (loop?_eq_some.mp hl).1] at hm
  obtain ⟨g, hat, hserial⟩ := Context.meant?_eq_some.mp hm
  -- the exit has stopped the watcher at most
  obtain ⟨e', t', hat', hp', hserial'⟩ : ∃ e' t', l.exit.context.watchers.at? r.index = some (g, e') ∧
      e'.payload = .remote t' ∧ e'.serial = r.serial := by
    rcases Loop.exit_slot hsl r.index with h | h
    · exact ⟨e, t, h.trans hat, hp, hserial⟩
    · rw [hat, Option.map_some] at h
      exact ⟨e.stopped, t.stop, h, congrArg (Loop.stoppedPayload false) hp, hserial⟩
  have href : r = l.exit.context.refTo r.index e' := by
    rw [Context.refTo, (Loop.exit_frame hsl).1, hid, hserial']
  have hshared := Context.mem_allShared.mpr ⟨r.index, g, e', t', hat', hp', rfl⟩
  rw [← href] at hshared
  rw [dropContext, hu]
  exact ⟨t'.cutOff, List.mem_append_left _ (List.mem_map.mpr ⟨_, hshared, rfl⟩)⟩

end World

namespace Config

/-- What is left behind is kept. -/
theorem inductive_orphan (x : WatcherRef × RemoteTimer) :
    Inductive fun s => x ∈ s.world.orphans where
  act := fun _ _ _ h ha _ => by
    obtain ⟨shared, -, he⟩ := ha.leavesBehind
    exact he ▸ List.mem_append_right shared h
  entered := fun _ _ _ _ h he => he.replaced.orphans ▸ h
  dispatched := fun _ _ _ _ _ _ _ _ h hd => hd.replaced.orphans ▸ h

/-- Nobody is there for whom a remote timer was left behind. -/
theorem inductive_orphansLack :
    Inductive fun s => ∀ x ∈ s.world.orphans, s.world.Lacks x.1 where
  act := fun s s' hs h ha hbelow x hx => by
    obtain ⟨shared, hshared, he⟩ := ha.leavesBehind
    rw [he] at hx
    have hlacks := (List.mem_append.mp hx).elim (fun hx => (hshared x hx).2) (h x)
    exact (inductive_lacks x.1).act _ _ hs hlacks ha hbelow
  entered := fun _ _ _ hs h he x hx =>
    (inductive_lacks x.1).entered _ _ _ hs (h x (he.replaced.orphans ▸ hx)) he
  dispatched := fun _ _ _ _ _ _ _ hs h hd x hx =>
    (inductive_lacks x.1).dispatched _ _ _ _ _ _ _ hs (h x (hd.replaced.orphans ▸ hx)) hd

end Config

/-! ### Where handles come from -/

namespace World

variable {w : World} {r : WatcherRef} {name : String} {current : Option Nat}

theorem putLoop_timerHandles (w : World) (id : Nat) (l : Loop) :
    (w.putLoop id l).timerHandles = w.timerHandles := by
  unfold putLoop
  dsimp only
  split <;> rfl

theorem actOnWatcher_timerHandles (w : World) (l : Loop) (h : Handle) (action : WatcherAction) :
    (w.actOnWatcher l h action).1.timerHandles = w.timerHandles ∨
      ∃ made e, action = .timerHandle made ∧ l.context.find h = .ok e ∧
        (w.actOnWatcher l h action).2.isOk = true ∧
        (w.actOnWatcher l h action).1.timerHandles =
          w.timerHandles.bind made (l.context.refTo h.key.index e) := by
  cases action with
  | timerHandle made =>
    rw [actOnWatcher]
    split
    · next r hr =>
      obtain ⟨e, t, hf, -, rfl⟩ := timerHandle_eq_ok hr
      exact Or.inr ⟨made, e, rfl, hf, rfl, rfl⟩
    · exact Or.inl rfl
  | deadline | eventPoster => exact Or.inl (by rw [actOnWatcher]; split <;> rfl)
  | release =>
    rw [actOnWatcher]
    split <;> exact Or.inl (putLoop_timerHandles _ _ _)
  | isActive => exact Or.inl rfl
  | _ => exact Or.inl (putLoop_timerHandles _ _ _)

theorem actOnTimerHandle_timerHandles (w : World) (r : WatcherRef) (action : TimerHandleAction) :
    (w.actOnTimerHandle r action).1.timerHandles = w.timerHandles := by
  have hput : ∀ t, (w.putCell r t).timerHandles = w.timerHandles := by
    intro t
    rw [putCell]
    split
    · rfl
    · split <;> rfl
  have hassigned : ∀ result, (w.assignCell r result).1.timerHandles = w.timerHandles := by
    intro result
    rw [assignCell.eq_def]
    split
    · rfl
    · rw [raise]
      split <;> exact hput _
  rw [actOnTimerHandle]
  split
  · rfl
  · cases action with
    | set timeout period => exact hassigned _
    | start => exact hassigned _
    | stop => exact hput _
    | isActive => rfl

/-- A step gives no name to a handle, unless it is aimed at a remote timer to make one. -/
theorem perform_timerHandles (w : World) (current : Option Nat) (command : Command) :
    (w.perform current command).1.timerHandles = w.timerHandles ∨
      ∃ made r, w.aim? current command = some (r, .timerHandle made) ∧
        (w.perform current command).2.isOk = true ∧
        (w.perform current command).1.timerHandles = w.timerHandles.bind made r := by
  cases command with
  | create context name spec script =>
    rw [perform, withLoop]
    split
    · next l _ =>
      dsimp only
      rw [createWatcher_eq, afterStored]
      split <;> exact Or.inl (putLoop_timerHandles _ _ _)
    · exact Or.inl rfl
  | watcher context name action =>
    rw [perform, withLoop]
    split
    · next l hu =>
      dsimp only
      rw [withName]
      split
      · next h hname =>
        refine (w.actOnWatcher_timerHandles l h action).imp_right ?_
        rintro ⟨made, e, rfl, hf, hok, hbind⟩
        refine ⟨made, _, ?_, hok, hbind⟩
        rw [aim?, hu, Option.bind_some, hname, Option.bind_some, hf]
        rfl
      · exact Or.inl rfl
    · exact Or.inl rfl
  | context context action =>
    rw [perform, withLoop]
    split
    · next l _ =>
      cases action with
      | exit => exact Or.inl (putLoop_timerHandles _ _ _)
      | watched =>
        dsimp only
        rw [actOnContext]
        split <;> exact Or.inl rfl
      | _ => exact Or.inl rfl
    · exact Or.inl rfl
  | run context flags =>
    rw [perform, withLoop]
    split
    · next l _ =>
      rw [enterRun]
      split <;> exact Or.inl rfl
    · exact Or.inl rfl
  | newContext poller clock =>
    cases poller with
    | numbered number =>
      rw [perform, newContext]
      split <;> exact Or.inl rfl
    | _ => exact Or.inl rfl
  | dropContext id =>
    rw [perform, dropContext]
    split
    · exact Or.inl rfl
    · exact Or.inl (putLoop_timerHandles _ _ _)
  | newPoller stack =>
    rw [perform, newPoller]
    split <;> exact Or.inl rfl
  | poller number action =>
    obtain ⟨pollers, numbers, hw⟩ := w.perform_poller_frame current number action
    rw [hw]
    exact Or.inl rfl
  | timerHandle handle action =>
    rw [perform, withName]
    split
    · exact Or.inl (actOnTimerHandle_timerHandles w _ action)
    · exact Or.inl rfl
  | post handle =>
    rw [perform, withName]
    split
    · rw [throughHandle]
      split <;> exact Or.inl rfl
    · exact Or.inl rfl
  | requestExit handle =>
    rw [perform, withName]
    split
    · rw [throughHandle]
      split <;> exact Or.inl rfl
    · exact Or.inl rfl
  | isRunning handle =>
    rw [perform, withName]
    split <;> exact Or.inl rfl
  | socket action => cases action <;> exact Or.inl rfl
  | setClock us => exact Or.inl rfl
  | advance us => exact Or.inl rfl
  | unknown => exact Or.inl rfl

end World

/-! ### Who is cut off -/

namespace Transition

variable {t : Transition} {r : WatcherRef} {e : Entry} {id : Nat}

/-- The context is dropped. -/
def Drops (t : Transition) (id : Nat) : Prop :=
  ∃ current reaction l, t.deed = .command current (.dropContext id) reaction ∧
    t.before.world.usable? none id = some l

/-- The watcher is released, or goes with its context. -/
def CutsOff (t : Transition) (r : WatcherRef) : Prop := t.Acts r .release ∨ t.Drops r.owner

/-- There is no other way for a watcher to go. -/
theorem cutsOff_of_gone (hbefore : t.before.world.meant? r = some e)
    (hafter : t.after.world.meant? r = none) : t.CutsOff r := by
  obtain ⟨v, heffect, htold⟩ := t.effect r
  rw [hafter] at htold
  obtain rfl : v = none := by
    cases v with
    | none => rfl
    | some e₁ => exact absurd rfl htold.after
  rw [hbefore] at heffect
  cases heffect with
  | commanded hdeed heffect =>
    cases heffect with
    | @acted action _ _ haim hact =>
      generalize hok : Reaction.isOk _ = ok at hact
      cases hact
      exact Or.inl ⟨_, _, _, hdeed, haim, hok⟩
    | dropped hcommand hu => exact Or.inr ⟨_, _, _, hcommand ▸ hdeed, hu⟩

/-- Once it has gone it does not come back. -/
theorem CutsOff.gone (h : t.CutsOff r) : t.after.world.Lacks r := by
  rcases h with hacts | ⟨current, reaction, l, hdeed, hu⟩
  · obtain ⟨e, v, hm, hact, htold⟩ := hacts.effect
    have hknows := t.step (Config.inductive_knows r)
      (World.knows_of_meant? t.state.1.world hm) t.state.1
    cases hact with
    | asked hasks => contradiction
    | stopped hstops => contradiction
    | released => exact ⟨hknows, Entry.told_none htold⟩
  · have hgone := t.dropped hdeed hu
    have hnone : t.after.world.meant? r = none := by
      rw [World.meant?, hgone.2, Option.bind_none]
    have habsent : ∀ c, t.after.world.context? r.owner ≠ some c := by
      intro c
      rw [hgone.2]
      exact (Option.some_ne_none c).symm
    exact ⟨⟨hgone.1, fun c hc => absurd hc (habsent c)⟩, hnone⟩

/-- The remote timer of a watcher that goes is left behind. -/
theorem CutsOff.leavesBehind {tm : RemoteTimer} (h : t.CutsOff r)
    (hm : t.before.world.meant? r = some e) (hp : e.payload = .remote tm) :
    ∃ tm', (r, tm') ∈ t.after.world.orphans := by
  have hsettled : ∀ {w : World} {x}, t.after.world = w ∨ t.after.world = w.settle →
      x ∈ w.orphans → x ∈ t.after.world.orphans := by
    intro w x hw hx
    rcases hw with hw | hw
    · exact hw ▸ hx
    · obtain ⟨contexts, hframe⟩ := w.settle_frame
      rw [hw, hframe]
      exact hx
  rcases h with ⟨current, command, reaction, hdeed, haim, -⟩ | ⟨current, reaction, l, hdeed, hu⟩
  · obtain ⟨waits, w, hs, hperform, hw⟩ := commanded hdeed
    obtain ⟨tm', hleft⟩ := World.release_leavesBehind (w := { t.before.world with waits }) haim hm hs hp
    rw [hperform] at hleft
    exact ⟨tm', hsettled hw hleft⟩
  · obtain ⟨waits, w, hs, hperform, hw⟩ := commanded hdeed
    obtain ⟨tm', hleft⟩ := World.dropContext_leavesBehind (w := { t.before.world with waits }) hs hu hm hp
    obtain rfl : (World.dropContext { t.before.world with waits } r.owner).1 = w :=
      congrArg Prod.fst hperform
    exact ⟨tm', hsettled hw hleft⟩

/-- A handle is given a name when it is made of a timer that is there. -/
theorem timerHandles (t : Transition) :
    t.after.world.timerHandles = t.before.world.timerHandles ∨
      ∃ made s, t.Acts s (.timerHandle made) ∧
        t.after.world.timerHandles = t.before.world.timerHandles.bind made s := by
  have hsettle : ∀ w : World, w.settle.timerHandles = w.timerHandles := fun w => by
    obtain ⟨contexts, hw⟩ := w.settle_frame
    rw [hw]
  cases hdeed : t.deed with
  | command current command reaction =>
    obtain ⟨waits, w, -, hperform, hw⟩ := commanded hdeed
    have hnames : t.after.world.timerHandles = w.timerHandles := by
      rcases hw with hw | hw <;> rw [hw]
      exact hsettle w
    rw [hnames]
    have hmade := World.perform_timerHandles { t.before.world with waits } current command
    rw [hperform] at hmade
    refine hmade.imp_right ?_
    rintro ⟨made, s, haim, hok, hbind⟩
    exact ⟨made, s, ⟨current, command, reaction, hdeed, haim, hok⟩, hbind⟩
  | dispatch =>
    have hdoes : t.before.Does .dispatch t.after := hdeed ▸ t.does
    left
    rcases hdoes.advanced t.state.1 with hw | ⟨a, below, l, hm, s, l', stage, hd, hsettled⟩
    · exact hw.timerHandles
    · have hnames : t.after.world.timerHandles = s.world.timerHandles := by
        rcases hsettled.world with hw | hw
        · exact congrArg World.timerHandles hw
        · exact (congrArg World.timerHandles hw).trans (hsettle s.world)
      exact hnames.trans hd.replaced.timerHandles
  | poll =>
    obtain ⟨p, entries, -, hw⟩ := polled hdeed
    obtain ⟨contexts, hframe⟩ := t.before.world.pollAmong_frame p entries
    left
    rw [hw, hframe]

end Transition

namespace World

variable {w : World} {name : String} {r : WatcherRef} {e : Entry} {t : RemoteTimer}

/-- The watcher of a handle is a remote timer. -/
theorem HandlesRefer.remote (h : w.HandlesRefer) (hmem : (name, r) ∈ w.timerHandles)
    (hm : w.meant? r = some e) : ∃ t, e.payload = .remote t := by
  obtain ⟨c, hc, hm⟩ := meant?_eq_some.mp hm
  obtain ⟨g, hat, hserial⟩ := Context.meant?_eq_some.mp hm
  have hkind := ((h _ hmem).2 c hc).2 g e hat hserial
  cases hp : e.payload <;> simp [hp, Payload.kind] at hkind
  exact ⟨_, rfl⟩

end World

namespace History

variable {past : List Transition} {m : Machine} {name : String} {r : WatcherRef}

theorem handlesRefer (h : History past m) : m.world.HandlesRefer :=
  (Config.inductive_handlesRefer.reachable (fun _ _ _ hx => absurd hx List.not_mem_nil)
    h.reachable).2

theorem gone_of_cutOff (h : History past m) (hcut : ∃ s ∈ past, s.CutsOff r) :
    m.world.meant? r = none := by
  obtain ⟨s, hs, hcuts⟩ := hcut
  have hlacks := h.ever (I := fun m => m.world.Lacks r) hs hcuts.gone
    fun t hlacks => t.step (Config.inductive_lacks r) hlacks t.state.1
  exact hlacks.2

/-- The timer of a handle is there until it is cut off, and then it is left behind. -/
theorem there_or_left (h : History past m) (hname : (name, r) ∈ m.world.timerHandles) :
    m.world.meant? r ≠ none ∨
      ((∃ s ∈ past, s.CutsOff r) ∧ ∃ tm, (r, tm) ∈ m.world.orphans) := by
  induction h with
  | start clock host => exact absurd hname List.not_mem_nil
  | @step past t hpast ih =>
    have hold : (name, r) ∈ t.before.world.timerHandles →
        t.after.world.meant? r ≠ none ∨
          ((∃ s ∈ past ++ [t], s.CutsOff r) ∧ ∃ tm, (r, tm) ∈ t.after.world.orphans) := by
      intro hmem
      rcases ih hmem with hthere | ⟨⟨s, hs, hcuts⟩, tm, hleft⟩
      · obtain ⟨e, hm⟩ := Option.ne_none_iff_exists'.mp hthere
        obtain ⟨tm, hp⟩ := hpast.handlesRefer.remote hmem hm
        by_cases hafter : t.after.world.meant? r = none
        · have hcut := Transition.cutsOff_of_gone hm hafter
          exact Or.inr ⟨⟨t, List.mem_concat_self, hcut⟩, hcut.leavesBehind hm hp⟩
        · exact Or.inl hafter
      · exact Or.inr ⟨⟨s, List.mem_append_left _ hs, hcuts⟩, tm,
          t.step (Config.inductive_orphan (r, tm)) hleft t.state.1⟩
    rcases t.timerHandles with hsame | ⟨made, s, hacts, hbind⟩
    · exact hold (hsame ▸ hname)
    · rcases Config.mem_bind (hbind ▸ hname) with heq | hmem
      · -- whoever has just made a handle is there
        obtain ⟨-, rfl⟩ := Prod.mk.inj heq
        obtain ⟨e, v, -, hacted, htold⟩ := hacts.effect
        refine Or.inl ?_
        cases hacted with
        | asked => exact htold.after
        | stopped hstops => contradiction
      · exact hold hmem

end History

/-! ### In every reachable state -/

/-- The watcher that a handle was made for is in its slot. -/
def World.Occupied (w : World) (r : WatcherRef) : Prop :=
  ∃ c g e, w.context? r.owner = some c ∧ c.watchers.at? r.index = some (g, e) ∧
    e.serial = r.serial

namespace World

variable {w : World} {r : WatcherRef} {t : RemoteTimer}

theorem occupied_iff : w.Occupied r ↔ w.meant? r ≠ none := by
  rw [Option.ne_none_iff_exists']
  constructor
  · rintro ⟨c, g, e, hc, hat, hserial⟩
    exact ⟨e, meant?_eq_some.mpr ⟨c, hc, Context.meant?_eq_some.mpr ⟨g, hat, hserial⟩⟩⟩
  · rintro ⟨e, hm⟩
    obtain ⟨c, hc, hm⟩ := meant?_eq_some.mp hm
    obtain ⟨g, hat, hserial⟩ := Context.meant?_eq_some.mp hm
    exact ⟨c, g, e, hc, hat, hserial⟩

/-- A remote timer is with its watcher, or it was left behind. -/
theorem cell?_cases (h : w.cell? r = some t) :
    (∃ c e, w.context? r.owner = some c ∧ c.remote? r = some (e, t)) ∨ (r, t) ∈ w.orphans := by
  unfold cell? at h
  split at h
  · next e t' hr =>
    obtain ⟨c, hc, hr⟩ := Option.bind_eq_some_iff.mp hr
    exact Or.inl ⟨c, e, hc, Option.some.inj h ▸ hr⟩
  · obtain ⟨before, after, hsplit, -⟩ := List.lookup_eq_some_iff.mp h
    exact Or.inr (hsplit ▸ List.mem_append_right _ List.mem_cons_self)

/-- A remote timer that is kept in one place or the other is found. -/
theorem cell?_isSome (h : (∃ c e t, w.context? r.owner = some c ∧ c.remote? r = some (e, t)) ∨
    ∃ t, (r, t) ∈ w.orphans) : ∃ t, w.cell? r = some t := by
  cases hr : (w.context? r.owner).bind fun c => c.remote? r with
  | some v => exact ⟨v.2, by rw [cell?, hr]⟩
  | none =>
    rcases h with ⟨c, e, t, hc, hremote⟩ | ⟨t, hmem⟩
    · rw [hc, Option.bind_some, hremote] at hr
      contradiction
    · have hcell : w.cell? r = w.orphans.lookup r := by rw [cell?, hr]
      rw [hcell]
      cases hlookup : w.orphans.lookup r with
      | some t' => exact ⟨t', rfl⟩
      | none => exact absurd (List.lookup_eq_none_iff.mp hlookup _ hmem) (by simp)

/-- A remote timer is attached while its watcher is in its slot, and has been cut off when it was
left behind. -/
theorem attached_iff_occupied (hs : w.Sound) (hlack : ∀ x ∈ w.orphans, w.Lacks x.1)
    (h : w.cell? r = some t) : t.reachable = true ↔ w.Occupied r := by
  rcases cell?_cases h with ⟨c, e, hc, hr⟩ | hmem
  · obtain ⟨g, hat, hserial, -⟩ := Loop.remote_some hr
    have hattached := ((hs.loop (loop?_of_context? hc)).2.remote hr).1
    exact iff_of_true hattached ⟨c, g, e, hc, hat, hserial⟩
  · refine iff_of_false ?_ fun hoccupied => occupied_iff.mp hoccupied (hlack _ hmem).2
    rw [(hs.severed _ hmem).unreachable]
    exact Bool.false_ne_true

end World

/-- In every reachable state every context is structured. A remote timer, with its watcher or left
behind, is attached exactly while its watcher is in its slot, and every handle has one. -/
theorem structured_of_reachable {m : Machine} (h : m.Reachable) :
    (∀ id c, m.world.context? id = some c → c.Structured) ∧
      (∀ r t, m.world.cell? r = some t → (t.reachable = true ↔ m.world.Occupied r)) ∧
      ∀ name r, (name, r) ∈ m.world.timerHandles → ∃ t, m.world.cell? r = some t := by
  obtain ⟨past, hpast⟩ := h.history
  obtain ⟨hs, hlack⟩ := Config.inductive_orphansLack.reachable
    (fun _ _ _ hx => absurd hx List.not_mem_nil) h
  refine ⟨fun id c hc => ((hs.world.context id c hc).2).structured,
    fun r t => World.attached_iff_occupied hs.world hlack, fun name r hname => ?_⟩
  refine World.cell?_isSome ?_
  rcases hpast.there_or_left hname with hthere | ⟨-, hleft⟩
  · obtain ⟨e, hm⟩ := Option.ne_none_iff_exists'.mp hthere
    obtain ⟨t, hp⟩ := hpast.handlesRefer.remote hname hm
    obtain ⟨c, hc, hm⟩ := World.meant?_eq_some.mp hm
    refine Or.inl ⟨c, e, t, hc, ?_⟩
    rw [Context.remote?, hm]
    simp only [hp]
  · exact Or.inr hleft

/-- A scenario that has made a remote timer and a handle of it. -/
def Machine.withHandle : Machine :=
  (((Machine.create (World.create ⟨1000000, 0, false⟩ .standIn)).submit
    (.newContext .own .scenario)).submit
    (.create (some 0) "timer" (.remoteTimer 5 0) ⟨[], false⟩)).submit
    (.watcher (some 0) "timer" (.timerHandle "handle"))

/-- The timer is released, and another one has come into its slot. -/
def Machine.handleLeft : Machine :=
  (Machine.withHandle.submit (.watcher (some 0) "timer" .release)).submit
    (.create (some 0) "late timer" (.remoteTimer 5 0) ⟨[], false⟩)

/-- The timer is attached, and not any more when another one is in its slot. -/
theorem structured_withHandle :
    (∃ c, Machine.withHandle.world.context? 0 = some c ∧ c.roster.toList = [0] ∧ c.Structured) ∧
      ("handle", ⟨0, 0, 0⟩) ∈ Machine.withHandle.world.timerHandles ∧
      (∃ t, Machine.withHandle.world.cell? ⟨0, 0, 0⟩ = some t ∧ t.reachable = true) ∧
      (Machine.handleLeft.world.meant? ⟨0, 0, 1⟩).isSome = true ∧
      ∃ t, Machine.handleLeft.world.cell? ⟨0, 0, 0⟩ = some t ∧ t.reachable = false := by
  have hreach : Machine.withHandle.Reachable :=
    (((Machine.Reachable.start _ _).step (.submitted _ rfl rfl)).step
      (.submitted _ rfl rfl)).step (.submitted _ rfl rfl)
  have hleft : Machine.handleLeft.Reachable :=
    (hreach.step (.submitted _ rfl rfl)).step (.submitted _ rfl rfl)
  obtain ⟨hctx, hcell, hhandle⟩ := structured_of_reachable hreach
  obtain ⟨t, ht⟩ := hhandle "handle" ⟨0, 0, 0⟩ List.mem_cons_self
  obtain ⟨-, hcell', hhandle'⟩ := structured_of_reachable hleft
  obtain ⟨t', ht'⟩ := hhandle' "handle" ⟨0, 0, 0⟩ List.mem_cons_self
  refine ⟨⟨_, rfl, rfl, hctx 0 _ rfl⟩, List.mem_cons_self, ⟨t, ht, ?_⟩, rfl, t', ht', ?_⟩
  · exact (hcell _ t ht).mpr ⟨_, _, _, rfl, rfl, rfl⟩
  · rw [← Bool.not_eq_true, hcell' _ t' ht', World.occupied_iff, not_not]
    rfl

end EventLoop
