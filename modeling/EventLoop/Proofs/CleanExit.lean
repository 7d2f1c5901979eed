import EventLoop.Proofs.Isolation
import EventLoop.Proofs.Pass
import EventLoop.Proofs.WatchList

/-!
# What an exit leaves

An exit stops the linked watchers one after the other. Each stop takes at most one slot out of the
roster and one entry off the watch list, so both are thinned out and what is left stands in its old
order. Which slots and entries are left is then a matter of membership: a slot stays linked exactly
if it is to be linked with nothing active, and the list stays in step with the active watchers.
-/
namespace EventLoop

/-- What is kept for an I/O watcher. -/
def Payload.io? : Payload → Option IoState
  | .io state => some state
  | _ => none

/-- A remote timer is in the slot. -/
def Context.holdsRemote (c : Context) (i : Nat) : Bool :=
  (c.watchers.at? i).any fun v => v.2.payload.isRemote

/-- The watcher is the same, set to the same times and aimed at the same descriptor. -/
structure Entry.SetAlike (e e' : Entry) : Prop where
  serial : e'.serial = e.serial
  kind : e'.payload.kind = e.payload.kind
  callback : e'.callback = e.callback
  timer : e'.payload.timer? = e.payload.timer?
  io : e'.payload.io? = e.payload.io?

theorem Entry.SetAlike.refl (e : Entry) : e.SetAlike e := ⟨rfl, rfl, rfl, rfl, rfl⟩

theorem Entry.setAlike_stopped (e : Entry) : e.SetAlike e.stopped := by
  obtain ⟨serial, active, callback, payload⟩ := e
  cases payload <;> exact ⟨rfl, rfl, rfl, rfl, rfl⟩

theorem Entry.stopped_isRemote (e : Entry) : e.stopped.payload.isRemote = e.payload.isRemote := by
  obtain ⟨serial, active, callback, payload⟩ := e
  cases payload <;> rfl

/-- Withdrawing a watcher leaves all entries of the list but its own. -/
theorem Entry.withdraw_eq_filter (e : Entry) : ∃ listed : Watched → Bool, ∀ q : Poller,
    e.withdraw q = { q with watched := q.watched.filter listed } := by
  have hall : ∀ q : Poller, q = { q with watched := q.watched.filter fun _ => true } := by
    intro q
    rw [List.filter_true]
  obtain ⟨serial, active, callback, payload⟩ := e
  cases payload with
  | io state =>
    cases active with
    | true => exact ⟨_, fun _ => rfl⟩
    | false => exact ⟨_, hall⟩
  | timer t => exact ⟨_, hall⟩
  | remote r => exact ⟨_, hall⟩
  | event flag => exact ⟨_, hall⟩

/-- Unlinking a slot leaves all slots but that one, in their order. -/
theorem Roster.WellFormed.erase_eq_filter {r : Roster} (h : r.WellFormed) (i : Nat) :
    (r.erase i).1.toList = r.toList.filter (· != i) ∧
      (r.erase i).1.remaining = r.remaining.filter (· != i) := by
  obtain ⟨-, hremaining, hlist⟩ := h.erase i
  rw [hlist, hremaining, h.nodup.erase_eq_filter, h.nodup_remaining.erase_eq_filter]
  exact ⟨rfl, rfl⟩

namespace Loop

variable {l l' : Loop} {h : Handle} {e : Entry} {i : Nat} {others : Watched → Prop}

/-! ### Thinning out -/

/-- Exit takes slots out of the roster, and out of what the pass has still to visit. -/
theorem exit_roster_filter (hs : l.Sound) : ∃ keep : Nat → Bool,
    l.exit.context.roster.toList = l.context.roster.toList.filter keep ∧
      l.exit.context.roster.remaining = l.context.roster.remaining.filter keep := by
  refine exit_induction (P := fun l' => ∃ keep : Nat → Bool,
    l'.context.roster.toList = l.context.roster.toList.filter keep ∧
      l'.context.roster.remaining = l.context.roster.remaining.filter keep) hs
    ⟨fun _ => true, (List.filter_true _).symm, (List.filter_true _).symm⟩ ?_ fun _ h => h
  rintro l₁ l₂ j g e hs₁ ⟨keep, hlist, hremaining⟩ - hc
  cases hremote : e.payload.isRemote with
  | true =>
    have hroster : l₂.context.roster = l₁.context.roster := by
      rw [hc.roster, if_pos hremote]
      rfl
    exact ⟨keep, hroster ▸ hlist, hroster ▸ hremaining⟩
  | false =>
    have hroster : l₂.context.roster = (l₁.context.roster.erase j).1 := by
      rw [hc.roster, if_neg (by rw [hremote]; exact Bool.false_ne_true)]
      rfl
    obtain ⟨herase, hrest⟩ := hs₁.context.roster.erase_eq_filter j
    refine ⟨fun k => k != j && keep k, ?_, ?_⟩
    · rw [hroster, herase, hlist, List.filter_filter]
    · rw [hroster, hrest, hremaining, List.filter_filter]

/-- Exit takes entries off the watch list, and leaves the poller as alive as it was. -/
theorem exit_poller_filter (hs : l.Sound) : ∃ listed : Watched → Bool,
    l.exit.poller = l.poller.map fun q => { q with watched := q.watched.filter listed } := by
  refine exit_induction (P := fun l' => ∃ listed : Watched → Bool,
    l'.poller = l.poller.map fun q => { q with watched := q.watched.filter listed }) hs
    ⟨fun _ => true, by simp only [List.filter_true, Option.map_id']⟩ ?_ fun _ h => h
  rintro l₁ l₂ j g e - ⟨listed, hpoller⟩ - hc
  obtain ⟨stays, hstays⟩ := e.withdraw_eq_filter
  refine ⟨fun x => stays x && listed x, ?_⟩
  rw [hc.poller, hpoller, Option.map_map]
  refine congrArg (l.poller.map ·) (funext fun q => ?_)
  simp only [Function.comp_apply, hstays, List.filter_filter]

/-! ### Who is left -/

/-- After an exit a slot is linked exactly if a remote timer is in it, as before. -/
theorem mem_roster_exit (hs : l.Sound) :
    i ∈ l.exit.context.roster.toList ↔ l.context.holdsRemote i = true := by
  have hidle := idle_exit hs i
  have hslot := exit_slot hs i
  rw [hs.exit.context.linked_iff, Context.holdsRemote]
  cases hat : l.context.watchers.at? i with
  | none =>
    have hnone : l.exit.context.watchers.at? i = none := by
      rcases hslot with he | he <;> rw [he, hat]
      rfl
    rw [hnone]
    exact iff_of_false not_holdsLinked_none Bool.false_ne_true
  | some v =>
    obtain ⟨e', hat', hremote⟩ : ∃ e', l.exit.context.watchers.at? i = some (v.1, e') ∧
        e'.payload.isRemote = v.2.payload.isRemote := by
      rcases hslot with he | he
      · exact ⟨v.2, he.trans hat, rfl⟩
      · exact ⟨v.2.stopped, by rw [he, hat]; rfl, Entry.stopped_isRemote v.2⟩
    have hactive := hidle _ _ hat'
    rw [hat', holdsLinked_some, Option.any_some, ← hremote, Entry.isLinked]
    cases hp : e'.payload with
    | remote r => exact iff_of_true rfl rfl
    | timer t | io state | event flag =>
      simp only [Entry.isActive, hp] at hactive
      simp [Payload.isRemote, hactive]

/-- The roster is thinned out to the remote timers, and so is the rest of the pass. -/
theorem exit_roster (hs : l.Sound) :
    l.exit.context.roster.toList = l.context.roster.toList.filter l.context.holdsRemote ∧
      l.exit.context.roster.remaining =
        l.context.roster.remaining.filter l.context.holdsRemote := by
  obtain ⟨keep, hlist, hremaining⟩ := exit_roster_filter hs
  have hkeep : ∀ j ∈ l.context.roster.toList, keep j = l.context.holdsRemote j := by
    intro j hj
    have hmem := mem_roster_exit (i := j) hs
    rw [hlist, List.mem_filter] at hmem
    exact Bool.eq_iff_iff.mpr ((and_iff_right hj).symm.trans hmem)
  rw [hlist, hremaining]
  exact ⟨List.filter_congr hkeep, List.filter_congr fun j hj =>
    hkeep j (hs.context.roster.mem_toList_of_remaining hj)⟩

/-- The watch list is thinned out to the entries of other contexts. -/
theorem exit_poller (hs : l.Sound) (hm : l.Mirrors others)
    (hothers : ∀ x, others x → x.watcher.owner ≠ l.context.id) :
    l.exit.poller = l.poller.map fun q =>
      { q with watched := q.watched.filter fun x => x.watcher.owner != l.context.id } := by
  obtain ⟨listed, hpoller⟩ := exit_poller_filter hs
  rw [hpoller]
  refine Option.map_congr fun q hq => ?_
  have hmem := fun x => (hm.exit hs hothers _ (by rw [hpoller, hq]; rfl)).mem_iff x
  have hlisted : ∀ x ∈ q.watched, listed x = (x.watcher.owner != l.context.id) := by
    intro x hx
    have hlast := hmem x
    rw [List.mem_filter, and_iff_right hx] at hlast
    rw [Bool.eq_iff_iff, hlast, bne_iff_ne]
    constructor
    · rintro (⟨j, hj⟩ | hx')
      · rw [Context.watched?, watched?_of_idle (idle_exit hs j)] at hj
        contradiction
      · exact hothers x hx'
    · intro howner
      rcases ((hm q hq).mem_iff x).mp hx with ⟨j, hj⟩ | hx'
      · exact absurd (watched?_watcher hj).1 howner
      · exact Or.inr hx'
  rw [List.filter_congr hlisted]

/-! ### An exit as a whole -/

/-- The loop `l'` is what an exit leaves of `l`: nothing is active or asks for an exit, the remote
timers are linked as they were, handles find what they found, set as it was, and the dispatcher has
the same signals to take. -/
structure LeftBy (l l' : Loop) : Prop where
  inactive : ∀ h, l'.isActive h = false
  registry : l'.context.roster.toList = l.context.roster.toList.filter l.context.holdsRemote
  remaining :
    l'.context.roster.remaining = l.context.roster.remaining.filter l.context.holdsRemote
  running : l'.context.running = false
  exitAsked : l'.context.exitAsked = false
  resolves : ∀ h e, l.context.find h = .ok e →
    ∃ e', l'.context.find h = .ok e' ∧ e.SetAlike e'
  wakeups : l'.context.wakeups = l.context.wakeups
  watched : l'.poller = l.poller.map fun q =>
    { q with watched := q.watched.filter fun x => x.watcher.owner != l.context.id }

theorem exit_resolves (hs : l.Sound) (hf : l.context.find h = .ok e) :
    ∃ e', l.exit.context.find h = .ok e' ∧ e.SetAlike e' := by
  obtain ⟨howner, hat⟩ := Context.find_ok hf
  have howner' := howner.trans (exit_frame hs).1.symm
  rcases exit_slot hs h.key.index with he | he
  · exact ⟨e, Context.find_of_at? howner' (he.trans hat), .refl e⟩
  · exact ⟨e.stopped, Context.find_of_at? howner' (by rw [he, hat]; rfl), e.setAlike_stopped⟩

theorem exit_isActive (hs : l.Sound) (h : Handle) : l.exit.isActive h = false := by
  unfold isActive
  split
  · next e hf => exact idle_exit hs _ _ _ (Context.find_ok hf).2
  · rfl

theorem leftBy_exit (hs : l.Sound) (hm : l.Mirrors others)
    (hothers : ∀ x, others x → x.watcher.owner ≠ l.context.id) : l.LeftBy l.exit where
  inactive := exit_isActive hs
  registry := (exit_roster hs).1
  remaining := (exit_roster hs).2
  running := rfl
  exitAsked := rfl
  resolves := fun _ _ => exit_resolves hs
  wakeups := (exit_frame hs).2.2.2.2
  watched := exit_poller hs hm hothers

/-! ### A second exit -/

/-- A remote timer that is not active has nothing to be stopped. -/
theorem stopSlot_of_idleRemote (hs : l.Sound) {g : Generation} {r : RemoteTimer}
    (hat : l.context.watchers.at? i = some (g, e)) (hp : e.payload = .remote r)
    (hidle : e.isActive = false) : l.stopSlot i false = l := by
  have hfits := hs.context.fits i g e hat
  simp only [Entry.Fits, hp] at hfits
  simp only [Entry.isActive, hp] at hidle
  have hsame : { e with payload := stoppedPayload false e.payload, active := false } = e := by
    obtain ⟨serial, active, callback, payload⟩ := e
    obtain ⟨timer, ractive, reachable⟩ := r
    obtain rfl : payload = _ := hp
    obtain rfl : active = false := hfits.2.1
    obtain rfl : ractive = false := hidle
    rfl
  have hpoller : l.poller.map e.withdraw = l.poller := by
    have hid : e.withdraw = id := funext fun q => by rw [Entry.withdraw, hp]; rfl
    rw [hid, Option.map_id, id]
  rw [stopSlot_eq hat, hsame, hpoller, Arena.put_self hat, hp]
  rfl

theorem exit_of_idleRemotes (hs : l.Sound) (hrunning : l.context.running = false)
    (hasked : l.context.exitAsked = false) (hslots : ∀ j ∈ l.context.roster.toList,
      l.context.holdsRemote j = true ∧ Idle (l.context.watchers.at? j)) : l.exit = l := by
  have hfold : ∀ L : List Nat, (∀ j ∈ L, l.stopSlot j false = l) →
      L.foldl (fun l j => l.stopSlot j false) l = l := by
    intro L hL
    induction L with
    | nil => rfl
    | cons j L ih =>
      rw [List.foldl_cons, hL j List.mem_cons_self]
      exact ih fun k hk => hL k (List.mem_cons_of_mem j hk)
  have hstop : ∀ j ∈ l.context.roster.toList, l.stopSlot j false = l := by
    intro j hj
    obtain ⟨hremote, hidle⟩ := hslots j hj
    obtain ⟨v, hat, hv⟩ := (Option.any_eq_true ..).mp hremote
    cases hp : v.2.payload with
    | remote r => exact stopSlot_of_idleRemote hs hat hp (hidle _ _ hat)
    | timer t | io state | event flag => rw [hp] at hv; contradiction
  have hflags : l.context = { l.context with
      running := l.context.running, exitAsked := l.context.exitAsked } := rfl
  rw [hrunning, hasked] at hflags
  rw [exit, hfold _ hstop]
  exact congrArg (Loop.mk · l.poller) hflags.symm

/-- An exit of a loop that has just exited changes nothing. -/
theorem exit_exit (hs : l.Sound) : l.exit.exit = l.exit := by
  refine exit_of_idleRemotes hs.exit rfl rfl fun j hj => ⟨?_, idle_exit hs j⟩
  have hremote := (mem_roster_exit hs).mp hj
  rw [Context.holdsRemote] at hremote ⊢
  obtain ⟨v, hat, hv⟩ := (Option.any_eq_true ..).mp hremote
  rcases exit_slot hs j with he | he
  · rw [he, hat]
    exact hv
  · rw [he, hat]
    exact (Entry.stopped_isRemote v.2).trans hv

end Loop

/-! ### In every reachable state -/

namespace World

variable {w : World} {id : Nat} {l : Loop}

/-- A loop can be operated on as before once it has been replaced, if as many runs are on the
stack. -/
theorem usable?_after {w' : World} {l' : Loop} {current : Option Nat}
    (hu : w.usable? current id = some l) (hl' : w'.loop? id = some l')
    (hbusy : l'.context.busy = l.context.busy) : w'.usable? current id = some l' := by
  obtain ⟨hl, -⟩ := usable?_eq_some hu
  unfold usable? at hu ⊢
  rw [hl] at hu
  rw [hl']
  dsimp only at hu ⊢
  rw [hbusy, if_neg fun hfree => ?_]
  rw [if_pos hfree] at hu
  contradiction

/-- What an exit leaves of a loop, in a world whose lists mirror the active watchers. -/
theorem leftBy_exit (hs : w.Sound) (hm : w.Mirrored) (hl : w.loop? id = some l) :
    l.LeftBy l.exit := by
  obtain ⟨hid, hsl⟩ := hs.loop hl
  cases hp : l.context.poller with
  | none =>
    have hnone : l.poller = none := by rw [(loop?_eq_some.mp hl).2, hp, Option.bind_none]
    have hmirrors : l.Mirrors fun _ => False := fun q hq => nomatch hnone.symm.trans hq
    exact Loop.leftBy_exit hsl hmirrors fun _ hx => hx.elim
  | some p =>
    exact Loop.leftBy_exit hsl (hm.mirrors hl hp) fun x hx => hid.symm ▸ owner_of_beside hs hx

/-- An exit leaves in the list of every poller the entries of the other contexts. -/
theorem exit_pollers (hs : w.Sound) (hm : w.Mirrored) (hl : w.loop? id = some l) (p : Nat) :
    (w.putLoop id l.exit).pollers[p]? = w.pollers[p]?.map fun q =>
      { q with watched := q.watched.filter fun x => x.watcher.owner != l.context.id } := by
  have hr := replaced_move hs hl (.exited rfl)
  have hid := (hs.loop hl).1
  obtain ⟨hc, hpoller⟩ := loop?_eq_some.mp hl
  by_cases hp : l.context.poller = some p
  · rw [hr.poller_self p hp, (leftBy_exit hs hm hl).watched, hpoller, hp, Option.bind_some]
  · rw [hr.poller_other p hp]
    cases hq : w.pollers[p]? with
    | none => rfl
    | some q =>
      have hall : q.watched.filter (fun x => x.watcher.owner != l.context.id) = q.watched := by
        refine List.filter_eq_self.mpr fun x hx => bne_iff_ne.mpr fun howner => hp ?_
        obtain ⟨j, c, i, hj, hnum, hx⟩ := ((hm p q hq).mem_iff x).mp hx
        have hji : j = id :=
          (hs.context j c hj).1.symm.trans ((watched?_watcher hx).1.symm.trans (howner.trans hid))
        obtain rfl := Option.some.inj (hc.symm.trans (hji ▸ hj))
        exact hnum
      rw [Option.map_some, hall]

end World

/-- A call of exit, at the top level or in a callback, leaves a loop that can start afresh: no
watcher is active, of the roster and of a pass in progress the remote timers are left, of the watch
lists the entries of other contexts, and handles find what they found. The other contexts stay as
they are, and a second call changes nothing. -/
theorem exit_leaves_clean {m : Machine} (h : m.Reachable) {current context : Option Nat} {l : Loop}
    (hu : m.world.usable? current ((context <|> current).getD 0) = some l) :
    ∃ w', m.world.perform current (.context context .exit) = (w', .answered (.ok .nothing)) ∧
      (∃ l', w'.loop? l.context.id = some l' ∧ l.LeftBy l') ∧
      (∀ j, j ≠ l.context.id → w'.context? j = m.world.context? j) ∧
      (∀ p : Nat, w'.pollers[p]? = m.world.pollers[p]?.map fun q =>
        { q with watched := q.watched.filter fun x => x.watcher.owner != l.context.id }) ∧
      w'.perform current (.context context .exit) = (w', .answered (.ok .nothing)) := by
  obtain ⟨hs, hm⟩ : m.world.Sound ∧ m.world.Mirrored :=
    (inductive_mirrored.reachable (fun _ _ _ _ hq => nomatch hq) h).imp_left Config.Sound.world
  have hl := World.usable?_loop hs hu
  have hsl := (hs.loop hl).2
  obtain ⟨-, hnum, -, hbusy, -⟩ := Loop.exit_frame hsl
  have hr := World.replaced_move hs hl (.exited rfl)
  have hloop := hr.loop_after hnum hsl.exit
  refine ⟨_, ?_, ⟨l.exit, hloop, ?_⟩, hr.context_other, ?_, ?_⟩
  · rw [World.perform, World.withLoop_of_usable _ hu]
    rfl
  · exact World.leftBy_exit hs hm hl
  · exact World.exit_pollers hs hm hl
  · have hid := (hs.loop (World.usable?_eq_some hu).1).1
    have hu' : (m.world.putLoop l.context.id l.exit).usable? current
        ((context <|> current).getD 0) = some l.exit :=
      World.usable?_after hu (by rw [← hid]; exact hloop) hbusy
    have hsame : (m.world.putLoop l.context.id l.exit).putLoop l.exit.context.id l.exit.exit =
        m.world.putLoop l.context.id l.exit := by
      rw [Loop.exit_exit hsl, (Loop.exit_frame hsl).1]
      exact World.putLoop_self hloop
    rw [World.perform, World.withLoop_of_usable _ hu']
    exact congrArg (·, Reaction.answered (.ok .nothing)) hsame

/-- Two loops on one poller. In the run of the first, which has a watcher of each kind, the timer is
being called. -/
def Machine.leaving : Machine :=
  let made := (((((((Machine.create (World.create ⟨1000000, 5000, false⟩ .standIn)).submit
    (.newPoller 0)).submit
    (.newContext (.numbered 0) .scenario)).submit
    (.newContext (.numbered 0) .scenario)).submit
    (.create (some 0) "reader" (.io 3 (Mask.only .read)) ⟨[], false⟩)).submit
    (.create (some 1) "writer" (.io 4 (Mask.only .write)) ⟨[], false⟩)).submit
    (.create none "remote" (.remoteTimer 7 2) ⟨[], false⟩)).submit
    (.create none "event" .event ⟨[], false⟩)
  Machine.step^[2] ((made.submit
    (.create none "timer" (.timer 1 3) ⟨[[.context none .exit]], false⟩)).submit (.run none ∅))

/-- The callback exits the loop amid the pass: the remote timer is all that is left of the roster and
of the turns to come, and the other loop's watcher of the watch list. -/
theorem exit_leaves_clean_leaving : ∃ l w' l',
    Machine.leaving.world.usable? (some 0) 0 = some l ∧
    Machine.leaving.called? = some ⟨0, ⟨3, 0⟩⟩ ∧
    l.context.roster.toList = [3, 2, 1, 0] ∧ l.context.roster.remaining = [2, 1, 0] ∧
    Machine.leaving.world.perform (some 0) (.context none .exit) =
      (w', .answered (.ok .nothing)) ∧
    w'.loop? 0 = some l' ∧ l.LeftBy l' ∧
    l'.context.roster.toList = [1] ∧ l'.context.roster.remaining = [1] ∧
    (w'.pollers[0]?.map fun q => q.watched.map Watched.watcher) = some [⟨1, 0, 0⟩] ∧
    w'.perform (some 0) (.context none .exit) = (w', .answered (.ok .nothing)) := by
  have hmade : (Machine.create (World.create ⟨1000000, 5000, false⟩ .standIn)).Reachable :=
    Machine.Reachable.start _ _
  have hreach : Machine.leaving.Reachable :=
    (((((((((hmade.submit _ (by decide +kernel) (by decide +kernel)).submit _ (by decide +kernel)
      (by decide +kernel)).submit _ (by decide +kernel) (by decide +kernel)).submit _
      (by decide +kernel) (by decide +kernel)).submit _ (by decide +kernel)
      (by decide +kernel)).submit _ (by decide +kernel) (by decide +kernel)).submit _
      (by decide +kernel) (by decide +kernel)).submit _ (by decide +kernel)
      (by decide +kernel)).submit _ (by decide +kernel) (by decide +kernel)).advances 2
      (by decide +kernel)
  have hseen : (Machine.leaving.world.usable? (some 0) 0).map (fun l =>
      (l.context.id, l.context.roster.toList, l.context.roster.remaining,
        [3, 2, 1, 0].map l.context.holdsRemote)) =
      some (0, [3, 2, 1, 0], [2, 1, 0], [false, false, true, false]) := by
    decide +kernel
  obtain ⟨l, hu, hfields⟩ := Option.map_eq_some_iff.mp hseen
  simp only [Prod.mk.injEq, List.map_cons, List.cons.injEq] at hfields
  obtain ⟨hid, hlist, hremaining, h3, h2, h1, h0, -⟩ := hfields
  have hlisted : (Machine.leaving.world.pollers[0]?.map fun q =>
      (q.watched.filter fun x => x.watcher.owner != 0).map Watched.watcher) =
      some [⟨1, 0, 0⟩] := by
    decide +kernel
  obtain ⟨w', hperform, ⟨l', hl', hleft⟩, -, hpollers, hagain⟩ :=
    @exit_leaves_clean _ hreach (some 0) none l hu
  refine ⟨l, w', l', hu, by decide +kernel, hlist, hremaining, hperform, hid ▸ hl', hleft, ?_, ?_,
    ?_, hagain⟩
  · rw [hleft.registry, hlist]
    simp [h3, h2, h1, h0]
  · rw [hleft.remaining, hremaining]
    simp [h2, h1, h0]
  · rw [hpollers, Option.map_map, hid]
    exact hlisted

end EventLoop
