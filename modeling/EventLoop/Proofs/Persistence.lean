import EventLoop.Proofs.Polls
import EventLoop.Proofs.Structure
import EventLoop.Proofs.Target

/-!
# What stays until it is undone

A loop that is not running stays so until a run of it is entered. A watcher that was there and is
gone never comes back, since serial numbers are not given out twice.
-/
namespace EventLoop

/-! ### Loops that are running -/

/-- Whether the loop of a context has been started and has not exited since. -/
def World.isRunning (w : World) (id : Nat) : Bool := (w.context? id).any Context.running

/-- No move starts a loop. -/
theorem Context.Moved.running {c c' : Context} (h : c.Moved c') (hrun : c'.running = true) :
    c.running = true := by
  obtain ⟨l, l', -, hm, rfl, rfl⟩ := h
  cases hm with
  | slot _ hc => exact hc.running.symm.trans hrun
  | exitRequested he =>
    rw [he] at hrun
    exact hrun
  | exited he =>
    rw [he] at hrun
    contradiction
  | refused he =>
    rw [he] at hrun
    exact hrun

/-- A loop that the dispatcher does not exit goes on as it was, running or not. -/
theorem Dispatch.goes_on {l l' : Loop} {now : Nat} {stage : Stage} {stage' : Option Stage}
    (hd : Dispatch l now stage stage' l') :
    l'.context.running = l.context.running ∨ (stage' = none ∧ ∃ wakeups,
      l' = (Loop.exit ⟨{ l.context with wakeups }, l.poller⟩).mapContext
        fun c => { c with busy := false }) := by
  rcases hd.fields with ⟨watchers, roster, wakeups, hc⟩ | hexit
  · exact Or.inl (by rw [hc])
  · exact Or.inr hexit

/-- The dispatcher changes neither whether a loop is running nor whether it has been asked to exit,
but where a request to exit is honoured. -/
theorem Dispatch.asked {l l' : Loop} {now : Nat} {stage : Stage} {stage' : Option Stage}
    (hd : Dispatch l now stage stage' l') :
    (l'.context.running = l.context.running ∧ l'.context.exitAsked = l.context.exitAsked) ∨
      (l.context.running = true ∧ l.context.exitAsked = true ∧ l'.context.running = false ∧
        l'.context.exitAsked = false) := by
  rcases hd.fields with ⟨watchers, roster, wakeups, hc⟩ | ⟨hended, -⟩
  · rw [hc]
    exact Or.inl ⟨rfl, rfl⟩
  · cases hd with
    | honoured hrun hasked => exact Or.inr ⟨hrun, hasked, rfl, rfl⟩
    | finished => exact Or.inl ⟨rfl, rfl⟩
    | passedLast => exact Or.inl ⟨rfl, rfl⟩
    | _ => contradiction

/-- The dispatcher starts no loop. -/
theorem Dispatch.running {l l' : Loop} {now : Nat} {stage : Stage} {stage' : Option Stage}
    (hd : Dispatch l now stage stage' l') (hrun : l'.context.running = true) :
    l.context.running = true := by
  rcases hd.goes_on with hsame | ⟨-, wakeups, rfl⟩
  · exact hsame.symm.trans hrun
  · contradiction

/-- Where the dispatcher exits a loop, it leaves no watcher active. -/
theorem Dispatch.idle_of_exit {l l' : Loop} {now : Nat} {stage : Stage} {stage' : Option Stage}
    (hs : l.Sound) (hd : Dispatch l now stage stage' l') (hrun : l.context.running = true)
    (hstop : l'.context.running = false) (i : Nat) : Loop.Idle (l'.context.watchers.at? i) := by
  rcases hd.goes_on with hsame | ⟨-, wakeups, rfl⟩
  · exact nomatch hstop.symm.trans (hsame.trans hrun)
  · exact Loop.idle_exit (hs.wakeups wakeups) i

namespace World

variable {w w' : World} {id : Nat} {l l' : Loop} {c : Context}

theorem isRunning_iff : w.isRunning id = true ↔ ∃ c, w.context? id = some c ∧ c.running = true := by
  simp only [isRunning, Option.any_eq_true]

theorem isRunning_of_context? (h : w.context? id = some c) : w.isRunning id = c.running := by
  rw [isRunning, h, Option.any_some]

theorem Act.isRunning (hs : w.Sound) (ha : w.Act w') (h : w'.isRunning id = true) :
    w.isRunning id = true := by
  obtain ⟨c', hc', hrun⟩ := isRunning_iff.mp h
  rcases ha.context_after hs hc' with ⟨c, hc, hm⟩ | ⟨-, -, clock, poller, rfl⟩
  · exact isRunning_iff.mpr ⟨c, hc, hm.running hrun⟩
  · contradiction

theorem Acts.isRunning (hs : w.Sound) (ha : w.Acts w') (h : w'.isRunning id = true) :
    w.isRunning id = true := by
  induction ha with
  | refl => exact h
  | tail hsteps hact ih => exact ih (hact.isRunning (hs.acts hsteps) h)

/-- Deliveries change the watchers and the wake-ups of a context only. -/
theorem deliver_any {f : Context → Bool} (hf : ∀ c watchers wakeups,
    f { c with watchers, wakeups } = f c) (w : World) (r : WatcherRef) (events : Events)
    (id : Nat) :
    ((w.deliver r events).context? id).any f = (w.context? id).any f := by
  rw [deliver]
  split
  · next c e io hio =>
    obtain ⟨hc, -⟩ := io?_eq_some hio
    by_cases hid : id = r.owner
    · rw [hid, hc, context?_put_self hc]
      exact hf c _ _
    · rw [context?_put_other hid]
  · rfl

theorem settle_any {f : Context → Bool} (hf : ∀ c watchers wakeups,
    f { c with watchers, wakeups } = f c) (w : World) (id : Nat) :
    (w.settle.context? id).any f = (w.context? id).any f :=
  settle_induction (P := fun w' => (w'.context? id).any f = (w.context? id).any f)
    (fun w' r events h => (deliver_any hf w' r events id).trans h) rfl

theorem pollAmong_any {f : Context → Bool} (hf : ∀ c watchers wakeups,
    f { c with watchers, wakeups } = f c) (w : World) (p : Nat) (entries : List Watched)
    (id : Nat) : ((w.pollAmong p entries).context? id).any f = (w.context? id).any f :=
  pollAmong_induction (P := fun w' => (w'.context? id).any f = (w.context? id).any f)
    (fun w' r events h => (deliver_any hf w' r events id).trans h) p entries rfl

theorem settled_any {f : Context → Bool} (hf : ∀ c watchers wakeups,
    f { c with watchers, wakeups } = f c) (h : w' = w ∨ w' = w.settle) (id : Nat) :
    (w'.context? id).any f = (w.context? id).any f := by
  rcases h with rfl | rfl
  · rfl
  · exact settle_any hf w id

theorem pollAmong_isRunning (w : World) (p : Nat) (entries : List Watched) (id : Nat) :
    (w.pollAmong p entries).isRunning id = w.isRunning id :=
  pollAmong_any (fun _ _ _ => rfl) w p entries id

theorem settled_isRunning (h : w' = w ∨ w' = w.settle) (id : Nat) :
    w'.isRunning id = w.isRunning id :=
  settled_any (fun _ _ _ => rfl) h id

/-- A loop may be running after a step only if it was before, or a run of it is entered. -/
theorem perform_isRunning (hs : w.Sound) {current : Option Nat} {command : Command}
    (h : (w.perform current command).1.isRunning id = true) :
    w.isRunning id = true ∨
      ∃ flags deadline, (w.perform current command).2 = .entered id flags deadline := by
  rcases perform_performed hs current command with ⟨-, -, hcourse⟩ | ⟨l, flags, hl, -, hr⟩
  · exact Or.inl (hcourse.acts.isRunning hs h)
  · rw [hr] at h ⊢
    by_cases hid : id = l.context.id
    · exact Or.inr ⟨flags, _, by rw [hid]⟩
    · have hsame := (replaced_putContext hl (w.entering l).1).context_other id hid
      rw [World.isRunning, hsame] at h
      exact Or.inl h

theorem isRunning_congr (h : w'.context? id = w.context? id) :
    w'.isRunning id = w.isRunning id := by
  rw [isRunning, isRunning, h]

theorem Replaced.isRunning {j : Nat} (hr : w.Replaced w' j l l')
    (h : l'.context.running = l.context.running) : w'.isRunning id = w.isRunning id := by
  by_cases hid : id = j
  · subst hid
    rw [isRunning_of_context? hr.context_self, h,
      isRunning_of_context? (loop?_eq_some.mp hr.loop).1]
  · exact isRunning_congr (hr.context_other id hid)

/-- A loop that is running goes on, unless the step exits it or drops its context. -/
theorem perform_runs_on (hs : w.Sound) (current : Option Nat) (command : Command)
    (h : w.isRunning id = true) : (w.perform current command).1.isRunning id = true ∨
      w.exits? current command = some id ∨
      ∃ l, command = .dropContext id ∧ w.usable? none id = some l := by
  obtain ⟨c, hc, hrun⟩ := isRunning_iff.mp h
  have heffect := perform_contextEffect hs current command id
  generalize hafter : (w.perform current command).1.context? id = after at heffect
  cases heffect with
  | kept hsame => exact Or.inl ((isRunning_congr (hafter.trans hsame)).trans h)
  | created hnone => exact nomatch hnone.symm.trans hc
  | operated _ hl hoperated =>
    obtain ⟨hid, hsl⟩ := hs.loop hl
    obtain rfl := Option.some.inj ((loop?_eq_some.mp hl).1.symm.trans hc)
    cases hoperated with
    | touched ht => exact Or.inl ((isRunning_of_context? hafter).trans (ht.frame.1.trans hrun))
    | asked => exact Or.inl ((isRunning_of_context? hafter).trans hrun)
    | exited hexits => exact Or.inr (Or.inl (hid ▸ hexits))
    | dropped hcommand hu => exact Or.inr (Or.inr ⟨_, hid ▸ hcommand, hid ▸ hu⟩)
    | entered => exact Or.inl ((isRunning_of_context? hafter).trans (entering_running hsl))

/-- A step that exits a loop leaves it stopped, with no request to exit, and none of its watchers
active. -/
theorem perform_exit (hs : w.Sound) {current : Option Nat} {command : Command}
    (h : w.exits? current command = some id) : ∃ c,
      (w.perform current command).1.context? id = some c ∧ c.running = false ∧
        c.exitAsked = false ∧ ∀ i, Loop.Idle (c.watchers.at? i) := by
  unfold exits? at h
  split at h
  · next context =>
    obtain ⟨l, hu, rfl⟩ := Option.map_eq_some_iff.mp h
    have hl := usable?_loop hs hu
    refine ⟨l.exit.context, ?_, rfl, rfl, Loop.idle_exit (hs.loop hl).2⟩
    rw [perform, withLoop_of_usable _ hu]
    exact (replaced_move hs hl (.exited rfl)).context_self
  · contradiction

/-! ### Contexts that are gone -/

/-- The context was there once, and has been dropped. -/
def Dropped (w : World) (id : Nat) : Prop := id < w.contexts.length ∧ w.context? id = none

theorem Act.dropped (hs : w.Sound) (ha : w.Act w') (h : w.Dropped id) : w'.Dropped id := by
  refine ⟨Nat.lt_of_lt_of_le h.1 ha.length_le, ?_⟩
  cases hc' : w'.context? id with
  | none => rfl
  | some c' =>
    rcases ha.context_after hs hc' with ⟨c, hc, -⟩ | ⟨-, hge, -⟩
    · exact nomatch h.2.symm.trans hc
    · exact absurd h.1 (Nat.not_lt_of_le hge)

theorem Acts.dropped (hs : w.Sound) (ha : w.Acts w') (h : w.Dropped id) : w'.Dropped id := by
  induction ha with
  | refl => exact h
  | tail hsteps hact ih => exact hact.dropped (hs.acts hsteps) ih

theorem dropContext_dropped (hs : w.Sound) (hu : w.usable? none id = some l) :
    (w.dropContext id).1.Dropped id := by
  have hl := (usable?_eq_some hu).1
  have hr := replaced_move hs hl (.exited rfl)
  have hgone := dropContext_context? hs hu id
  rw [if_pos rfl] at hgone
  refine ⟨?_, hgone⟩
  rw [dropContext, hu]
  dsimp only [keep]
  rw [List.length_set, hr.contexts_length]
  exact context?_lt (loop?_eq_some.mp hl).1

theorem Replaced.dropped {j : Nat} (hr : w.Replaced w' j l l') (h : w.Dropped id) :
    w'.Dropped id := by
  have hid : id ≠ j := by
    rintro rfl
    exact nomatch h.2.symm.trans (loop?_eq_some.mp hr.loop).1
  exact ⟨hr.contexts_length.symm ▸ h.1, (hr.context_other id hid).trans h.2⟩

end World

/-! ### Watchers that are gone -/

variable {r : WatcherRef}

/-- A watcher that was there once is not forgotten, and does not come back. -/
def Context.Follows (c c' : Context) (r : WatcherRef) : Prop :=
  r.serial < c.nextSerial →
    r.serial < c'.nextSerial ∧ (c.meant? r = none → c'.meant? r = none)

theorem Context.Moved.follows {c c' : Context} (hm : c.Moved c') : c.Follows c' r := by
  intro hserial
  obtain ⟨hslot, hn⟩ := hm.slotAfter r.index
  refine ⟨Nat.lt_of_lt_of_le hserial hn, fun hnone => meant?_eq_none fun g e he hs => ?_⟩
  rcases hslot g e he with ⟨e₁, he₁, hs₁, -⟩ | ⟨hnew, -⟩
  · rw [meant?_eq_some.mpr ⟨g, he₁, hs₁.symm.trans hs⟩] at hnone
    contradiction
  · exact absurd (hs ▸ hnew) (Nat.not_le_of_lt hserial)

theorem Context.Alike.follows {c c' : Context} (ha : c.Alike c') : c.Follows c' r := by
  intro hserial
  refine ⟨ha.serial.symm ▸ hserial, fun hnone => meant?_eq_none fun g e he hs => ?_⟩
  have hslot := ha.slots r.index
  rw [he] at hslot
  obtain ⟨v, hv, heq⟩ := Option.map_eq_some_iff.mp hslot.symm
  have hserial : v.2.serial = e.serial := congrArg (fun t => t.2.1) heq
  rw [meant?_eq_some.mpr ⟨v.1, hv, hserial.trans hs⟩] at hnone
  contradiction

theorem Dispatch.follows {l l' : Loop} {now : Nat} {stage : Stage} {stage' : Option Stage}
    (hs : l.Sound) (hd : Dispatch l now stage stage' l') : l.context.Follows l'.context r := by
  rcases hd.alike_or_exit with ⟨ha, -⟩ | ⟨wakeups, rfl⟩
  · exact ha.follows
  · have hexit : Context.Moved { l.context with wakeups }
        (Loop.exit ⟨{ l.context with wakeups }, l.poller⟩).context :=
      ⟨_, _, hs.wakeups wakeups, .exited rfl, rfl, rfl⟩
    exact hexit.follows

namespace World

variable {w w' : World} {id : Nat} {l l' : Loop} {e : Entry}

/-- The same for all contexts. -/
def Follows (w w' : World) (r : WatcherRef) : Prop :=
  w.Knows r → w'.Knows r ∧ (w.meant? r = none → w'.meant? r = none)

theorem Act.follows (hs : w.Sound) (ha : w.Act w') : w.Follows w' r := by
  rintro ⟨hlt, hserial⟩
  have hctx : ∀ c', w'.context? r.owner = some c' →
      ∃ c, w.context? r.owner = some c ∧ c.Follows c' r := by
    intro c' hc'
    rcases ha.context_after hs hc' with ⟨c, hc, hm⟩ | ⟨-, hge, -⟩
    · exact ⟨c, hc, hm.follows⟩
    · exact absurd hlt (Nat.not_lt_of_le hge)
  refine ⟨⟨Nat.lt_of_lt_of_le hlt ha.length_le, fun c' hc' => ?_⟩, fun hnone => ?_⟩
  · obtain ⟨c, hc, hf⟩ := hctx c' hc'
    exact (hf (hserial c hc)).1
  · cases hc' : w'.context? r.owner with
    | none => rw [meant?, hc', Option.bind_none]
    | some c' =>
      obtain ⟨c, hc, hf⟩ := hctx c' hc'
      rw [meant?_of_context? hc']
      exact (hf (hserial c hc)).2 ((meant?_of_context? hc).symm.trans hnone)

theorem Replaced.follows (hr : w.Replaced w' id l l')
    (hf : r.owner = id → l.context.Follows l'.context r) : w.Follows w' r := by
  rintro ⟨hlt, hserial⟩
  by_cases hid : r.owner = id
  · have hnext := hf hid (hserial _ (hid ▸ (loop?_eq_some.mp hr.loop).1))
    refine ⟨⟨hr.contexts_length.symm ▸ hlt, fun c' hc' => ?_⟩, fun hnone => ?_⟩
    · obtain rfl := Option.some.inj ((hid ▸ hr.context_self).symm.trans hc')
      exact hnext.1
    · rw [hr.meant?_self hid]
      exact hnext.2 ((hr.meant?_before hid).symm.trans hnone)
  · refine ⟨⟨hr.contexts_length.symm ▸ hlt, fun c' hc' => ?_⟩, (hr.meant?_other hid).trans⟩
    exact hserial c' ((hr.context_other _ hid).symm.trans hc')

/-- Whoever is there has a serial number that was given out. -/
theorem knows_of_meant? (hs : w.Sound) (h : w.meant? r = some e) : w.Knows r := by
  obtain ⟨c, hc, hm⟩ := meant?_eq_some.mp h
  refine ⟨context?_lt hc, fun c' hc' => ?_⟩
  obtain rfl := Option.some.inj (hc.symm.trans hc')
  obtain ⟨g, hat, hserial⟩ := Context.meant?_eq_some.mp hm
  exact hserial ▸ (hs.context _ c hc).2.serial r.index g e hat

end World

namespace Config

theorem Entered.follows {s s' : Config} {l : Loop} (hs : s.Sound) (he : s.Entered s' l) :
    s.world.Follows s'.world r :=
  he.replaced.follows fun _ =>
    (World.entering_alike (hs.world.loop he.replaced.loop).2).follows

theorem Dispatched.follows {s s' : Config} {x : Standing} {below : List Standing} {l l' : Loop}
    {stage : Option Stage} (hs : s.Sound) (hd : s.Dispatched s' x below l l' stage) :
    s.world.Follows s'.world r :=
  hd.replaced.follows fun _ => hd.dispatch.follows (hs.world.loop hd.replaced.loop).2

/-- A context that was dropped does not come back. -/
theorem inductive_dropped (id : Nat) : Inductive fun s => s.world.Dropped id where
  act := fun _ _ hs h ha _ => ha.dropped hs.world h
  entered := fun _ _ _ _ h he => he.replaced.dropped h
  dispatched := fun _ _ _ _ _ _ _ _ h hd => hd.replaced.dropped h

theorem inductive_knows (r : WatcherRef) : Inductive fun s => s.world.Knows r where
  act := fun _ _ hs h ha _ => (ha.follows hs.world h).1
  entered := fun _ _ _ hs h he => (he.follows hs h).1
  dispatched := fun _ _ _ _ _ _ _ hs h hd => (hd.follows hs h).1

/-- A watcher that is gone does not come back. -/
theorem inductive_lacks (r : WatcherRef) : Inductive fun s => s.world.Lacks r where
  act := fun _ _ hs h ha _ => (ha.follows hs.world h.1).imp_right fun hf => hf h.2
  entered := fun _ _ _ hs h he => (he.follows hs h.1).imp_right fun hf => hf h.2
  dispatched := fun _ _ _ _ _ _ _ hs h hd => (hd.follows hs h.1).imp_right fun hf => hf h.2

end Config
end EventLoop
