import EventLoop.Proofs.Failures
import EventLoop.Proofs.Lasting
import Mathlib.Data.List.Induction

/-!
# Contexts and watchers leave each other alone

A handle is of no use to a context that has not given it out. What is done to one watcher leaves the
handles of all others as good as they were, and the others linked in their order, whatever slot the
watcher takes or gives up. What is done in one context reaches another only by polls, which may add
to the readiness of its I/O watchers.
-/
namespace EventLoop

/-! ### The others in the roster -/

theorem filter_erase_self {l : List Nat} (h : l.Nodup) (i : Nat) :
    (l.erase i).filter (· != i) = l.filter (· != i) := by
  rw [h.erase_eq_filter, List.filter_filter]
  simp only [Bool.and_self]

/-- A change of the place of one slot leaves the others in their order, and each of their turns in
the pass. -/
theorem Linking.others_apply {r : Roster} (k : Linking) (h : r.WellFormed) (i : Nat) :
    (k.apply r i).toList.filter (· != i) = r.toList.filter (· != i) ∧
      (k.apply r i).remaining.filter (· != i) = r.remaining.filter (· != i) := by
  have hinsert : ∀ {r : Roster}, r.WellFormed →
      (r.insert i).1.toList.filter (· != i) = r.toList.filter (· != i) := by
    intro r h
    rw [(h.insert i).2.2]
    split
    · rfl
    · rw [List.filter_cons_of_neg (by simp)]
  have herase : (r.erase i).1.toList.filter (· != i) = r.toList.filter (· != i) := by
    rw [(h.erase i).2.2, filter_erase_self h.nodup]
  constructor
  · cases k with
    | keep => rfl
    | link => exact hinsert h
    | unlink => exact herase
    | relink => exact (hinsert (h.erase i).1).trans herase
  · rw [k.remaining_apply h]
    split
    · exact filter_erase_self h.nodup_remaining i
    · rfl

/-! ### Handles -/

namespace Context

variable {c c' : Context} {h : Handle}

theorem find_congr (hid : c'.id = c.id)
    (hat : c'.watchers.at? h.key.index = c.watchers.at? h.key.index) : c'.find h = c.find h := by
  rw [find, find, Arena.get?, Arena.get?, hid, hat]

/-- A handle finds nobody if its slot has come to another generation. -/
theorem find_eq_error (hg : ∀ e, c.watchers.at? h.key.index ≠ some (h.key.generation, e)) :
    c.find h = .error .invalidWatcher := by
  cases hf : c.find h with
  | ok e => exact absurd (find_ok hf).2 (hg e)
  | error err =>
    rw [find] at hf
    split at hf
    · split at hf
      · contradiction
      · exact hf.symm
    · exact hf.symm

/-- A handle finds nobody in a context that has not given it out. -/
theorem find_foreign (ho : h.owner ≠ c.id) : c.find h = .error .invalidWatcher := if_neg ho

end Context

namespace World

variable {w w' : World} {l l' : Loop} {h : Handle} {e : Entry} {r : WatcherRef} {i : Nat}
  {g : Generation} {current : Option Nat} {command : Command}

/-- The watcher that a handle finds, in the context that has given the handle out. -/
def found? (w : World) (h : Handle) : Option Entry :=
  (w.context? h.owner).bind fun c => (c.find h).toOption

/-- At most the watcher of this handle has changed, and its place in the roster. All other handles
find what they found, and the others that are linked are so in the order in which they were, and
have the turns in a pass that they had. -/
structure Frame (w w' : World) (h : Handle) : Prop where
  found : ∀ h', h' ≠ h → w'.found? h' = w.found? h'
  order : ∃ c c', w.context? h.owner = some c ∧ w'.context? h.owner = some c' ∧
    c'.roster.toList.filter (· != h.key.index) = c.roster.toList.filter (· != h.key.index) ∧
    c'.roster.remaining.filter (· != h.key.index) = c.roster.remaining.filter (· != h.key.index)
  other : ∀ id, id ≠ h.owner → w'.context? id = w.context? id

theorem found?_congr (hc : w'.context? h.owner = w.context? h.owner) :
    w'.found? h = w.found? h := by
  rw [found?, found?, hc]

theorem found?_of_context? {c : Context} (hc : w.context? h.owner = some c) :
    w.found? h = (c.find h).toOption := by
  rw [found?, hc, Option.bind_some]

/-- Where no slot has changed, nobody has. -/
theorem Frame.of_same (hl : w.loop? h.owner = some l)
    (hc : ∀ id, w'.context? id = w.context? id) : w.Frame w' h where
  found := fun h' _ => found?_congr (hc h'.owner)
  order := by
    have hself := (loop?_eq_some.mp hl).1
    exact ⟨_, _, hself, (hc _).trans hself, rfl, rfl⟩
  other := fun id _ => hc id

/-- A change of one slot leaves all others alone. In the slot itself there is nobody for the
handles of other generations, before and afterwards. -/
theorem Frame.of_changed {x : SlotChange} (hs : w.Sound) (hl : w.loop? l.context.id = some l)
    (hself : w'.context? l.context.id = some l'.context)
    (hother : ∀ id, id ≠ l.context.id → w'.context? id = w.context? id) (hc : l.Changed l' i x)
    (hbefore : ∀ g' e, l.context.watchers.at? i = some (g', e) → g' = g)
    (hafter : ∀ g' e, x.after = some (g', e) → g' = g) :
    w.Frame w' ⟨l.context.id, ⟨i, g⟩⟩ where
  found := by
    intro h' hne
    by_cases howner : h'.owner = l.context.id
    · have hcontext := (loop?_eq_some.mp hl).1
      rw [found?_of_context? (howner ▸ hself), found?_of_context? (howner ▸ hcontext)]
      congr 1
      by_cases hi : h'.key.index = i
      · have hgen : h'.key.generation ≠ g := by
          rintro rfl
          exact hne (by rw [← howner, ← hi])
        rw [Context.find_eq_error, Context.find_eq_error]
        · rw [hi]
          exact fun e he => hgen (hbefore _ e he)
        · rw [hi, hc.at_self]
          exact fun e he => hgen (hafter _ e he)
      · exact Context.find_congr hc.id (hc.at_other _ hi)
    · exact found?_congr (hother _ howner)
  order := by
    refine ⟨_, _, (loop?_eq_some.mp hl).1, hself, ?_⟩
    rw [hc.roster]
    exact x.linking.others_apply (hs.loop hl).2.context.roster i
  other := hother

/-- What is done to a watcher leaves all others alone. -/
theorem DidAt.frame (hs : w.Sound) {action : WatcherAction} {ok : Bool}
    (hd : w.DidAt w' r action ok l l' e) :
    ∃ g, w.found? ⟨r.owner, ⟨r.index, g⟩⟩ = some e ∧ w.Frame w' ⟨r.owner, ⟨r.index, g⟩⟩ := by
  obtain ⟨hl, hm, hdid, hself, hother⟩ := hd
  obtain ⟨g, hat, -⟩ := Context.meant?_eq_some.mp hm
  have hid : l.context.id = r.owner := (hs.loop hl).1
  refine ⟨g, ?_, ?_⟩
  · rw [found?_of_context? (h := ⟨r.owner, ⟨r.index, g⟩⟩) (loop?_eq_some.mp hl).1,
      Context.find_of_at? hid.symm hat]
    rfl
  · cases hdid with
    | kept he =>
      refine .of_same hl fun id => ?_
      by_cases howner : id = r.owner
      · rw [howner, hself, he, (loop?_eq_some.mp hl).1]
      · exact hother id howner
    | changed hat' ho hc hx =>
      obtain ⟨rfl, -⟩ := Prod.mk.inj (Option.some.inj (hat.symm.trans hat'))
      rw [← hid] at hl hself hother ⊢
      refine .of_changed hs hl hself hother hc (fun g' e' he => ?_) fun g' e' he => ?_
      · exact (Prod.mk.inj (Option.some.inj (he.symm.trans hat))).1
      · exact (ho.same_watcher he).1

/-- What is created leaves all others alone, also if there was somebody in its slot before. -/
theorem createWatcher_frame (hs : w.Sound) (hl : w.loop? l.context.id = some l) (name : String)
    (spec : WatcherSpec) (script : Script Command) :
    (∀ id, (w.createWatcher l name spec script).1.context? id = w.context? id) ∨
      ∃ h, w.found? h = none ∧ w.Frame (w.createWatcher l name spec script).1 h := by
  obtain ⟨o, hm, ho⟩ := createWatcher_made hs hl name spec script
  have hr := replaced_move hs hl hm.touched.move
  have hsame : ∀ id, (w.createWatcher l name spec script).1.context? id =
      (w.putLoop l.context.id o.1).context? id := by
    intro id
    rw [ho]
    unfold afterStored
    split <;> rfl
  have hself := (hsame _).trans hr.context_self
  have hother : ∀ id, id ≠ l.context.id →
      (w.createWatcher l name spec script).1.context? id = w.context? id :=
    fun id hid => (hsame id).trans (hr.context_other id hid)
  have hvacant : ∀ {i : Nat} (g : Generation), l.context.watchers.at? i = none →
      w.found? ⟨l.context.id, ⟨i, g⟩⟩ = none := by
    intro i g hnone
    rw [found?_of_context? (h := ⟨l.context.id, ⟨i, g⟩⟩) (loop?_eq_some.mp hl).1,
      Context.find_eq_error]
    · rfl
    · intro e (he : l.context.watchers.at? i = some (g, e))
      exact nomatch hnone.symm.trans he
  cases hm with
  | refused he =>
    refine Or.inl fun id => ?_
    by_cases hid : id = l.context.id
    · rw [hid, hself, he, (loop?_eq_some.mp hl).1]
    · exact hother id hid
  | abandoned hnone _ hc hx =>
    exact Or.inr ⟨_, hvacant 0 hnone, .of_changed hs hl hself hother hc
      (fun g' e he => nomatch hnone.symm.trans he) fun g' e he => nomatch hx.symm.trans he⟩
  | @created _ _ g _ hnone _ hc hx =>
    refine Or.inr ⟨_, hvacant g hnone, .of_changed hs hl hself hother hc
      (fun g' e he => nomatch hnone.symm.trans he) fun g' e he => ?_⟩
    exact (Prod.mk.inj (Option.some.inj (he.symm.trans hx))).1

theorem putLoop_self (hl : w.loop? i = some l) : w.putLoop i l = w := by
  obtain ⟨hc, -⟩ := loop?_eq_some.mp hl
  exact (putLoop_of_poller hl rfl).trans (putContext_self hc)

/-- A handle that finds nobody is refused, and nothing changes. -/
theorem actOnWatcher_lost (hl : w.loop? l.context.id = some l) {err : LoopError}
    (hf : l.context.find h = .error err) (action : WatcherAction) :
    ∃ answer, w.actOnWatcher l h action = (w, answer) ∧
      if action = .isActive then answer = .ok (.bool false) else ∃ err, answer = .failed err := by
  -- what an operation makes of the loop, if it fails before it has begun
  have hdone : ∀ o : Outcome Unit, (∃ err, o = (l, .error err)) → ∃ answer,
      (w.putLoop l.context.id o.1, Answer.ofUnit o.2) = (w, answer) ∧
        ∃ err, answer = .failed err := by
    rintro _ ⟨err, rfl⟩
    exact ⟨.failed err, by rw [putLoop_self hl]; rfl, err, rfl⟩
  have hstop : ∀ applies expected, l.stopKind h applies expected = (l, .error err) :=
    fun _ _ => by rw [Loop.stopKind, hf]
  cases action with
  | release =>
    have hrelease : l.release h = (l, .error err) := by rw [Loop.release, hf]
    refine ⟨.failed err, ?_, err, rfl⟩
    rw [actOnWatcher, hrelease]
    exact congrArg (·, _) (putLoop_self hl)
  | isActive => exact ⟨_, rfl, by rw [if_pos rfl, Loop.isActive, hf]⟩
  | ioStart =>
    refine hdone _ ?_
    rw [Loop.ioStart]
    split
    · exact ⟨_, rfl⟩
    · exact ⟨err, by rw [hf]⟩
  | ioStop => exact hdone _ ⟨err, hstop _ _⟩
  | ioSet fd interest =>
    refine hdone _ ?_
    rw [Loop.ioSet]
    split
    · exact ⟨_, rfl⟩
    · exact ⟨err, by rw [Loop.ioStop, hstop]⟩
  | timerStart => exact hdone _ ⟨err, by rw [Loop.timerStart, hf]⟩
  | timerStop => exact hdone _ ⟨err, hstop _ _⟩
  | timerSet timeout period =>
    refine hdone _ ?_
    rw [Loop.timerSet]
    split
    · exact ⟨_, rfl⟩
    · exact ⟨err, by rw [hf]⟩
  | deadline => exact ⟨_, by rw [actOnWatcher, Loop.timerDeadline, hf], err, rfl⟩
  | eventPost => exact hdone _ ⟨err, by rw [Loop.eventPost, hf]⟩
  | eventStop => exact hdone _ ⟨err, hstop _ _⟩
  | timerHandle handle => exact ⟨_, by rw [actOnWatcher, Loop.timerHandle, hf], err, rfl⟩
  | eventPoster handle => exact ⟨_, by rw [actOnWatcher, Loop.eventPoster, hf], err, rfl⟩

end World

/-! ### What polls make of a context -/

/-- At most readiness was added to an I/O watcher. -/
inductive Entry.Raised (e : Entry) : Entry → Prop
  | same : Raised e e
  | added {io ready} : e.payload = .io io →
      (∀ f, io.ready.events.has f = true → ready.events.has f = true) →
      Raised e { e with payload := .io { io with ready } }

theorem Entry.Raised.trans {e e' e'' : Entry} (h : e.Raised e') (h' : e'.Raised e'') :
    e.Raised e'' := by
  cases h with
  | same => exact h'
  | @added io ready hp hadd =>
    cases h' with
    | same => exact .added hp hadd
    | @added io' ready' hp' hadd' =>
      obtain rfl : { io with ready } = io' := Payload.io.inj hp'
      show e.Raised { e with payload := .io { io with ready := ready' } }
      exact .added hp fun f hf => hadd' f (hadd f hf)

/-- At most polls have changed the context: its I/O watchers may have become ready, and its
dispatcher may have been woken for them. -/
structure Context.Polled (c c' : Context) : Prop where
  frame : ∃ slots wakeups, c' = { c with watchers := { c.watchers with slots }, wakeups }
  slots : ∀ i, Option.Rel (fun v v' => v'.1 = v.1 ∧ v.2.Raised v'.2)
    (c.watchers.at? i) (c'.watchers.at? i)
  wakeups : c'.wakeups = c.wakeups ∨ c'.wakeups = c.wakeups.raise .readiness
  /-- Nobody polls for a context that has no poller. -/
  apart : c.poller = none → c' = c

theorem Wakeups.raise_raise (w : Wakeups) (s : Signal) : (w.raise s).raise s = w.raise s := by
  refine add_eq_self fun i hi => ?_
  rw [raise, add, Mask.hasBit_union, hi, Bool.or_true]

/-- A delivery adds to what there is, and wakes the dispatcher if there was something to add. -/
theorem Readiness.deliver_raises (r : Readiness) (w : Wakeups) (events : Events) :
    (∀ f, r.events.has f = true → (r.deliver w events).1.events.has f = true) ∧
      ((r.deliver w events).2 = w ∨ (r.deliver w events).2 = w.raise .readiness) := by
  rw [deliver]
  split
  · exact ⟨fun _ => id, Or.inl rfl⟩
  · refine ⟨fun f hf => ?_, Or.inr rfl⟩
    rw [add, Mask.has_union, hf, Bool.true_or]

namespace Context

variable {c c' : Context} {r : WatcherRef} {e : Entry} {io : IoState}

theorem Polled.refl (c : Context) : c.Polled c :=
  ⟨⟨_, _, rfl⟩, fun _ => rel_self (fun _ => ⟨rfl, .same⟩) _, Or.inl rfl, fun _ => rfl⟩

/-- One more delivery, to an I/O watcher of the context. -/
theorem Polled.deliver (h : c.Polled c') (hs : c.Sound) (hm : c'.meant? r = some e)
    (hp : e.payload = .io io) (events : Events) :
    c.Polled { c'.updateMeant r { e with payload := .io { io with
        ready := (io.ready.deliver c'.wakeups events).1 } } with
      wakeups := (io.ready.deliver c'.wakeups events).2 } := by
  obtain ⟨g, hat, -⟩ := meant?_eq_some.mp hm
  obtain ⟨hadds, hwakes⟩ := io.ready.deliver_raises c'.wakeups events
  refine ⟨?_, fun i => ?_, ?_, fun hnone => ?_⟩
  · obtain ⟨slots, wakeups, hc⟩ := h.frame
    rw [updateMeant, Arena.put, hat]
    exact ⟨_, _, by rw [hc]⟩
  · by_cases hi : i = r.index
    · have hslot := h.slots i
      rw [hi, hat] at hslot
      rw [hi]
      rw [updateMeant, Arena.at?_put_self hat]
      generalize c.watchers.at? r.index = v at hslot
      cases hslot with
      | some hv => exact .some ⟨hv.1, hv.2.trans (.added hp hadds)⟩
    · rw [updateMeant, Arena.at?_put_other hi]
      exact h.slots i
  · rcases h.wakeups with he | he
    · exact he ▸ hwakes
    · rw [he] at hwakes ⊢
      rw [Wakeups.raise_raise, or_self] at hwakes
      exact Or.inr hwakes
  · obtain rfl := h.apart hnone
    have hfit := hs.fits r.index g e hat
    simp only [Entry.Fits, hp, hnone] at hfit
    exact absurd hfit.1 Bool.false_ne_true

theorem Polled.trans {c'' : Context} (h : c.Polled c') (h' : c'.Polled c'') : c.Polled c'' where
  frame := by
    obtain ⟨slots, wakeups, rfl⟩ := h.frame
    obtain ⟨slots', wakeups', rfl⟩ := h'.frame
    exact ⟨slots', wakeups', rfl⟩
  slots := fun i => rel_trans (fun hv hv' => ⟨hv'.1.trans hv.1, hv.2.trans hv'.2⟩)
    (h.slots i) (h'.slots i)
  wakeups := by
    rcases h.wakeups with he | he <;> rcases h'.wakeups with he' | he'
    · exact Or.inl (he'.trans he)
    · exact Or.inr (he ▸ he')
    · exact Or.inr (he'.trans he)
    · refine Or.inr (he'.trans ?_)
      rw [he, Wakeups.raise_raise]
  apart := fun hnone => by
    obtain rfl := h.apart hnone
    exact h'.apart hnone

end Context

namespace World

variable {w w' : World} {j : Nat} {c : Context}

/-- The context is still there, and at most polls have changed it. -/
def Polled (w : World) (j : Nat) (c : Context) : Prop := ∃ c', w.context? j = some c' ∧ c.Polled c'

theorem Polled.deliver (hs : c.Sound) (r : WatcherRef) (events : Events) (h : w.Polled j c) :
    (w.deliver r events).Polled j c := by
  obtain ⟨c', hc', hpolled⟩ := h
  rw [World.deliver]
  split
  · next c₁ e io hio =>
    obtain ⟨hc₁, hp, hserial, g, hat⟩ := io?_eq_some hio
    by_cases hj : j = r.owner
    · subst hj
      obtain rfl := Option.some.inj (hc₁.symm.trans hc')
      exact ⟨_, context?_put_self hc₁ _,
        hpolled.deliver hs (Context.meant?_eq_some.mpr ⟨g, hat, hserial⟩) hp events⟩
    · exact ⟨c', (context?_put_other hj _).trans hc', hpolled⟩
  · exact ⟨c', hc', hpolled⟩

theorem Polled.of_same (hc : w.context? j = some c) : w.Polled j c := ⟨c, hc, .refl c⟩

theorem Polled.poll (hs : c.Sound) (h : w.Polled j c) (p : Nat) : (w.poll p).Polled j c := by
  obtain ⟨entries, hpoll, -⟩ := w.poll_eq p
  rw [hpoll]
  exact pollAmong_induction (P := fun w' => w'.Polled j c)
    (fun _ r events hP => hP.deliver hs r events) p entries h

theorem Polled.settled (hs : c.Sound) (h : w.Polled j c) (hw : w' = w ∨ w' = w.settle) :
    w'.Polled j c := by
  rcases hw with rfl | rfl
  · exact h
  · exact settle_induction (P := fun w' => w'.Polled j c)
      (fun _ r events hP => hP.deliver hs r events) h

end World

/-! ### What is done in other contexts -/

namespace Transition

variable {t : Transition} {id j : Nat} {c : Context} {r : WatcherRef}

/-- Nothing is done to any context but this one: a step operates on it or on none, and if a run goes
on it is a run of this context. -/
structure KeepsTo (t : Transition) (id : Nat) : Prop where
  command : ∀ current command reaction, t.deed = .command current command reaction →
    ∀ i, t.before.world.target? current command = some i → i = id
  dispatch : t.deed = .dispatch → ∀ a below, t.before.stack = a :: below → a.context = id

/-- Until polls tell its watchers something, another context is as it was. -/
theorem KeepsTo.unpolled {w : World} (h : t.KeepsTo id) (hj : j ≠ id)
    (hc : t.before.world.context? j = some c) (hu : t.Unpolled w) : w.context? j = some c := by
  cases hu with
  | @performed current command reaction waits hdeed hperform =>
    have hs : World.Sound { t.before.world with waits } :=
      t.state.1.world.act (.quiet rfl rfl rfl (.of_eq rfl))
    have heffect := World.perform_contextEffect hs current command j
    rw [hperform] at heffect
    generalize hafter : w.context? j = after at heffect
    cases heffect with
    | kept hsame => exact hsame.trans hc
    | created hnone => exact nomatch hnone.symm.trans hc
    | operated htarget => exact absurd (h.command current command reaction hdeed j htarget) hj
  | waited _ _ hsame => exact (World.context?_congr hsame j).trans hc
  | dispatched hdeed hm hd _ hw =>
    have hne := fun he => hj (Eq.trans he (h.dispatch hdeed _ _ hm))
    exact hw ▸ (hd.replaced.context_other j hne).trans hc
  | polled _ hw => exact hw ▸ hc

/-- At most polls change another context. -/
theorem KeepsTo.polled (h : t.KeepsTo id) (hj : j ≠ id) (hc : t.before.world.context? j = some c) :
    t.after.world.Polled j c := by
  obtain ⟨w, hu⟩ := t.unpolled
  have hs : c.Sound := (t.state.1.world.context j c hc).2
  have hw := World.Polled.of_same (h.unpolled hj hc hu)
  cases hu with
  | performed _ _ hsettled => exact hw.settled hs hsettled
  | waited _ hsame => exact hsame ▸ hw
  | dispatched _ _ _ hsettled hsame => exact hw.settled hs (hsame ▸ hsettled.world)
  | polled _ _ _ hpoll =>
    rw [hpoll]
    exact World.pollAmong_induction (P := fun w' => w'.Polled j c)
      (fun _ r events hP => hP.deliver hs r events) _ _ hw

/-- What they tell is reported then. -/
theorem KeepsTo.told (h : t.KeepsTo id) (hj : r.owner ≠ id)
    (hc : t.before.world.context? r.owner = some c) :
    t.after.world.Told r (t.before.world.meant? r) (t.after.world.meant? r) := by
  obtain ⟨w, hu⟩ := t.unpolled
  have hsame := World.meant?_congr ((h.unpolled hj hc hu).trans hc.symm)
  exact hsame ▸ hu.told r

end Transition

/-- However much is done in one context, polls are all that reaches another. -/
theorem History.beside {past run : List Transition} {m m' : Machine} {id j : Nat} {c : Context}
    (h : History past m) (h' : History (past ++ run) m') (hk : ∀ u ∈ run, u.KeepsTo id)
    (hj : j ≠ id) (hc : m.world.context? j = some c) : m'.world.Polled j c ∧
      ∀ r : WatcherRef, r.owner = j →
        Entry.Told (fun f => ∃ u ∈ run, ∃ x : Watched, x.watcher = r ∧ u.after.world.Reports x f)
          (m.world.meant? r) (m'.world.meant? r) := by
  induction run using List.reverseRecOn generalizing m' with
  | nil =>
    rw [List.append_nil] at h'
    rcases h.unique h' with rfl | hnone
    · exact ⟨.of_same hc, fun _ _ => .same⟩
    · rw [World.context?, hnone] at hc
      contradiction
  | append_singleton run t ih =>
    rw [← List.append_assoc] at h'
    obtain rfl := h'.last
    have hbefore : History (past ++ run) t.before := h'.before rfl
    obtain ⟨⟨c₁, hc₁, hpolled⟩, htold⟩ :=
      ih hbefore fun u hu => hk u (List.mem_append_left _ hu)
    have hkeeps : t.KeepsTo id := hk t (by simp)
    obtain ⟨c₂, hc₂, hpolled'⟩ := hkeeps.polled hj hc₁
    refine ⟨⟨c₂, hc₂, hpolled.trans hpolled'⟩, fun r hr => ?_⟩
    have hlast := hkeeps.told (r := r) (hr ▸ hj) (hr ▸ hc₁)
    refine ((htold r hr).mono ?_).trans (hlast.mono ?_)
    · rintro f ⟨u, hu, hf⟩
      exact ⟨u, List.mem_append_left _ hu, hf⟩
    · exact fun f hf => ⟨t, by simp, hf⟩

/-- Contexts and watchers are isolated. To a context the handles of others are of no use. What is
done to a watcher, or the creation of one, leaves all other handles and the order of the others as
they were. What is done in one context, whole runs of it included, changes in another at most what
polls tell its I/O watchers. -/
theorem isolated {past : List Transition} {m : Machine} (h : History past m) :
    (∀ current context name action l handle,
      m.world.usable? current ((context <|> current).getD 0) = some l →
      m.world.watchers.find? name = some handle → handle.owner ≠ l.context.id →
      ∃ answer, m.world.perform current (.watcher context name action) =
          (m.world, .answered answer) ∧
        if action = .isActive then answer = .ok (.bool false) else ∃ err, answer = .failed err) ∧
    (∀ current command r action, m.world.aim? current command = some (r, action) →
      ∃ e g, m.world.meant? r = some e ∧ m.world.found? ⟨r.owner, ⟨r.index, g⟩⟩ = some e ∧
        m.world.Frame (m.world.perform current command).1 ⟨r.owner, ⟨r.index, g⟩⟩) ∧
    (∀ current context name spec script,
      (∀ id, (m.world.perform current (.create context name spec script)).1.context? id =
        m.world.context? id) ∨
      ∃ h, m.world.found? h = none ∧
        m.world.Frame (m.world.perform current (.create context name spec script)).1 h) ∧
    ∀ run m' id, History (past ++ run) m' → (∀ u ∈ run, u.KeepsTo id) →
      ∀ j c, j ≠ id → m.world.context? j = some c → m'.world.Polled j c ∧
        ∀ r : WatcherRef, r.owner = j →
          Entry.Told (fun f => ∃ u ∈ run, ∃ x : Watched, x.watcher = r ∧ u.after.world.Reports x f)
            (m.world.meant? r) (m'.world.meant? r) := by
  have hs : m.world.Sound := (reachable_pass h.reachable).1.world
  refine ⟨fun current context name action l handle hu hname howner => ?_,
    fun current command r action haim => ?_, fun current context name spec script => ?_,
    fun run m' id h' hk j c hj hc => h.beside h' hk hj hc⟩
  · obtain ⟨answer, hact, hanswer⟩ := World.actOnWatcher_lost (World.usable?_loop hs hu)
      (Context.find_foreign howner) action
    refine ⟨answer, ?_, hanswer⟩
    rw [World.perform, World.withLoop_of_usable _ hu, World.withName_of_find _ hname, hact]
  · obtain ⟨l, l', e, hdid⟩ := World.perform_didAt hs haim
    obtain ⟨g, hfound, hframe⟩ := hdid.frame hs
    obtain ⟨-, hm, -⟩ := hdid.becomes
    exact ⟨e, g, hm, hfound, hframe⟩
  · rw [World.perform, World.withLoop]
    split
    · next l hu => exact World.createWatcher_frame hs (World.usable?_loop hs hu) name spec script
    · exact Or.inl fun _ => rfl

/-- Two contexts that share a poller: one with two timers, the other with an I/O watcher. -/
def Machine.neighbours : Machine :=
  (((((((Machine.create (World.create ⟨1000000, 0, false⟩ .standIn)).submit (.newPoller 0)).submit
    (.newContext (.numbered 0) .scenario)).submit
    (.newContext (.numbered 0) .scenario)).submit (.socket .pair)).submit
    (.create (some 0) "tick" (.timer 5 0) ⟨[], false⟩)).submit
    (.create (some 0) "tock" (.timer 7 0) ⟨[], false⟩)).submit
    (.create (some 1) "inbox" (.io 0 (Mask.only .read)) ⟨[], false⟩)

/-- The first context cannot stop the watcher of the second, and can release one of its timers or
create a third without harm to the others. While data comes in and a run of the first context is
entered, the watcher of the second becomes ready. -/
theorem isolated_neighbours : ∃ (past : List Transition) (s t : Transition),
    History past Machine.neighbours ∧ History (past ++ [s, t]) t.after ∧
    s.KeepsTo 0 ∧ t.KeepsTo 0 ∧ t.Enters 0 ∧
    (∃ err, Machine.neighbours.world.perform none (.watcher (some 0) "inbox" .ioStop) =
      (Machine.neighbours.world, .answered (.failed err))) ∧
    (∃ g, (Machine.neighbours.world.found? ⟨0, ⟨0, g⟩⟩).isSome = true ∧
      Machine.neighbours.world.Frame
        (Machine.neighbours.world.perform none (.watcher (some 0) "tick" .release)).1
        ⟨0, ⟨0, g⟩⟩) ∧
    (∃ h, Machine.neighbours.world.found? h = none ∧ Machine.neighbours.world.Frame
      (Machine.neighbours.world.perform none
        (.create (some 0) "tack" (.timer 9 0) ⟨[], false⟩)).1 h) ∧
    ∃ c, Machine.neighbours.world.context? 1 = some c ∧ t.after.world.Polled 1 c ∧
      (Machine.neighbours.world.io? ⟨1, 0, 0⟩).any (fun x => x.2.2.ready.isPresent) = false ∧
      (t.after.world.io? ⟨1, 0, 0⟩).any (fun x => x.2.2.ready.isPresent) = true := by
  have hreach : Machine.neighbours.Reachable :=
    (((((((Machine.Reachable.start _ _).submit _ (by decide +kernel) (by decide +kernel)).submit _
      (by decide +kernel) (by decide +kernel)).submit _ (by decide +kernel)
      (by decide +kernel)).submit _ (by decide +kernel) (by decide +kernel)).submit _
      (by decide +kernel) (by decide +kernel)).submit _ (by decide +kernel)
      (by decide +kernel)).submit _ (by decide +kernel) (by decide +kernel)
  obtain ⟨past, hpast⟩ := hreach.history
  obtain ⟨s, hs, hs', hsdeed, hwritten⟩ := hpast.submit (.socket (.write 1 "x"))
    (by decide +kernel) (by decide +kernel)
  obtain ⟨t, ht, ht', htdeed, hentered⟩ := hwritten.submit (.run (some 0) ∅) (by decide +kernel)
    (by decide +kernel)
  have hskeeps : s.KeepsTo 0 := by
    refine ⟨fun current command reaction hdeed i htarget => ?_, fun hdeed => ?_⟩
    · obtain ⟨rfl, rfl, -⟩ := Deed.command.inj (hsdeed.symm.trans hdeed)
      contradiction
    · exact nomatch hsdeed.symm.trans hdeed
  have htkeeps : t.KeepsTo 0 := by
    refine ⟨fun current command reaction hdeed i htarget => ?_, fun hdeed => ?_⟩
    · obtain ⟨rfl, rfl, -⟩ := Deed.command.inj (htdeed.symm.trans hdeed)
      exact (Option.some.inj htarget).symm
    · exact nomatch htdeed.symm.trans hdeed
  have hrun : History (past ++ [s, t]) t.after := by
    rw [ht']
    simpa using hentered
  obtain ⟨hforeign, haimed, hcreates, hbeside⟩ := isolated hpast
  obtain ⟨answer, hperform, err, rfl⟩ :=
    hforeign none (some 0) "inbox" .ioStop _ ⟨1, ⟨0, 0⟩⟩ rfl rfl (by decide)
  obtain ⟨e, g, -, hfound, hframe⟩ :=
    haimed none (.watcher (some 0) "tick" .release) ⟨0, 0, 0⟩ .release rfl
  have hcreated : ∃ h, Machine.neighbours.world.found? h = none ∧ Machine.neighbours.world.Frame
      (Machine.neighbours.world.perform none
        (.create (some 0) "tack" (.timer 9 0) ⟨[], false⟩)).1 h := by
    refine (hcreates none (some 0) "tack" (.timer 9 0) ⟨[], false⟩).resolve_left fun hsame => ?_
    have hgrown : ((Machine.neighbours.world.perform none
        (.create (some 0) "tack" (.timer 9 0) ⟨[], false⟩)).1.context? 0).map
          (fun c => c.roster.toList.length) ≠
        (Machine.neighbours.world.context? 0).map fun c => c.roster.toList.length := by
      decide +kernel
    exact hgrown (congrArg _ (hsame 0))
  have hpolled := (hbeside [s, t] t.after 0 hrun (by simp [hskeeps, htkeeps]) 1 _ (by decide)
    rfl).1
  refine ⟨past, s, t, hpast, hrun, hskeeps, htkeeps, ⟨none, _, ∅, _, htdeed⟩, ⟨err, hperform⟩,
    ⟨g, by rw [hfound]; rfl, hframe⟩, hcreated, _, rfl, hpolled, by decide +kernel, ?_⟩
  rw [ht']
  decide +kernel

end EventLoop
