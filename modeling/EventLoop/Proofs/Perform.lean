import EventLoop.Proofs.Dispatch
import EventLoop.Proofs.PollSet
import EventLoop.Proofs.World

/-!
# Every step of a scenario is a chain of acts

The exception is a run, which is only entered: the loop is started and its timers are armed.
-/
namespace EventLoop

/-- Whether the step has succeeded. -/
def Answer.isOk : Answer → Bool
  | .ok _ => true
  | _ => false

theorem Answer.isOk_ofUnit (result : Except LoopError Unit) :
    (Answer.ofUnit result).isOk = result.isOk := by
  cases result <;> rfl

namespace World

variable {w w' : World} {id : Nat} {c : Context} {l l' : Loop}

/-! ### Polls -/

theorem io?_eq_some {r : WatcherRef} {e : Entry} {io : IoState} (h : w.io? r = some (c, e, io)) :
    w.context? r.owner = some c ∧ e.payload = .io io ∧ e.serial = r.serial ∧
      ∃ g, c.watchers.at? r.index = some (g, e) := by
  unfold io? at h
  split at h
  · contradiction
  · next c' hc =>
    split at h
    · contradiction
    · next e' hm =>
      split at h
      · next io' hp =>
        simp only [Option.some.injEq, Prod.mk.injEq] at h
        obtain ⟨rfl, rfl, rfl⟩ := h
        obtain ⟨g, ha, hser⟩ := Loop.meant_some hm
        exact ⟨hc, hp, hser, g, ha⟩
      · contradiction

theorem loop?_of_context? (h : w.context? id = some c) :
    w.loop? id = some ⟨c, c.poller.bind fun p => w.pollers[p]?⟩ :=
  loop?_eq_some.mpr ⟨h, rfl⟩

theorem calm_putContext (hl : w.loop? id = some l) {c' : Context} (hm : l.Move ⟨c', l.poller⟩)
    (hr : c'.roster = l.context.roster) (ha : l.context.Alike c') :
    w.Calm (w.putContext id c') := by
  have hput := replaced_putContext hl c'
  refine ⟨.moved hput hm, fun j c₁ c₂ h₁ h₂ => ?_⟩
  by_cases hj : j = id
  · subst hj
    obtain rfl := Option.some.inj ((loop?_eq_some.mp hl).1.symm.trans h₁)
    obtain rfl := Option.some.inj (hput.context_self.symm.trans h₂)
    exact ⟨hr, ha⟩
  · obtain rfl := Option.some.inj (h₂.symm.trans ((hput.context_other j hj).trans h₁))
    exact ⟨rfl, .refl _⟩

/-- A delivery adds to the readiness of an I/O watcher and wakes its context. -/
theorem deliver_of_io {r : WatcherRef} {events : Events} {c : Context} {e : Entry} {io : IoState}
    (hio : w.io? r = some (c, e, io)) (he : events.isEmpty = false) :
    w.deliver r events = w.putContext r.owner
      { c.updateMeant r { e with payload := .io { io with ready := io.ready.add events } } with
        wakeups := c.wakeups.raise .readiness } := by
  rw [deliver, hio]
  simp only [Readiness.deliver, he]
  rfl

/-- A delivery moves the loop whose I/O watcher was found ready, and leaves its roster alone. -/
theorem deliver_calm (hs : w.Sound) (r : WatcherRef) {events : Events} (hn : events.Named)
    (he : events.isEmpty = false) : w.Calm (w.deliver r events) := by
  cases hio : w.io? r with
  | none =>
    rw [deliver, hio]
    exact calm_quiet rfl rfl rfl rfl
  | some v =>
    obtain ⟨c, e, io⟩ := v
    obtain ⟨hc, hp, -, g, ha⟩ := io?_eq_some hio
    have hl := loop?_of_context? hc
    have hsl := (hs.loop hl).2
    let e' : Entry := { e with payload := .io { io with ready := io.ready.add events } }
    have hmove := Loop.Move.slot (ha ▸ Loop.Operation.delivered hp he hn)
      (Loop.changed_put hsl.context.arena ha e' .keep (some .readiness) _)
    have htraits : e'.traits = e.traits := by simp [e', Entry.traits, Entry.aim?, Payload.kind, hp]
    have halike := Context.alike_put ha htraits c.roster
    rw [deliver_of_io hio he]
    exact calm_putContext hl hmove rfl ⟨rfl, rfl, rfl, halike.slots⟩

theorem deliverListed_eq (w : World) (q : Poller) (ready : List (Watched × Events)) :
    w.deliverListed q ready =
      ((ready.filter fun v => q.lists v.1.ticket).map fun v => (v.1.watcher, v.2)).foldl
        (fun w (r, events) => w.deliver r events) w := by
  rw [deliverListed, List.foldl_map, List.foldl_filter]

theorem living?_eq_some {p : Nat} {q : Poller} :
    w.living? p = some q ↔ w.pollers[p]? = some q ∧ q.alive = true :=
  Option.filter_eq_some_iff

/-- What a living poller has found is delivered, one watcher after the other, if its loopback channel
is in order. -/
theorem afterWait_of_inOrder {p : Nat} {q : Poller} {entries : List Watched} {drained : Drained}
    {report : Descriptor → PollFlags → PollFlags} (hq : w.living? p = some q)
    (h : (PollSet.ofList entries).InOrder drained report) :
    w.afterWait p (PollSet.ofList entries) drained (.answered report) =
      (q.found entries report).foldl (fun w (r, events) => w.deliver r events) w := by
  rw [afterWait, hq]
  dsimp only
  rw [PollSet.verdict_of_inOrder h, Poller.found, ← deliverListed_eq]
  cases hanswered : ((PollSet.ofList entries).answer report).isAnswered with
  | false =>
    rw [PollSet.ready_of_unanswered hanswered]
    rfl
  | true => rfl

theorem pollAmong_of_living {p : Nat} {q : Poller} (hq : w.living? p = some q)
    (entries : List Watched) : w.pollAmong p entries =
      (q.found entries w.report).foldl (fun w (r, events) => w.deliver r events) w :=
  afterWait_of_inOrder hq fun _ => rfl

theorem pollAmong_of_dead {p : Nat} (hq : w.living? p = none) (entries : List Watched) :
    w.pollAmong p entries = w := by
  rw [pollAmong, afterWait, hq]

theorem pollAmong_calms (hs : w.Sound) (p : Nat) (entries : List Watched) :
    w.Calms (w.pollAmong p entries) := by
  cases hq : w.living? p with
  | none => rw [pollAmong_of_dead hq]
  | some q =>
    have hnamed : ∀ x ∈ q.found entries w.report, x.2.Named ∧ x.2.isEmpty = false :=
      fun x hx => Poller.found_named hx
    rw [pollAmong_of_living hq]
    revert hnamed
    clear hq
    generalize q.found entries w.report = found
    intro hnamed
    induction found generalizing w with
    | nil => exact .refl
    | cons x found ih =>
      obtain ⟨hn, he⟩ := hnamed x List.mem_cons_self
      have hcalm := deliver_calm hs x.1 hn he
      exact .head hcalm (ih (hs.act hcalm.act) fun y hy => hnamed y (List.mem_cons_of_mem x hy))

/-- A complete poll is a poll of entries that are on the list. -/
theorem poll_eq (w : World) (p : Nat) : ∃ entries, w.poll p = w.pollAmong p entries ∧
    ∀ q, w.pollers[p]? = some q → q.HasListed entries := by
  cases hq : w.living? p with
  | none =>
    refine ⟨[], ?_, fun q _ x hx => absurd hx List.not_mem_nil⟩
    rw [poll, hq, pollAmong_of_dead hq]
  | some q =>
    refine ⟨w.idle q, by rw [poll, hq], fun q' hq' x hx _ => ?_⟩
    obtain rfl := Option.some.inj ((living?_eq_some.mp hq).1.symm.trans hq')
    exact (List.mem_filter.mp hx).1

theorem settle_calms (hs : w.Sound) : w.Calms w.settle := by
  unfold settle
  generalize w.prompt = pollers
  induction pollers generalizing w with
  | nil => exact .refl
  | cons p pollers ih =>
    obtain ⟨entries, hpoll, -⟩ := w.poll_eq p
    have hcalms := hpoll ▸ pollAmong_calms hs p entries
    exact hcalms.trans (ih (hs.acts hcalms.acts))

/-- A poller that finds its loopback channel closed dies, and delivers nothing. -/
theorem closeLoopback_of_living {p : Nat} {q : Poller} (hq : w.living? p = some q) :
    w.closeLoopback p = { w with pollers := w.pollers.set p q.kill } := by
  rw [closeLoopback, hq]
  dsimp only [afterWait]
  rw [hq, PollSet.verdict_closed]

theorem closeLoopback_of_dead {p : Nat} (hq : w.living? p = none) : w.closeLoopback p = w := by
  rw [closeLoopback, hq]

/-! ### Steps on loops -/

theorem usable?_eq_some {current : Option Nat} (h : w.usable? current id = some l) :
    w.loop? id = some l ∧ (l.context.busy = true → current = some id) := by
  unfold usable? at h
  split at h
  · next l' hl =>
    split at h
    · contradiction
    · next hb =>
      obtain rfl := Option.some.inj h
      refine ⟨hl, fun hbusy => ?_⟩
      simpa [hbusy] using hb
  · contradiction

theorem replaced_move (hs : w.Sound) (hl : w.loop? id = some l) (hm : l.Move l') :
    w.Replaced (w.putLoop id l') id l l' := by
  have hsl := (hs.loop hl).2
  have hsl' := hsl.move hm
  have hn := (hm.frame hsl).2.1
  refine replaced_putLoop hl hn ?_
  rw [hsl.poller, hsl'.poller, hn]

theorem putLoop_act (hs : w.Sound) (hl : w.loop? id = some l) (hm : l.Move l') :
    w.Act (w.putLoop id l') := .moved (replaced_move hs hl hm) hm

/-- A watcher is stored as the step says. -/
def storeWatcher (l : Loop) (now : Nat) (callback : Callback) : WatcherSpec → Outcome Handle
  | .timer timeout period => l.timerInit now callback timeout period
  | .remoteTimer timeout period => l.remoteInit now callback timeout period
  | .event => l.eventInit callback
  | .io fd interest => l.ioInit callback fd interest

/-- What the world is when a watcher of that context has been stored, or could not be. -/
def afterStored (w : World) (id : Nat) (name : String) (o : Outcome Handle) : World × Answer :=
  match o.2 with
  | .ok h =>
    ({ w.putLoop id o.1 with watchers := (w.putLoop id o.1).watchers.bind name h },
      Answer.ofHandle (.ok h))
  | .error e => (w.putLoop id o.1, .failed e)

theorem createWatcher_eq (w : World) (l : Loop) (name : String) (spec : WatcherSpec)
    (script : Script Command) :
    let o := storeWatcher l (w.now l.context) ⟨name, script, 0⟩ spec
    w.createWatcher l name spec script = w.afterStored o.1.context.id name o := by
  cases spec <;> rfl

/-- The creation of a watcher, and what the world is then. -/
theorem createWatcher_made (hs : w.Sound) (hl : w.loop? l.context.id = some l) (name : String)
    (spec : WatcherSpec) (script : Script Command) :
    ∃ o : Outcome Handle, l.Made (l.context.armingTime (w.now l.context)) spec o ∧
      w.createWatcher l name spec script = w.afterStored l.context.id name o := by
  have hsl := (hs.loop hl).2
  have hm : l.Made (l.context.armingTime (w.now l.context)) spec
      (storeWatcher l (w.now l.context) ⟨name, script, 0⟩ spec) := by
    cases spec with
    | timer timeout period => exact Loop.timerInit_made hsl _ _ timeout period
    | remoteTimer timeout period => exact Loop.remoteInit_made hsl _ _ timeout period
    | event => exact Loop.eventInit_made hsl _ _
    | io fd interest => exact Loop.ioInit_made hsl _ fd interest _
  have ho := createWatcher_eq w l name spec script
  dsimp only at ho
  rw [(hm.touched.move.frame hsl).1] at ho
  exact ⟨_, hm, ho⟩

theorem createWatcher_course (hs : w.Sound) (hl : w.loop? l.context.id = some l) (name : String)
    (spec : WatcherSpec) (script : Script Command) :
    w.Course (w.createWatcher l name spec script).1 := by
  obtain ⟨o, hm, ho⟩ := createWatcher_made hs hl name spec script
  have hput := Course.act (putLoop_act hs hl hm.touched.move)
  rw [ho]
  unfold afterStored
  split
  · exact hput.andThen (.single (calm_quiet rfl rfl rfl rfl))
  · exact hput

theorem timerHandle_eq_ok {h : Handle} {r : WatcherRef} (hr : l.timerHandle h = .ok r) :
    ∃ e t, l.context.find h = .ok e ∧ e.payload = .remote t ∧
      r = l.context.refTo h.key.index e := by
  unfold Loop.timerHandle at hr
  split at hr
  · contradiction
  · next e hf =>
    split at hr
    · next t hp => exact ⟨e, t, hf, hp, (Except.ok.inj hr).symm⟩
    · contradiction

theorem keep_calm {shared : List (WatcherRef × RemoteTimer)}
    (h : ∀ x ∈ shared, x.2.IsCutOff ∧ w.Lacks x.1) : w.Calm (w.keep shared) := by
  have hact : w.Act (w.keep shared) := .quiet rfl rfl rfl ⟨shared, h, rfl⟩
  exact hact.calm_of_contexts rfl

/-- An action on a watcher is carried out by its loop, or it only asks and may make a handle. A
release leaves a remote timer behind, which has been cut off. -/
theorem actOnWatcher_cases (hs : w.Sound) (hl : w.loop? l.context.id = some l) (h : Handle)
    (action : WatcherAction) :
    (∃ (o : Outcome Unit) (shared : List (WatcherRef × RemoteTimer)),
      l.Handled o.1 h (l.context.armingTime (w.now l.context)) action o.2.isOk ∧
      (∀ x ∈ shared, x.2.IsCutOff ∧ (w.putLoop l.context.id o.1).Lacks x.1) ∧
      w.actOnWatcher l h action = ((w.putLoop l.context.id o.1).keep shared, Answer.ofUnit o.2)) ∨
    (action.asks = true ∧ (w.actOnWatcher l h action).1.contexts = w.contexts ∧
      w.Course (w.actOnWatcher l h action).1) := by
  have hsl := (hs.loop hl).2
  have hnone : ∀ {w' : World}, ∀ x ∈ ([] : List (WatcherRef × RemoteTimer)),
      x.2.IsCutOff ∧ w'.Lacks x.1 := fun _ hx => absurd hx List.not_mem_nil
  cases action with
  | release =>
    have hh := Loop.release_handled hsl h (l.context.armingTime (w.now l.context))
    rw [actOnWatcher]
    cases hf : l.context.find h with
    | error err =>
      have hrelease : l.release h = (l, .error err) := by rw [Loop.release, hf]
      rw [hrelease] at hh ⊢
      exact Or.inl ⟨(l, .error err), [], hh, hnone, rfl⟩
    | ok e =>
      obtain ⟨hleaves, hvacant, hserial⟩ := Loop.release_leaves hf
      have hput := replaced_move hs hl hh.touched.move
      rw [← Prod.eta (l.release h), hleaves] at hh ⊢
      refine Or.inl ⟨((l.release h).1, .ok ()), _, hh, fun x hx => ?_, rfl⟩
      obtain ⟨hcut, href⟩ := Loop.leftBehind_cutOff (Option.mem_toList.mp hx)
      rw [href]
      refine ⟨hcut, lacks_of_context? hput.context_self ?_ ?_⟩
      · exact hserial ▸ hsl.context.serial _ _ e (Context.find_ok hf).2
      · show (l.release h).1.context.meant? (l.context.refTo h.key.index e) = none
        rw [Context.meant?]
        exact hvacant ▸ rfl
  | ioStart => exact Or.inl ⟨_, [], Loop.ioStart_handled hsl h _, hnone, rfl⟩
  | ioStop => exact Or.inl ⟨_, [], Loop.ioStop_handled hsl h _, hnone, rfl⟩
  | ioSet fd interest => exact Or.inl ⟨_, [], Loop.ioSet_handled hsl h fd interest _, hnone, rfl⟩
  | timerStart => exact Or.inl ⟨_, [], Loop.timerStart_handled hsl _ h, hnone, rfl⟩
  | timerStop => exact Or.inl ⟨_, [], Loop.timerStop_handled hsl h _, hnone, rfl⟩
  | timerSet timeout period =>
    exact Or.inl ⟨_, [], Loop.timerSet_handled hsl _ h timeout period, hnone, rfl⟩
  | eventPost => exact Or.inl ⟨_, [], Loop.eventPost_handled hsl h _, hnone, rfl⟩
  | eventStop => exact Or.inl ⟨_, [], Loop.eventStop_handled hsl h _, hnone, rfl⟩
  | isActive => exact Or.inr ⟨rfl, rfl, .refl _⟩
  | deadline =>
    rw [actOnWatcher]
    split <;> exact Or.inr ⟨rfl, rfl, .refl _⟩
  | timerHandle handle =>
    rw [actOnWatcher]
    split
    · next r hr =>
      obtain ⟨e, t, hf, hp, rfl⟩ := timerHandle_eq_ok hr
      exact Or.inr ⟨rfl, rfl, .act
        (.handleMade (loop?_eq_some.mp hl).1 (Context.find_ok hf).2 hp rfl rfl rfl rfl rfl)⟩
    · exact Or.inr ⟨rfl, rfl, .refl _⟩
  | eventPoster handle =>
    rw [actOnWatcher]
    split
    · exact Or.inr ⟨rfl, rfl, .quiet rfl rfl rfl rfl⟩
    · exact Or.inr ⟨rfl, rfl, .refl _⟩

theorem actOnWatcher_course (hs : w.Sound) (hl : w.loop? l.context.id = some l) (h : Handle)
    (action : WatcherAction) : w.Course (w.actOnWatcher l h action).1 := by
  rcases actOnWatcher_cases hs hl h action with ⟨o, shared, hh, hcut, ho⟩ | ⟨-, -, hcourse⟩
  · rw [ho]
    exact (Course.act (putLoop_act hs hl hh.touched.move)).andThen (.single (keep_calm hcut))
  · exact hcourse

theorem actOnContext_course (hs : w.Sound) (hl : w.loop? l.context.id = some l)
    (action : ContextAction) : w.Course (w.actOnContext l action).1 := by
  cases action with
  | exit => exact .act (putLoop_act hs hl (.exited rfl))
  | watched =>
    rw [actOnContext]
    split <;> exact .refl _
  | loopHandle handle => exact .quiet rfl rfl rfl rfl
  | running => exact .refl _
  | size => exact .refl _
  | state => exact .refl _

theorem addPoller_calm : w.Calm w.addPoller.1 :=
  Act.calm_of_contexts (.pollerMade rfl rfl rfl rfl) rfl

theorem addContext_act (clock : ClockSource) (poller : Option Nat)
    (h : ∀ p, poller = some p → p < w.pollers.length) :
    w.Act (w.addContext clock poller).1 :=
  .contextMade clock poller h rfl rfl rfl rfl

theorem numbered?_lt {number p : Nat} {q : Poller} (h : w.numbered? number = some (p, q)) :
    w.pollers[p]? = some q := by
  unfold numbered? at h
  split at h
  · next p' _ =>
    obtain ⟨q', hq, he⟩ := Option.map_eq_some_iff.mp h
    obtain ⟨rfl, rfl⟩ := Prod.mk.inj he
    exact hq
  · contradiction

theorem newContext_course (clock : ClockSource) (choice : PollerChoice) :
    w.Course (w.newContext clock choice).1 := by
  cases choice with
  | none => exact .act (addContext_act clock none fun _ h => nomatch h)
  | own =>
    refine .before (.single addPoller_calm) (.act (addContext_act clock _ fun p hp => ?_))
    obtain rfl := Option.some.inj hp
    simp [addPoller]
  | numbered number =>
    rw [newContext]
    split
    · next p q hn =>
      refine .act (addContext_act clock _ fun p' hp => ?_)
      obtain rfl := Option.some.inj hp
      exact (List.getElem?_eq_some_iff.mp (numbered?_lt hn)).1
    · exact .refl _

theorem dropContext_course (hs : w.Sound) (id : Nat) : w.Course (w.dropContext id).1 := by
  rw [dropContext]
  split
  · exact .refl _
  · next l hu =>
    obtain ⟨hl, hcurrent⟩ := usable?_eq_some hu
    have hsl := (hs.loop hl).2
    have hexit : w.Act (w.putLoop id l.exit) := putLoop_act hs hl (.exited rfl)
    have hbusy : l.exit.context.busy = false := by
      rw [(Loop.exit_frame hsl).2.2.2.1]
      cases hb : l.context.busy with
      | false => rfl
      | true => exact absurd (hcurrent hb) (by simp)
    have hself : (w.putLoop id l.exit).context? id = some l.exit.context :=
      (replaced_move hs hl (.exited rfl)).context_self
    have hdropped : (w.putLoop id l.exit).Calm
        { w.putLoop id l.exit with contexts := (w.putLoop id l.exit).contexts.set id none } := by
      refine Act.calm
        (.contextDropped hself hbusy (fun i => Loop.idle_exit hsl i) rfl rfl rfl rfl) ?_
      intro j c c' h h'
      rw [context?_set_none rfl] at h'
      split at h'
      · contradiction
      · exact Option.some.inj (h'.symm.trans h)
    refine (Course.act hexit).andThen (.tail (.single hdropped) (keep_calm fun x hx => ?_))
    obtain ⟨y, hy, rfl⟩ := List.mem_map.mp hx
    have howner : y.1.owner = id := by
      obtain ⟨i, g, e, t, -, -, rfl⟩ := Context.mem_allShared.mp hy
      exact (Loop.exit_frame hsl).1.trans (hs.loop hl).1
    refine ⟨y.2.cutOff_isCutOff, lacks_of_dropped ?_ ?_⟩
    · show y.1.owner < ((w.putLoop id l.exit).contexts.set id none).length
      rw [howner, List.length_set]
      exact context?_lt hself
    · show (World.context? _ y.1.owner) = none
      rw [context?_set_none rfl, if_pos howner]

theorem newPoller_course (stack : Nat) : w.Course (w.newPoller stack).1 := by
  rw [newPoller]
  split
  · exact .refl _
  · exact .before (.single addPoller_calm) (.quiet rfl rfl rfl rfl)

theorem closeLoopback_course (p : Nat) : w.Course (w.closeLoopback p) := by
  cases hq : w.living? p with
  | none =>
    rw [closeLoopback_of_dead hq]
    exact .refl w
  | some q =>
    rw [closeLoopback_of_living hq]
    exact .act (.pollerKilled (living?_eq_some.mp hq).1 rfl rfl rfl rfl)

/-- Nothing that is done to a poller reaches a context at once. -/
theorem perform_poller_frame (w : World) (current : Option Nat) (number : Nat)
    (action : PollerAction) : ∃ pollers numbers,
      (w.perform current (.poller number action)).1 = { w with pollers, numbers } := by
  rw [perform, actOnPoller]
  split
  · exact ⟨_, _, rfl⟩
  · next p q hn =>
    cases action with
    | kill =>
      cases hq : w.living? p with
      | none => exact ⟨_, _, closeLoopback_of_dead hq⟩
      | some q => exact ⟨_, _, closeLoopback_of_living hq⟩
    | _ => exact ⟨_, _, rfl⟩

theorem actOnPoller_course (number : Nat) (action : PollerAction) :
    w.Course (w.actOnPoller number action).1 := by
  rw [actOnPoller]
  split
  · exact .refl _
  · next p q hn =>
    cases action with
    | kill => exact closeLoopback_course p
    | drop => exact .quiet rfl rfl rfl rfl
    | watched => exact .refl _
    | isAlive => exact .refl _
    | interrupt => exact .refl _
    | fail => exact .refl _

/-! ### Steps through handles -/

/-- The remote timer of a watcher that is there is the one that its handles share. -/
theorem cell?_of_there {r : WatcherRef} {e : Entry} {t : RemoteTimer}
    (hc : w.context? r.owner = some c) (hr : c.remote? r = some (e, t)) : w.cell? r = some t := by
  rw [cell?, hc, Option.bind_some, hr]

theorem putCell_of_there {r : WatcherRef} {e : Entry} {t : RemoteTimer}
    (hc : w.context? r.owner = some c) (hr : c.remote? r = some (e, t)) (t' : RemoteTimer) :
    w.putCell r t' = w.putContext r.owner (c.putRemote r e t') := by
  simp only [putCell, hc, hr]

/-- A remote timer whose watcher is there is set in its context. -/
theorem assignCell_of_there {r : WatcherRef} {e : Entry} {t : RemoteTimer}
    (hc : w.context? r.owner = some c) (hr : c.remote? r = some (e, t))
    (result : Except LoopError RemoteTimer) :
    w.assignCell r result =
      (w.putContext r.owner (c.assigned r e result), .ofUnit (result.map fun _ => ())) := by
  cases result with
  | error err => exact congrArg (·, Answer.failed err) (putContext_self hc).symm
  | ok t' =>
    rw [assignCell, putCell_of_there hc hr, raise, context?_put_self hc]
    exact congrArg (·, Answer.ok .nothing) (putContext_putContext w r.owner _ _)

/-- An action through a handle of a remote timer whose watcher is there acts on the watcher. -/
theorem actOnTimerHandle_did (hs : w.Sound) {r : WatcherRef} {e : Entry} {t : RemoteTimer}
    (hc : w.context? r.owner = some c) (hr : c.remote? r = some (e, t))
    (action : TimerHandleAction) :
    ∃ c' : Context, Loop.Did ⟨c, c.poller.bind fun p => w.pollers[p]?⟩
        ⟨c', c.poller.bind fun p => w.pollers[p]?⟩ r.index e (c.armingTime (w.now c))
        action.onWatcher (w.actOnTimerHandle r action).2.isOk ∧
      (w.actOnTimerHandle r action).1 = w.putContext r.owner c' := by
  have hsl := (hs.loop (loop?_of_context? hc)).2
  have harming : w.armingTime? r.owner = c.armingTime (w.now c) := by
    rw [armingTime?, hc, Option.bind_some]
  have hok : ∀ result : Except LoopError RemoteTimer,
      (Answer.ofUnit (result.map fun _ => ())).isOk = result.isOk := by
    intro result
    cases result <;> rfl
  simp only [actOnTimerHandle, cell?_of_there hc hr, putCell_of_there hc hr,
    assignCell_of_there hc hr, harming]
  cases action with
  | set timeout period =>
    refine ⟨_, ?_, rfl⟩
    rw [hok]
    exact Loop.remoteSet_did hsl hr (w.now c) timeout period
  | start =>
    refine ⟨_, ?_, rfl⟩
    rw [hok]
    exact Loop.remoteStart_did hsl hr (w.now c)
  | stop => exact ⟨_, Loop.remoteStop_did hsl hr _, rfl⟩
  | isActive => exact ⟨c, .kept rfl (.asked rfl), (putContext_self hc).symm⟩

theorem putOrphan_of_lookup {r : WatcherRef} {t : RemoteTimer}
    {orphans : List (WatcherRef × RemoteTimer)} (h : orphans.lookup r = some t) :
    putOrphan r t orphans = orphans := by
  induction orphans with
  | nil => rfl
  | cons x orphans ih =>
    obtain ⟨r', t'⟩ := x
    by_cases hr : r' = r
    · subst hr
      rw [List.lookup_cons_self, Option.some.injEq] at h
      rw [putOrphan, if_pos rfl, h]
    · rw [List.lookup_cons, beq_false_of_ne (Ne.symm hr)] at h
      rw [putOrphan, if_neg hr, ih h]

/-- An action through a handle whose watcher is gone changes nothing: the remote timer that was left
behind has been cut off, and refuses to be set. -/
theorem actOnTimerHandle_of_orphan (hs : w.Sound) {r : WatcherRef}
    (hgone : ((w.context? r.owner).bind fun c => c.remote? r) = none)
    (action : TimerHandleAction) : (w.actOnTimerHandle r action).1 = w := by
  have hcell : w.cell? r = w.orphans.lookup r := by rw [cell?, hgone]
  have hput : ∀ t, w.orphans.lookup r = some t → w.putCell r t = w := by
    intro t ht
    have hkept : { w with orphans := putOrphan r t w.orphans } = w := by
      rw [putOrphan_of_lookup ht]
    unfold putCell
    cases hc : w.context? r.owner with
    | none => exact hkept
    | some c =>
      rw [hc, Option.bind_some] at hgone
      simp only [hgone]
      exact hkept
  rw [actOnTimerHandle, hcell]
  cases ht : w.orphans.lookup r with
  | none => rfl
  | some t =>
    obtain ⟨before, after, hsplit, -⟩ := List.lookup_eq_some_iff.mp ht
    have hcut : t.IsCutOff := hs.severed (r, t) (hsplit ▸ List.mem_append_right _ List.mem_cons_self)
    have hassign : ∀ now timeout period, t.assign now timeout period = .error .invalidWatcher := by
      intro now timeout period
      rw [RemoteTimer.assign, RemoteTimer.set?, hcut.unreachable]
      rfl
    have hstop : t.stop = t := by rw [RemoteTimer.stop, ← hcut.inactive]
    cases action with
    | set timeout period =>
      simp only [RemoteTimer.setTo]
      cases checkTimes timeout period with
      | error err => rfl
      | ok times => simp only [hassign, assignCell]
    | start => simp only [RemoteTimer.restart, hassign, assignCell]
    | stop => simp only [hstop, hput t ht]
    | isActive => rfl

theorem actOnTimerHandle_course (hs : w.Sound) (r : WatcherRef) (action : TimerHandleAction) :
    w.Course (w.actOnTimerHandle r action).1 := by
  cases hgone : (w.context? r.owner).bind fun c => c.remote? r with
  | none =>
    rw [actOnTimerHandle_of_orphan hs hgone action]
    exact .refl w
  | some v =>
    obtain ⟨c, hc, hr⟩ := Option.bind_eq_some_iff.mp hgone
    obtain ⟨c', hdid, he⟩ := actOnTimerHandle_did hs hc hr action
    rw [he]
    exact .act (.moved (replaced_putContext (loop?_of_context? hc) c') hdid.touched.move)

theorem throughHandle_course (hs : w.Sound) (owner : Nat) (f : Context → Context)
    (hm : ∀ l : Loop, l.Sound → l.Move ⟨f l.context, l.poller⟩) :
    w.Course (w.throughHandle owner f).1 := by
  rw [throughHandle]
  split
  · next c hc =>
    have hl := loop?_of_context? hc
    exact .act (.moved (replaced_putContext hl _) (hm _ (hs.loop hl).2))
  · exact .refl _

theorem actOnSockets_course (action : SocketAction) : w.Course (w.actOnSockets action).1 := by
  cases action <;> exact .quiet rfl rfl rfl rfl

theorem withName_course {α : Type} (names : Names α) (name : String) (f : α → World × Answer)
    (h : ∀ a, names.find? name = some a → w.Course (f a).1) :
    w.Course (w.withName names name f).1 := by
  rw [withName]
  split
  · next a ha => exact h a ha
  · exact .refl _

/-! ### Every step -/

/-- A loop as it is when a run of it is entered. -/
def entering (w : World) (l : Loop) : Context × Option Nat :=
  { l.context with busy := true, running := true }.armAll (w.now l.context)

theorem withLoop_cases (hs : w.Sound) (current context : Option Nat)
    (f : Loop → World × Reaction) {P : World × Reaction → Prop}
    (hloop : ∀ l, w.loop? l.context.id = some l →
      (l.context.busy = true → current = some l.context.id) → P (f l))
    (hnone : ∀ answer, P (w, .answered answer)) : P (w.withLoop current context f) := by
  rw [withLoop]
  split
  · next l hu =>
    obtain ⟨hl, hb⟩ := usable?_eq_some hu
    have hid := (hs.loop hl).1
    exact hloop l (hid.symm ▸ hl) (hid.symm ▸ hb)
  · exact hnone _

/-- What a step comes to: a course of acts and an answer, or a run that is entered. -/
def Performed (w : World) (r : World × Reaction) : Prop :=
  (∃ answer, r.2 = .answered answer ∧ w.Course r.1) ∨
    ∃ l flags, w.loop? l.context.id = some l ∧ l.context.busy = false ∧
      r = (w.putContext l.context.id (w.entering l).1, .entered l.context.id flags (w.entering l).2)

theorem entering_spec (hs : l.Sound) :
    ∃ watchers, (w.entering l).1 = { l.context with busy := true, running := true, watchers } ∧
      (∀ j, watchers.at? j =
        l.context.armedAt (toMillis (w.now l.context)) l.context.roster.toList j) ∧
      ∀ j ∈ l.context.roster.toList, ∀ v d, l.context.watchers.at? j = some v →
        (v.2.arm (toMillis (w.now l.context))).deadline? = some d →
          NotLater (w.entering l).2 d := by
  obtain ⟨watchers, hc, hat, -, hd⟩ := Context.armList_spec (toMillis (w.now l.context))
    l.context.roster.toList hs.context.roster.nodup
    { l.context with busy := true, running := true } none
  exact ⟨watchers, hc, hat, hd⟩

/-- A run that is entered arms whatever is in a slot. -/
theorem entering_at (hs : l.Sound) (i : Nat) :
    (w.entering l).1.watchers.at? i = (l.context.watchers.at? i).map
      fun v => (v.1, v.2.arm (toMillis (w.now l.context))) :=
  hs.begun.armAll_at (w.now l.context) i

theorem entering_running (hs : l.Sound) : (w.entering l).1.running = true := by
  obtain ⟨watchers, hc, -⟩ := entering_spec (w := w) hs
  rw [hc]

theorem entering_alike (hs : l.Sound) : l.context.Alike (w.entering l).1 :=
  have h := Context.alike_armAll { l.context with busy := true, running := true }
    hs.context.roster (w.now l.context)
  ⟨h.id, h.number, h.serial, h.slots⟩

theorem entering_sound (hs : l.Sound) : Loop.Sound ⟨(w.entering l).1, l.poller⟩ :=
  hs.begun.armAll (w.now l.context)

/-- A run of an idle loop is entered. -/
theorem enterRun_of_idle (hs : l.Sound) (hb : l.context.busy = false) (flags : RunFlags) :
    w.enterRun l flags =
      (w.putContext l.context.id (w.entering l).1,
        .entered l.context.id flags (w.entering l).2) := by
  obtain ⟨watchers, hc, -⟩ := entering_spec (w := w) hs
  have hid : (w.entering l).1.id = l.context.id := by rw [hc]
  have henter : w.enterRun l flags =
      (w.putContext (w.entering l).1.id (w.entering l).1,
        .entered (w.entering l).1.id flags (w.entering l).2) := by
    rw [enterRun, if_neg (Bool.not_eq_true _ ▸ hb)]
    rfl
  rwa [hid] at henter

theorem enterRun_performed (hs : w.Sound) (hl : w.loop? l.context.id = some l)
    (flags : RunFlags) : w.Performed (w.enterRun l flags) := by
  cases hb : l.context.busy with
  | true =>
    rw [enterRun, if_pos hb]
    exact Or.inl ⟨_, rfl, .refl _⟩
  | false => exact Or.inr ⟨l, flags, hl, hb, enterRun_of_idle (hs.loop hl).2 hb flags⟩

theorem perform_performed (hs : w.Sound) (current : Option Nat) (command : Command) :
    w.Performed (w.perform current command) := by
  have hanswered : ∀ r : World × Answer, w.Course r.1 → w.Performed (r.1, .answered r.2) :=
    fun r h => Or.inl ⟨r.2, rfl, h⟩
  have hnone : ∀ answer, w.Performed (w, .answered answer) := fun _ => Or.inl ⟨_, rfl, .refl _⟩
  cases command with
  | create context name spec script =>
    exact withLoop_cases hs current context _
      (fun l hl _ => hanswered _ (createWatcher_course hs hl name spec script)) hnone
  | watcher context name action =>
    exact withLoop_cases hs current context _
      (fun l hl _ => hanswered _
        (withName_course _ name _ fun h _ => actOnWatcher_course hs hl h action)) hnone
  | context context action =>
    exact withLoop_cases hs current context _
      (fun l hl _ => hanswered _ (actOnContext_course hs hl action)) hnone
  | run context flags =>
    exact withLoop_cases hs current context _
      (fun l hl _ => enterRun_performed hs hl flags) hnone
  | newContext poller clock => exact hanswered _ (newContext_course clock poller)
  | dropContext context => exact hanswered _ (dropContext_course hs context)
  | newPoller stack => exact hanswered _ (newPoller_course stack)
  | poller number action => exact hanswered _ (actOnPoller_course number action)
  | timerHandle handle action =>
    exact hanswered _ (withName_course _ handle _ fun r _ => actOnTimerHandle_course hs r action)
  | post handle =>
    exact hanswered _ (withName_course _ handle _ fun r _ =>
      throughHandle_course hs r.owner _ fun l hl => (Loop.touched_post hl r).move)
  | requestExit handle =>
    exact hanswered _ (withName_course _ handle _ fun id _ =>
      throughHandle_course hs id _ fun l _ => .exitRequested rfl)
  | isRunning handle => exact hanswered _ (withName_course _ handle _ fun _ _ => .refl _)
  | socket action => exact hanswered _ (actOnSockets_course action)
  | setClock us => exact hanswered _ (.quiet rfl rfl rfl rfl)
  | advance us => exact hanswered _ (.quiet rfl rfl rfl rfl)
  | unknown => exact hnone _

end World
end EventLoop
