import EventLoop.Proofs.Isolation
import EventLoop.Proofs.Rest
import EventLoop.Proofs.WatchList

/-!
# One poll delivers all readiness

A poller copies the entries of its list that are idle into a set, waits for their descriptors, and
then delivers what it has found, one watcher after the other, to those that are listed still. A
delivery changes the readiness of one watcher and the wake-ups of its context. As no watcher is listed
twice, none of the deliveries disturbs another, and each watcher that was found is left with exactly
what was reported for its own descriptor.
-/
namespace EventLoop

theorem Mask.empty_union {F : Type} (a : Mask F) : ∅ ∪ a = a := congrArg Mask.mk BitVec.zero_or

namespace World

variable {w w' : World} {r : WatcherRef} {events : Events} {list : List Watched}
  {report : Descriptor → PollFlags → PollFlags} {found : List (WatcherRef × Events)} {x : Watched}

/-- The entry is idle, and the host reports something for it. -/
def Found (w : World) (report : Descriptor → PollFlags → PollFlags) (x : Watched) : Prop :=
  w.isIdle x.watcher = true ∧ (x.reported report).isEmpty = false

/-! ### Deliveries -/

/-- The context has been woken for readiness. -/
def Woken (w w' : World) (id : Nat) : Prop :=
  ∃ c c', w.context? id = some c ∧ w'.context? id = some c' ∧
    c'.wakeups = c.wakeups.raise .readiness

/-- The watcher was an I/O watcher, and has this readiness to take now. -/
def Readied (w w' : World) (r : WatcherRef) (events : Events) : Prop :=
  ∃ e io, w.meant? r = some e ∧ e.payload = .io io ∧
    w'.meant? r = some { e with payload := .io { io with ready := ⟨events⟩ } }

theorem deliver_of_idle (hidle : w.isIdle r = true) (he : events.isEmpty = false) :
    w.Readied (w.deliver r events) r events ∧ w.Woken (w.deliver r events) r.owner ∧
      (∀ s, s ≠ r → (w.deliver r events).meant? s = w.meant? s) ∧
      ∀ id, id ≠ r.owner → (w.deliver r events).context? id = w.context? id := by
  unfold isIdle at hidle
  split at hidle
  · next c e io hio =>
    obtain ⟨hm, hp, hb⟩ := deliver_becomes events hio
    have hc := (io?_eq_some hio).1
    have hnone : io.ready.events = ∅ := by
      rw [Readiness.isPresent, Bool.not_not] at hidle
      exact (Mask.isEmpty_iff _).mp hidle
    have hadd : io.ready.add events = ⟨events⟩ := by
      rw [Readiness.add, hnone, Mask.empty_union]
    have hself := hb.self
    rw [Readiness.deliver, he, if_neg Bool.false_ne_true, hadd] at hself
    have hput := deliver_of_io hio he
    rw [hadd] at hput
    refine ⟨⟨e, io, hm, hp, hself⟩, ⟨c, _, hc, hput ▸ context?_put_self hc _, rfl⟩, hb.other,
      fun id hid => ?_⟩
    rw [hput]
    exact context?_put_other hid _
  · contradiction

/-- Who is idle depends on the watchers alone. -/
theorem isIdle_congr (h : w'.meant? r = w.meant? r) : w'.isIdle r = w.isIdle r := by
  rw [Bool.eq_iff_iff, isIdle_iff, isIdle_iff, h]

theorem Woken.trans {w₁ : World} {id : Nat} (h : w.Woken w₁ id) (h' : w₁.Woken w' id) :
    w.Woken w' id := by
  obtain ⟨c, c₁, hc, hc₁, hraised⟩ := h
  obtain ⟨c₁', c', hc₁', hc', hraised'⟩ := h'
  obtain rfl := Option.some.inj (hc₁.symm.trans hc₁')
  exact ⟨c, c', hc, hc', by rw [hraised', hraised, Wakeups.raise_raise]⟩

/-- What deliveries to watchers that are idle make of the world. -/
structure Deliveries (w w' : World) (found : List (WatcherRef × Events)) : Prop where
  readied : ∀ v ∈ found, w.Readied w' v.1 v.2
  woken : ∀ v ∈ found, w.Woken w' v.1.owner
  others : ∀ s, s ∉ found.map Prod.fst → w'.meant? s = w.meant? s
  beside : ∀ id, (∀ v ∈ found, v.1.owner ≠ id) → w'.context? id = w.context? id

/-- Deliveries to different watchers do not disturb each other. -/
theorem deliveries_of_idle (hidle : ∀ v ∈ found, w.isIdle v.1 = true)
    (he : ∀ v ∈ found, v.2.isEmpty = false) (hnodup : (found.map Prod.fst).Nodup) :
    w.Deliveries (found.foldl (fun w (r, events) => w.deliver r events) w) found := by
  induction found generalizing w with
  | nil =>
    exact ⟨fun v hv => absurd hv List.not_mem_nil, fun v hv => absurd hv List.not_mem_nil,
      fun _ _ => rfl, fun _ _ => rfl⟩
  | cons v found ih =>
    obtain ⟨r, events⟩ := v
    rw [List.map_cons, List.nodup_cons] at hnodup
    obtain ⟨hready, hwoken, hothers, hbeside⟩ :=
      deliver_of_idle (hidle _ List.mem_cons_self) (he _ List.mem_cons_self)
    have hne : ∀ v ∈ found, v.1 ≠ r := fun v hv heq =>
      hnodup.1 (List.mem_map.mpr ⟨v, hv, heq⟩)
    have hrest := ih (w := w.deliver r events)
      (fun v hv => (isIdle_congr (hothers v.1 (hne v hv))).trans
        (hidle v (List.mem_cons_of_mem _ hv)))
      (fun v hv => he v (List.mem_cons_of_mem _ hv)) hnodup.2
    -- a context that is woken again later has been woken all the same
    have hwake : ∀ id, w.Woken (w.deliver r events) id → w.Woken
        (found.foldl (fun w (r, events) => w.deliver r events) (w.deliver r events)) id := by
      intro id hid
      by_cases hlater : ∃ v ∈ found, v.1.owner = id
      · obtain ⟨v, hv, rfl⟩ := hlater
        exact hid.trans (hrest.woken v hv)
      · obtain ⟨c, c', hc, hc', hraised⟩ := hid
        refine ⟨c, c', hc, ?_, hraised⟩
        rw [hrest.beside id fun v hv heq => hlater ⟨v, hv, heq⟩]
        exact hc'
    refine ⟨List.forall_mem_cons.mpr ⟨?_, fun v hv => ?_⟩,
      List.forall_mem_cons.mpr ⟨hwake _ hwoken, fun v hv => ?_⟩, fun s hs => ?_, fun id hid => ?_⟩
    · obtain ⟨e, io, hm, hp, hafter⟩ := hready
      exact ⟨e, io, hm, hp, (hrest.others r hnodup.1).trans hafter⟩
    · obtain ⟨e, io, hm, hp, hafter⟩ := hrest.readied v hv
      exact ⟨e, io, (hothers v.1 (hne v hv)).symm.trans hm, hp, hafter⟩
    · by_cases howner : v.1.owner = r.owner
      · exact howner ▸ hwake _ hwoken
      · obtain ⟨c, c', hc, hc', hraised⟩ := hrest.woken v hv
        exact ⟨c, c', (hbeside _ howner).symm.trans hc, hc', hraised⟩
    · rw [List.map_cons, List.mem_cons, not_or] at hs
      exact (hrest.others s hs.2).trans (hothers s hs.1)
    · obtain ⟨hr, hfound⟩ := List.forall_mem_cons.mp hid
      exact (hrest.beside id hfound).trans (hbeside id fun heq => hr heq.symm)

/-! ### A poll as a whole -/

/-- The world `w'` is what a poll makes of `w`. Whoever is found has what is reported for it to take,
which is something, and its context is woken. All others are left alone, and so are the contexts of
which nobody is found. Then nobody is left who would be found. -/
structure PolledBy (w w' : World) (list : List Watched)
    (report : Descriptor → PollFlags → PollFlags) : Prop where
  readied : ∀ x ∈ list, w.Found report x →
    (x.told report).isEmpty = false ∧ w.Readied w' x.watcher (x.told report)
  woken : ∀ x ∈ list, w.Found report x → w.Woken w' x.watcher.owner
  others : ∀ r, (∀ x ∈ list, w.Found report x → x.watcher ≠ r) → w'.meant? r = w.meant? r
  beside : ∀ id, (∀ x ∈ list, w.Found report x → x.watcher.owner ≠ id) →
    w'.context? id = w.context? id
  frame : ∃ contexts, w' = { w with contexts }
  atRest : ∀ x ∈ list, ¬ w'.Found report x

section AfterWait

variable {p : Nat} {q : Poller} {entries : List Watched} {drained : Drained}

/-- A poll of entries that are idle, as far as they are listed still, delivers to those. -/
theorem afterWait_polledBy (hq : w.living? p = some q)
    (hopen : (PollSet.ofList entries).InOrder drained report)
    (hentries : ∀ x, (x ∈ entries ∧ q.lists x.ticket = true) ↔
      (x ∈ list ∧ w.isIdle x.watcher = true))
    (hdistinct : ((entries.filter fun x => q.lists x.ticket).map Watched.watcher).Nodup)
    (hanswered : ∀ x ∈ list, x.Answered report) :
    w.PolledBy (w.afterWait p (PollSet.ofList entries) drained (.answered report)) list report := by
  rw [afterWait_of_inOrder hq hopen]
  have htold : ∀ x ∈ list, w.Found report x → (x.told report).isEmpty = false :=
    fun x hx hfound => (hanswered x hx).told_nonempty hfound.2
  have hmem : ∀ v, v ∈ q.found entries report ↔
      ∃ x ∈ list, w.Found report x ∧ v = (x.watcher, x.told report) := by
    intro v
    rw [Poller.mem_found]
    constructor
    · rintro ⟨x, hx, hlisted, hreported, rfl, -⟩
      obtain ⟨hx, hidle⟩ := (hentries x).mp ⟨hx, hlisted⟩
      exact ⟨x, hx, ⟨hidle, hreported⟩, rfl⟩
    · rintro ⟨x, hx, hfound, rfl⟩
      obtain ⟨hx', hlisted⟩ := (hentries x).mpr ⟨hx, hfound.1⟩
      exact ⟨x, hx', hlisted, hfound.2, rfl, htold x hx hfound⟩
  have hidle : ∀ v ∈ q.found entries report, w.isIdle v.1 = true := by
    intro v hv
    obtain ⟨x, -, hfound, rfl⟩ := (hmem v).mp hv
    exact hfound.1
  have hdelivered := deliveries_of_idle hidle (fun v hv => (Poller.found_named hv).2)
    ((q.found_sublist entries report).nodup hdistinct)
  generalize hw' : (q.found entries report).foldl (fun w (r, events) => w.deliver r events) w = w'
    at hdelivered ⊢
  have hreadied : ∀ x ∈ list, w.Found report x → w.Readied w' x.watcher (x.told report) :=
    fun x hx hfound => hdelivered.readied _ ((hmem _).mpr ⟨x, hx, hfound, rfl⟩)
  exact {
    readied := fun x hx hfound => ⟨htold x hx hfound, hreadied x hx hfound⟩
    woken := fun x hx hfound => hdelivered.woken _ ((hmem _).mpr ⟨x, hx, hfound, rfl⟩)
    others := fun r hr => hdelivered.others r fun hin => by
      obtain ⟨v, hv, rfl⟩ := List.mem_map.mp hin
      obtain ⟨x, hx, hfound, rfl⟩ := (hmem v).mp hv
      exact hr x hx hfound rfl
    beside := fun id hid => hdelivered.beside id fun v hv heq => by
      obtain ⟨x, hx, hfound, rfl⟩ := (hmem v).mp hv
      exact hid x hx hfound heq
    frame := hw' ▸ foldl_deliver_induction (fun w' => w.deliver_frame w') _ ⟨w.contexts, rfl⟩
    -- who was found has something to take now, and nobody has become idle
    atRest := fun x hx hfound => by
      have hbefore : w.Found report x :=
        ⟨(idle_of_deliveries _ (hw' ▸ hfound.1)).1, hfound.2⟩
      obtain ⟨e, io, -, -, hafter⟩ := hreadied x hx hbefore
      obtain ⟨e', io', hm, hp, hpresent⟩ := isIdle_iff.mp hfound.1
      obtain rfl := Option.some.inj (hafter.symm.trans hm)
      obtain rfl := Payload.io.inj hp
      rw [Readiness.isPresent, htold x hx hbefore] at hpresent
      contradiction }

/-- A poll in which nobody is found changes nothing. -/
theorem afterWait_of_unfound (hq : w.living? p = some q)
    (hopen : (PollSet.ofList (w.idle q)).InOrder drained report)
    (h : ∀ x ∈ q.watched, ¬ w.Found report x) :
    w.afterWait p (PollSet.ofList (w.idle q)) drained (.answered report) = w := by
  have hnone : q.found (w.idle q) report = [] := by
    refine List.eq_nil_iff_forall_not_mem.mpr fun v hv => ?_
    obtain ⟨x, hx, -, hreported, -⟩ := Poller.mem_found.mp hv
    obtain ⟨hx, hidle⟩ := mem_idle.mp hx
    exact h x hx ⟨hidle, hreported⟩
  rw [afterWait_of_inOrder hq hopen, hnone, List.foldl_nil]

end AfterWait

end World

/-- What a poll has been made of long ago is delivered to those that are listed still, and they alone
are told of it. -/
theorem poll_in_flight_delivers {w : World} {p : Nat} {q : Poller} {entries : List Watched}
    {drained : Drained} {report : Descriptor → PollFlags → PollFlags} (hq : w.living? p = some q)
    (hopen : (PollSet.ofList entries).InOrder drained report)
    (hidle : ∀ x ∈ entries, q.lists x.ticket = true → w.isIdle x.watcher = true)
    (hdistinct : ((entries.filter fun x => q.lists x.ticket).map Watched.watcher).Nodup)
    (hanswered : ∀ x ∈ entries, x.Answered report) :
    w.PolledBy (w.afterWait p (PollSet.ofList entries) drained (.answered report))
      (entries.filter fun x => q.lists x.ticket) report := by
  refine World.afterWait_polledBy hq hopen (fun x => ?_) hdistinct fun x hx =>
    hanswered x (List.mem_filter.mp hx).1
  rw [List.mem_filter]
  exact ⟨fun h => ⟨h, hidle x h.1 h.2⟩, And.left⟩

/-- One complete poll, of any list of different watchers and whatever the host reports for them,
delivers all of it, and delivers it where it belongs. As long as the watchers are as it has left
them, nothing comes of another poll with the same reports. -/
theorem poll_delivers_all {w : World} {p : Nat} {q : Poller} {drained : Drained}
    {report : Descriptor → PollFlags → PollFlags} (hq : w.living? p = some q)
    (hdistinct : (q.watched.map Watched.watcher).Nodup)
    (hanswered : ∀ x ∈ q.watched, x.Answered report)
    (hopen : (PollSet.ofList (w.idle q)).InOrder drained report) :
    let w' := w.afterWait p (PollSet.ofList (w.idle q)) drained (.answered report)
    w.PolledBy w' q.watched report ∧
      ∀ (w₁ : World) (flags : PollFlags) (drained₁ : Drained),
        (∀ r, w₁.meant? r = w'.meant? r) → w₁.living? p = some q →
        (PollSet.ofList (w₁.idle q)).InOrder drained₁ (Descriptor.withLoopback flags report) →
          w₁.afterWait p (PollSet.ofList (w₁.idle q)) drained₁
            (.answered (Descriptor.withLoopback flags report)) = w₁ := by
  intro w'
  have hpolled : w.PolledBy w' q.watched report := by
    refine World.afterWait_polledBy hq hopen (fun x => ?_) ?_ hanswered
    · rw [World.mem_idle]
      exact ⟨And.left, fun h => ⟨h, q.lists_of_mem h.1⟩⟩
    · refine List.Sublist.nodup (List.Sublist.map _ ?_) hdistinct
      exact List.filter_sublist.trans List.filter_sublist
  refine ⟨hpolled, fun w₁ flags drained₁ hsame hq₁ hopen₁ => ?_⟩
  refine World.afterWait_of_unfound hq₁ hopen₁ fun x hx hfound => hpolled.atRest x hx ?_
  -- what is reported for a watcher does not depend on the loopback channel
  exact ⟨(World.isIdle_congr (hsame x.watcher)).symm.trans hfound.1, hfound.2⟩

/-! ### Lists that pollers have -/

/-- Sockets report what was polled for, and what is reported unasked. -/
theorem Sockets.report_answered (sockets : Sockets) (flags : PollFlags) (x : Watched) :
    x.Answered (Descriptor.withLoopback flags sockets.reportAll) := by
  have hreported : x.reported (Descriptor.withLoopback flags sockets.reportAll) =
      sockets.report x.fd x.interest.toPoll := rfl
  rw [Watched.Answered, hreported, Sockets.report]
  split
  · unfold Events.toPoll
    generalize x.interest.has .read = read
    generalize x.interest.has .write = write
    revert read write
    decide
  · next i e _ =>
    dsimp only
    unfold Events.toPoll
    generalize x.interest.has .read = read
    generalize x.interest.has .write = write
    generalize e.inbox.isEmpty = drained
    generalize (sockets.openPeer? i).isNone = hangup
    revert read write drained hangup
    decide

/-- A poller whose list mirrors the active watchers lists none twice. -/
theorem Listed.distinct {w : World} {p : Nat} {q : Poller} (hs : w.Sound)
    (h : Listed q (w.Watching p)) : (q.watched.map Watched.watcher).Nodup := by
  refine List.Nodup.map_on (fun x hx y hy hxy => ?_) (List.Nodup.of_map _ h.nodup)
  obtain ⟨c, e, io, hio, -, -, hticket, -⟩ := World.io?_of_watching hs ((h.mem_iff x).mp hx)
  obtain ⟨c', e', io', hio', -, -, hticket', -⟩ := World.io?_of_watching hs ((h.mem_iff y).mp hy)
  rw [hxy, hio'] at hio
  obtain ⟨-, -, rfl⟩ : c' = c ∧ e' = e ∧ io' = io := by simpa using hio
  exact List.inj_on_of_nodup_map h.nodup hx hy (hticket.trans hticket'.symm)

/-- Two loops on one poller, each with watchers at either pair of sockets. -/
def Machine.connected : Machine :=
  let paired := ((((Machine.create (World.create ⟨1000000, 0, false⟩ .standIn)).submit
    (.newPoller 0)).submit
    (.newContext (.numbered 0) .scenario)).submit
    (.newContext (.numbered 0) .scenario)).submit (.socket .pair)
  ((((paired.submit (.socket .pair)).submit
    (.create (some 0) "writer" (.io 0 (Mask.only .write)) ⟨[], false⟩)).submit
    (.create (some 1) "waiting" (.io 1 (Mask.only .read)) ⟨[], false⟩)).submit
    (.create (some 0) "reader" (.io 2 (Mask.only .read)) ⟨[], false⟩)).submit
    (.create (some 1) "closed" (.io 3 (Mask.only .error)) ⟨[], false⟩)

/-- One end of the second pair is closed, and the poller is woken. The poll tells the reader at the
other end of the hang-up, and its own watcher that it is gone. The writer has not taken its readiness
yet, and there is nothing for the watcher at its other end. -/
theorem poll_delivers_all_connected : ∃ (w w' : World) (q : Poller)
    (report : Descriptor → PollFlags → PollFlags),
    w = (Machine.connected.world.perform none (.socket (.close 3))).1 ∧
    report = Descriptor.withLoopback (Mask.only .input) w.report ∧
    w' = w.afterWait 0 (PollSet.ofList (w.idle q)) .empty (.answered report) ∧
    w.living? 0 = some q ∧ q.watched.map Watched.fd = [0, 1, 2, 3] ∧
    w.PolledBy w' q.watched report ∧
    (q.watched.map fun x => (w.isIdle x.watcher, x.told report)) =
      [(false, Mask.only .write), (true, ∅), (true, Mask.only .hangup ∪ Mask.only .read),
        (true, Mask.only .error)] ∧
    (∃ io, (w'.meant? ⟨0, 1, 1⟩).map Entry.payload = some (.io io) ∧
      io.ready.events = Mask.only .hangup ∪ Mask.only .read) := by
  have hmade : (Machine.create (World.create ⟨1000000, 0, false⟩ .standIn)).Reachable :=
    Machine.Reachable.start _ _
  have hreach : Machine.connected.Reachable :=
    (((((((((hmade.submit _ (by decide +kernel) (by decide +kernel)).submit _ (by decide +kernel)
      (by decide +kernel)).submit _ (by decide +kernel) (by decide +kernel)).submit _
      (by decide +kernel) (by decide +kernel)).submit _ (by decide +kernel)
      (by decide +kernel)).submit _ (by decide +kernel) (by decide +kernel)).submit _
      (by decide +kernel) (by decide +kernel)).submit _ (by decide +kernel)
      (by decide +kernel)).submit _ (by decide +kernel) (by decide +kernel))
  obtain ⟨hs, hm⟩ := inductive_mirrored.reachable (fun _ _ _ _ hq => nomatch hq) hreach
  let w := (Machine.connected.world.perform none (.socket (.close 3))).1
  let report := Descriptor.withLoopback (Mask.only .input) w.report
  let reader : Watched := ⟨3, ⟨0, 1, 1⟩, 2, Mask.only .read⟩
  have hseen : (w.living? 0).map (fun q => (q.watched.map Watched.fd,
      q.watched.map fun x => (w.isIdle x.watcher, x.told report))) =
      some ([0, 1, 2, 3], [(false, Mask.only .write), (true, ∅),
        (true, Mask.only .hangup ∪ Mask.only .read), (true, Mask.only .error)]) := by
    decide +kernel
  have hlist : (w.living? 0).bind (fun q => q.watched[2]?) = some reader := by decide +kernel
  have hreported : reader.told report = Mask.only .hangup ∪ Mask.only .read := by
    decide +kernel
  obtain ⟨q, hq, hfields⟩ := Option.map_eq_some_iff.mp hseen
  obtain ⟨hfds, htold⟩ := Prod.mk.inj hfields
  rw [hq, Option.bind_some] at hlist
  have hlisted : Listed q (Machine.connected.world.Watching 0) :=
    hm 0 q (World.living?_eq_some.mp hq).1
  have hopen : (PollSet.ofList (w.idle q)).InOrder .empty report := fun _ => rfl
  obtain ⟨hpolled, -⟩ := poll_delivers_all hq (hlisted.distinct hs.world)
    (fun x _ => w.sockets.report_answered _ x) hopen
  obtain ⟨-, e, io, -, -, hafter⟩ := hpolled.readied reader (List.mem_of_getElem? hlist)
    ⟨by decide +kernel, by decide +kernel⟩
  exact ⟨w, _, q, report, rfl, rfl, rfl, hq, hfds, hpolled, htold, _,
    congrArg (Option.map Entry.payload) hafter, hreported⟩

end EventLoop
