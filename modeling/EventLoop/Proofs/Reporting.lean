import EventLoop.Proofs.Lasting

/-!
# I/O watchers are told of nothing stale

What an I/O watcher is called for was reported by polls of its descriptor, with its interest, since
it was last started. Every start discards the readiness that was left, and a poll tells a watcher
only what is reported for its entry of a list, which has the descriptor and the interest of the
watcher.
-/
namespace EventLoop

/-- All that the other readiness holds is in this one. -/
def Readiness.Includes (ready ready' : Readiness) : Prop :=
  ∀ f : Event, ready'.events.has f = true → ready.events.has f = true

namespace Entry

variable {e e' : Entry} {now : Option Nat} {action : WatcherAction} {ok : Bool} {ms : Nat}
  {signals : Signals} {fd : Int} {interest : Events} {ready ready' : Readiness}

/-- The watcher is active, watches the descriptor with the interest, and was found ready as said. -/
def Watches (e : Entry) (fd : Int) (interest : Events) (ready : Readiness) : Prop :=
  e.active = true ∧ ∃ io, e.payload = .io io ∧ io.fd = fd ∧ io.interest = interest ∧
    io.ready = ready

theorem Watches.kind (h : e.Watches fd interest ready) : e.payload.kind = .io := by
  obtain ⟨-, io, hp, -⟩ := h
  rw [hp]
  rfl

theorem Watches.unique {fd' : Int} {interest' : Events} (h : e.Watches fd interest ready)
    (h' : e.Watches fd' interest' ready') : fd = fd' ∧ interest = interest' ∧ ready = ready' := by
  obtain ⟨-, io, hp, rfl, rfl, rfl⟩ := h
  obtain ⟨-, io', hp', rfl, rfl, rfl⟩ := h'
  obtain rfl := Payload.io.inj (hp.symm.trans hp')
  exact ⟨rfl, rfl, rfl⟩

theorem aimed_watches {ticket : Nat} :
    (e.aimed fd interest ticket true).Watches fd interest Readiness.empty :=
  ⟨rfl, _, rfl, rfl, rfl, rfl⟩

theorem stopped_not_watches : ¬ e.stopped.Watches fd interest ready :=
  fun h => Bool.false_ne_true h.1

theorem arm_watches (h : (e.arm ms).Watches fd interest ready) : e.Watches fd interest ready := by
  have hkind : e.payload.kind = .io := (traits_kind arm_traits).symm.trans h.kind
  obtain ⟨serial, active, callback, payload⟩ := e
  cases payload with
  | io => exact h
  | _ => contradiction

/-- What an action leaves an I/O watcher watching it watched before, or it was started. -/
theorem Acted.watches (h : e.Acted now action ok (some e')) (hw : e'.Watches fd interest ready) :
    e.Watches fd interest ready ∨ (ok = true ∧ (action = .ioSet fd interest ∨
      (action = .ioStart ∧ e.active = false ∧ ∃ io, e.payload = .io io ∧ io.fd = fd ∧
        io.interest = interest))) := by
  have htimer : ∀ t t', e.payload.timer? = some t →
      ¬ (e.withTimer t').Watches fd interest ready := by
    intro t t' ht hw
    have hkind := (withTimer_kind e t').symm.trans hw.kind
    rcases kind_of_timer? ht with hk | hk <;> exact nomatch hk.symm.trans hkind
  cases h with
  | refused => exact Or.inl hw
  | asked => exact Or.inl hw
  | stopped => exact absurd hw stopped_not_watches
  | going => exact Or.inl hw
  | @started io ticket ok hp hidle =>
    obtain rfl : ok = true := hw.1
    obtain ⟨hfd, hinterest, -⟩ := aimed_watches.unique hw
    exact Or.inr ⟨rfl, Or.inr ⟨rfl, hidle, io, hp, hfd, hinterest⟩⟩
  | @reaimed io fd' interest' ticket ok hp =>
    obtain rfl : ok = true := hw.1
    obtain ⟨rfl, rfl, -⟩ := aimed_watches.unique hw
    exact Or.inr ⟨rfl, Or.inl rfl⟩
  | set ht => exact absurd hw (htimer _ _ ht)
  | restarted ht => exact absurd hw (htimer _ _ ht)
  | posted => exact nomatch hw.kind

/-- Who watches something when it has just been created was created for that. -/
theorem Born.watches {spec : WatcherSpec} (h : e.Born now spec) (hw : e.Watches fd interest ready) :
    spec = .io fd interest := by
  obtain ⟨-, io, hp, rfl, rfl, -⟩ := hw
  cases h with
  | io =>
    obtain rfl := Payload.io.inj hp
    rfl
  | _ => contradiction

/-- A visit takes all readiness or none. -/
theorem visit_watches (h : (e.visit ms signals).entry.Watches fd interest ready') :
    ∃ ready, e.Watches fd interest ready ∧ ready.Includes ready' := by
  have hkind : e.payload.kind = .io := (traits_kind visit_traits).symm.trans h.kind
  obtain ⟨serial, active, callback, payload⟩ := e
  cases payload with
  | io io =>
    cases hgo : active && signals.has .readiness with
    | false =>
      rw [visit] at h
      simp only [hgo] at h
      exact ⟨ready', h, fun _ hf => hf⟩
    | true =>
      rw [visit] at h
      simp only [hgo] at h
      obtain ⟨hactive, io', hp, rfl, rfl, rfl⟩ := h
      obtain rfl := Payload.io.inj hp
      exact ⟨io.ready, ⟨hactive, io, rfl, rfl, rfl, rfl⟩,
        fun f hf => absurd ((Mask.has_empty f).symm.trans hf) Bool.false_ne_true⟩
  | _ => contradiction

/-- What polls leave an I/O watcher watching it watched before. -/
theorem Told.watches {R : Event → Prop} (h : Told R (some e) (some e'))
    (hw : e'.Watches fd interest ready') : ∃ ready, e.Watches fd interest ready ∧
      ∀ f, ready'.events.has f = true → ready.events.has f = true ∨ R f := by
  cases h with
  | same => exact ⟨ready', hw, fun _ hf => Or.inl hf⟩
  | @told _ io ready'' hp hready =>
    obtain ⟨hactive, io', hp', rfl, rfl, rfl⟩ := hw
    obtain rfl := Payload.io.inj hp'
    exact ⟨io.ready, ⟨hactive, io, hp, rfl, rfl, rfl⟩, hready⟩

/-- An I/O watcher is called with all that it was found ready for. -/
theorem visit_events_of_io {io : IoState} {events : Events} (hp : e.payload = .io io)
    (h : (e.visit ms signals).events = some events) :
    e.active = true ∧ events = io.ready.events.known ∧ events.isEmpty = false := by
  obtain ⟨serial, active, callback, payload⟩ := e
  obtain rfl : payload = .io io := hp
  rw [visit] at h
  dsimp only at h
  split at h
  · next hgo =>
    dsimp only at h
    split at h
    · next hsome =>
      obtain rfl := Option.some.inj h
      exact ⟨(Bool.and_eq_true _ _ ▸ hgo).1, rfl, by simpa using hsome⟩
    · contradiction
  · contradiction

end Entry

/-! ### Polls and starts -/

namespace World

variable {w : World} {x : Watched} {f : Event}

/-- The watcher is there, and the dispatcher has still to take the event. -/
def Ready (w : World) (r : WatcherRef) (f : Event) : Prop :=
  ∃ e io, w.meant? r = some e ∧ e.payload = .io io ∧ io.ready.events.has f = true

/-- What is reported for a watcher is reported for what it watches. -/
theorem Reports.watches (h : w.Reports x f) (hs : w.Sound) (hm : w.Mirrored) {e : Entry} {fd : Int}
    {interest : Events} {ready : Readiness} (he : w.meant? x.watcher = some e)
    (hw : e.Watches fd interest ready) : x.fd = fd ∧ x.interest = interest := by
  obtain ⟨⟨q, hq, -, hx⟩, -⟩ := h
  obtain ⟨p, hp⟩ := List.mem_iff_getElem?.mp hq
  obtain ⟨c, e', io, hio, -, -, -, hfd, hinterest⟩ :=
    io?_of_watching hs (((hm p q hp).mem_iff x).mp hx)
  obtain ⟨hc, hp', hserial, g, hat⟩ := io?_eq_some hio
  have he' : w.meant? x.watcher = some e' :=
    (meant?_of_context? hc).trans (Context.meant?_eq_some.mpr ⟨g, hat, hserial⟩)
  obtain rfl := Option.some.inj (he.symm.trans he')
  obtain ⟨-, io', hp, rfl, rfl, -⟩ := hw
  obtain rfl := Payload.io.inj (hp.symm.trans hp')
  exact ⟨hfd, hinterest⟩

end World

namespace Transition

variable {t : Transition} {r : WatcherRef} {fd : Int} {interest : Events} {w : World} {e e' : Entry}
  {ready ready' : Readiness}

/-- An I/O watcher is started: it is created, or set, or started when it is stopped. -/
def Aims (t : Transition) (r : WatcherRef) (fd : Int) (interest : Events) : Prop :=
  t.Makes r (.io fd interest) ∨ t.Acts r (.ioSet fd interest) ∨
    (t.Acts r .ioStart ∧ ∃ e io, t.before.world.meant? r = some e ∧ e.active = false ∧
      e.payload = .io io ∧ io.fd = fd ∧ io.interest = interest)

/-- A poll reports an event for an entry of the list of a living poller, and so makes the watcher
ready for it. -/
def Tells (t : Transition) (x : Watched) (f : Event) : Prop :=
  ∃ w, t.Unpolled w ∧ ¬ w.Ready x.watcher f ∧ t.after.world.Ready x.watcher f ∧
    t.after.world.Reports x f

/-- A start leaves no readiness. -/
theorem Aims.watches (h : t.Aims r fd interest) (hu : t.Unpolled w) :
    ∃ e, w.meant? r = some e ∧ e.Watches fd interest Readiness.empty := by
  rcases h with hmakes | hacts | ⟨hacts, e, io, he, hidle, hp, rfl, rfl⟩
  · obtain ⟨e, hm, hborn⟩ := hu.made hmakes
    cases hborn with
    | io => exact ⟨_, hm, rfl, _, rfl, rfl, rfl, rfl⟩
  · obtain ⟨e, -, hact⟩ := hu.acted hacts
    generalize hm : w.meant? r = v at hact
    cases hact with
    | asked hasks => contradiction
    | stopped hstops => cases hk : e.payload.kind <;> rw [hk] at hstops <;> contradiction
    | reaimed => exact ⟨_, rfl, Entry.aimed_watches⟩
  · obtain ⟨e', he', hact⟩ := hu.acted hacts
    obtain rfl := Option.some.inj (he.symm.trans he')
    generalize hm : w.meant? r = v at hact
    cases hact with
    | asked hasks => contradiction
    | stopped hstops => cases hk : e.payload.kind <;> rw [hk] at hstops <;> contradiction
    | going _ hactive => exact nomatch hidle.symm.trans hactive
    | started hp' =>
      obtain rfl := Payload.io.inj (hp.symm.trans hp')
      exact ⟨_, rfl, Entry.aimed_watches⟩

/-- Who watches something and was not started watched it before, and is ready for nothing new. -/
theorem watches_before (hu : t.Unpolled w) (hm : w.meant? r = some e')
    (hw : e'.Watches fd interest ready') (hnot : ∀ fd interest, ¬ t.Aims r fd interest) :
    ∃ e ready, t.before.world.meant? r = some e ∧ e.Watches fd interest ready ∧
      ready.Includes ready' := by
  have heffect := hu.effect r
  have htold := hu.told r
  rw [hm] at heffect htold
  generalize hbefore : t.before.world.meant? r = before at heffect
  cases heffect with
  | kept => exact ⟨e', ready', rfl, hw, fun _ hf => hf⟩
  | commanded hdeed heffect =>
    cases heffect with
    | kept => exact ⟨e', ready', rfl, hw, fun _ hf => hf⟩
    | @acted action e _ haim hact =>
      rcases hact.watches hw with hold | ⟨hok, rfl | ⟨rfl, hidle, io, hp, hfd, hinterest⟩⟩
      · exact ⟨e, ready', rfl, hold, fun _ hf => hf⟩
      · exact absurd (Or.inr (Or.inl ⟨_, _, _, hdeed, haim, hok⟩)) (hnot fd interest)
      · exact absurd (Or.inr (Or.inr ⟨⟨_, _, _, hdeed, haim, hok⟩, e, io, hbefore, hidle, hp, hfd,
          hinterest⟩)) (hnot fd interest)
    | born hcommand hok hborn =>
      obtain rfl := hborn.watches hw
      exact absurd (Or.inl ⟨⟨_, _, _, _, _, hcommand ▸ hdeed, hok⟩, hbefore, htold.after⟩)
        (hnot fd interest)
    | exited => exact absurd hw Entry.stopped_not_watches
    | armed => exact ⟨_, ready', rfl, Entry.arm_watches hw, fun _ hf => hf⟩
  | exited => exact absurd hw Entry.stopped_not_watches
  | @visited e ms signals callback =>
    have hvisited : (e.visit ms signals).entry.Watches fd interest ready' := hw
    obtain ⟨ready, hold, hincludes⟩ := Entry.visit_watches hvisited
    exact ⟨e, ready, rfl, hold, hincludes⟩
  | @called e ms signals callback call =>
    have hvisited : (e.visit ms signals).entry.Watches fd interest ready' := hw
    obtain ⟨ready, hold, hincludes⟩ := Entry.visit_watches hvisited
    exact ⟨e, ready, rfl, hold, hincludes⟩
  | @returned e callback => exact ⟨e, ready', rfl, hw, fun _ hf => hf⟩

/-- What a watcher is ready for in the end it was ready for before the polls, or they tell it. -/
theorem tells_of_watches (hu : t.Unpolled w) (he' : t.after.world.meant? r = some e')
    (hw' : e'.Watches fd interest ready') : ∃ e ready, w.meant? r = some e ∧
      e.Watches fd interest ready ∧ ∀ f, ready'.events.has f = true → ready.events.has f = true ∨
        ∃ x : Watched, x.watcher = r ∧ x.fd = fd ∧ x.interest = interest ∧ t.Tells x f := by
  have htold := hu.told r
  rw [he'] at htold
  obtain ⟨e, he⟩ := htold.before
  rw [he] at htold
  obtain ⟨ready, hw, hready⟩ := htold.watches hw'
  refine ⟨e, ready, he, hw, fun f hf => ?_⟩
  by_cases hold : ready.events.has f = true
  · exact Or.inl hold
  obtain ⟨x, rfl, hreports⟩ := (hready f hf).resolve_left hold
  obtain ⟨hs, hm, -⟩ := t.state_after
  obtain ⟨hfd, hinterest⟩ := hreports.watches hs.world hm he' hw'
  refine Or.inr ⟨x, rfl, hfd, hinterest, w, hu, ?_, ?_, hreports⟩
  · rintro ⟨e₁, io, he₁, hp, hf₁⟩
    obtain rfl := Option.some.inj (he.symm.trans he₁)
    obtain ⟨-, io', hp', -, -, rfl⟩ := hw
    obtain rfl := Payload.io.inj (hp.symm.trans hp')
    exact hold hf₁
  · obtain ⟨-, io, hp, -, -, rfl⟩ := hw'
    exact ⟨e', io, he', hp, hf⟩

end Transition

/-! ### In every history -/

/-- The watcher was last started with this descriptor and this interest, and polls have told it
since of all these events, for an entry with the same descriptor and interest. -/
def ReadySince (past : List Transition) (r : WatcherRef) (fd : Int) (interest events : Events) :
    Prop :=
  ∃ earlier s since, past = earlier ++ s :: since ∧ s.Aims r fd interest ∧
    (∀ u ∈ since, ∀ fd interest, ¬ u.Aims r fd interest) ∧
    ∀ f, events.has f = true → ∃ u ∈ s :: since, ∃ x : Watched,
      x.watcher = r ∧ x.fd = fd ∧ x.interest = interest ∧ u.Tells x f

/-- It is so after a transition that starts nothing, with what polls have told in it. -/
theorem ReadySince.extend {past : List Transition} {t : Transition} {r : WatcherRef} {fd : Int}
    {interest events events' : Events} (h : ReadySince past r fd interest events)
    (hnot : ∀ fd interest, ¬ t.Aims r fd interest)
    (htells : ∀ f, events'.has f = true → events.has f = true ∨
      ∃ x : Watched, x.watcher = r ∧ x.fd = fd ∧ x.interest = interest ∧ t.Tells x f) :
    ReadySince (past ++ [t]) r fd interest events' := by
  obtain ⟨earlier, s, since, rfl, haims, hsince, htold⟩ := h
  refine ⟨earlier, s, since ++ [t], by simp, haims, fun u hu => ?_, fun f hf => ?_⟩
  · rcases List.mem_append.mp hu with hu | hu
    · exact hsince u hu
    · exact List.mem_singleton.mp hu ▸ hnot
  · rcases htells f hf with hold | hnew
    · obtain ⟨u, hu, hx⟩ := htold f hold
      exact ⟨u, List.mem_append_left [t] hu, hx⟩
    · exact ⟨t, List.mem_append_right (s :: since) List.mem_cons_self, hnew⟩

/-- Whatever an active I/O watcher is ready for, polls have told it since it was last started. -/
theorem History.ready_since {past : List Transition} {m : Machine} (h : History past m)
    {r : WatcherRef} {e : Entry} {fd : Int} {interest : Events} {ready : Readiness}
    (he : m.world.meant? r = some e) (hw : e.Watches fd interest ready) :
    ReadySince past r fd interest ready.events := by
  induction h generalizing e ready with
  | start => exact nomatch he
  | @step past t _ ih =>
    obtain ⟨w, hu⟩ := t.unpolled
    obtain ⟨e₁, ready₁, he₁, hw₁, htells⟩ := Transition.tells_of_watches hu he hw
    by_cases hstarts : ∃ fd interest, t.Aims r fd interest
    · -- a start begins anew, with nothing but what polls tell in the same transition
      obtain ⟨fd', interest', haims⟩ := hstarts
      obtain ⟨e₂, he₂, hw₂⟩ := haims.watches hu
      obtain rfl := Option.some.inj (he₁.symm.trans he₂)
      obtain ⟨rfl, rfl, rfl⟩ := hw₁.unique hw₂
      refine ⟨past, t, [], rfl, haims, fun _ hu => absurd hu List.not_mem_nil, fun f hf => ?_⟩
      have hnew := (htells f hf).resolve_left fun hold => nomatch (Mask.has_empty f).symm.trans hold
      exact ⟨t, List.mem_cons_self, hnew⟩
    · have hnot : ∀ fd interest, ¬ t.Aims r fd interest :=
        fun fd interest haims => hstarts ⟨fd, interest, haims⟩
      obtain ⟨e₀, ready₀, he₀, hw₀, hincludes⟩ := Transition.watches_before hu he₁ hw₁ hnot
      exact (ih he₀ hw₀).extend hnot fun f hf => (htells f hf).imp_left (hincludes f)

/-- An I/O watcher is called for some events, and only for those that may be passed to a callback,
for input and output only if it asks for them, and for nothing but what polls of its descriptor with
its interest have told it since it was last started. -/
theorem io_reports_current {past : List Transition} {t : Transition} (h : History past t.before)
    (r : WatcherRef) : ∀ call e io, t.Calls r call → t.before.world.meant? r = some e →
      e.payload = .io io →
      call.events.isEmpty = false ∧ call.events.Named ∧
        (call.events.has .read = true → io.interest.has .read = true) ∧
        (call.events.has .write = true → io.interest.has .write = true) ∧
        ReadySince past r io.fd io.interest call.events := by
  intro call e io hcalls he hp
  obtain ⟨e', ms, signals, callback, he', -, -, hevents, -⟩ := hcalls.effect
  obtain rfl := Option.some.inj (he.symm.trans he')
  obtain ⟨hactive, hknown, hsome⟩ := Entry.visit_events_of_io hp hevents
  obtain ⟨earlier, s, since, hpast, haims, hsince, htold⟩ :=
    h.ready_since he ⟨hactive, io, hp, rfl, rfl, rfl⟩
  have htold' : ∀ f, call.events.has f = true → ∃ u ∈ s :: since, ∃ x : Watched,
      x.watcher = r ∧ x.fd = io.fd ∧ x.interest = io.interest ∧ u.Tells x f :=
    fun f hf => htold f (Mask.has_of_known (hknown ▸ hf))
  refine ⟨hsome, ?_, fun hread => ?_, fun hwrite => ?_, earlier, s, since, hpast, haims, hsince,
    htold'⟩
  · rw [Events.Named, hknown, Mask.known_known]
  · obtain ⟨u, -, x, -, -, hinterest, -, -, -, -, -, hreported⟩ := htold' .read hread
    exact hinterest ▸ PollFlags.toEvents_asked.1 hreported
  · obtain ⟨u, -, x, -, -, hinterest, -, -, -, -, -, hreported⟩ := htold' .write hwrite
    exact hinterest ▸ PollFlags.toEvents_asked.2 hreported

/-- A loop with a watcher of one end of a connection, where input has arrived. -/
def Machine.readable : Machine :=
  ((((Machine.create (World.create ⟨1000000, 0, false⟩ .standIn)).submit
    (.newContext .own .scenario)).submit (.socket .pair)).submit
    (.create none "io" (.io 0 (Mask.only .read)) ⟨[], false⟩)).submit (.socket (.write 1 "x"))

/-- The watcher was found ready for input, and then set to the other end for output. It is not
called for input. -/
theorem io_reports_current_readable : ∃ (past : List Transition) (s t : Transition) (call : Call),
    s ∈ past ∧ s.before.world.Ready ⟨0, 0, 0⟩ .read ∧
    s.Acts ⟨0, 0, 0⟩ (.ioSet 1 (Mask.only .write)) ∧ History past t.before ∧
    t.Calls ⟨0, 0, 0⟩ call ∧ call.events.isEmpty = false ∧ call.events.has .read = false ∧
    ReadySince past ⟨0, 0, 0⟩ 1 (Mask.only .write) call.events := by
  have hreach : Machine.readable.Reachable :=
    ((((Machine.Reachable.start _ _).submit _ (by decide +kernel) (by decide +kernel)).submit _
      (by decide +kernel) (by decide +kernel)).submit _ (by decide +kernel)
      (by decide +kernel)).submit _ (by decide +kernel) (by decide +kernel)
  obtain ⟨past, hpast⟩ := hreach.history
  -- the watcher is set, a run is entered and waits, and the watcher is called
  obtain ⟨s, hs, -, hsdeed, hset⟩ := hpast.submit
    (.watcher none "io" (.ioSet 1 (Mask.only .write))) (by decide +kernel) (by decide +kernel)
  obtain ⟨q, -, -, -, hrun⟩ := hset.submit (.run none ∅) (by decide +kernel) (by decide +kernel)
  obtain ⟨b, -, -, -, hpass⟩ := hrun.dispatch (by decide +kernel) (by decide +kernel)
  obtain ⟨t, ht, ht', -⟩ := hpass.dispatch (by decide +kernel) (by decide +kernel)
  have hhistory : History (past ++ [s] ++ [q] ++ [b]) t.before := ht.symm ▸ hpass
  have hready : s.before.world.Ready ⟨0, 0, 0⟩ .read := by
    rw [hs]
    exact ⟨_, _, rfl, rfl, by decide +kernel⟩
  have hacts : s.Acts ⟨0, 0, 0⟩ (.ioSet 1 (Mask.only .write)) := by
    refine ⟨none, _, _, hsdeed, ?_, by decide +kernel⟩
    rw [hs]
    decide +kernel
  obtain ⟨a, below, pass, pass', call, hstack, hphase, hstack', hwatcher⟩ :
      ∃ a below pass pass' call, t.before.stack = a :: below ∧ a.phase = .passing pass ∧
      t.after.stack = { a with phase := .calling pass' call } :: below ∧
      call.watcher = ⟨0, ⟨0, 0⟩⟩ := by
    rw [ht, ht']
    exact ⟨_, _, _, _, _, rfl, rfl, rfl, rfl⟩
  obtain ⟨c, e, hc, hfind, href⟩ : ∃ c e, t.before.world.context? 0 = some c ∧
      c.find ⟨0, ⟨0, 0⟩⟩ = .ok e ∧ c.refTo 0 e = ⟨0, 0, 0⟩ := by
    rw [ht]
    exact ⟨_, _, rfl, rfl, rfl⟩
  have hcalls : t.Calls ⟨0, 0, 0⟩ call :=
    ⟨⟨a, below, pass, pass', hstack, hphase, hstack'⟩, c, e, hc, hwatcher ▸ hfind, hwatcher ▸ href⟩
  obtain ⟨e, io, he, hp, hfd, hinterest⟩ : ∃ e io, t.before.world.meant? ⟨0, 0, 0⟩ = some e ∧
      e.payload = .io io ∧ io.fd = 1 ∧ io.interest = Mask.only .write := by
    rw [ht]
    exact ⟨_, _, rfl, rfl, rfl, rfl⟩
  obtain ⟨hsome, -, hread, -, hsince⟩ :=
    io_reports_current hhistory ⟨0, 0, 0⟩ call e io hcalls he hp
  rw [hinterest] at hread
  rw [hfd, hinterest] at hsince
  refine ⟨_, s, t, call, by simp, hready, hacts, hhistory, hcalls, hsome, ?_, hsince⟩
  exact Bool.not_eq_true _ ▸ fun h => absurd (hread h) (by decide)

end EventLoop
