import EventLoop.Proofs.Aim

/-!
# What polls tell the watchers

A poll adds to the readiness of I/O watchers and changes nothing else. Whatever it adds was reported
just then, for the descriptor and the interest under which the watcher is on the list of a living
poller.
-/
namespace EventLoop

/-- A poll of a living poller, for an entry of its list, would tell the watcher of the event. -/
def World.Reports (w : World) (x : Watched) (f : Event) : Prop :=
  (∃ p ∈ w.pollers, p.alive = true ∧ x ∈ p.watched) ∧
    (x.told w.report).has f = true

/-- At most readiness is added to a watcher, and only of events that satisfy `R`. -/
inductive Entry.Told (R : Event → Prop) : Option Entry → Option Entry → Prop
  | same {v : Option Entry} : Told R v v
  | told {e : Entry} {io : IoState} {ready : Readiness} : e.payload = .io io →
      (∀ f, ready.events.has f = true → io.ready.events.has f = true ∨ R f) →
      Told R (some e) (some { e with payload := .io { io with ready } })

namespace Entry

variable {R : Event → Prop} {v v' v'' : Option Entry} {e e' : Entry}

theorem Told.trans (h : Told R v v') (h' : Told R v' v'') : Told R v v'' := by
  cases h with
  | same => exact h'
  | @told e io ready hp hready =>
    cases h' with
    | same => exact .told hp hready
    | @told _ io' ready' hp' hready' =>
      obtain rfl : { io with ready } = io' := Payload.io.inj hp'
      show Told R (some e) (some { e with payload := .io { io with ready := ready' } })
      exact .told hp fun f hf => (hready' f hf).elim (hready f) Or.inr

theorem Told.mono {R' : Event → Prop} (hR : ∀ f, R f → R' f) (h : Told R v v') : Told R' v v' := by
  cases h with
  | same => exact .same
  | told hp hready => exact .told hp fun f hf => (hready f hf).imp_right (hR f)

theorem told_none (h : Told R none v) : v = none := by
  cases h
  rfl

/-- Whoever is told something was there before. -/
theorem Told.before (h : Told R v (some e')) : ∃ e, v = some e := by
  cases h with
  | same => exact ⟨e', rfl⟩
  | told => exact ⟨_, rfl⟩

/-- Whoever was there before is still there. -/
theorem Told.after (h : Told R (some e) v) : v ≠ none := by
  cases h <;> exact Option.some_ne_none _

/-- Only I/O watchers are told something. -/
theorem Told.eq_of_kind (h : Told R (some e) (some e')) (hk : e.payload.kind ≠ .io) : e' = e := by
  cases h with
  | same => rfl
  | told hp =>
    rw [hp] at hk
    exact absurd rfl hk

theorem Told.frame (h : Told R (some e) (some e')) : e'.serial = e.serial ∧
    e'.active = e.active ∧ e'.callback = e.callback ∧ e'.payload.kind = e.payload.kind := by
  cases h with
  | same => exact ⟨rfl, rfl, rfl, rfl⟩
  | told hp => exact ⟨rfl, rfl, rfl, by rw [hp]; rfl⟩

/-- An I/O watcher keeps its descriptor. -/
theorem Told.io (h : Told R (some e) (some e')) {io : IoState} (hp : e.payload = .io io) :
    ∃ io', e'.payload = .io io' ∧ io'.fd = io.fd := by
  cases h with
  | same => exact ⟨io, hp, rfl⟩
  | told hp' =>
    obtain rfl := Payload.io.inj (hp.symm.trans hp')
    exact ⟨_, rfl, rfl⟩

theorem Told.isActive (h : Told R (some e) (some e')) : e'.isActive = e.isActive := by
  cases h with
  | same => rfl
  | told hp => simp [Entry.isActive, hp]

end Entry

namespace World

variable {w : World} {r : WatcherRef}

/-- Polls tell the watcher of nothing but what is reported for it now. -/
def Told (w : World) (r : WatcherRef) : Option Entry → Option Entry → Prop :=
  Entry.Told fun f => ∃ x : Watched, x.watcher = r ∧ w.Reports x f

/-! ### Polls are made of deliveries -/

section Deliveries

variable {P : World → Prop}

theorem foldl_deliver_induction (hd : ∀ w r events, P w → P (w.deliver r events))
    (found : List (WatcherRef × Events)) (h : P w) :
    P (found.foldl (fun w (r, events) => w.deliver r events) w) := by
  induction found generalizing w with
  | nil => exact h
  | cons x found ih => exact ih (hd w x.1 x.2 h)

theorem pollAmong_induction (hd : ∀ w r events, P w → P (w.deliver r events)) (p : Nat)
    (entries : List Watched) (h : P w) : P (w.pollAmong p entries) := by
  cases hq : w.living? p with
  | none =>
    rw [pollAmong_of_dead hq]
    exact h
  | some q =>
    rw [pollAmong_of_living hq]
    exact foldl_deliver_induction hd _ h

theorem settle_induction (hd : ∀ w r events, P w → P (w.deliver r events)) (h : P w) :
    P w.settle := by
  unfold settle
  generalize w.prompt = pollers
  induction pollers generalizing w with
  | nil => exact h
  | cons p pollers ih =>
    obtain ⟨entries, hpoll, -⟩ := w.poll_eq p
    rw [List.foldl_cons, hpoll]
    exact ih (pollAmong_induction hd p entries h)

end Deliveries

/-- A delivery changes contexts only. -/
theorem deliver_frame (w w' : World) (r : WatcherRef) (events : Events)
    (h : ∃ contexts, w' = { w with contexts }) :
    ∃ contexts, w'.deliver r events = { w with contexts } := by
  obtain ⟨contexts, rfl⟩ := h
  rw [deliver]
  split
  · exact ⟨_, rfl⟩
  · exact ⟨contexts, rfl⟩

theorem pollAmong_frame (w : World) (p : Nat) (entries : List Watched) :
    ∃ contexts, w.pollAmong p entries = { w with contexts } :=
  pollAmong_induction (fun w' => w.deliver_frame w') p entries ⟨w.contexts, rfl⟩

theorem settle_frame (w : World) : ∃ contexts, w.settle = { w with contexts } :=
  settle_induction (fun w' => w.deliver_frame w') ⟨w.contexts, rfl⟩

/-! ### What they tell -/

/-- A delivery to an I/O watcher adds to its readiness. -/
theorem deliver_becomes {c : Context} {e : Entry} {io : IoState} (events : Events)
    (hio : w.io? r = some (c, e, io)) : w.meant? r = some e ∧ e.payload = .io io ∧
      w.Becomes (w.deliver r events) r
        (some { e with payload := .io { io with
          ready := (io.ready.deliver c.wakeups events).1 } }) := by
  obtain ⟨hc, hp, hserial, g, hat⟩ := io?_eq_some hio
  refine ⟨(meant?_of_context? hc).trans (Context.meant?_eq_some.mpr ⟨g, hat, hserial⟩), hp, ?_⟩
  rw [deliver, hio]
  exact (replaced_putContext (loop?_of_context? hc) _).becomes rfl
    (Context.becomes_put hat hserial rfl rfl)

/-- A delivery tells one watcher of the events that are delivered. -/
theorem deliver_told {R : WatcherRef → Event → Prop} (r₀ : WatcherRef) {events : Events}
    (h : ∀ f, events.has f = true → R r₀ f) (r : WatcherRef) :
    Entry.Told (R r) (w.meant? r) ((w.deliver r₀ events).meant? r) := by
  cases hio : w.io? r₀ with
  | none =>
    rw [deliver, hio]
    exact .same
  | some v =>
    obtain ⟨c, e, io⟩ := v
    obtain ⟨hm, hp, hb⟩ := deliver_becomes events hio
    by_cases hr : r = r₀
    · subst hr
      rw [hm, hb.self]
      refine .told hp fun f hf => ?_
      simp only [Readiness.deliver] at hf
      split at hf
      · exact Or.inl hf
      · rw [Readiness.add, Mask.has_union, Bool.or_eq_true] at hf
        exact hf.imp_right (h f)
    · rw [hb.other r hr]
      exact .same

theorem foldl_deliver_told {R : WatcherRef → Event → Prop} (found : List (WatcherRef × Events))
    (h : ∀ x ∈ found, ∀ f, x.2.has f = true → R x.1 f) (r : WatcherRef) :
    Entry.Told (R r) (w.meant? r)
      ((found.foldl (fun w (r, events) => w.deliver r events) w).meant? r) := by
  induction found generalizing w with
  | nil => exact .same
  | cons x found ih =>
    have hx := deliver_told (w := w) x.1 (h x List.mem_cons_self) r
    exact hx.trans (ih fun y hy => h y (List.mem_cons_of_mem x hy))

theorem pollAmong_told {p : Nat} {entries : List Watched}
    (hlisted : ∀ q, w.pollers[p]? = some q → q.HasListed entries) (r : WatcherRef) :
    w.Told r (w.meant? r) ((w.pollAmong p entries).meant? r) := by
  cases hq : w.living? p with
  | none =>
    rw [pollAmong_of_dead hq]
    exact .same
  | some q =>
    obtain ⟨hp, halive⟩ := living?_eq_some.mp hq
    rw [pollAmong_of_living hq]
    refine foldl_deliver_told (R := fun r f => ∃ x : Watched, x.watcher = r ∧ w.Reports x f) _
      (fun y hy f hf => ?_) r
    obtain ⟨x, hx, hticket, -, rfl, -⟩ := Poller.mem_found.mp hy
    exact ⟨x, rfl, ⟨q, List.mem_of_getElem? hp, halive, hlisted q hp x hx hticket⟩, hf⟩

theorem poll_told (w : World) (p : Nat) (r : WatcherRef) :
    w.Told r (w.meant? r) ((w.poll p).meant? r) := by
  obtain ⟨entries, hpoll, hlisted⟩ := w.poll_eq p
  exact hpoll ▸ pollAmong_told hlisted r

theorem poll_frame (w : World) (p : Nat) : ∃ contexts, w.poll p = { w with contexts } := by
  obtain ⟨entries, hpoll, -⟩ := w.poll_eq p
  exact hpoll ▸ w.pollAmong_frame p entries

theorem settle_told (w : World) (r : WatcherRef) : w.Told r (w.meant? r) (w.settle.meant? r) := by
  have hall : ∀ (pollers : List Nat) (contexts : List (Option Context)),
      w.Told r (World.meant? { w with contexts } r)
        ((pollers.foldl poll { w with contexts }).meant? r) := by
    intro pollers
    induction pollers with
    | nil => exact fun _ => .same
    | cons p pollers ih =>
      intro contexts
      -- the poll changes contexts only, so what is reported stays the same
      have hp := poll_told { w with contexts } p r
      obtain ⟨contexts', hframe⟩ := poll_frame { w with contexts } p
      rw [List.foldl_cons]
      rw [hframe] at hp ⊢
      exact Entry.Told.trans hp (ih contexts')
  exact hall w.prompt w.contexts

/-- What is told is reported afterwards just as well: polls change neither lists nor sockets. -/
theorem polled_told {w' : World} {p : Nat} {entries : List Watched}
    (hlisted : ∀ q, w.pollers[p]? = some q → q.HasListed entries)
    (h : w' = w.pollAmong p entries) (r : WatcherRef) :
    w'.Told r (w.meant? r) (w'.meant? r) := by
  have hold := pollAmong_told hlisted r
  obtain ⟨contexts, hframe⟩ := w.pollAmong_frame p entries
  rw [h]
  rw [hframe] at hold ⊢
  exact hold

theorem settled_told {w' : World} (h : w' = w ∨ w' = w.settle) (r : WatcherRef) :
    w'.Told r (w.meant? r) (w'.meant? r) := by
  rcases h with rfl | rfl
  · exact .same
  · have hold := w.settle_told r
    obtain ⟨contexts, hframe⟩ := w.settle_frame
    rw [hframe] at hold ⊢
    exact hold

end World
end EventLoop
