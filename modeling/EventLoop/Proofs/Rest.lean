import EventLoop.Proofs.Polls

/-!
# Polls come to rest

A poll leaves a watcher alone whose readiness has not been taken. So once all pollers have polled
there is nothing more to find, and settling them again changes nothing, until somebody takes
readiness or changes a list, a poller or a socket.
-/
namespace EventLoop

namespace World

variable {w w' : World} {r s : WatcherRef} {events : Events}

theorem isIdle_iff : w.isIdle r = true ↔
    ∃ e io, w.meant? r = some e ∧ e.payload = .io io ∧ io.ready.isPresent = false := by
  unfold isIdle io? meant?
  cases w.context? r.owner with
  | none => simp
  | some c =>
    rw [Option.bind_some]
    dsimp only
    cases c.meant? r with
    | none => simp
    | some e => cases hp : e.payload <;> simp [hp]

/-- Who is idle after a delivery was idle before, and nothing was delivered to it. -/
theorem idle_of_deliver (h : (w.deliver r events).isIdle s = true) :
    w.isIdle s = true ∧ (events.isEmpty = false → s ≠ r) := by
  cases hio : w.io? r with
  | none =>
    rw [deliver, hio] at h
    refine ⟨h, fun _ he => ?_⟩
    rw [isIdle, he, hio] at h
    contradiction
  | some v =>
    obtain ⟨c, e, io⟩ := v
    obtain ⟨hm, hp, hb⟩ := deliver_becomes events hio
    obtain ⟨e', io', hm', hp', hpresent⟩ := isIdle_iff.mp h
    by_cases hs : s = r
    · subst hs
      obtain rfl := Option.some.inj (hb.self.symm.trans hm')
      obtain rfl := Payload.io.inj hp'
      simp only [Readiness.deliver] at hpresent
      split at hpresent
      · next hempty =>
        exact ⟨isIdle_iff.mpr ⟨e, io, hm, hp, hpresent⟩,
          fun hevents => absurd (hevents.symm.trans hempty) Bool.false_ne_true⟩
      · next hevents =>
        rw [Bool.not_eq_true] at hevents
        rw [Readiness.isPresent, Readiness.add, Mask.isEmpty_union, hevents,
          Bool.and_false] at hpresent
        contradiction
    · rw [hb.other s hs] at hm'
      exact ⟨isIdle_iff.mpr ⟨e', io', hm', hp', hpresent⟩, fun _ => hs⟩

theorem idle_of_deliveries (found : List (WatcherRef × Events))
    (h : (found.foldl (fun w (r, events) => w.deliver r events) w).isIdle s = true) :
    w.isIdle s = true ∧ ∀ v ∈ found, v.2.isEmpty = false → s ≠ v.1 := by
  induction found generalizing w with
  | nil => exact ⟨h, fun _ hv => absurd hv List.not_mem_nil⟩
  | cons x found ih =>
    obtain ⟨hidle, hrest⟩ := ih h
    obtain ⟨hidle, hx⟩ := idle_of_deliver hidle
    exact ⟨hidle, List.forall_mem_cons.mpr ⟨hx, hrest⟩⟩

theorem mem_idle {q : Poller} {x : Watched} :
    x ∈ w.idle q ↔ x ∈ q.watched ∧ w.isIdle x.watcher = true := List.mem_filter

/-- A poll of the poller would find nothing. -/
def FindsNothing (w : World) (p : Nat) : Prop :=
  ∀ q, w.living? p = some q → q.found (w.idle q) w.report = []

/-- It goes on to find nothing if nobody gets idle and the same is reported. -/
theorem FindsNothing.mono {p : Nat} (h : w.FindsNothing p) (hpollers : w'.pollers = w.pollers)
    (hreport : w'.report = w.report) (hidle : ∀ s, w'.isIdle s = true → w.isIdle s = true) :
    w'.FindsNothing p := by
  intro q hq
  rw [living?, hpollers] at hq
  refine List.eq_nil_iff_forall_not_mem.mpr fun v hv => ?_
  obtain ⟨x, hx, hrest⟩ := Poller.mem_found.mp hv
  obtain ⟨hlisted, hx'⟩ := mem_idle.mp hx
  rw [hreport] at hrest
  exact List.eq_nil_iff_forall_not_mem.mp (h q hq) v
    (Poller.mem_found.mpr ⟨x, mem_idle.mpr ⟨hlisted, hidle _ hx'⟩, hrest⟩)

/-- A poll of a poller that would find nothing changes nothing. -/
theorem FindsNothing.poll {p : Nat} (h : w.FindsNothing p) : w.poll p = w := by
  cases hq : w.living? p with
  | none => rw [World.poll, hq]
  | some q =>
    rw [World.poll, hq]
    dsimp only
    rw [pollAmong_of_living hq, h q hq, List.foldl_nil]

theorem poll_same (w : World) (p : Nat) :
    (w.poll p).pollers = w.pollers ∧ (w.poll p).report = w.report := by
  obtain ⟨contexts, hw⟩ := w.poll_frame p
  rw [hw]
  exact ⟨rfl, rfl⟩

/-- A poll leaves nobody idle for whom it would find something. -/
theorem poll_finds_nothing (w : World) (p : Nat) :
    (∀ s, (w.poll p).isIdle s = true → w.isIdle s = true) ∧ (w.poll p).FindsNothing p := by
  obtain ⟨hpollers, hreport⟩ := w.poll_same p
  cases hq : w.living? p with
  | none =>
    rw [poll, hq]
    refine ⟨fun _ hs => hs, fun q h => ?_⟩
    rw [hq] at h
    contradiction
  | some q =>
    have hpoll : w.poll p = (q.found (w.idle q) w.report).foldl
        (fun w found => w.deliver found.1 found.2) w := by
      rw [poll, hq]
      exact pollAmong_of_living hq (w.idle q)
    refine ⟨fun s hs => (idle_of_deliveries _ (hpoll ▸ hs)).1, fun q' hq' => ?_⟩
    rw [living?, hpollers] at hq'
    obtain rfl := Option.some.inj (hq.symm.trans hq')
    refine List.eq_nil_iff_forall_not_mem.mpr fun v hv => ?_
    obtain ⟨x, hx, hlisted, hreported, rfl, hevents⟩ := Poller.mem_found.mp hv
    obtain ⟨hmem, hidle⟩ := mem_idle.mp hx
    rw [hreport] at hreported hevents
    obtain ⟨hbefore, hnot⟩ := idle_of_deliveries (q.found (w.idle q) w.report) (hpoll ▸ hidle)
    exact hnot (x.watcher, x.told w.report)
      (Poller.mem_found.mpr ⟨x, mem_idle.mpr ⟨hmem, hbefore⟩, hlisted, hreported, rfl, hevents⟩) hevents
      rfl

/-- No poller that polls at once would find anything. -/
def AtRest (w : World) : Prop := ∀ p ∈ w.prompt, w.FindsNothing p

/-- The polls of the prompt pollers leave them at rest. -/
theorem settle_atRest (w : World) : w.settle.AtRest := by
  have hall : ∀ (pollers : List Nat) (w : World),
      (∀ s, (pollers.foldl poll w).isIdle s = true → w.isIdle s = true) ∧
        (pollers.foldl poll w).pollers = w.pollers ∧
        (pollers.foldl poll w).report = w.report ∧
        ∀ p ∈ pollers, (pollers.foldl poll w).FindsNothing p := by
    intro pollers
    induction pollers with
    | nil => exact fun w => ⟨fun _ hs => hs, rfl, rfl, fun _ hp => absurd hp List.not_mem_nil⟩
    | cons p pollers ih =>
      intro w
      obtain ⟨hidle, hpollers, hreport, hrest⟩ := ih (w.poll p)
      obtain ⟨hidle', hp⟩ := w.poll_finds_nothing p
      obtain ⟨hpollers', hreport'⟩ := w.poll_same p
      exact ⟨fun s hs => hidle' s (hidle s hs), hpollers.trans hpollers', hreport.trans hreport',
        List.forall_mem_cons.mpr ⟨hp.mono hpollers hreport hidle, hrest⟩⟩
  obtain ⟨contexts, hw⟩ := w.settle_frame
  have hprompt : w.settle.prompt = w.prompt := by rw [hw]; rfl
  exact fun p hp => (hall w.prompt w).2.2.2 p (hprompt ▸ hp)

/-- Pollers at rest need not be settled. -/
theorem AtRest.settle (h : w.AtRest) : w.settle = w := by
  have hpoll : ∀ p ∈ w.prompt, w.poll p = w := fun p hp => (h p hp).poll
  unfold World.settle
  revert hpoll
  generalize w.prompt = pollers
  intro hpoll
  induction pollers with
  | nil => rfl
  | cons p pollers ih =>
    rw [List.foldl_cons, hpoll p List.mem_cons_self]
    exact ih fun q hq => hpoll q (List.mem_cons_of_mem p hq)

theorem AtRest.of_idle (h : w.AtRest) (hpollers : w'.pollers = w.pollers)
    (hhost : w'.host = w.host) (hreport : w'.report = w.report)
    (hidle : ∀ s, w'.isIdle s = true → w.isIdle s = true) : w'.AtRest := by
  have hprompt : w'.prompt = w.prompt := by rw [prompt, prompt, hpollers, hhost]
  exact fun p hp => (h p (hprompt ▸ hp)).mono hpollers hreport hidle

/-- Pollers at rest stay so if all that changes of a context are other things than what its watchers
hold. -/
theorem AtRest.putContext (h : w.AtRest) {id : Nat} {c c' : Context} (hc : w.context? id = some c)
    (hw : ∀ i g e', c'.watchers.at? i = some (g, e') →
      ∃ e, c.watchers.at? i = some (g, e) ∧ e'.serial = e.serial ∧ e'.payload = e.payload) :
    (w.putContext id c').AtRest := by
  refine h.of_idle rfl rfl rfl fun s hs => ?_
  have hr := replaced_putContext (loop?_of_context? hc) c'
  obtain ⟨e', io, hm, hp, hpresent⟩ := isIdle_iff.mp hs
  by_cases hid : s.owner = id
  · rw [hr.meant?_self hid, Context.meant?_eq_some] at hm
    obtain ⟨g, hat, hserial⟩ := hm
    obtain ⟨e, hat', hserial', hpayload⟩ := hw _ g e' hat
    have hm' := Context.meant?_eq_some.mpr ⟨g, hat', hserial'.symm.trans hserial⟩
    exact isIdle_iff.mpr ⟨e, io, (hr.meant?_before hid).trans hm', hpayload.symm.trans hp, hpresent⟩
  · exact isIdle_iff.mpr ⟨e', io, (hr.meant?_other hid).symm.trans hm, hp, hpresent⟩

theorem AtRest.putContext_of_watchers (h : w.AtRest) {id : Nat} {c c' : Context}
    (hc : w.context? id = some c) (hw : c'.watchers = c.watchers) : (w.putContext id c').AtRest :=
  h.putContext hc fun _ _ e hat => ⟨e, hw ▸ hat, rfl, rfl⟩

end World
end EventLoop
