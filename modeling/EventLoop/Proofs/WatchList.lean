import EventLoop.Proofs.Invariant

/-!
# The watch lists mirror the active I/O watchers

A poller's list is shared by contexts, and the active flags are kept in these. Every operation
changes both sides alike: it leaves the list as it is, or takes the entry of its watcher off, or
puts a new entry for its watcher on, under a ticket that nobody else has.
-/
namespace EventLoop

/-! ### Lists of watched descriptors -/

/-- The list of a poller has exactly the entries that satisfy `S`, under distinct tickets that were
all drawn before. -/
structure Listed (q : Poller) (S : Watched → Prop) : Prop where
  mem_iff : ∀ x, x ∈ q.watched ↔ S x
  nodup : (q.watched.map Watched.ticket).Nodup
  drawn : ∀ x ∈ q.watched, x.ticket < q.nextTicket

/-- A list without an entry. -/
def unlisted (b : Option Watched) (list : List Watched) : List Watched :=
  match b with
  | none => list
  | some z => list.filter fun x => x.ticket != z.ticket

/-- What an operation does to a list, given the entries of its watcher before and afterwards. -/
inductive ListChange (before after : Option Watched) (q q' : Poller) : Prop
  | kept : after = before → q'.watched = q.watched → q.nextTicket ≤ q'.nextTicket →
      ListChange before after q q'
  | left : after = none → q'.watched = unlisted before q.watched →
      q.nextTicket ≤ q'.nextTicket → ListChange before after q q'
  | entered {y} : after = some y → y.ticket = q.nextTicket →
      q'.watched = unlisted before q.watched ++ [y] → q'.nextTicket = q.nextTicket + 1 →
      ListChange before after q q'

namespace Listed

variable {q q' : Poller} {S S' : Watched → Prop} {before after : Option Watched}

theorem mem_unlisted (h : Listed q S) (hb : ∀ z, before = some z → S z) (x : Watched) :
    x ∈ unlisted before q.watched ↔ S x ∧ before ≠ some x := by
  cases before with
  | none => simp [unlisted, h.mem_iff]
  | some z =>
    have hz := (h.mem_iff z).mpr (hb z rfl)
    rw [unlisted, List.mem_filter, h.mem_iff, bne_iff_ne]
    refine and_congr_right fun hx => ⟨fun hne heq => ?_, fun hne heq => hne ?_⟩
    · exact hne (congrArg Watched.ticket (Option.some.inj heq)).symm
    · exact congrArg some
        (List.inj_on_of_nodup_map h.nodup hz ((h.mem_iff x).mpr hx) heq.symm)

theorem sublist_unlisted (before : Option Watched) (list : List Watched) :
    (unlisted before list).Sublist list := by
  cases before with
  | none => exact .refl _
  | some z => exact List.filter_sublist

/-- A change of the list keeps it in step with a change of one watcher. -/
theorem change (h : Listed q S) (hb : ∀ z, before = some z → S z)
    (hc : ListChange before after q q')
    (hS : ∀ x, S' x ↔ (S x ∧ before ≠ some x) ∨ after = some x) : Listed q' S' := by
  cases hc with
  | kept ha hw hn =>
    refine ⟨fun x => ?_, hw ▸ h.nodup, fun x hx => ?_⟩
    · rw [hw, h.mem_iff, hS, ha]
      by_cases hx : before = some x
      · simp [hx, hb x hx]
      · simp [hx]
    · exact Nat.lt_of_lt_of_le (h.drawn x (hw ▸ hx)) hn
  | left ha hw hn =>
    have hsub := sublist_unlisted before q.watched
    refine ⟨fun x => ?_, ?_, fun x hx => ?_⟩
    · rw [hw, h.mem_unlisted hb, hS, ha]
      simp
    · rw [hw]
      exact h.nodup.sublist (hsub.map _)
    · exact Nat.lt_of_lt_of_le (h.drawn x (hsub.subset (hw ▸ hx))) hn
  | @entered y ha ht hw hn =>
    have hsub := sublist_unlisted before q.watched
    have hlt : ∀ x ∈ unlisted before q.watched, x.ticket < q.nextTicket :=
      fun x hx => h.drawn x (hsub.subset hx)
    refine ⟨fun x => ?_, ?_, fun x hx => ?_⟩
    · rw [hw, List.mem_append, h.mem_unlisted hb, List.mem_singleton, hS, ha, Option.some.injEq,
        eq_comm (a := x)]
    · rw [hw, List.map_append, List.nodup_append]
      refine ⟨h.nodup.sublist (hsub.map _), List.nodup_singleton _, fun t hold t' hnew => ?_⟩
      obtain ⟨x, hx, rfl⟩ := List.mem_map.mp hold
      rw [List.mem_singleton.mp hnew, ht]
      exact Nat.ne_of_lt (hlt x hx)
    · rw [hn]
      rcases List.mem_append.mp (hw ▸ hx) with hx | hx
      · exact Nat.lt_succ_of_lt (hlt x hx)
      · rw [List.mem_singleton.mp hx, ht]
        exact Nat.lt_succ_self _

/-- Only what the list has to hold matters. -/
theorem congr (h : Listed q S) (hw : q'.watched = q.watched) (hn : q'.nextTicket = q.nextTicket)
    (hS : ∀ x, S' x ↔ S x) : Listed q' S' where
  mem_iff := fun x => by rw [hw, h.mem_iff, hS]
  nodup := hw ▸ h.nodup
  drawn := fun x hx => hn ▸ h.drawn x (hw ▸ hx)

end Listed

/-! ### What the list has to hold of a context -/

/-- The entry that the list has to hold for a watcher. -/
def Entry.watched? (e : Entry) (r : WatcherRef) : Option Watched :=
  match e.payload with
  | .io io => if e.active then some ⟨io.ticket, r, io.fd, io.interest⟩ else none
  | _ => none

/-- The entry that the list has to hold for the watcher in a slot. -/
def slotWatched (owner i : Nat) (slot : Option (Generation × Entry)) : Option Watched :=
  slot.bind fun v => v.2.watched? ⟨owner, i, v.2.serial⟩

def Context.watched? (c : Context) (i : Nat) : Option Watched :=
  slotWatched c.id i (c.watchers.at? i)

theorem watched?_eq_aim (e : Entry) (r : WatcherRef) :
    e.watched? r = e.aim?.map fun a => ⟨a.1, r, a.2.1, a.2.2⟩ := by
  obtain ⟨serial, active, callback, payload⟩ := e
  cases payload <;> cases active <;> rfl

theorem watched?_of_idle {slot : Option (Generation × Entry)} (h : Loop.Idle slot) (owner i : Nat) :
    slotWatched owner i slot = none := by
  cases slot with
  | none => rfl
  | some v =>
    have ha := h v.1 v.2 rfl
    cases hp : v.2.payload <;> simp_all [slotWatched, Entry.watched?, Entry.isActive]

theorem watched?_watcher {owner i : Nat} {slot : Option (Generation × Entry)} {x : Watched}
    (h : slotWatched owner i slot = some x) : x.watcher.owner = owner ∧ x.watcher.index = i := by
  obtain ⟨v, -, hv⟩ := Option.bind_eq_some_iff.mp h
  rw [watched?_eq_aim] at hv
  obtain ⟨a, -, rfl⟩ := Option.map_eq_some_iff.mp hv
  exact ⟨rfl, rfl⟩

theorem withdraw_watched (e : Entry) (q : Poller) (r : WatcherRef) :
    (e.withdraw q).watched = unlisted (e.watched? r) q.watched := by
  obtain ⟨serial, active, callback, payload⟩ := e
  cases payload <;> cases active <;> rfl

namespace Loop

variable {l l' : Loop} {i : Nat} {q : Poller} {before : Option (Generation × Entry)}
  {x : SlotChange}

/-- Every operation changes the list as it changes its watcher. -/
theorem Operation.listChange (h : l.Operation i before x) (hq : l.poller = some q) :
    ∃ q', x.poller = some q' ∧
      ListChange (slotWatched l.context.id i before) (slotWatched l.context.id i x.after) q q' := by
  have hkept : slotWatched l.context.id i x.after = slotWatched l.context.id i before →
      x.poller = l.poller → ∃ q', x.poller = some q' ∧
        ListChange (slotWatched l.context.id i before) (slotWatched l.context.id i x.after) q q' :=
    fun hs hp => ⟨q, hp.trans hq, .kept hs rfl (Nat.le_refl _)⟩
  cases h with
  | abandoned hp =>
    rcases hp with rfl | ⟨q₁, hq₁, rfl⟩
    · exact ⟨q, hq, .kept rfl rfl (Nat.le_refl _)⟩
    · obtain rfl := Option.some.inj (hq.symm.trans hq₁)
      exact ⟨_, rfl, .kept rfl rfl (Nat.le_succ _)⟩
  | woken => exact hkept rfl rfl
  | timerCreated => exact hkept rfl rfl
  | remoteCreated => exact hkept rfl rfl
  | eventCreated => exact hkept rfl rfl
  | ioCreated hq₁ =>
    obtain rfl := Option.some.inj (hq.symm.trans hq₁)
    exact ⟨_, rfl, .entered rfl rfl rfl rfl⟩
  | timerSet _ _ _ hp => exact hkept (by simp [slotWatched, Entry.watched?, hp]) rfl
  | remoteSet _ _ _ hp => exact hkept (by simp [slotWatched, Entry.watched?, hp]) rfl
  | remoteStopped hp => exact hkept (by simp [slotWatched, Entry.watched?, hp]) rfl
  | @stopped g e =>
    refine ⟨e.withdraw q, by rw [hq]; rfl, .left ?_ ?_ ?_⟩
    · refine watched?_of_idle (fun g' e' he => ?_) _ _
      obtain ⟨-, rfl⟩ := Prod.mk.inj (Option.some.inj he)
      exact stopped_isActive e
    · exact withdraw_watched e q _
    · exact Nat.le_of_eq (withdraw_nextTicket e q).symm
  | @released g e =>
    refine ⟨e.withdraw q, by rw [hq]; rfl, .left rfl ?_ ?_⟩
    · exact withdraw_watched e q _
    · exact Nat.le_of_eq (withdraw_nextTicket e q).symm
  | @ioStarted g e io q₁ fd interest k hp hq₁ =>
    obtain rfl := Option.some.inj (hq.symm.trans hq₁)
    refine ⟨_, rfl, .entered rfl rfl ?_ rfl⟩
    dsimp only
    rw [withdraw_watched e q ⟨l.context.id, i, e.serial⟩]
    rfl
  | @ioRefused g e io q₁ fd interest k hp hq₁ =>
    obtain rfl := Option.some.inj (hq.symm.trans hq₁)
    refine ⟨_, rfl, .left rfl ?_ (Nat.le_succ _)⟩
    exact withdraw_watched e q ⟨l.context.id, i, e.serial⟩
  | posted hp => exact hkept (by simp [slotWatched, Entry.watched?, hp]) rfl
  | delivered hp => exact hkept (by simp [slotWatched, Entry.watched?, hp]) rfl

/-- The poller of a loop lists the watchers of the loop and those of others. -/
def Mirrors (l : Loop) (others : Watched → Prop) : Prop :=
  ∀ q, l.poller = some q →
    Listed q fun x => (∃ i, l.context.watched? i = some x) ∨ others x

variable {others : Watched → Prop}

theorem Changed.watched? (hc : l.Changed l' i x) :
    l'.context.watched? i = slotWatched l.context.id i x.after ∧
      ∀ j, j ≠ i → l'.context.watched? j = l.context.watched? j := by
  unfold Context.watched?
  rw [hc.id, hc.at_self]
  exact ⟨rfl, fun j hj => by rw [hc.at_other j hj]⟩

theorem Mirrors.changed (h : l.Mirrors others)
    (ho : l.Operation i (l.context.watchers.at? i) x) (hc : l.Changed l' i x)
    (hothers : ∀ y, others y → y.watcher.owner ≠ l.context.id) : l'.Mirrors others := by
  intro q' hq'
  rw [hc.poller] at hq'
  obtain ⟨q, hq⟩ : ∃ q, l.poller = some q := by
    rw [← Option.isSome_iff_exists, ← ho.poller_isSome, hq']
    rfl
  obtain ⟨q₁, hq₁, hlist⟩ := ho.listChange hq
  obtain rfl := Option.some.inj (hq'.symm.trans hq₁)
  obtain ⟨hself, hother⟩ := hc.watched?
  refine (h q hq).change (fun z hz => Or.inl ⟨i, hz⟩) hlist fun y => ?_
  constructor
  · rintro (⟨j, hj⟩ | hy)
    · by_cases hji : j = i
      · subst hji
        exact Or.inr (hself ▸ hj)
      · rw [hother j hji] at hj
        refine Or.inl ⟨Or.inl ⟨j, hj⟩, fun hi => hji ?_⟩
        exact (watched?_watcher hj).2.symm.trans (watched?_watcher hi).2
    · exact Or.inl ⟨Or.inr hy, fun hi => hothers y hy (watched?_watcher hi).1⟩
  · rintro (⟨⟨j, hj⟩ | hy, hne⟩ | hafter)
    · have hji : j ≠ i := fun hji => hne (hji ▸ hj)
      exact Or.inl ⟨j, (hother j hji).trans hj⟩
    · exact Or.inr hy
    · exact Or.inl ⟨i, hself.trans hafter⟩

theorem Mirrors.congr (h : l.Mirrors others) (hp : l'.poller = l.poller)
    (hw : ∀ i, l'.context.watched? i = l.context.watched? i) : l'.Mirrors others := by
  intro q hq
  refine (h q (hp ▸ hq)).congr rfl rfl fun y => ?_
  simp only [hw]

theorem Mirrors.exit (h : l.Mirrors others) (hs : l.Sound)
    (hothers : ∀ y, others y → y.watcher.owner ≠ l.context.id) : l.exit.Mirrors others := by
  have hall : l.exit.context.id = l.context.id ∧ l.exit.Mirrors others :=
    exit_induction (P := fun l' => l'.context.id = l.context.id ∧ l'.Mirrors others) hs ⟨rfl, h⟩
      (fun _ _ _ _ _ _ h₁ ha hc => ⟨hc.id.trans h₁.1,
        h₁.2.changed (ha ▸ .stopped) hc fun y hy => h₁.1.symm ▸ hothers y hy⟩)
      fun _ h₁ => ⟨h₁.1, h₁.2.congr rfl fun _ => rfl⟩
  exact hall.2

theorem Mirrors.move (h : l.Mirrors others) (hs : l.Sound) (hm : l.Move l')
    (hothers : ∀ y, others y → y.watcher.owner ≠ l.context.id) : l'.Mirrors others := by
  cases hm with
  | slot ho hc => exact h.changed ho hc hothers
  | exitRequested he => exact he ▸ h.congr rfl fun _ => rfl
  | exited he => exact he ▸ h.exit hs hothers
  | refused he => exact he ▸ h

theorem alike_watched {c c' : Context} (h : c.Alike c') (i : Nat) :
    c'.watched? i = c.watched? i := by
  have hslot := h.slots i
  unfold Context.watched?
  rw [h.id]
  cases hv : c.watchers.at? i with
  | none =>
    rw [hv, Option.map_none, Option.map_eq_none_iff] at hslot
    rw [hslot]
  | some v =>
    rw [hv, Option.map_some] at hslot
    obtain ⟨v', hv', ht⟩ := Option.map_eq_some_iff.mp hslot
    have htraits : v'.2.traits = v.2.traits := congrArg Prod.snd ht
    have haim : v'.2.aim? = v.2.aim? := congrArg (fun t => t.2.2) htraits
    rw [hv']
    simp only [slotWatched, Option.bind_some, watched?_eq_aim, haim,
      Context.traits_serial htraits]

theorem Mirrors.dispatch {now : Nat} {stage : Stage} {stage' : Option Stage} (h : l.Mirrors others)
    (hs : l.Sound) (hd : Dispatch l now stage stage' l')
    (hothers : ∀ y, others y → y.watcher.owner ≠ l.context.id) : l'.Mirrors others := by
  rcases hd.alike_or_exit with ⟨ha, hp⟩ | ⟨wakeups, rfl⟩
  · exact h.congr hp (alike_watched ha)
  · have h' : Mirrors ⟨{ l.context with wakeups }, l.poller⟩ others := h.congr rfl fun _ => rfl
    exact (h'.exit (hs.wakeups wakeups) hothers).congr rfl fun _ => rfl

end Loop

/-! ### All contexts and pollers -/

namespace World

variable {w w' : World} {id p : Nat} {c : Context} {l l' : Loop} {x : Watched}

/-- The entry stands for an active I/O watcher of a context that the poller serves. -/
def Watching (w : World) (p : Nat) (x : Watched) : Prop :=
  ∃ id c i, w.context? id = some c ∧ c.poller = some p ∧ c.watched? i = some x

/-- The same of a context other than one. -/
def WatchingBeside (w : World) (id p : Nat) (x : Watched) : Prop :=
  ∃ j c i, j ≠ id ∧ w.context? j = some c ∧ c.poller = some p ∧ c.watched? i = some x

def Mirrored (w : World) : Prop := ∀ p q, w.pollers[p]? = some q → Listed q (w.Watching p)

theorem watching_iff (h : w.context? id = some c) :
    w.Watching p x ↔
      (c.poller = some p ∧ ∃ i, c.watched? i = some x) ∨ w.WatchingBeside id p x := by
  constructor
  · rintro ⟨j, c', i, hj, hp, hx⟩
    by_cases hid : j = id
    · subst hid
      obtain rfl := Option.some.inj (h.symm.trans hj)
      exact Or.inl ⟨hp, i, hx⟩
    · exact Or.inr ⟨j, c', i, hid, hj, hp, hx⟩
  · rintro (⟨hp, i, hx⟩ | ⟨j, c', i, -, hj, hp, hx⟩)
    · exact ⟨id, c, i, h, hp, hx⟩
    · exact ⟨j, c', i, hj, hp, hx⟩

theorem owner_of_beside (hs : w.Sound) (h : w.WatchingBeside id p x) : x.watcher.owner ≠ id := by
  obtain ⟨j, c, i, hj, hc, -, hx⟩ := h
  rw [(watched?_watcher hx).1, (hs.context j c hc).1]
  exact hj

/-- The poller of a loop lists its watchers and those of the other contexts that it serves. -/
theorem Mirrored.mirrors (h : w.Mirrored) (hl : w.loop? id = some l)
    (hp : l.context.poller = some p) : l.Mirrors (w.WatchingBeside id p) := by
  obtain ⟨hc, hpoller⟩ := loop?_eq_some.mp hl
  intro q hq
  rw [hpoller, hp] at hq
  refine (h p q hq).congr rfl rfl fun x => ?_
  rw [watching_iff hc]
  simp [hp]

/-- The lists stay in step if that of the replaced loop does. -/
theorem Mirrored.replaced (h : w.Mirrored) (hs : w.Sound) (hr : w.Replaced w' id l l')
    (hn : l'.context.poller = l.context.poller)
    (hl : ∀ others, (∀ y, others y → y.watcher.owner ≠ l.context.id) → l.Mirrors others →
      l'.Mirrors others) : w'.Mirrored := by
  obtain ⟨hc, -⟩ := loop?_eq_some.mp hr.loop
  have hid := (hs.loop hr.loop).1
  have hbeside : ∀ p x, w'.WatchingBeside id p x ↔ w.WatchingBeside id p x := by
    intro p x
    constructor
    · rintro ⟨j, c, i, hj, hctx, hrest⟩
      exact ⟨j, c, i, hj, hr.context_other j hj ▸ hctx, hrest⟩
    · rintro ⟨j, c, i, hj, hctx, hrest⟩
      exact ⟨j, c, i, hj, (hr.context_other j hj).trans hctx, hrest⟩
  intro p q hq
  by_cases hnum : l.context.poller = some p
  · rw [hr.poller_self p hnum] at hq
    have hlisted := hl _ (fun y hy => hid.symm ▸ owner_of_beside hs hy)
      (h.mirrors hr.loop hnum) q hq
    refine hlisted.congr rfl rfl fun x => ?_
    rw [watching_iff hr.context_self, hbeside, hn]
    simp [hnum]
  · rw [hr.poller_other p hnum] at hq
    refine (h p q hq).congr rfl rfl fun x => ?_
    rw [watching_iff hr.context_self, watching_iff hc, hbeside, hn]
    simp [hnum]

/-- A new context has no I/O watchers. -/
theorem watching_append {clock : ClockSource} {poller : Option Nat}
    (hc : w'.contexts = w.contexts ++ [some (Context.create w.contexts.length clock poller)]) :
    w'.Watching p x ↔ w.Watching p x := by
  constructor
  · rintro ⟨j, c, i, hj, hrest⟩
    rw [context?_append hc] at hj
    split at hj
    · obtain rfl := Option.some.inj hj
      exact nomatch hrest.2
    · exact ⟨j, c, i, hj, hrest⟩
  · rintro ⟨j, c, i, hj, hrest⟩
    refine ⟨j, c, i, ?_, hrest⟩
    rw [context?_append hc, if_neg (Nat.ne_of_lt (context?_lt hj)), hj]

/-- A context in which nothing is active can go. -/
theorem watching_set_none (h : w.context? id = some c)
    (hidle : ∀ i, Loop.Idle (c.watchers.at? i)) (hc : w'.contexts = w.contexts.set id none) :
    w'.Watching p x ↔ w.Watching p x := by
  constructor
  · rintro ⟨j, c', i, hj, hrest⟩
    rw [context?_set_none hc] at hj
    split at hj
    · contradiction
    · exact ⟨j, c', i, hj, hrest⟩
  · rintro ⟨j, c', i, hj, hnum, hx⟩
    refine ⟨j, c', i, ?_, hnum, hx⟩
    rw [context?_set_none hc, if_neg, hj]
    rintro rfl
    obtain rfl := Option.some.inj (h.symm.trans hj)
    rw [Context.watched?, watched?_of_idle (hidle i)] at hx
    contradiction

theorem Mirrored.act (h : w.Mirrored) (hs : w.Sound) (ha : w.Act w') : w'.Mirrored := by
  have hsame : ∀ p x, (∀ j, w'.context? j = w.context? j) →
      (w'.Watching p x ↔ w.Watching p x) := by
    intro p x hc
    simp only [Watching, hc]
  cases ha with
  | quiet hc hp =>
    exact fun p q hq => (h p q (hp ▸ hq)).congr rfl rfl fun x => hsame p x (context?_congr hc)
  | moved hr hm =>
    have hsl := (hs.loop hr.loop).2
    exact h.replaced hs hr (hm.frame hsl).2.1 fun others hothers hl => hl.move hsl hm hothers
  | contextMade clock poller _ hc hp =>
    exact fun p q hq => (h p q (hp ▸ hq)).congr rfl rfl fun x => watching_append hc
  | contextDropped h₁ _ hidle hc hp =>
    exact fun p q hq => (h p q (hp ▸ hq)).congr rfl rfl fun x => watching_set_none h₁ hidle hc
  | pollerMade hc hp =>
    intro p q hq
    rw [hp] at hq
    by_cases hlt : p < w.pollers.length
    · rw [List.getElem?_append_left hlt] at hq
      exact (h p q hq).congr rfl rfl fun x => hsame p x (context?_congr hc)
    · have hnew : q = Poller.create := by
        rw [List.getElem?_append_right (Nat.le_of_not_lt hlt)] at hq
        exact List.mem_singleton.mp (List.mem_of_getElem? hq)
      subst hnew
      refine ⟨fun x => iff_of_false List.not_mem_nil ?_, List.nodup_nil, fun x hx => nomatch hx⟩
      rintro ⟨j, c, i, hj, hnum, -⟩
      rw [context?_congr hc] at hj
      exact hlt (hs.number j c p hj hnum)
  | @pollerKilled p₁ q₁ h₁ hc hp =>
    intro p q hq
    rw [hp, List.getElem?_set] at hq
    split at hq
    · next heq =>
      subst heq
      split at hq
      · obtain rfl := Option.some.inj hq
        exact (h p₁ q₁ h₁).congr rfl rfl fun x => hsame p₁ x (context?_congr hc)
      · contradiction
    · exact (h p q hq).congr rfl rfl fun x => hsame p x (context?_congr hc)
  | handleMade _ _ _ _ hc hp =>
    exact fun p q hq => (h p q (hp ▸ hq)).congr rfl rfl fun x => hsame p x (context?_congr hc)

end World

theorem inductive_mirrored : Config.Inductive fun s => s.world.Mirrored where
  act := fun _ _ hs h ha _ => h.act hs.world ha
  entered := by
    intro s s' l hs h he
    have hsl := (hs.world.loop he.replaced.loop).2
    have ha := World.entering_alike (w := s.world) hsl
    exact h.replaced hs.world he.replaced ha.number fun _ _ hl =>
      hl.congr rfl (Loop.alike_watched ha)
  dispatched := by
    intro s s' x below l l' stage hs h hd
    have hsl := (hs.world.loop hd.replaced.loop).2
    exact h.replaced hs.world hd.replaced (hd.dispatch.frame hsl).2 fun _ hothers hl =>
      hl.dispatch hsl hd.dispatch hothers

/-! ### In every reachable state -/

namespace World

variable {w : World} {p : Nat} {x : Watched}

/-- What the list of a poller has to hold: an entry for each active I/O watcher of each context that
it serves, slot by slot. -/
def activeIo (w : World) (p : Nat) : List Watched :=
  w.contexts.flatMap fun slot =>
    match slot with
    | some c =>
      if c.poller = some p then (List.range c.watchers.slots.length).filterMap c.watched? else []
    | none => []

theorem mem_activeIo : x ∈ w.activeIo p ↔ w.Watching p x := by
  rw [activeIo, List.mem_flatMap]
  constructor
  · rintro ⟨slot, hslot, hx⟩
    obtain ⟨id, hid⟩ := List.mem_iff_getElem?.mp hslot
    cases slot with
    | none => exact absurd hx List.not_mem_nil
    | some c =>
      dsimp only at hx
      split at hx
      · next hp =>
        obtain ⟨i, -, hi⟩ := List.mem_filterMap.mp hx
        exact ⟨id, c, i, context?_eq_some.mpr hid, hp, hi⟩
      · exact absurd hx List.not_mem_nil
  · rintro ⟨id, c, i, hc, hp, hx⟩
    refine ⟨some c, List.mem_of_getElem? (context?_eq_some.mp hc), ?_⟩
    dsimp only
    rw [if_pos hp, List.mem_filterMap]
    refine ⟨i, List.mem_range.mpr ?_, hx⟩
    obtain ⟨v, hv, -⟩ := Option.bind_eq_some_iff.mp hx
    exact (List.getElem?_eq_some_iff.mp (Arena.at?_eq_some.mp hv)).1

theorem nodup_activeIo (hs : w.Sound) (p : Nat) : (w.activeIo p).Nodup := by
  rw [activeIo, List.nodup_flatMap]
  constructor
  · intro slot _
    cases slot with
    | none => exact List.nodup_nil
    | some c =>
      dsimp only
      split
      · refine List.Nodup.filterMap (fun i j x hi hj => ?_) List.nodup_range
        exact (watched?_watcher hi).2.symm.trans (watched?_watcher hj).2
      · exact List.nodup_nil
  · rw [List.pairwise_iff_getElem]
    intro i j hi hj hij x hx hx'
    -- an entry names its owner, and contexts have different numbers
    have howner : ∀ k (hk : k < w.contexts.length), x ∈ (match w.contexts[k] with
        | some c =>
          if c.poller = some p then (List.range c.watchers.slots.length).filterMap c.watched?
          else []
        | none => []) → x.watcher.owner = k := by
      intro k hk hm
      cases hslot : w.contexts[k] with
      | none =>
        rw [hslot] at hm
        exact absurd hm List.not_mem_nil
      | some c =>
        rw [hslot] at hm
        dsimp only at hm
        split at hm
        · obtain ⟨n, -, hn⟩ := List.mem_filterMap.mp hm
          have hc : w.context? k = some c := by
            rw [context?_eq_some, List.getElem?_eq_getElem hk, hslot]
          exact (watched?_watcher hn).1.trans (hs.context k c hc).1
        · exact absurd hm List.not_mem_nil
    exact Nat.ne_of_lt hij ((howner i hi hx).symm.trans (howner j hj hx'))

/-- An entry leads to the cell and the wake-ups that a delivery for it changes. -/
theorem io?_of_watching (hs : w.Sound) (h : w.Watching p x) :
    ∃ c e io, w.io? x.watcher = some (c, e, io) ∧ c.poller = some p ∧ e.active = true ∧
      x.ticket = io.ticket ∧ x.fd = io.fd ∧ x.interest = io.interest := by
  obtain ⟨id, c, i, hc, hp, hx⟩ := h
  obtain ⟨⟨g, e⟩, hat, he⟩ := Option.bind_eq_some_iff.mp hx
  unfold Entry.watched? at he
  dsimp only at he
  split at he
  · next io hio =>
    split at he
    · next hactive =>
      obtain rfl := Option.some.inj he
      refine ⟨c, e, io, ?_, hp, hactive, rfl, rfl, rfl⟩
      have hmeant : c.meant? ⟨c.id, i, e.serial⟩ = some e := by
        rw [Context.meant?, hat]
        exact if_pos rfl
      rw [io?, (hs.context id c hc).1, hc]
      rw [(hs.context id c hc).1] at hmeant
      simp only [hmeant, hio]
    · contradiction
  · contradiction

end World

/-- In every reachable state the list of a poller holds an entry for each active I/O watcher of the
contexts that it serves and no other, under distinct tickets. -/
theorem watched_perm_activeIo {m : Machine} (h : m.Reachable) {p : Nat} {q : Poller}
    (hq : m.world.pollers[p]? = some q) :
    q.watched.Perm (m.world.activeIo p) ∧ q.watched.length = (m.world.activeIo p).length ∧
      (q.watched.map Watched.ticket).Nodup ∧
      ∀ x ∈ q.watched, ∃ c e io, m.world.io? x.watcher = some (c, e, io) ∧
        c.poller = some p ∧ e.active = true ∧
        x.ticket = io.ticket ∧ x.fd = io.fd ∧ x.interest = io.interest := by
  obtain ⟨hs, hm⟩ := inductive_mirrored.reachable (fun _ _ _ _ hq => nomatch hq) h
  have hlisted : Listed q (m.world.Watching p) := hm p q hq
  have hperm : q.watched.Perm (m.world.activeIo p) := by
    refine (List.perm_ext_iff_of_nodup (List.Nodup.of_map _ hlisted.nodup)
      (World.nodup_activeIo hs.world p)).mpr fun x => ?_
    exact (hlisted.mem_iff x).trans World.mem_activeIo.symm
  exact ⟨hperm, hperm.length_eq, hlisted.nodup,
    fun x hx => World.io?_of_watching hs.world ((hlisted.mem_iff x).mp hx)⟩

/-- A scenario in which two loops share a poller. -/
def Machine.sharing : Machine :=
  (((((Machine.create (World.create ⟨1000000, 0, false⟩ .standIn)).submit (.newPoller 0)).submit
    (.newContext (.numbered 0) .scenario)).submit
    (.newContext (.numbered 0) .scenario)).submit
    (.create (some 0) "first" (.io 3 (Mask.only .read)) ⟨[], false⟩)).submit
    (.create (some 1) "second" (.io 4 (Mask.only .write)) ⟨[], false⟩)

theorem watched_perm_sharing :
    ∃ q, Machine.sharing.world.pollers[0]? = some q ∧ q.watched.length = 2 ∧
      q.watched.Perm (Machine.sharing.world.activeIo 0) := by
  have hreach : Machine.sharing.Reachable :=
    (((((Machine.Reachable.start _ _).step (.submitted _ rfl rfl)).step
      (.submitted _ rfl rfl)).step (.submitted _ rfl rfl)).step (.submitted _ rfl rfl)).step
      (.submitted _ rfl rfl)
  exact ⟨_, rfl, rfl, (watched_perm_activeIo hreach rfl).1⟩

end EventLoop
