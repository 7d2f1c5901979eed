import EventLoop.Proofs.Change

/-!
# The structure of a context

A slot is linked exactly if a remote timer or an active watcher is in it, and each watcher fits its
kind: active timers have something to fire for, remote timers are in reach and keep their own active
flag, I/O watchers have a poller and a valid aim. Every move of a loop keeps this, also the exit,
which stops one linked slot after the other.
-/
namespace EventLoop

/-- Whether the watcher in a slot is to be linked. -/
def Entry.isLinked (e : Entry) : Bool := e.payload.isRemote || e.active

/-- An active watcher is to be linked. -/
theorem Entry.isLinked_of_active {e : Entry} (h : e.isActive = true) : e.isLinked = true := by
  unfold isActive at h
  unfold isLinked
  cases hp : e.payload <;> simp_all [Payload.isRemote]

/-- What holds of a watcher of each kind, in a context that has a poller or not. -/
def Entry.Fits (e : Entry) (polled : Bool) : Prop :=
  match e.payload with
  | .timer t => e.active = true → t.isSet = true
  | .remote r => r.reachable = true ∧ e.active = false ∧ (r.active = true → r.timer.isSet = true)
  | .io io => polled = true ∧ Loop.checkIo io.fd io.interest = .ok () ∧ io.ready.events.Named
  | .event _ => True

/-- A watcher is in the slot, and it is to be linked. -/
def HoldsLinked (slot : Option (Generation × Entry)) : Prop :=
  ∃ g e, slot = some (g, e) ∧ e.isLinked = true

structure Context.Sound (c : Context) : Prop where
  arena : c.watchers.WellFormed
  roster : c.roster.WellFormed
  linked_iff : ∀ i, i ∈ c.roster.toList ↔ HoldsLinked (c.watchers.at? i)
  fits : ∀ i g e, c.watchers.at? i = some (g, e) → e.Fits c.poller.isSome
  serial : ∀ i g e, c.watchers.at? i = some (g, e) → e.serial < c.nextSerial

structure Loop.Sound (l : Loop) : Prop where
  context : l.context.Sound
  poller : l.poller.isSome = l.context.poller.isSome

theorem holdsLinked_some {g : Generation} {e : Entry} :
    HoldsLinked (some (g, e)) ↔ e.isLinked = true := by
  constructor
  · rintro ⟨g', e', he, hl⟩
    obtain ⟨-, rfl⟩ := Prod.mk.inj (Option.some.inj he)
    exact hl
  · exact fun h => ⟨g, e, rfl, h⟩

theorem not_holdsLinked_none : ¬ HoldsLinked none := by
  rintro ⟨g, e, he, -⟩
  contradiction

theorem Context.sound_create (id : Nat) (clock : ClockSource) (poller : Option Nat) :
    (Context.create id clock poller).Sound where
  arena := Arena.wellFormed_empty
  roster := Roster.wellFormed_empty
  linked_iff := by
    intro i
    exact iff_of_false List.not_mem_nil not_holdsLinked_none
  fits := fun _ _ _ h => absurd h (by simp [Context.create])
  serial := fun _ _ _ h => absurd h (by simp [Context.create])

/-- Soundness does not look at the flags of a loop. -/
theorem Context.Sound.congr {c c' : Context} (h : c.Sound) (hw : c'.watchers = c.watchers)
    (hr : c'.roster = c.roster) (hp : c'.poller = c.poller) (hn : c'.nextSerial = c.nextSerial) :
    c'.Sound where
  arena := hw ▸ h.arena
  roster := hr ▸ h.roster
  linked_iff := by
    rw [hr, hw]
    exact h.linked_iff
  fits := by
    rw [hw, hp]
    exact h.fits
  serial := by
    rw [hw, hn]
    exact h.serial

theorem Loop.Sound.wakeups {l : Loop} (h : l.Sound) (wakeups : Wakeups) :
    Loop.Sound ⟨{ l.context with wakeups }, l.poller⟩ :=
  ⟨h.context.congr rfl rfl rfl rfl, h.poller⟩

/-! ### Places in the roster -/

namespace Linking

variable {r : Roster} {i j : Nat}

/-- Whether the slot is linked after the change, if that does not hang on what it was. -/
def outcome : Linking → Option Bool
  | .keep => none
  | .link => some true
  | .unlink => some false
  | .relink => some true

/-- Whether the slot loses its place in the pass. -/
def leaves : Linking → Bool
  | .keep => false
  | .link => false
  | .unlink => true
  | .relink => true

theorem wellFormed_apply (k : Linking) (h : r.WellFormed) (i : Nat) : (k.apply r i).WellFormed := by
  cases k with
  | keep => exact h
  | link => exact (h.insert i).1
  | unlink => exact (h.erase i).1
  | relink => exact ((h.erase i).1.insert i).1

theorem remaining_apply (k : Linking) (h : r.WellFormed) (i : Nat) :
    (k.apply r i).remaining = if k.leaves then r.remaining.erase i else r.remaining := by
  cases k with
  | keep => rfl
  | link => exact (h.insert i).2.1
  | unlink => exact (h.erase i).2.1
  | relink => exact ((h.erase i).1.insert i).2.1.trans (h.erase i).2.1

theorem mem_insert (h : r.WellFormed) : j ∈ (r.insert i).1.toList ↔ j = i ∨ j ∈ r.toList := by
  rw [(h.insert i).2.2]
  split
  · next hi => exact ⟨Or.inr, fun hj => hj.elim (fun he => he ▸ hi) id⟩
  · exact List.mem_cons

theorem mem_erase (h : r.WellFormed) : j ∈ (r.erase i).1.toList ↔ j ≠ i ∧ j ∈ r.toList := by
  rw [(h.erase i).2.2]
  exact h.nodup.mem_erase_iff

theorem mem_apply_other (k : Linking) (h : r.WellFormed) (hj : j ≠ i) :
    j ∈ (k.apply r i).toList ↔ j ∈ r.toList := by
  cases k with
  | keep => exact Iff.rfl
  | link => simp [apply, mem_insert h, hj]
  | unlink => simp [apply, mem_erase h, hj]
  | relink => simp [apply, mem_insert (h.erase i).1, mem_erase h, hj]

theorem contains_apply (k : Linking) (h : r.WellFormed) (hj : j ≠ i) :
    (k.apply r i).contains j = r.contains j := by
  rw [Bool.eq_iff_iff, (k.wellFormed_apply h i).contains_iff, h.contains_iff]
  exact k.mem_apply_other h hj

theorem mem_apply_self (k : Linking) (h : r.WellFormed) :
    i ∈ (k.apply r i).toList ↔ k.outcome.elim (i ∈ r.toList) (· = true) := by
  cases k with
  | keep => exact Iff.rfl
  | link => simp [apply, outcome, mem_insert h]
  | unlink => simp [apply, outcome, mem_erase h]
  | relink => simp [apply, outcome, mem_insert (h.erase i).1]

end Linking

/-! ### One change -/

namespace Loop

variable {l l' : Loop} {i : Nat} {before : Option (Generation × Entry)} {x : SlotChange}

/-- Whether the slot is to be linked afterwards agrees with what becomes of its place. -/
theorem Operation.linking (h : l.Operation i before x) :
    x.linking.outcome.elim (HoldsLinked before ↔ HoldsLinked x.after)
      fun linked => linked = true ↔ HoldsLinked x.after := by
  cases h with
  | abandoned => exact Iff.rfl
  | woken => exact Iff.rfl
  | timerCreated =>
    rename_i t _ _ _ _
    rw [Timer.linking, holdsLinked_some]
    cases ht : t.isSet <;> simp [Linking.outcome, Entry.isLinked, Payload.isRemote]
  | remoteCreated => exact iff_of_true rfl (holdsLinked_some.mpr rfl)
  | eventCreated => exact iff_of_true rfl (holdsLinked_some.mpr rfl)
  | ioCreated => exact iff_of_true rfl (holdsLinked_some.mpr rfl)
  | timerSet =>
    rename_i t' _ _ _ _ _
    simp only [Timer.linking, holdsLinked_some]
    cases ht : t'.isSet <;> simp [Linking.outcome, Entry.isLinked, Payload.isRemote]
  | remoteSet _ _ _ he _ _ hk =>
    rcases hk with rfl | rfl
    · rw [Linking.outcome, Option.elim_none, holdsLinked_some, holdsLinked_some]
      simp [Entry.isLinked, Payload.isRemote, he]
    · exact iff_of_true rfl (holdsLinked_some.mpr rfl)
  | remoteStopped he =>
    rw [Linking.outcome, Option.elim_none, holdsLinked_some, holdsLinked_some]
    simp [Entry.isLinked, Payload.isRemote, he]
  | stopped =>
    rename_i g e
    rw [holdsLinked_some]
    cases hp : e.payload <;>
      simp [Payload.isRemote, Linking.outcome, holdsLinked_some, Entry.isLinked, Entry.stopped,
        stoppedPayload, hp]
  | released => exact iff_of_false Bool.false_ne_true not_holdsLinked_none
  | ioStarted _ _ _ _ hk =>
    rcases hk with ⟨rfl, -⟩ | rfl <;> exact iff_of_true rfl (holdsLinked_some.mpr rfl)
  | ioRefused he _ _ hk =>
    rcases hk with ⟨rfl, ha⟩ | rfl
    · rw [Linking.outcome, Option.elim_none, holdsLinked_some, holdsLinked_some]
      simp [Entry.isLinked, Entry.aimed, Payload.isRemote, he, ha]
    · refine iff_of_false Bool.false_ne_true ?_
      rw [holdsLinked_some]
      exact Bool.false_ne_true
  | posted he =>
    rw [Linking.outcome, Option.elim_none, holdsLinked_some, holdsLinked_some]
    simp [Entry.isLinked, Payload.isRemote, he]
  | delivered he =>
    rw [Linking.outcome, Option.elim_none, holdsLinked_some, holdsLinked_some]
    simp [Entry.isLinked, Payload.isRemote, he]

/-- A watcher that fits its kind still does after every change. -/
theorem Operation.fits (h : l.Operation i before x) {polled : Bool}
    (hp : l.poller.isSome = polled) (hb : ∀ g e, before = some (g, e) → e.Fits polled) :
    ∀ g e, x.after = some (g, e) → e.Fits polled := by
  intro g e he
  cases h with
  | abandoned => contradiction
  | woken => exact hb g e he
  | timerCreated =>
    obtain ⟨-, rfl⟩ := Prod.mk.inj (Option.some.inj he)
    exact id
  | remoteCreated =>
    obtain ⟨-, rfl⟩ := Prod.mk.inj (Option.some.inj he)
    exact ⟨rfl, rfl, id⟩
  | eventCreated =>
    obtain ⟨-, rfl⟩ := Prod.mk.inj (Option.some.inj he)
    trivial
  | ioCreated hq _ hc =>
    obtain ⟨-, rfl⟩ := Prod.mk.inj (Option.some.inj he)
    exact ⟨by rw [← hp, hq]; rfl, hc, Events.named_empty⟩
  | timerSet =>
    obtain ⟨-, rfl⟩ := Prod.mk.inj (Option.some.inj he)
    exact id
  | remoteSet _ _ _ hr hreach =>
    obtain ⟨-, rfl⟩ := Prod.mk.inj (Option.some.inj he)
    have hold := hb _ _ rfl
    simp only [Entry.Fits, hr] at hold
    exact ⟨hreach, hold.2.1, id⟩
  | remoteStopped hr =>
    obtain ⟨-, rfl⟩ := Prod.mk.inj (Option.some.inj he)
    have hold := hb _ _ rfl
    simp only [Entry.Fits, hr] at hold
    exact ⟨hold.1, hold.2.1, fun ha => absurd ha Bool.false_ne_true⟩
  | stopped =>
    rename_i g' e'
    obtain ⟨-, rfl⟩ := Prod.mk.inj (Option.some.inj he)
    have hold := hb _ _ rfl
    cases hpay : e'.payload with
    | timer t =>
      simp [Entry.Fits, Entry.stopped, stoppedPayload, hpay]
    | remote r =>
      simp only [Entry.Fits, hpay] at hold
      simp [Entry.Fits, Entry.stopped, stoppedPayload, hpay, RemoteTimer.stop, hold.1]
    | io io =>
      simp only [Entry.Fits, hpay] at hold
      simpa [Entry.Fits, Entry.stopped, stoppedPayload, hpay] using hold
    | event flag =>
      simp [Entry.Fits, Entry.stopped, stoppedPayload, hpay]
  | released => contradiction
  | ioStarted _ hq _ hc =>
    obtain ⟨-, rfl⟩ := Prod.mk.inj (Option.some.inj he)
    exact ⟨by rw [← hp, hq]; rfl, hc, Events.named_empty⟩
  | ioRefused _ hq hc =>
    obtain ⟨-, rfl⟩ := Prod.mk.inj (Option.some.inj he)
    exact ⟨by rw [← hp, hq]; rfl, hc, Events.named_empty⟩
  | posted =>
    obtain ⟨-, rfl⟩ := Prod.mk.inj (Option.some.inj he)
    trivial
  | delivered hio _ hn =>
    obtain ⟨-, rfl⟩ := Prod.mk.inj (Option.some.inj he)
    have hold := hb _ _ rfl
    simp only [Entry.Fits, hio] at hold
    exact ⟨hold.1, hold.2.1, hold.2.2.union hn⟩

/-- A watcher keeps its serial number, and so does the generation of its slot. -/
theorem Operation.same_watcher {g g' : Generation} {e e' : Entry}
    (h : l.Operation i (some (g, e)) x) (ha : x.after = some (g', e')) :
    g' = g ∧ e'.serial = e.serial ∧ e'.payload.kind = e.payload.kind ∧
      e'.callback = e.callback := by
  cases h with
  | woken =>
    obtain ⟨rfl, rfl⟩ := Prod.mk.inj (Option.some.inj ha)
    exact ⟨rfl, rfl, rfl, rfl⟩
  | timerSet _ _ _ hp =>
    obtain ⟨rfl, rfl⟩ := Prod.mk.inj (Option.some.inj ha)
    exact ⟨rfl, rfl, by rw [hp]; rfl, rfl⟩
  | remoteSet _ _ _ hp =>
    obtain ⟨rfl, rfl⟩ := Prod.mk.inj (Option.some.inj ha)
    exact ⟨rfl, rfl, by rw [hp]; rfl, rfl⟩
  | remoteStopped hp =>
    obtain ⟨rfl, rfl⟩ := Prod.mk.inj (Option.some.inj ha)
    exact ⟨rfl, rfl, by rw [hp]; rfl, rfl⟩
  | stopped =>
    obtain ⟨rfl, rfl⟩ := Prod.mk.inj (Option.some.inj ha)
    refine ⟨rfl, rfl, ?_, rfl⟩
    cases hp : e.payload <;> simp [Entry.stopped, stoppedPayload, hp, Payload.kind]
  | released => contradiction
  | ioStarted hp =>
    obtain ⟨rfl, rfl⟩ := Prod.mk.inj (Option.some.inj ha)
    exact ⟨rfl, rfl, by rw [hp]; rfl, rfl⟩
  | ioRefused hp =>
    obtain ⟨rfl, rfl⟩ := Prod.mk.inj (Option.some.inj ha)
    exact ⟨rfl, rfl, by rw [hp]; rfl, rfl⟩
  | posted hp =>
    obtain ⟨rfl, rfl⟩ := Prod.mk.inj (Option.some.inj ha)
    exact ⟨rfl, rfl, by rw [hp]; rfl, rfl⟩
  | delivered hp =>
    obtain ⟨rfl, rfl⟩ := Prod.mk.inj (Option.some.inj ha)
    exact ⟨rfl, rfl, by rw [hp]; rfl, rfl⟩

/-- A loop has a poller after a change if it had one before. -/
theorem Operation.poller_isSome (h : l.Operation i before x) :
    x.poller.isSome = l.poller.isSome := by
  cases h with
  | abandoned hp =>
    rcases hp with rfl | ⟨q, hq, rfl⟩
    · rfl
    · rw [hq]
      rfl
  | stopped => exact Option.isSome_map
  | released => exact Option.isSome_map
  | ioCreated hq => rw [hq]; rfl
  | ioStarted _ hq => rw [hq]; rfl
  | ioRefused _ hq => rw [hq]; rfl
  | _ => rfl

/-- A change of one slot keeps a loop sound if the watcher fits, keeps its serial number, and is
linked as it has to be. -/
theorem Sound.replace (hs : l.Sound) (hc : l.Changed l' i x)
    (hlink : x.linking.outcome.elim
      (HoldsLinked (l.context.watchers.at? i) ↔ HoldsLinked x.after)
      fun linked => linked = true ↔ HoldsLinked x.after)
    (hfit : ∀ g e, x.after = some (g, e) → e.Fits l.context.poller.isSome)
    (hserial : ∀ g e g' e', l.context.watchers.at? i = some (g, e) → x.after = some (g', e') →
      e'.serial = e.serial)
    (hpoller : x.poller.isSome = l.poller.isSome) : l'.Sound := by
  have hlist : ∀ j, j ∈ l'.context.roster.toList ↔
      if j = i then x.linking.outcome.elim (i ∈ l.context.roster.toList) (· = true)
      else j ∈ l.context.roster.toList := by
    intro j
    rw [hc.roster]
    by_cases hj : j = i
    · rw [if_pos hj, hj]
      exact x.linking.mem_apply_self hs.context.roster
    · rw [if_neg hj]
      exact x.linking.mem_apply_other hs.context.roster hj
  refine ⟨⟨hc.arena, ?_, fun j => ?_, fun j g e he => ?_, fun j g e he => ?_⟩, ?_⟩
  · rw [hc.roster]
    exact x.linking.wellFormed_apply hs.context.roster i
  · rw [hlist]
    by_cases hj : j = i
    · subst hj
      rw [if_pos rfl, hc.at_self]
      cases hk : x.linking.outcome with
      | none =>
        rw [hk] at hlink
        exact (hs.context.linked_iff j).trans hlink
      | some b =>
        rw [hk] at hlink
        exact hlink
    · rw [if_neg hj, hc.at_other j hj]
      exact hs.context.linked_iff j
  · rw [hc.number]
    by_cases hj : j = i
    · subst hj
      rw [hc.at_self] at he
      exact hfit g e he
    · rw [hc.at_other j hj] at he
      exact hs.context.fits j g e he
  · by_cases hj : j = i
    · subst hj
      rw [hc.at_self] at he
      cases hb : l.context.watchers.at? j with
      | none => exact hc.serial_after g e he hb
      | some v =>
        rw [hserial v.1 v.2 g e hb he]
        exact Nat.lt_of_lt_of_le (hs.context.serial j v.1 v.2 hb) hc.serial
    · rw [hc.at_other j hj] at he
      exact Nat.lt_of_lt_of_le (hs.context.serial j g e he) hc.serial
  · rw [hc.poller, hpoller, hs.poller, hc.number]

/-- Every operation keeps a loop sound. -/
theorem Sound.changed (hs : l.Sound) (ho : l.Operation i (l.context.watchers.at? i) x)
    (hc : l.Changed l' i x) : l'.Sound :=
  hs.replace hc ho.linking (ho.fits hs.poller fun g e => hs.context.fits i g e)
    (fun _ _ _ _ hb ha => ((hb ▸ ho).same_watcher ha).2.1) ho.poller_isSome

end Loop
end EventLoop
