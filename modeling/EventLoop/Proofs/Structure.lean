import EventLoop.Proofs.Invariant

/-!
# The structure of a context, in every reachable state

A slot is linked exactly while a remote timer or an active watcher is in it, so a pass never comes
upon an empty slot. The handles of a remote timer refer to one for good.
-/
namespace EventLoop

/-! ### A slot before and after a move -/

/-- The watcher in a slot is the one that was there before, or it is new. -/
def Context.SlotAfter (c c' : Context) (j : Nat) : Prop :=
  ∀ g' e', c'.watchers.at? j = some (g', e') →
    (∃ e, c.watchers.at? j = some (g', e) ∧ e'.serial = e.serial ∧
      e'.payload.kind = e.payload.kind ∧ e'.callback = e.callback) ∨
      (c.nextSerial ≤ e'.serial ∧ e'.callback.isSome = true)

theorem Loop.Operation.new_watcher {l : Loop} {i : Nat} {x : SlotChange} {g : Generation}
    {e : Entry} (h : l.Operation i none x) (ha : x.after = some (g, e)) :
    e.serial = l.context.nextSerial ∧ e.callback.isSome = true := by
  cases h with
  | abandoned => contradiction
  | woken => contradiction
  | timerCreated => obtain ⟨-, rfl⟩ := Prod.mk.inj (Option.some.inj ha); exact ⟨rfl, rfl⟩
  | remoteCreated => obtain ⟨-, rfl⟩ := Prod.mk.inj (Option.some.inj ha); exact ⟨rfl, rfl⟩
  | eventCreated => obtain ⟨-, rfl⟩ := Prod.mk.inj (Option.some.inj ha); exact ⟨rfl, rfl⟩
  | ioCreated => obtain ⟨-, rfl⟩ := Prod.mk.inj (Option.some.inj ha); exact ⟨rfl, rfl⟩

namespace Context

theorem SlotAfter.refl (c : Context) (j : Nat) : c.SlotAfter c j :=
  fun _ e h => Or.inl ⟨e, h, rfl, rfl, rfl⟩

theorem SlotAfter.trans {c₁ c₂ c₃ : Context} {j : Nat} (h : c₁.SlotAfter c₂ j)
    (h' : c₂.SlotAfter c₃ j) (hn : c₁.nextSerial ≤ c₂.nextSerial) : c₁.SlotAfter c₃ j := by
  intro g e he
  rcases h' g e he with ⟨e₂, he₂, hs, hk, hcb⟩ | ⟨hs, hcb⟩
  · rcases h g e₂ he₂ with ⟨e₁, he₁, hs₁, hk₁, hcb₁⟩ | ⟨hs₁, hcb₁⟩
    · exact Or.inl ⟨e₁, he₁, hs.trans hs₁, hk.trans hk₁, hcb.trans hcb₁⟩
    · exact Or.inr ⟨hs.symm ▸ hs₁, hcb.symm ▸ hcb₁⟩
  · exact Or.inr ⟨Nat.le_trans hn hs, hcb⟩

end Context

theorem Loop.Changed.slotAfter {l l' : Loop} {i : Nat} {x : SlotChange} (hc : l.Changed l' i x)
    (ho : l.Operation i (l.context.watchers.at? i) x) (j : Nat) :
    l.context.SlotAfter l'.context j := by
  intro g' e' he
  by_cases hj : j = i
  · subst hj
    rw [hc.at_self] at he
    cases hb : l.context.watchers.at? j with
    | none =>
      obtain ⟨hs, hcb⟩ := (hb ▸ ho).new_watcher he
      exact Or.inr ⟨Nat.le_of_eq hs.symm, hcb⟩
    | some v =>
      obtain ⟨hg, hs, hk, hcb⟩ := (hb ▸ ho).same_watcher he
      exact Or.inl ⟨v.2, by rw [hg], hs, hk, hcb⟩
  · rw [hc.at_other j hj] at he
    exact Or.inl ⟨e', he, rfl, rfl, rfl⟩

namespace Context

variable {c c' : Context}

/-- A move keeps the watchers in their slots, or puts new ones there. -/
theorem Moved.slotAfter (h : c.Moved c') (j : Nat) :
    c.SlotAfter c' j ∧ c.nextSerial ≤ c'.nextSerial := by
  obtain ⟨l, l', hs, hm, rfl, rfl⟩ := h
  cases hm with
  | slot ho hc => exact ⟨hc.slotAfter ho j, hc.serial⟩
  | exitRequested h => subst h; exact ⟨.refl _ j, Nat.le_refl _⟩
  | exited h =>
    subst h
    refine Loop.exit_induction (P := fun l' => l.context.SlotAfter l'.context j ∧
      l.context.nextSerial ≤ l'.context.nextSerial) hs ⟨.refl _ j, Nat.le_refl _⟩ ?_ fun _ h => h
    intro l₁ l₂ i g e _ h₁ ha hc
    exact ⟨h₁.1.trans (hc.slotAfter (ha ▸ .stopped) j) h₁.2, Nat.le_trans h₁.2 hc.serial⟩
  | refused h => subst h; exact ⟨.refl _ j, Nat.le_refl _⟩

/-! ### References to remote timers -/

/-- Whoever has the serial number of the reference is a remote timer, now and later. -/
def Refers (c : Context) (r : WatcherRef) : Prop :=
  r.serial < c.nextSerial ∧ ∀ g e, c.watchers.at? r.index = some (g, e) → e.serial = r.serial →
    e.payload.kind = .remoteTimer

variable {r : WatcherRef}

theorem Refers.moved (h : c.Refers r) (hm : c.Moved c') : c'.Refers r := by
  obtain ⟨hslot, hn⟩ := hm.slotAfter r.index
  refine ⟨Nat.lt_of_lt_of_le h.1 hn, fun g e he hs => ?_⟩
  rcases hslot g e he with ⟨e₁, he₁, hs₁, hk, -⟩ | ⟨hnew, -⟩
  · rw [hk]
    exact h.2 g e₁ he₁ (hs₁.symm.trans hs)
  · exact absurd (hs ▸ hnew) (Nat.not_le_of_lt h.1)

theorem Refers.alike (h : c.Refers r) (ha : c.Alike c') : c'.Refers r := by
  refine ⟨ha.serial.symm ▸ h.1, fun g e he hs => ?_⟩
  have hslot := ha.slots r.index
  rw [he] at hslot
  obtain ⟨v, hv, htraits⟩ := Option.map_eq_some_iff.mp hslot.symm
  obtain ⟨-, ht⟩ := Prod.mk.inj htraits
  have hserial : e.serial = v.2.serial := (congrArg Prod.fst ht).symm
  have hkind : v.2.payload.kind = e.payload.kind := congrArg (fun t => t.2.1) ht
  rw [← hkind]
  exact h.2 v.1 v.2 hv (hserial.symm.trans hs)

end Context

theorem Dispatch.refers {l l' : Loop} {now : Nat} {stage : Stage} {stage' : Option Stage}
    {r : WatcherRef} (hs : l.Sound) (h : Dispatch l now stage stage' l') (hr : l.context.Refers r) :
    l'.context.Refers r := by
  rcases h.alike_or_exit with ⟨ha, -⟩ | ⟨wakeups, rfl⟩
  · exact hr.alike ha
  · have hr' : Context.Refers { l.context with wakeups } r := hr
    have hexit : (Loop.exit ⟨{ l.context with wakeups }, l.poller⟩).context.Refers r :=
      hr'.moved ⟨_, _, hs.wakeups wakeups, .exited rfl, rfl, rfl⟩
    exact hexit

/-- Every handle of a remote timer refers to one, as long as its context is there. -/
def World.HandlesRefer (w : World) : Prop :=
  ∀ x ∈ w.timerHandles, x.2.owner < w.contexts.length ∧
    ∀ c, w.context? x.2.owner = some c → c.Refers x.2

namespace Config

variable {s s' : Config} {l l' : Loop}

theorem mem_bind {α : Type} {names : Names α} {name : String} {a : α} {x : String × α}
    (h : x ∈ names.bind name a) : x = (name, a) ∨ x ∈ names := by
  rcases List.mem_cons.mp h with h | h
  · exact Or.inl h
  · exact Or.inr (List.mem_filter.mp h).1

theorem handlesRefer_act (hs : s.world.Sound) (h : s.world.HandlesRefer)
    (ha : s.world.Act s'.world) : s'.world.HandlesRefer := by
  have hold : ∀ r, r.owner < s.world.contexts.length →
      (∀ c, s.world.context? r.owner = some c → c.Refers r) →
      r.owner < s'.world.contexts.length ∧
        ∀ c, s'.world.context? r.owner = some c → c.Refers r := by
    intro r hlt hr
    refine ⟨Nat.lt_of_lt_of_le hlt ha.length_le, fun c' hc' => ?_⟩
    rcases ha.context_after hs hc' with ⟨c, hc, hm⟩ | ⟨-, hge, -⟩
    · exact (hr c hc).moved hm
    · exact absurd hlt (Nat.not_lt_of_le hge)
  intro x hx
  by_cases hmem : x ∈ s.world.timerHandles
  · exact hold x.2 (h x hmem).1 (h x hmem).2
  · cases ha with
    | quiet _ _ ht => exact absurd (ht ▸ hx) hmem
    | moved hr => exact absurd (hr.timerHandles ▸ hx) hmem
    | contextMade _ _ _ _ _ ht => exact absurd (ht ▸ hx) hmem
    | contextDropped _ _ _ _ _ ht => exact absurd (ht ▸ hx) hmem
    | pollerMade _ _ ht => exact absurd (ht ▸ hx) hmem
    | pollerKilled _ _ _ ht => exact absurd (ht ▸ hx) hmem
    | @handleMade name r c g e t hc hat hp hser hcs hps ht =>
      rcases mem_bind (ht ▸ hx) with rfl | hm
      · refine hold r (World.context?_lt hc) fun c' hc' => ?_
        obtain rfl := Option.some.inj (hc.symm.trans hc')
        obtain ⟨-, hsound⟩ := hs.context r.owner c hc
        refine ⟨hser ▸ hsound.serial r.index g e hat, fun g' e' he' _ => ?_⟩
        obtain ⟨-, rfl⟩ := Prod.mk.inj (Option.some.inj (hat.symm.trans he'))
        rw [hp]
        rfl
      · exact absurd hm hmem

theorem handlesRefer_replaced {id : Nat} (h : s.world.HandlesRefer)
    (hr : s.world.Replaced s'.world id l l')
    (hl : ∀ r, l.context.Refers r → l'.context.Refers r) : s'.world.HandlesRefer := by
  intro x hx
  rw [hr.timerHandles] at hx
  obtain ⟨hlt, hrefers⟩ := h x hx
  refine ⟨hr.contexts_length.symm ▸ hlt, fun c hc => ?_⟩
  by_cases hid : x.2.owner = id
  · subst hid
    obtain rfl := Option.some.inj (hr.context_self.symm.trans hc)
    exact hl x.2 (hrefers _ (World.loop?_eq_some.mp hr.loop).1)
  · exact hrefers c (hr.context_other _ hid ▸ hc)

theorem inductive_handlesRefer : Inductive fun s => s.world.HandlesRefer where
  act := fun _ _ hs h ha _ => handlesRefer_act hs.world h ha
  entered := by
    intro s s' l hs h he
    refine handlesRefer_replaced h he.replaced fun r hr => ?_
    have hsl := (hs.world.loop he.replaced.loop).2
    exact hr.alike (World.entering_alike hsl)
  dispatched := by
    intro s s' x below l l' stage hs h hd
    have hsl := (hs.world.loop hd.replaced.loop).2
    exact handlesRefer_replaced h hd.replaced fun r hr => hd.dispatch.refers hsl hr

end Config

/-! ### In every reachable state -/

/-- How the slots of a context, its roster and its watchers fit together. -/
structure Context.Structured (c : Context) : Prop where
  linked_iff : ∀ i, c.roster.contains i = true ↔
    ∃ g e, c.watchers.at? i = some (g, e) ∧
      (e.payload.kind = .remoteTimer ∨ e.active = true)
  /-- A pass walks the linked slots, each once. -/
  walked_iff : ∀ i, i ∈ c.roster.toList ↔ c.roster.contains i = true
  walked_once : c.roster.toList.Nodup
  armable : ∀ i g e t, c.watchers.at? i = some (g, e) → e.isActive = true →
    e.payload.timer? = some t → 0 < t.timeout ∨ 0 < t.period
  attached : ∀ i g e t, c.watchers.at? i = some (g, e) → e.payload = .remote t →
    t.reachable = true
  own_flag : ∀ i g e t, c.watchers.at? i = some (g, e) → e.payload = .remote t → e.active = false
  aimed : ∀ i g e io, c.watchers.at? i = some (g, e) → e.payload = .io io →
    (∃ p, c.poller = some p) ∧ 0 ≤ io.fd ∧ io.interest.isEmpty = false ∧
      io.interest.subset Events.askable = true
  /-- Neither arming nor dispatch comes upon an empty slot. -/
  occupied : ∀ i, i ∈ c.roster.toList ∨ c.roster.next.2 = some i →
    ∃ g e, c.watchers.at? i = some (g, e)

theorem isLinked_iff {e : Entry} :
    e.isLinked = true ↔ e.payload.kind = .remoteTimer ∨ e.active = true := by
  rw [Entry.isLinked, Bool.or_eq_true]
  refine or_congr ?_ Iff.rfl
  cases e.payload <;> simp [Payload.isRemote, Payload.kind]

theorem Context.Sound.structured {c : Context} (h : c.Sound) : c.Structured := by
  have hoccupied : ∀ i, i ∈ c.roster.toList → ∃ g e, c.watchers.at? i = some (g, e) := by
    intro i hi
    obtain ⟨g, e, he, -⟩ := (h.linked_iff i).mp hi
    exact ⟨g, e, he⟩
  constructor
  · intro i
    rw [h.roster.contains_iff, h.linked_iff]
    exact exists_congr fun g => exists_congr fun e => and_congr_right fun _ => isLinked_iff
  · exact fun i => (h.roster.contains_iff i).symm
  · exact h.roster.nodup
  · intro i g e t he ha ht
    have hfit := h.fits i g e he
    have hset : t.isSet = true := by
      cases hp : e.payload with
      | timer t' =>
        simp only [Entry.Fits, hp] at hfit
        simp only [Entry.isActive, hp] at ha
        obtain rfl : t' = t := by simpa [Payload.timer?, hp] using ht
        exact hfit ha
      | remote r =>
        simp only [Entry.Fits, hp] at hfit
        simp only [Entry.isActive, hp] at ha
        obtain rfl : r.timer = t := by simpa [Payload.timer?, hp] using ht
        exact hfit.2.2 ha
      | io io => simp [Payload.timer?, hp] at ht
      | event flag => simp [Payload.timer?, hp] at ht
    simpa [Timer.isSet] using hset
  · intro i g e t he hp
    have hfit := h.fits i g e he
    simp only [Entry.Fits, hp] at hfit
    exact hfit.1
  · intro i g e t he hp
    have hfit := h.fits i g e he
    simp only [Entry.Fits, hp] at hfit
    exact hfit.2.1
  · intro i g e io he hp
    have hfit := h.fits i g e he
    simp only [Entry.Fits, hp] at hfit
    obtain ⟨hinterest, hfd⟩ := Loop.checkIo_ok.mp hfit.2.1
    simp only [Events.isInterest, Bool.and_eq_true, Bool.not_eq_true'] at hinterest
    exact ⟨Option.isSome_iff_exists.mp hfit.1, hfd, hinterest.1, hinterest.2⟩
  · rintro i (hi | hi)
    · exact hoccupied i hi
    · rw [h.roster.next_eq] at hi
      exact hoccupied i (h.roster.mem_toList_of_remaining (List.mem_of_mem_head? hi))

end EventLoop
