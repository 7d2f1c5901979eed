import EventLoop.Proofs.WatchList

/-!
# Who keeps a place in the roster

A pass has a slot still to visit as long as nobody else has taken the place there. A watcher that is
unlinked loses its place, and whoever is linked next has another serial number, or has drawn another
ticket, or was linked by another operation.
-/
namespace EventLoop

/-- The serial number of a watcher, and the ticket of an I/O watcher that is started. -/
def Entry.tenure (e : Entry) : Nat × Option Nat := (e.serial, e.aim?.map Prod.fst)

/-- Who has the place of a slot in the roster, if anybody has. -/
def Context.tenure? (c : Context) (i : Nat) : Option (Nat × Option Nat) :=
  if c.roster.contains i then (c.watchers.at? i).map fun v => v.2.tenure else none

namespace Context

variable {c c' c'' : Context} {i : Nat}

theorem tenure?_of_mem (hr : c.roster.WellFormed) (hi : i ∈ c.roster.toList) :
    c.tenure? i = (c.watchers.at? i).map fun v => v.2.tenure :=
  if_pos ((hr.contains_iff i).mpr hi)

theorem tenure?_of_not_mem (hr : c.roster.WellFormed) (hi : i ∉ c.roster.toList) :
    c.tenure? i = none :=
  if_neg fun hc => hi ((hr.contains_iff i).mp hc)

theorem Sound.tenure?_isSome (hs : c.Sound) (hi : i ∈ c.roster.toList) :
    (c.tenure? i).isSome = true := by
  obtain ⟨g, e, ha, -⟩ := (hs.linked_iff i).mp hi
  rw [tenure?_of_mem hs.roster hi, ha]
  rfl

/-- The same watchers have the same places. -/
theorem Alike.tenure? (h : c.Alike c') (hr : c'.roster.contains i = c.roster.contains i) :
    c'.tenure? i = c.tenure? i := by
  have hslot : (c'.watchers.at? i).map (fun v => v.2.tenure) =
      (c.watchers.at? i).map fun v => v.2.tenure := by
    have h' := congrArg (Option.map fun v => (v.2.1, v.2.2.2.map Prod.fst)) (h.slots i)
    rwa [Option.map_map, Option.map_map] at h'
  rw [Context.tenure?, Context.tenure?, hr, hslot]

/-- The pass goes on with those slots that are left to it as they were. -/
structure Onward (c c' : Context) : Prop where
  rest : c'.roster.remaining.Sublist c.roster.remaining
  kept : ∀ i ∈ c.roster.remaining, i ∈ c'.roster.remaining ↔ c'.tenure? i = c.tenure? i

theorem Onward.of_same (hr : c'.roster.remaining = c.roster.remaining)
    (ht : ∀ i, c'.tenure? i = c.tenure? i) : c.Onward c' where
  rest := hr ▸ List.Sublist.refl _
  kept := fun i hi => iff_of_true (hr ▸ hi) (ht i)

theorem Onward.before (h : c'.Onward c'') (hr : c'.roster.remaining = c.roster.remaining)
    (ht : ∀ i, c'.tenure? i = c.tenure? i) : c.Onward c'' where
  rest := hr ▸ h.rest
  kept := fun i hi => ht i ▸ h.kept i (hr ▸ hi)

theorem Onward.andThen (h : c.Onward c') (hr : c''.roster.remaining = c'.roster.remaining)
    (ht : ∀ i, c''.tenure? i = c'.tenure? i) : c.Onward c'' where
  rest := hr ▸ h.rest
  kept := fun i hi => by rw [hr, ht, h.kept i hi]

end Context

/-! ### Places after a change -/

namespace Loop

variable {l l' : Loop} {i j : Nat} {g : Generation} {e : Entry} {x : SlotChange}

/-- A linked watcher that does not leave its place keeps its serial number and its ticket. -/
theorem Operation.tenure_of_stays (h : l.Operation i (some (g, e)) x) (hl : e.isLinked = true)
    (hk : x.linking.leaves = false) : ∃ e', x.after = some (g, e') ∧ e'.tenure = e.tenure := by
  cases h with
  | woken => exact ⟨e, rfl, rfl⟩
  | timerSet _ _ _ hp => exact ⟨_, rfl, by simp [Entry.tenure, Entry.aim?, hp]⟩
  | remoteSet _ _ _ hp => exact ⟨_, rfl, by simp [Entry.tenure, Entry.aim?, hp]⟩
  | remoteStopped hp => exact ⟨_, rfl, by simp [Entry.tenure, Entry.aim?, hp]⟩
  | stopped =>
    cases hp : e.payload with
    | remote r =>
      exact ⟨_, rfl, by simp [Entry.tenure, Entry.aim?, Entry.stopped, stoppedPayload, hp]⟩
    | _ => simp [hp, Payload.isRemote, Linking.leaves] at hk
  | released => contradiction
  | ioStarted hp _ _ _ hk' =>
    rcases hk' with ⟨-, ha⟩ | rfl
    · simp [Entry.isLinked, Payload.isRemote, hp, ha] at hl
    · contradiction
  | ioRefused hp _ _ hk' =>
    rcases hk' with ⟨-, ha⟩ | rfl
    · simp [Entry.isLinked, Payload.isRemote, hp, ha] at hl
    · contradiction
  | posted hp => exact ⟨_, rfl, by simp [Entry.tenure, Entry.aim?, hp]⟩
  | delivered hp => exact ⟨_, rfl, by simp [Entry.tenure, Entry.aim?, hp]⟩

/-- The tickets of started watchers were drawn before. -/
def Drawn (l : Loop) : Prop :=
  ∀ i g e a q, l.context.watchers.at? i = some (g, e) → e.aim? = some a → l.poller = some q →
    a.1 < q.nextTicket

/-- A watcher that is linked anew draws another ticket. -/
theorem Operation.tenure_of_relink (h : l.Operation i (some (g, e)) x) (hk : x.linking = .relink)
    (hd : ∀ a q, e.aim? = some a → l.poller = some q → a.1 < q.nextTicket) :
    ∀ g' e', x.after = some (g', e') → e'.tenure ≠ e.tenure := by
  intro g' e' ha ht
  cases h with
  | ioStarted hp hq =>
    obtain ⟨-, rfl⟩ := Prod.mk.inj (Option.some.inj ha)
    obtain ⟨a, haim, hnext⟩ := Option.map_eq_some_iff.mp (congrArg Prod.snd ht).symm
    exact Nat.lt_irrefl _ (hnext ▸ hd a _ haim hq)
  | timerSet => simp only [Timer.linking] at hk; split at hk <;> contradiction
  | remoteSet _ _ _ _ _ _ hk' => rcases hk' with rfl | rfl <;> contradiction
  | stopped => dsimp only at hk; split at hk <;> contradiction
  | ioRefused _ _ _ hk' => rcases hk' with ⟨rfl, -⟩ | rfl <;> contradiction
  | _ => contradiction

theorem Changed.tenure_other (hc : l.Changed l' i x) (hr : l.context.roster.WellFormed)
    (hj : j ≠ i) : l'.context.tenure? j = l.context.tenure? j := by
  rw [Context.tenure?, Context.tenure?, hc.roster, x.linking.contains_apply hr hj, hc.at_other j hj]

theorem Changed.roster_wellFormed (hc : l.Changed l' i x) (hr : l.context.roster.WellFormed) :
    l'.context.roster.WellFormed :=
  hc.roster ▸ x.linking.wellFormed_apply hr i

/-- A slot that is linked after the change has the place of the watcher that is in it then. -/
theorem Changed.tenure_self (hc : l.Changed l' i x) (hr : l.context.roster.WellFormed)
    (hk : x.linking.outcome.elim (i ∈ l.context.roster.toList) (· = true)) :
    l'.context.tenure? i = x.after.map fun v => v.2.tenure := by
  rw [← x.linking.mem_apply_self hr, ← hc.roster] at hk
  rw [Context.tenure?_of_mem (hc.roster_wellFormed hr) hk, hc.at_self]

theorem Changed.tenure_unlinked (hc : l.Changed l' i x) (hr : l.context.roster.WellFormed)
    (hk : x.linking = .unlink) : l'.context.tenure? i = none := by
  refine Context.tenure?_of_not_mem (hc.roster_wellFormed hr) fun hm => ?_
  rw [hc.roster, x.linking.mem_apply_self hr, hk] at hm
  contradiction

theorem Changed.onward (hc : l.Changed l' i x) (ho : l.Operation i (l.context.watchers.at? i) x)
    (hs : l.Sound) (hd : x.linking = .relink → l.Drawn) : l.context.Onward l'.context := by
  have hr := hs.context.roster
  have hrest : l'.context.roster.remaining =
      if x.linking.leaves then l.context.roster.remaining.erase i
      else l.context.roster.remaining := by
    rw [hc.roster]
    exact x.linking.remaining_apply hr i
  refine ⟨?_, fun j hj => ?_⟩
  · rw [hrest]
    split
    · exact List.erase_sublist
    · exact .refl _
  by_cases hji : j = i
  · subst hji
    have hlinked := hr.mem_toList_of_remaining hj
    obtain ⟨g, e, ha, he⟩ := (hs.context.linked_iff j).mp hlinked
    have hbefore : l.context.tenure? j = some e.tenure := by
      rw [Context.tenure?_of_mem hr hlinked, ha]
      rfl
    have hleft : j ∉ l.context.roster.remaining.erase j := fun hm =>
      (hr.nodup_remaining.mem_erase_iff.mp hm).1 rfl
    rw [hbefore, hrest]
    rw [ha] at ho
    cases hk : x.linking with
    | unlink =>
      refine iff_of_false hleft ?_
      rw [hc.tenure_unlinked hr hk]
      exact fun h => nomatch h
    | relink =>
      refine iff_of_false hleft fun ht => ?_
      rw [hc.tenure_self hr (by rw [hk]; rfl)] at ht
      obtain ⟨⟨g', e'⟩, hafter, hsame⟩ := Option.map_eq_some_iff.mp ht
      exact ho.tenure_of_relink hk (fun a q => hd hk j g e a q ha) g' e' hafter hsame
    | keep =>
      obtain ⟨e', hafter, ht⟩ := ho.tenure_of_stays he (by rw [hk]; rfl)
      refine iff_of_true hj ?_
      rw [hc.tenure_self hr (by rw [hk]; exact hlinked), hafter, Option.map_some, ht]
    | link =>
      obtain ⟨e', hafter, ht⟩ := ho.tenure_of_stays he (by rw [hk]; rfl)
      refine iff_of_true hj ?_
      rw [hc.tenure_self hr (by rw [hk]; rfl), hafter, Option.map_some, ht]
  · refine iff_of_true ?_ (hc.tenure_other hr hji)
    rw [hrest]
    split
    · exact (List.mem_erase_of_ne hji).mpr hj
    · exact hj

end Loop

/-! ### Places after an exit -/

/-- The pass goes on, and nobody has taken a place. -/
structure Context.Fading (c c' : Context) : Prop extends Context.Onward c c' where
  faded : ∀ i, c'.tenure? i = c.tenure? i ∨ c'.tenure? i = none

theorem Context.Fading.trans {c c₁ c₂ : Context} (h : c.Fading c₁) (h' : c₁.Fading c₂)
    (hs : ∀ i ∈ c.roster.remaining, c.tenure? i ≠ none) : c.Fading c₂ where
  rest := h'.rest.trans h.rest
  kept := by
    intro i hi
    constructor
    · intro hm
      have hm₁ := h'.rest.subset hm
      exact ((h'.kept i hm₁).mp hm).trans ((h.kept i hi).mp hm₁)
    · intro ht
      rcases h'.faded i with ht' | hnone
      · have hm₁ := (h.kept i hi).mpr (ht'.symm.trans ht)
        exact (h'.kept i hm₁).mpr ht'
      · exact absurd (ht.symm.trans hnone) (hs i hi)
  faded := by
    intro i
    rcases h'.faded i with ht | hnone
    · rw [ht]
      exact h.faded i
    · exact Or.inr hnone

namespace Loop

variable {l l' : Loop} {i : Nat} {g : Generation} {e : Entry}

theorem Changed.fading (hs : l.Sound) (ha : l.context.watchers.at? i = some (g, e))
    (hc : l.Changed l' i ⟨some (g, e.stopped), if e.payload.isRemote then .keep else .unlink, none,
      l.poller.map e.withdraw⟩) : l.context.Fading l'.context where
  toOnward := by
    refine hc.onward (ha ▸ .stopped) hs fun hk => ?_
    dsimp only at hk
    split at hk <;> contradiction
  faded := by
    intro j
    have hr := hs.context.roster
    by_cases hj : j = i
    · subst hj
      cases hremote : e.payload.isRemote with
      | false => exact Or.inr (hc.tenure_unlinked hr (by simp [hremote]))
      | true =>
        have hlinked : e.isLinked = true := by rw [Entry.isLinked, hremote, Bool.true_or]
        have hm := (hs.context.linked_iff j).mpr ⟨g, e, ha, hlinked⟩
        obtain ⟨e', hafter, ht⟩ := (Operation.stopped (l := l) (i := j) (g := g)).tenure_of_stays
          hlinked (by simp [hremote, Linking.leaves])
        left
        rw [hc.tenure_self hr (by simpa [hremote, Linking.outcome] using hm), hafter,
          Context.tenure?_of_mem hr hm, ha, Option.map_some, Option.map_some, ht]
    · exact Or.inl (hc.tenure_other hr hj)

theorem fading_exit (hs : l.Sound) : l.context.Fading l.exit.context := by
  refine exit_induction (P := fun l' => l.context.Fading l'.context) hs ?_ ?_ ?_
  · exact ⟨.of_same rfl fun _ => rfl, fun _ => Or.inl rfl⟩
  · intro l₁ l₂ i g e hs₁ h₁ ha hc
    refine h₁.trans (hc.fading hs₁ ha) fun i hi hnone => ?_
    have hsome := hs.context.tenure?_isSome (hs.context.roster.mem_toList_of_remaining hi)
    rw [hnone] at hsome
    contradiction
  · exact fun l₁ h₁ => ⟨h₁.toOnward.andThen rfl fun _ => rfl, h₁.faded⟩

/-- Every move lets the pass go on. -/
theorem Move.onward (hs : l.Sound) (hd : l.Drawn) (hm : l.Move l') :
    l.context.Onward l'.context := by
  cases hm with
  | slot ho hc => exact hc.onward ho hs fun _ => hd
  | exitRequested h => exact h ▸ .of_same rfl fun _ => rfl
  | exited h => exact h ▸ (fading_exit hs).toOnward
  | refused h => exact h ▸ .of_same rfl fun _ => rfl

end Loop

namespace World

variable {w w' : World} {id : Nat} {c c' : Context} {l : Loop}

theorem Mirrored.drawn (h : w.Mirrored) (hl : w.loop? id = some l) : l.Drawn := by
  intro i g e a q hat haim hq
  obtain ⟨hc, hp⟩ := loop?_eq_some.mp hl
  obtain ⟨p, hnum, hpoller⟩ := Option.bind_eq_some_iff.mp (hp.symm.trans hq)
  have hlisted : Listed q (w.Watching p) := h p q hpoller
  let r : WatcherRef := ⟨l.context.id, i, e.serial⟩
  have hwatched : l.context.watched? i = some ⟨a.1, r, a.2.1, a.2.2⟩ := by
    rw [Context.watched?, hat]
    exact (watched?_eq_aim e r).trans (by rw [haim]; rfl)
  exact hlisted.drawn _ ((hlisted.mem_iff _).mpr ⟨id, l.context, i, hc, hnum, hwatched⟩)

theorem Act.onward (hs : w.Sound) (hm : w.Mirrored) (ha : w.Act w') (h : w.context? id = some c)
    (h' : w'.context? id = some c') : c.Onward c' := by
  have hsame : w'.context? id = w.context? id → c.Onward c' := by
    intro he
    obtain rfl := Option.some.inj (h.symm.trans (he.symm.trans h'))
    exact .of_same rfl fun _ => rfl
  cases ha with
  | quiet hc => exact hsame (context?_congr hc id)
  | @moved id₁ l l' hr hmove =>
    by_cases hid : id = id₁
    · subst hid
      obtain rfl := Option.some.inj ((loop?_eq_some.mp hr.loop).1.symm.trans h)
      obtain rfl := Option.some.inj (hr.context_self.symm.trans h')
      exact hmove.onward (hs.loop hr.loop).2 (hm.drawn hr.loop)
    · exact hsame (hr.context_other id hid)
  | contextMade clock poller _ hc =>
    refine hsame ?_
    rw [context?_append hc, if_neg (Nat.ne_of_lt (context?_lt h))]
  | contextDropped _ _ _ hc =>
    rw [context?_set_none hc] at h'
    split at h'
    · contradiction
    · next hid => exact hsame (by rw [context?_set_none hc, if_neg hid])
  | pollerMade hc => exact hsame (context?_congr hc id)
  | pollerKilled _ hc => exact hsame (context?_congr hc id)
  | handleMade _ _ _ _ hc => exact hsame (context?_congr hc id)

/-- Calm acts leave a busy context with the roster and the traits that it has. -/
theorem Calms.still (hs : w.Sound) (h : w.Calms w') (hc : w.context? id = some c)
    (hb : c.busy = true) :
    ∃ c', w'.context? id = some c' ∧ c'.busy = true ∧ c'.roster = c.roster ∧ c.Alike c' := by
  induction h with
  | refl => exact ⟨c, hc, hb, rfl, .refl c⟩
  | tail h₁ h₂ ih =>
    obtain ⟨c₁, hc₁, hb₁, hr₁, ha₁⟩ := ih
    rcases h₂.act.context_before (hs.acts (Calms.acts h₁)) hc₁ with ⟨c₂, hc₂, hmoved⟩ | ⟨-, hidle⟩
    · obtain ⟨hr₂, ha₂⟩ := h₂.same id c₁ c₂ hc₁ hc₂
      exact ⟨c₂, hc₂, hmoved.busy.trans hb₁, hr₂.trans hr₁, ha₁.trans ha₂⟩
    · rw [hidle] at hb₁
      contradiction

theorem Mirrored.acts (h : w.Mirrored) (hs : w.Sound) (ha : w.Acts w') : w'.Mirrored := by
  induction ha with
  | refl => exact h
  | tail h₁ h₂ ih => exact ih.act (hs.acts h₁) h₂

/-- Whatever happens meanwhile, the pass of a busy context can go on. -/
theorem Course.onward (hs : w.Sound) (hm : w.Mirrored) (h : w.Course w')
    (hc : w.context? id = some c) (hb : c.busy = true) :
    ∃ c', w'.context? id = some c' ∧ c.Onward c' := by
  obtain ⟨w₁, w₂, h₁, h₂, h₃⟩ := h
  have hs₁ := hs.acts h₁.acts
  obtain ⟨c₁, hc₁, hb₁, hr₁, ha₁⟩ := h₁.still hs hc hb
  have hsame₁ := fun i => ha₁.tenure? (i := i) (by rw [hr₁])
  obtain ⟨c₂, hc₂, hb₂, hs₂, hon⟩ : ∃ c₂, w₂.context? id = some c₂ ∧ c₂.busy = true ∧ w₂.Sound ∧
      c₁.Onward c₂ := by
    rcases h₂ with rfl | h₂
    · exact ⟨c₁, hc₁, hb₁, hs₁, .of_same rfl fun _ => rfl⟩
    · rcases h₂.context_before hs₁ hc₁ with ⟨c₂, hc₂, hmoved⟩ | ⟨-, hidle⟩
      · exact ⟨c₂, hc₂, hmoved.busy.trans hb₁, hs₁.act h₂,
          h₂.onward hs₁ (hm.acts hs h₁.acts) hc₁ hc₂⟩
      · rw [hidle] at hb₁
        contradiction
  obtain ⟨c₃, hc₃, -, hr₃, ha₃⟩ := h₃.still hs₂ hc₂ hb₂
  have hsame₃ := fun i => ha₃.tenure? (i := i) (by rw [hr₃])
  exact ⟨c₃, hc₃, (hon.before (by rw [hr₁]) hsame₁).andThen (by rw [hr₃]) hsame₃⟩

end World
end EventLoop
