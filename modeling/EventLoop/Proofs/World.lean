import EventLoop.Proofs.Dispatch
import EventLoop.World.Perform
import Mathlib.Logic.Relation

/-!
# What a step of a scenario can do to the world

Apart from entering a run, every step of a scenario and every poll is a chain of acts. An act moves
one loop, makes or drops a context, makes or kills a poller, or hands out a handle. Invariants over
all contexts and pollers are proved from the acts.
-/
namespace EventLoop

/-! ### What a move leaves alone -/

/-- What every move of a loop leaves as it was. -/
theorem Loop.Move.frame {l l' : Loop} (hs : l.Sound) (hm : l.Move l') :
    l'.context.id = l.context.id ∧ l'.context.poller = l.context.poller ∧
      l'.context.clock = l.context.clock ∧ l'.context.busy = l.context.busy := by
  cases hm with
  | slot _ hc => exact ⟨hc.id, hc.number, hc.clock, hc.busy⟩
  | exitRequested h => subst h; exact ⟨rfl, rfl, rfl, rfl⟩
  | exited h =>
    obtain ⟨hid, hnum, hclock, hbusy, -⟩ := exit_frame hs
    exact h ▸ ⟨hid, hnum, hclock, hbusy⟩
  | refused h => exact h ▸ ⟨rfl, rfl, rfl, rfl⟩

namespace World

variable {w w' : World} {id : Nat} {c : Context} {l l' : Loop}

/-! ### Replacing a loop -/

theorem context?_eq_some : w.context? id = some c ↔ w.contexts[id]? = some (some c) := by
  rw [context?, Option.join_eq_some_iff]

theorem context?_lt (h : w.context? id = some c) : id < w.contexts.length :=
  (List.getElem?_eq_some_iff.mp (context?_eq_some.mp h)).1

theorem context?_put_self (h : w.context? id = some c) (c' : Context) :
    (w.putContext id c').context? id = some c' := by
  rw [context?_eq_some]
  simp [putContext, context?_lt h]

theorem context?_put_other {j : Nat} (hj : j ≠ id) (c' : Context) :
    (w.putContext id c').context? j = w.context? j := by
  simp [putContext, context?, hj.symm]

theorem context?_putLoop (w : World) (id : Nat) (l : Loop) (j : Nat) :
    (w.putLoop id l).context? j = (w.putContext id l.context).context? j := by
  unfold putLoop
  split <;> rfl

theorem context?_putLoop_self (h : w.context? id = some c) (l : Loop) :
    (w.putLoop id l).context? id = some l.context :=
  (context?_putLoop w id l id).trans (context?_put_self h l.context)

theorem putContext_self (h : w.context? id = some c) : w.putContext id c = w := by
  have hset : w.contexts.set id (some c) = w.contexts := by
    refine List.ext_getElem? fun j => ?_
    by_cases hj : id = j
    · subst hj
      rw [List.getElem?_set_self (context?_lt h), context?_eq_some.mp h]
    · exact List.getElem?_set_ne hj
  rw [putContext, hset]

theorem putContext_putContext (w : World) (id : Nat) (c c' : Context) :
    (w.putContext id c).putContext id c' = w.putContext id c' := by
  rw [putContext, putContext, putContext, List.set_set]

theorem loop?_eq_some : w.loop? id = some l ↔
    w.context? id = some l.context ∧ l.poller = l.context.poller.bind fun p => w.pollers[p]? := by
  obtain ⟨c, q⟩ := l
  cases hc : w.context? id with
  | none => simp [loop?, hc]
  | some c' =>
    simp only [loop?, hc, Option.map_some, Option.some.injEq, Loop.mk.injEq]
    constructor
    · rintro ⟨rfl, rfl⟩
      exact ⟨rfl, rfl⟩
    · rintro ⟨rfl, rfl⟩
      exact ⟨rfl, rfl⟩

/-- Replacing a loop by one with the same poller replaces its context. -/
theorem putLoop_of_poller (h : w.loop? id = some l) {c : Context}
    (hp : c.poller = l.context.poller) : w.putLoop id ⟨c, l.poller⟩ = w.putContext id c := by
  obtain ⟨-, hpoller⟩ := loop?_eq_some.mp h
  unfold putLoop
  dsimp only
  split
  · next p poller hp' hpoller' =>
    have hat : w.pollers[p]? = some poller := by
      rw [← hpoller', hpoller, ← hp, hp', Option.bind_some]
    have hset : w.pollers.set p poller = w.pollers := by
      obtain ⟨hlt, rfl⟩ := List.getElem?_eq_some_iff.mp hat
      exact List.set_getElem_self hlt
    dsimp only [putContext]
    rw [hset]
  · rfl

/-- The world `w'` is `w` with the loop `l` of a context replaced by `l'`. -/
structure Replaced (w w' : World) (id : Nat) (l l' : Loop) : Prop where
  loop : w.loop? id = some l
  context_self : w'.context? id = some l'.context
  context_other : ∀ j, j ≠ id → w'.context? j = w.context? j
  contexts_length : w'.contexts.length = w.contexts.length
  pollers_length : w'.pollers.length = w.pollers.length
  poller_self : ∀ p, l.context.poller = some p → w'.pollers[p]? = l'.poller
  poller_other : ∀ p, l.context.poller ≠ some p → w'.pollers[p]? = w.pollers[p]?
  timerHandles : w'.timerHandles = w.timerHandles
  orphans : w'.orphans = w.orphans

theorem replaced_putContext (h : w.loop? id = some l) (c : Context) :
    w.Replaced (w.putContext id c) id l ⟨c, l.poller⟩ := by
  obtain ⟨hc, hp⟩ := loop?_eq_some.mp h
  exact {
    loop := h
    context_self := context?_put_self hc c
    context_other := fun j hj => context?_put_other hj c
    contexts_length := List.length_set
    pollers_length := rfl
    poller_self := fun p hn => by rw [hp, hn]; rfl
    poller_other := fun _ _ => rfl
    timerHandles := rfl
    orphans := rfl }

theorem replaced_putLoop (h : w.loop? id = some l) (hn : l'.context.poller = l.context.poller)
    (hq : l'.poller.isSome = l.poller.isSome) : w.Replaced (w.putLoop id l') id l l' := by
  obtain ⟨hc, hp⟩ := loop?_eq_some.mp h
  cases hl : l.poller with
  | none =>
    have hl' : l'.poller = none := by
      rw [← Option.not_isSome_iff_eq_none, hq, hl]
      exact Bool.false_ne_true
    have hput : w.putLoop id l' = w.putContext id l'.context := by
      rw [putLoop, hl']
      cases l'.context.poller <;> rfl
    have hr := replaced_putContext h l'.context
    rw [hl, ← hl'] at hr
    rw [hput]
    exact hr
  | some q =>
    obtain ⟨q', hl'⟩ := Option.isSome_iff_exists.mp (hq.trans (hl ▸ rfl))
    obtain ⟨n, hnum, hat⟩ := Option.bind_eq_some_iff.mp (hp.symm.trans hl)
    have hlt : n < w.pollers.length := (List.getElem?_eq_some_iff.mp hat).1
    have hput : w.putLoop id l' =
        { w.putContext id l'.context with pollers := w.pollers.set n q' } := by
      rw [putLoop, hn, hnum, hl']
      rfl
    rw [hput]
    exact {
      loop := h
      context_self := context?_put_self hc l'.context
      context_other := fun j hj => context?_put_other hj l'.context
      contexts_length := List.length_set
      pollers_length := List.length_set
      poller_self := fun p hp => by
        obtain rfl := Option.some.inj (hnum.symm.trans hp)
        simp [hlt, hl']
      poller_other := fun p hp => by
        have hne : n ≠ p := fun he => hp (he ▸ hnum)
        simp [hne]
      timerHandles := rfl
      orphans := rfl }

/-! ### Acts -/

/-- The watcher that a reference means, if its context is there. -/
def meant? (w : World) (r : WatcherRef) : Option Entry :=
  (w.context? r.owner).bind fun c => c.meant? r

/-- The watcher of the reference was there once, be it there now or not. -/
def Knows (w : World) (r : WatcherRef) : Prop :=
  r.owner < w.contexts.length ∧ ∀ c, w.context? r.owner = some c → r.serial < c.nextSerial

/-- The watcher of the reference was there once, and is gone. -/
def Lacks (w : World) (r : WatcherRef) : Prop := w.Knows r ∧ w.meant? r = none

/-- The remote timers that are left behind have been cut off and their watchers are gone, and those
that were left behind before are kept as they are. -/
def LeavesBehind (w w' : World) : Prop :=
  ∃ shared : List (WatcherRef × RemoteTimer),
    (∀ x ∈ shared, x.2.IsCutOff ∧ w.Lacks x.1) ∧ w'.orphans = shared ++ w.orphans

/-- Nobody is there whom the reference means, and its serial number was given out. -/
theorem lacks_of_context? {r : WatcherRef} (hc : w.context? r.owner = some c)
    (hserial : r.serial < c.nextSerial) (hm : c.meant? r = none) : w.Lacks r := by
  refine ⟨⟨context?_lt hc, fun c' hc' => ?_⟩, by rw [meant?, hc, Option.bind_some, hm]⟩
  obtain rfl := Option.some.inj (hc.symm.trans hc')
  exact hserial

/-- Nobody is there in a context that was dropped. -/
theorem lacks_of_dropped {r : WatcherRef} (hlt : r.owner < w.contexts.length)
    (hnone : w.context? r.owner = none) : w.Lacks r := by
  refine ⟨⟨hlt, fun c hc => ?_⟩, by rw [meant?, hnone, Option.bind_none]⟩
  exact nomatch hnone.symm.trans hc

theorem LeavesBehind.of_eq (h : w'.orphans = w.orphans) : w.LeavesBehind w' :=
  ⟨[], fun _ hx => absurd hx List.not_mem_nil, h⟩

/-- What one step of a scenario or one delivery of a poll does to contexts, pollers and handles. -/
inductive Act (w w' : World) : Prop
  | quiet : w'.contexts = w.contexts → w'.pollers = w.pollers →
      w'.timerHandles = w.timerHandles → w.LeavesBehind w' → Act w w'
  | moved {id : Nat} {l l' : Loop} : w.Replaced w' id l l' → l.Move l' → Act w w'
  | contextMade (clock : ClockSource) (poller : Option Nat) :
      (∀ p, poller = some p → p < w.pollers.length) →
      w'.contexts = w.contexts ++ [some (Context.create w.contexts.length clock poller)] →
      w'.pollers = w.pollers → w'.timerHandles = w.timerHandles → w'.orphans = w.orphans → Act w w'
  /-- A context that is not running is dropped, after all its watchers were stopped. -/
  | contextDropped {id : Nat} {c : Context} : w.context? id = some c → c.busy = false →
      (∀ i, Loop.Idle (c.watchers.at? i)) → w'.contexts = w.contexts.set id none →
      w'.pollers = w.pollers → w'.timerHandles = w.timerHandles → w'.orphans = w.orphans → Act w w'
  | pollerMade : w'.contexts = w.contexts → w'.pollers = w.pollers ++ [Poller.create] →
      w'.timerHandles = w.timerHandles → w'.orphans = w.orphans → Act w w'
  | pollerKilled {p q} : w.pollers[p]? = some q → w'.contexts = w.contexts →
      w'.pollers = w.pollers.set p q.kill → w'.timerHandles = w.timerHandles →
      w'.orphans = w.orphans → Act w w'
  /-- A handle of a remote timer is made. -/
  | handleMade {name : String} {r : WatcherRef} {c : Context} {g e t} :
      w.context? r.owner = some c →
      c.watchers.at? r.index = some (g, e) → e.payload = .remote t → e.serial = r.serial →
      w'.contexts = w.contexts → w'.pollers = w.pollers →
      w'.timerHandles = w.timerHandles.bind name r → w'.orphans = w.orphans → Act w w'

abbrev Acts := Relation.ReflTransGen Act

/-- An act that leaves the rosters and the traits of all watchers alone. -/
structure Calm (w w' : World) : Prop where
  act : w.Act w'
  same : ∀ id c c', w.context? id = some c → w'.context? id = some c' →
    c'.roster = c.roster ∧ c.Alike c'

abbrev Calms := Relation.ReflTransGen Calm

/-- Any one act among calm ones. -/
def Course (w w' : World) : Prop :=
  ∃ w₁ w₂, w.Calms w₁ ∧ (w₂ = w₁ ∨ w₁.Act w₂) ∧ w₂.Calms w'

/-- Contexts know their own number and the number of a poller, and each of them is sound. The remote
timers whose watchers are gone have been cut off. -/
structure Sound (w : World) : Prop where
  context : ∀ id c, w.context? id = some c → c.id = id ∧ c.Sound
  number : ∀ id c p, w.context? id = some c → c.poller = some p → p < w.pollers.length
  severed : ∀ x ∈ w.orphans, x.2.IsCutOff

theorem LeavesBehind.severed (h : w.LeavesBehind w') (hs : ∀ x ∈ w.orphans, x.2.IsCutOff) :
    ∀ x ∈ w'.orphans, x.2.IsCutOff := by
  obtain ⟨shared, hshared, he⟩ := h
  intro x hx
  rw [he] at hx
  exact (List.mem_append.mp hx).elim (fun hx => (hshared x hx).1) (hs x)

theorem Sound.loop (hs : w.Sound) (h : w.loop? id = some l) : l.context.id = id ∧ l.Sound := by
  obtain ⟨hc, hp⟩ := loop?_eq_some.mp h
  obtain ⟨hid, hsound⟩ := hs.context id l.context hc
  refine ⟨hid, hsound, ?_⟩
  rw [hp]
  cases hn : l.context.poller with
  | none => rfl
  | some p =>
    rw [Option.bind_some, List.getElem?_eq_getElem (hs.number id l.context p hc hn)]
    rfl

theorem Sound.replaced (hs : w.Sound) (hr : w.Replaced w' id l l') (hl : l'.Sound)
    (hid : l'.context.id = l.context.id) (hn : l'.context.poller = l.context.poller) :
    w'.Sound := by
  have hctx : ∀ j c, w'.context? j = some c →
      (j = id ∧ c = l'.context) ∨ (j ≠ id ∧ w.context? j = some c) := by
    intro j c hj
    by_cases h : j = id
    · subst h
      exact Or.inl ⟨rfl, Option.some.inj (hj.symm.trans hr.context_self)⟩
    · exact Or.inr ⟨h, (hr.context_other j h).symm.trans hj⟩
  constructor
  · intro j c hj
    rcases hctx j c hj with ⟨rfl, rfl⟩ | ⟨-, hj⟩
    · exact ⟨hid.trans (hs.loop hr.loop).1, hl.context⟩
    · exact hs.context j c hj
  · intro j c p hj hp
    rw [hr.pollers_length]
    rcases hctx j c hj with ⟨rfl, rfl⟩ | ⟨-, hj⟩
    · exact hs.number j l.context p (loop?_eq_some.mp hr.loop).1 (hn.symm.trans hp)
    · exact hs.number j c p hj hp
  · exact hr.orphans ▸ hs.severed

theorem context?_append (h : w'.contexts = w.contexts ++ [some c]) (j : Nat) :
    w'.context? j = if j = w.contexts.length then some c else w.context? j := by
  rw [context?, h, context?]
  by_cases hj : j = w.contexts.length
  · simp [hj]
  · rw [if_neg hj]
    rcases Nat.lt_or_gt_of_ne hj with hlt | hgt
    · rw [List.getElem?_append_left hlt]
    · rw [List.getElem?_eq_none (by simp; omega), List.getElem?_eq_none (by omega)]

theorem context?_set_none (h : w'.contexts = w.contexts.set id none) (j : Nat) :
    w'.context? j = if j = id then none else w.context? j := by
  rw [context?, h, context?, List.getElem?_set]
  by_cases hj : j = id
  · subst hj
    rw [if_pos rfl, if_pos rfl]
    split <;> rfl
  · rw [if_neg (Ne.symm hj), if_neg hj]

@[simp] theorem context?_keep (w : World) (shared : List (WatcherRef × RemoteTimer)) (id : Nat) :
    (w.keep shared).context? id = w.context? id := rfl

theorem context?_congr (h : w'.contexts = w.contexts) (j : Nat) :
    w'.context? j = w.context? j := by
  rw [context?, h, context?]

/-- An act is calm if it leaves alone all contexts that are there before and afterwards. -/
theorem Act.calm (ha : w.Act w')
    (hk : ∀ id c c', w.context? id = some c → w'.context? id = some c' → c' = c) : w.Calm w' := by
  refine ⟨ha, fun id c c' h h' => ?_⟩
  obtain rfl := hk id c c' h h'
  exact ⟨rfl, .refl _⟩

theorem Act.calm_of_contexts (ha : w.Act w') (hc : w'.contexts = w.contexts) : w.Calm w' :=
  ha.calm fun id _ _ h h' => Option.some.inj (h'.symm.trans ((context?_congr hc id).trans h))

theorem calm_quiet (hc : w'.contexts = w.contexts) (hp : w'.pollers = w.pollers)
    (ht : w'.timerHandles = w.timerHandles) (ho : w'.orphans = w.orphans) : w.Calm w' :=
  (Act.quiet hc hp ht (.of_eq ho)).calm_of_contexts hc

theorem Calms.acts (h : w.Calms w') : w.Acts w' := by
  induction h with
  | refl => exact .refl
  | tail _ hc ih => exact ih.tail hc.act

namespace Course

theorem refl (w : World) : w.Course w := ⟨w, w, .refl, Or.inl rfl, .refl⟩

theorem act (h : w.Act w') : w.Course w' := ⟨w, w', .refl, Or.inr h, .refl⟩

theorem quiet (hc : w'.contexts = w.contexts) (hp : w'.pollers = w.pollers)
    (ht : w'.timerHandles = w.timerHandles) (ho : w'.orphans = w.orphans) : w.Course w' :=
  act (.quiet hc hp ht (.of_eq ho))

theorem before {w₀ : World} (hc : w₀.Calms w) (h : w.Course w') : w₀.Course w' :=
  let ⟨w₁, w₂, h₁, h₂, h₃⟩ := h
  ⟨w₁, w₂, hc.trans h₁, h₂, h₃⟩

theorem andThen {w'' : World} (h : w.Course w') (hc : w'.Calms w'') : w.Course w'' :=
  let ⟨w₁, w₂, h₁, h₂, h₃⟩ := h
  ⟨w₁, w₂, h₁, h₂, h₃.trans hc⟩

theorem acts (h : w.Course w') : w.Acts w' := by
  obtain ⟨w₁, w₂, h₁, h₂, h₃⟩ := h
  refine h₁.acts.trans (.trans ?_ h₃.acts)
  rcases h₂ with rfl | h₂
  · exact .refl
  · exact .single h₂

end Course

/-- No act takes the number of a context away. -/
theorem Act.length_le (ha : w.Act w') : w.contexts.length ≤ w'.contexts.length := by
  cases ha with
  | quiet hc => exact Nat.le_of_eq (congrArg List.length hc).symm
  | moved hr => exact Nat.le_of_eq hr.contexts_length.symm
  | contextMade _ _ _ hc => rw [hc, List.length_append]; exact Nat.le_add_right _ _
  | contextDropped _ _ _ hc => exact Nat.le_of_eq (hc ▸ List.length_set).symm
  | pollerMade hc => exact Nat.le_of_eq (congrArg List.length hc).symm
  | pollerKilled _ hc => exact Nat.le_of_eq (congrArg List.length hc).symm
  | handleMade _ _ _ _ hc => exact Nat.le_of_eq (congrArg List.length hc).symm

/-- Every act keeps the world sound. -/
theorem Sound.act (hs : w.Sound) (ha : w.Act w') : w'.Sound := by
  have hsame : w'.contexts = w.contexts → w.pollers.length ≤ w'.pollers.length →
      (∀ x ∈ w'.orphans, x.2.IsCutOff) → w'.Sound := fun hc hp hcut =>
    ⟨fun j c hj => hs.context j c (context?_congr hc j ▸ hj), fun j c p hj hn =>
      Nat.lt_of_lt_of_le (hs.number j c p (context?_congr hc j ▸ hj) hn) hp, hcut⟩
  cases ha with
  | quiet hc hp _ hleft =>
    exact hsame hc (Nat.le_of_eq (congrArg List.length hp).symm) (hleft.severed hs.severed)
  | moved hr hm =>
    have hl := (hs.loop hr.loop).2
    obtain ⟨hid, hn, -, -⟩ := hm.frame hl
    exact hs.replaced hr (hl.move hm) hid hn
  | contextMade clock poller hnum hc hp _ ho =>
    constructor
    · intro j c hj
      rw [context?_append hc] at hj
      split at hj
      · next hlen =>
        obtain rfl := Option.some.inj hj
        exact ⟨hlen.symm, Context.sound_create _ _ _⟩
      · exact hs.context j c hj
    · intro j c p hj hn
      rw [context?_append hc] at hj
      rw [hp]
      split at hj
      · obtain rfl := Option.some.inj hj
        exact hnum p hn
      · exact hs.number j c p hj hn
    · exact ho ▸ hs.severed
  | contextDropped _ _ _ hc hp _ ho =>
    constructor
    · intro j c hj
      rw [context?_set_none hc] at hj
      split at hj
      · contradiction
      · exact hs.context j c hj
    · intro j c p hj hn
      rw [context?_set_none hc] at hj
      rw [hp]
      split at hj
      · contradiction
      · exact hs.number j c p hj hn
    · exact ho ▸ hs.severed
  | pollerMade hc hp _ ho =>
    exact hsame hc (by rw [hp, List.length_append]; exact Nat.le_add_right _ _) (ho ▸ hs.severed)
  | pollerKilled _ hc hp _ ho =>
    exact hsame hc (Nat.le_of_eq (by rw [hp, List.length_set])) (ho ▸ hs.severed)
  | handleMade _ _ _ _ hc hp _ ho =>
    exact hsame hc (Nat.le_of_eq (congrArg List.length hp).symm) (ho ▸ hs.severed)

theorem Sound.acts (hs : w.Sound) (ha : w.Acts w') : w'.Sound := by
  induction ha with
  | refl => exact hs
  | tail _ h ih => exact ih.act h

end World
end EventLoop
