import EventLoop.Proofs.Transition
import Mathlib.Data.List.Nodup

/-!
# Invariants of the whole system

The runs on the stack are of different contexts, those contexts are the busy ones, and all runs but
the innermost are inside callbacks. On top of this an invariant may relate each context to where its
run stands. It holds in every reachable state if the moves keep it, and if each action of the
dispatcher takes it from one stage to the next.
-/
namespace EventLoop

/-- A move leads from one context to the other. -/
def Context.Moved (c c' : Context) : Prop :=
  ∃ l l' : Loop, l.Sound ∧ l.Move l' ∧ l.context = c ∧ l'.context = c'

namespace World

variable {w w' : World} {id : Nat} {c c' : Context}

theorem moved_refl (hs : w.Sound) (h : w.context? id = some c) : c.Moved c :=
  have hl := loop?_of_context? h
  ⟨_, _, (hs.loop hl).2, .refused rfl, rfl, rfl⟩

/-- A context after an act was moved by it or is new. -/
theorem Act.context_after (hs : w.Sound) (ha : w.Act w') (h : w'.context? id = some c') :
    (∃ c, w.context? id = some c ∧ c.Moved c') ∨
      (w.context? id = none ∧ w.contexts.length ≤ id ∧
        ∃ clock poller, c' = Context.create id clock poller) := by
  have hsame : w'.context? id = w.context? id →
      ∃ c, w.context? id = some c ∧ c.Moved c' := by
    intro he
    rw [he] at h
    exact ⟨c', h, moved_refl hs h⟩
  cases ha with
  | quiet hc => exact Or.inl (hsame (context?_congr hc id))
  | @moved id₁ l l' hr hm =>
    by_cases hid : id = id₁
    · subst hid
      obtain rfl := Option.some.inj (hr.context_self.symm.trans h)
      exact Or.inl
        ⟨l.context, (loop?_eq_some.mp hr.loop).1, l, l', (hs.loop hr.loop).2, hm, rfl, rfl⟩
    · exact Or.inl (hsame (hr.context_other id hid))
  | contextMade clock poller _ hc =>
    rw [context?_append hc] at h
    split at h
    · next hid =>
      right
      refine ⟨?_, Nat.le_of_eq hid.symm, clock, poller, ?_⟩
      · rw [hid, context?, List.getElem?_eq_none (Nat.le_refl _)]
        rfl
      · rw [← Option.some.inj h, hid]
    · exact Or.inl ⟨c', h, moved_refl hs h⟩
  | contextDropped _ _ _ hc =>
    rw [context?_set_none hc] at h
    split at h
    · contradiction
    · exact Or.inl ⟨c', h, moved_refl hs h⟩
  | pollerMade hc => exact Or.inl (hsame (context?_congr hc id))
  | pollerKilled _ hc => exact Or.inl (hsame (context?_congr hc id))
  | handleMade _ _ _ _ hc => exact Or.inl (hsame (context?_congr hc id))

/-- A context is moved by an act, or it is dropped, which happens to no busy one. -/
theorem Act.context_before (hs : w.Sound) (ha : w.Act w') (h : w.context? id = some c) :
    (∃ c', w'.context? id = some c' ∧ c.Moved c') ∨
      (w'.context? id = none ∧ c.busy = false) := by
  have hsame : w'.context? id = w.context? id → ∃ c', w'.context? id = some c' ∧ c.Moved c' :=
    fun he => ⟨c, he.trans h, moved_refl hs h⟩
  cases ha with
  | quiet hc => exact Or.inl (hsame (context?_congr hc id))
  | @moved id₁ l l' hr hm =>
    by_cases hid : id = id₁
    · subst hid
      obtain rfl := Option.some.inj ((loop?_eq_some.mp hr.loop).1.symm.trans h)
      exact Or.inl ⟨l'.context, hr.context_self, l, l', (hs.loop hr.loop).2, hm, rfl, rfl⟩
    · exact Or.inl (hsame (hr.context_other id hid))
  | contextMade clock poller _ hc =>
    refine Or.inl (hsame ?_)
    rw [context?_append hc, if_neg (Nat.ne_of_lt (context?_lt h))]
  | @contextDropped id₁ c₁ h₁ hb _ hc =>
    by_cases hid : id = id₁
    · subst hid
      obtain rfl := Option.some.inj (h₁.symm.trans h)
      exact Or.inr ⟨by rw [context?_set_none hc, if_pos rfl], hb⟩
    · exact Or.inl (hsame (by rw [context?_set_none hc, if_neg hid]))
  | pollerMade hc => exact Or.inl (hsame (context?_congr hc id))
  | pollerKilled _ hc => exact Or.inl (hsame (context?_congr hc id))
  | handleMade _ _ _ _ hc => exact Or.inl (hsame (context?_congr hc id))

end World

theorem Context.Moved.busy {c c' : Context} (h : c.Moved c') : c'.busy = c.busy := by
  obtain ⟨l, l', hs, hm, rfl, rfl⟩ := h
  exact (hm.frame hs).2.2.2

/-- A context is busy as long as its run has not ended. -/
theorem Dispatch.busy {l l' : Loop} {now : Nat} {stage : Stage} {stage' : Option Stage}
    (hb : l.context.busy = true) (h : Dispatch l now stage stage' l') :
    l'.context.busy = stage'.isSome := by
  rcases h.fields with ⟨watchers, roster, wakeups, hc⟩ | ⟨rfl, wakeups, rfl⟩
  · rw [hc]
    exact (congrArg (· && stage'.isSome) hb).trans (Bool.true_and _)
  · rfl

namespace Config

/-- The contexts of the runs are the busy ones, each has one run, and all runs but the innermost are
inside callbacks. -/
structure Sound (s : Config) : Prop where
  world : s.world.Sound
  nodup : (s.standings.map Standing.context).Nodup
  present : ∀ x ∈ s.standings, ∃ c, s.world.context? x.context = some c
  busy : ∀ id c, s.world.context? id = some c →
    (c.busy = true ↔ ∃ x ∈ s.standings, x.context = id)
  calling : ∀ x ∈ s.standings.tail, x.stage.IsCalling

variable {s s' : Config} {l l' : Loop} {x : Standing} {below : List Standing}
  {stage : Option Stage}

theorem Sound.act (h : s.Sound) (ha : s.world.Act s'.world) (hst : s'.standings = s.standings) :
    s'.Sound where
  world := h.world.act ha
  nodup := hst ▸ h.nodup
  present := by
    intro x hx
    rw [hst] at hx
    obtain ⟨c, hc⟩ := h.present x hx
    rcases ha.context_before h.world hc with ⟨c', hc', -⟩ | ⟨-, hb⟩
    · exact ⟨c', hc'⟩
    · have hbusy := (h.busy x.context c hc).mpr ⟨x, hx, rfl⟩
      rw [hb] at hbusy
      contradiction
  busy := by
    intro id c' hc'
    rw [hst]
    rcases ha.context_after h.world hc' with ⟨c, hc, hm⟩ | ⟨hnone, hlen, clock, poller, rfl⟩
    · rw [hm.busy]
      exact h.busy id c hc
    · refine iff_of_false Bool.false_ne_true ?_
      rintro ⟨x, hx, rfl⟩
      obtain ⟨c, hc⟩ := h.present x hx
      rw [hnone] at hc
      contradiction
  calling := hst ▸ h.calling

theorem Sound.entered (h : s.Sound) (he : s.Entered s' l) : s'.Sound := by
  have hloop := (World.loop?_eq_some.mp he.replaced.loop).1
  obtain ⟨watchers, hc, -⟩ := World.entering_spec (w := s.world) (h.world.loop he.replaced.loop).2
  have hnew : ∀ x ∈ s.standings, x.context ≠ l.context.id := by
    intro x hx hid
    have hb := (h.busy l.context.id l.context hloop).mpr ⟨x, hx, hid⟩
    rw [he.idle] at hb
    contradiction
  refine ⟨he.sound h.world, ?_, ?_, ?_, ?_⟩
  · rw [he.standings, List.map_cons, List.nodup_cons]
    refine ⟨fun hm => ?_, h.nodup⟩
    obtain ⟨x, hx, hid⟩ := List.mem_map.mp hm
    exact hnew x hx hid
  · intro x hx
    rw [he.standings] at hx
    rcases List.mem_cons.mp hx with rfl | hx
    · exact ⟨_, he.replaced.context_self⟩
    · rw [he.replaced.context_other _ (hnew x hx)]
      exact h.present x hx
  · intro id c hid
    rw [he.standings]
    by_cases heq : id = l.context.id
    · subst heq
      obtain rfl := Option.some.inj (he.replaced.context_self.symm.trans hid)
      refine iff_of_true ?_ ⟨_, List.mem_cons_self, rfl⟩
      dsimp only
      rw [hc]
    · rw [he.replaced.context_other id heq] at hid
      rw [h.busy id c hid]
      simp [List.mem_cons, Ne.symm heq]
  · rw [he.standings, List.tail_cons]
    intro x hx
    cases hst : s.standings with
    | nil =>
      rw [hst] at hx
      contradiction
    | cons y below =>
      rw [hst] at hx
      rcases List.mem_cons.mp hx with rfl | hx
      · exact he.within x (by rw [hst]; rfl)
      · exact h.calling x (by rw [hst]; exact hx)

theorem Sound.shifted (h : s.Sound) (hd : s.Shifted s' x below l l' stage) (hl : l'.Sound)
    (hn : l'.context.id = l.context.id ∧ l'.context.poller = l.context.poller)
    (hb : l'.context.busy = stage.isSome) : s'.Sound := by
  have hnodup := h.nodup
  rw [hd.before, List.map_cons, List.nodup_cons] at hnodup
  have hother : ∀ y ∈ below, y.context ≠ x.context :=
    fun y hy he => hnodup.1 (List.mem_map.mpr ⟨y, hy, he⟩)
  have hafter : ∀ y, y ∈ s'.standings ↔
      (∃ st, stage = some st ∧ y = ⟨x.context, st⟩) ∨ y ∈ below := by
    intro y
    rw [hd.after]
    cases stage <;> simp
  refine ⟨h.world.replaced hd.replaced hl hn.1 hn.2, ?_, ?_, ?_, ?_⟩
  · rw [hd.after]
    cases stage with
    | none => exact hnodup.2
    | some st => exact List.nodup_cons.mpr hnodup
  · intro y hy
    rcases (hafter y).mp hy with ⟨st, -, rfl⟩ | hy
    · exact ⟨_, hd.replaced.context_self⟩
    · rw [hd.replaced.context_other _ (hother y hy)]
      exact h.present y (hd.before ▸ List.mem_cons_of_mem x hy)
  · intro id c hid
    by_cases heq : id = x.context
    · subst heq
      obtain rfl := Option.some.inj (hd.replaced.context_self.symm.trans hid)
      rw [hb]
      constructor
      · intro hs
        obtain ⟨st, hst⟩ := Option.isSome_iff_exists.mp hs
        exact ⟨_, (hafter _).mpr (Or.inl ⟨st, hst, rfl⟩), rfl⟩
      · rintro ⟨y, hy, hctx⟩
        rcases (hafter y).mp hy with ⟨st, rfl, -⟩ | hy
        · rfl
        · exact absurd hctx (hother y hy)
    · rw [hd.replaced.context_other id heq] at hid
      rw [h.busy id c hid]
      constructor
      · rintro ⟨y, hy, rfl⟩
        rw [hd.before] at hy
        rcases List.mem_cons.mp hy with rfl | hy
        · exact absurd rfl heq
        · exact ⟨y, (hafter y).mpr (Or.inr hy), rfl⟩
      · rintro ⟨y, hy, rfl⟩
        rcases (hafter y).mp hy with ⟨st, -, rfl⟩ | hy
        · exact absurd rfl heq
        · exact ⟨y, hd.before ▸ List.mem_cons_of_mem x hy, rfl⟩
  · intro y hy
    have htail := h.calling
    rw [hd.before, List.tail_cons] at htail
    rw [hd.after] at hy
    cases stage with
    | none => exact htail y (List.mem_of_mem_tail hy)
    | some st => exact htail y hy

theorem Sound.dispatched (h : s.Sound) (hd : s.Dispatched s' x below l l' stage) : s'.Sound := by
  have hmem : x ∈ s.standings := hd.before ▸ List.mem_cons_self
  have hloop := (World.loop?_eq_some.mp hd.replaced.loop).1
  have hbusy := (h.busy x.context l.context hloop).mpr ⟨x, hmem, rfl⟩
  have hsl := (h.world.loop hd.replaced.loop).2
  exact h.shifted hd.toShifted (hd.dispatch.sound hsl) (hd.dispatch.frame hsl)
    (hd.dispatch.busy hbusy)

/-- A property that acts, the start of a run and the dispatcher keep. -/
structure Inductive (P : Config → Prop) : Prop where
  act : ∀ s s', s.Sound → P s → s.world.Act s'.world → s'.standings = s.standings → P s'
  entered : ∀ s s' l, s.Sound → P s → s.Entered s' l → P s'
  dispatched : ∀ s s' x below l l' stage, s.Sound → P s → s.Dispatched s' x below l l' stage → P s'

theorem Inductive.acted {P : Config → Prop} (hP : Inductive P) (h : s.Sound) (hp : P s)
    (ha : s.Acted s') : s'.Sound ∧ P s' := by
  obtain ⟨w', st'⟩ := s'
  obtain ⟨hcourse, hst⟩ := ha
  dsimp only at hcourse hst
  subst hst
  have hacts := hcourse.acts
  clear hcourse
  induction hacts with
  | refl => exact ⟨h, hp⟩
  | @tail w₁ w₂ _ ha ih =>
    exact ⟨ih.1.act ha rfl, hP.act ⟨w₁, s.standings⟩ ⟨w₂, s.standings⟩ ih.1 ih.2 ha rfl⟩

theorem Inductive.and {P P' : Config → Prop} (hP : Inductive P) (hP' : Inductive P') :
    Inductive fun s => P s ∧ P' s where
  act := fun s s' h hp ha hst => ⟨hP.act s s' h hp.1 ha hst, hP'.act s s' h hp.2 ha hst⟩
  entered := fun s s' l h hp he => ⟨hP.entered s s' l h hp.1 he, hP'.entered s s' l h hp.2 he⟩
  dispatched := fun s s' x below l l' stage h hp hd =>
    ⟨hP.dispatched s s' x below l l' stage h hp.1 hd,
      hP'.dispatched s s' x below l l' stage h hp.2 hd⟩

/-- The step lemma of the whole system. -/
theorem Inductive.step {P : Config → Prop} (hP : Inductive P) {m m' : Machine}
    (h : m.config.Sound) (hp : P m.config) (hstep : m.Step m') :
    m'.config.Sound ∧ P m'.config := by
  cases hstep.outcome h.world with
  | acted ha => exact hP.acted h hp ha
  | entered he => exact ⟨h.entered he, hP.entered _ _ _ h hp he⟩
  | dispatched hd ha =>
    have hs := h.dispatched hd
    exact hP.acted hs (hP.dispatched _ _ _ _ _ _ _ h hp hd) (ha.calmed hs.world).acted

theorem sound_create (clock : Clock) (host : Host) :
    (Machine.create (World.create clock host)).config.Sound := by
  have hnone : ∀ id, (World.create clock host).context? id = none := fun id => rfl
  constructor
  · constructor
    · intro id c hc
      cases (hnone id).symm.trans hc
    · intro id c p hc
      cases (hnone id).symm.trans hc
    · exact fun _ hx => absurd hx List.not_mem_nil
  · exact List.nodup_nil
  · exact fun _ hx => absurd hx List.not_mem_nil
  · intro id c hc
    cases (hnone id).symm.trans hc
  · exact fun _ hx => absurd hx List.not_mem_nil

/-- The run lemma of the whole system. -/
theorem Inductive.reachable {P : Config → Prop} (hP : Inductive P)
    (hcreate : ∀ clock host, P (Machine.create (World.create clock host)).config)
    {m : Machine} (h : m.Reachable) : m.config.Sound ∧ P m.config := by
  induction h with
  | start clock host => exact ⟨sound_create clock host, hcreate clock host⟩
  | step _ hstep ih => exact hP.step ih.1 ih.2 hstep

/-! ### Contexts and the stages of their runs -/

/-- Where the run of a context stands; nowhere if there is none. -/
def StandsAt (s : Config) (id : Nat) : Option Stage → Prop
  | some stage => ⟨id, stage⟩ ∈ s.standings
  | none => ∀ x ∈ s.standings, x.context ≠ id

instance (s : Config) (id : Nat) (stage : Option Stage) : Decidable (s.StandsAt id stage) :=
  match stage with
  | some stage => inferInstanceAs (Decidable (⟨id, stage⟩ ∈ s.standings))
  | none => inferInstanceAs (Decidable (∀ x ∈ s.standings, x.context ≠ id))

theorem standsAt_of_mem {m : Machine} {a : Activation} (h : a ∈ m.stack) :
    m.config.StandsAt a.context (some a.standing.stage) :=
  List.mem_map_of_mem (f := Activation.standing) h

theorem Shifted.standsAt {st : Stage} (h : s.Shifted s' x below l l' (some st)) :
    s'.StandsAt x.context (some st) := by
  rw [StandsAt, h.after]
  exact List.mem_cons_self

/-- A run that has ended is gone. -/
theorem Shifted.standsAt_none (hs : s.Sound) (h : s.Shifted s' x below l l' none) :
    s'.StandsAt x.context none := by
  have hnodup := hs.nodup
  rw [h.before, List.map_cons, List.nodup_cons] at hnodup
  intro y hy hid
  rw [h.after] at hy
  exact hnodup.1 (List.mem_map.mpr ⟨y, hy, hid⟩)

/-- A context has one run at most. -/
theorem StandsAt.unique {id : Nat} {st st' : Stage} (hs : s.Sound) (h : s.StandsAt id (some st))
    (h' : s.StandsAt id (some st')) : st = st' :=
  congrArg Standing.stage (List.inj_on_of_nodup_map hs.nodup h h' rfl)

theorem StandsAt.busy {id : Nat} {st : Stage} {c : Context} (hs : s.Sound)
    (h : s.StandsAt id (some st)) (hc : s.world.context? id = some c) : c.busy = true :=
  (hs.busy id c hc).mpr ⟨_, h, rfl⟩

theorem StandsAt.acted {id : Nat} {st : Stage} (h : s.StandsAt id (some st))
    (hst : s'.standings = s.standings) : s'.StandsAt id (some st) := by
  rw [StandsAt, hst]
  exact h

/-- A run that goes on stands where the step has put it. -/
theorem Shifted.stage_eq {s'' : Config} {stage : Option Stage} {st : Stage} (hs : s.Sound)
    (hs' : s''.Sound) (h : s.Shifted s' x below l l' stage) (hsettled : s'.Settled s'')
    (hst : s''.StandsAt x.context (some st)) : stage = some st := by
  cases stage with
  | none => exact absurd rfl (h.standsAt_none hs ⟨x.context, st⟩ (hsettled.standings ▸ hst))
  | some st' => rw [hst.unique hs' (h.standsAt.acted hsettled.standings)]

/-- Every context is related to where its run stands. -/
def Holds (Q : Option Stage → Context → Prop) (s : Config) : Prop :=
  ∀ id c stage, s.world.context? id = some c → s.StandsAt id stage → Q stage c

/-- A relation between contexts and stages that moves and the dispatcher keep. -/
structure StageInvariant (Q : Option Stage → Context → Prop) : Prop where
  create : ∀ id clock poller, Q none (Context.create id clock poller)
  moved : ∀ stage c c', c.Moved c' → Q stage c → Q stage c'
  entered : ∀ (w : World) (l : Loop), l.Sound → Q none l.context →
    Q (some (.waiting (w.entering l).2)) (w.entering l).1
  dispatched : ∀ l l' now stage stage', l.Sound → Dispatch l now stage stage' l' →
    Q (some stage) l.context → Q stage' l'.context

theorem StandsAt.congr {id : Nat} {stage : Option Stage} (h : s'.StandsAt id stage)
    (hother : ∀ x, x.context = id → (x ∈ s'.standings ↔ x ∈ s.standings)) :
    s.StandsAt id stage := by
  cases stage with
  | none => exact fun x hx hid => h x ((hother x hid).mpr hx) hid
  | some st => exact (hother ⟨id, st⟩ rfl).mp h

/-- Only the stage of the innermost run changes, with its context. -/
theorem Holds.shifted {Q : Option Stage → Context → Prop} {stage' : Option Stage} (hq : s.Holds Q)
    (h : s.Sound) (hd : s.Shifted s' x below l l' stage') (hq' : Q stage' l'.context) :
    s'.Holds Q := by
  intro id c stage hc hstands
  have hnodup := h.nodup
  rw [hd.before, List.map_cons, List.nodup_cons] at hnodup
  have hother : ∀ y ∈ below, y.context ≠ x.context :=
    fun y hy he => hnodup.1 (List.mem_map.mpr ⟨y, hy, he⟩)
  by_cases hid : id = x.context
  · subst hid
    obtain rfl := Option.some.inj (hd.replaced.context_self.symm.trans hc)
    have hstage : stage = stage' := by
      cases stage with
      | none =>
        cases stage' with
        | none => rfl
        | some st => exact absurd rfl (hstands ⟨x.context, st⟩ (hd.after ▸ List.mem_cons_self))
      | some st =>
        rw [StandsAt, hd.after] at hstands
        cases stage' with
        | none => exact absurd rfl (hother ⟨x.context, st⟩ hstands)
        | some st' =>
          rcases List.mem_cons.mp hstands with heq | hmem
          · exact congrArg (some ∘ Standing.stage) heq
          · exact absurd rfl (hother ⟨x.context, st⟩ hmem)
    exact hstage ▸ hq'
  · rw [hd.replaced.context_other id hid] at hc
    refine hq id c stage hc (hstands.congr fun y hy => ?_)
    rw [hd.after, hd.before, List.mem_append, List.mem_cons]
    have hne : y ≠ x := fun he => hid (hy ▸ he ▸ rfl)
    refine or_congr (iff_of_false ?_ hne) Iff.rfl
    cases stage' with
    | none => exact List.not_mem_nil
    | some st =>
      intro hm
      obtain rfl := List.mem_singleton.mp hm
      exact hid hy.symm

theorem StageInvariant.inductive {Q : Option Stage → Context → Prop} (hQ : StageInvariant Q) :
    Inductive (Holds Q) where
  act := by
    intro s s' h hq ha hst id c' stage hc hstands
    have hbefore : s.StandsAt id stage := hstands.congr fun x _ => by rw [hst]
    rcases ha.context_after h.world hc with ⟨c, hc, hm⟩ | ⟨hnone, -, clock, poller, rfl⟩
    · exact hQ.moved stage c c' hm (hq id c stage hc hbefore)
    · cases stage with
      | none => exact hQ.create id clock poller
      | some st =>
        obtain ⟨c, hc⟩ := h.present ⟨id, st⟩ hbefore
        cases hnone.symm.trans hc
  entered := by
    intro s s' l h hq he id c stage hc hstands
    by_cases hid : id = l.context.id
    · subst hid
      obtain rfl := Option.some.inj (he.replaced.context_self.symm.trans hc)
      obtain ⟨hloop, -⟩ := World.loop?_eq_some.mp he.replaced.loop
      have hnew : s.StandsAt l.context.id none := by
        intro x hx hxid
        have hb := (h.busy l.context.id l.context hloop).mpr ⟨x, hx, hxid⟩
        rw [he.idle] at hb
        contradiction
      have hmem : ∀ st, s'.StandsAt l.context.id (some st) →
          st = .waiting (s.world.entering l).2 := by
        intro st hst
        rw [StandsAt, he.standings] at hst
        rcases List.mem_cons.mp hst with heq | hst
        · exact congrArg Standing.stage heq
        · exact absurd rfl (hnew _ hst)
      cases stage with
      | none => exact absurd rfl (hstands _ (he.standings ▸ List.mem_cons_self))
      | some st =>
        rw [hmem st hstands]
        exact hQ.entered s.world l (h.world.loop he.replaced.loop).2
          (hq l.context.id l.context none hloop hnew)
    · rw [he.replaced.context_other id hid] at hc
      refine hq id c stage hc (hstands.congr fun x hx => ?_)
      rw [he.standings, List.mem_cons]
      exact or_iff_right fun heq => hid (hx ▸ heq ▸ rfl)
  dispatched := by
    intro s s' x below l l' stage' h hq hd
    obtain ⟨hloop, -⟩ := World.loop?_eq_some.mp hd.replaced.loop
    have hx : s.StandsAt x.context (some x.stage) := by
      rw [StandsAt, hd.before]
      exact List.mem_cons_self
    have hbefore := hq x.context l.context (some x.stage) hloop hx
    exact Holds.shifted hq h hd.toShifted (hQ.dispatched l l' _ x.stage stage'
      (h.world.loop hd.replaced.loop).2 hd.dispatch hbefore)

/-- What holds at all stages alike holds of every context in every reachable state. -/
theorem StageInvariant.reachable {P : Context → Prop} (hP : StageInvariant fun _ => P) {m : Machine}
    (h : m.Reachable) {id : Nat} {c : Context} (hc : m.world.context? id = some c) : P c := by
  obtain ⟨-, hq⟩ := hP.inductive.reachable (fun _ _ _ _ _ hc => nomatch hc) h
  by_cases hruns : ∃ x ∈ m.config.standings, x.context = id
  · obtain ⟨x, hx, rfl⟩ := hruns
    exact hq x.context c (some x.stage) hc hx
  · exact hq id c none hc fun x hx hid => hruns ⟨x, hx, hid⟩

end Config
end EventLoop
