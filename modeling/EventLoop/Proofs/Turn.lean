import EventLoop.Proofs.Structure
import EventLoop.Proofs.Tenure

/-!
# A turn of a pass

Only the watcher that is being called lacks its callback, so at every turn the watcher in the slot
has one, and it is called exactly if it is ready.
-/
namespace EventLoop

/-! ### Callbacks that are lent out -/

/-- Only the watcher that is being called lacks its callback. -/
def Context.Lent (stage : Option Stage) (c : Context) : Prop :=
  ∀ i g e, c.watchers.at? i = some (g, e) → e.callback = none →
    ∃ pass, stage = some (.calling pass ⟨c.id, ⟨i, g⟩⟩)

namespace Context

variable {c c' : Context} {stage stage' : Option Stage}

/-- Where nothing is being called every watcher has its callback. -/
theorem Lent.callback (h : c.Lent stage) (hs : ∀ pass h, stage ≠ some (.calling pass h)) {i : Nat}
    {g : Generation} {e : Entry} (ha : c.watchers.at? i = some (g, e)) :
    e.callback.isSome = true := by
  rw [Option.isSome_iff_ne_none]
  intro hnone
  obtain ⟨pass, hstage⟩ := h i g e ha hnone
  exact hs _ _ hstage

theorem lent_of_callback (h : ∀ i g e, c.watchers.at? i = some (g, e) → e.callback.isSome = true) :
    c.Lent stage := by
  intro i g e ha hnone
  have hsome := h i g e ha
  rw [hnone] at hsome
  contradiction

theorem Lent.moved (h : c.Lent stage) (hm : c.Moved c') : c'.Lent stage := by
  have hid : c'.id = c.id := by
    obtain ⟨l, l', hs, hmove, rfl, rfl⟩ := hm
    exact (hmove.frame hs).1
  intro i g e ha hnone
  rcases (hm.slotAfter i).1 g e ha with ⟨e₁, ha₁, -, -, hcb⟩ | ⟨-, hsome⟩
  · rw [hid]
    exact h i g e₁ ha₁ (hcb.symm.trans hnone)
  · rw [hnone] at hsome
    contradiction

theorem lent_entering {w : World} {l : Loop} (hs : l.Sound) (h : l.context.Lent none) :
    (w.entering l).1.Lent stage := by
  refine lent_of_callback fun i g e ha => ?_
  rw [World.entering_at hs] at ha
  obtain ⟨v, hv, heq⟩ := Option.map_eq_some_iff.mp ha
  obtain ⟨-, rfl⟩ := Prod.mk.inj heq
  rw [Entry.arm_callback]
  exact h.callback (fun _ _ he => nomatch he) hv

/-- The callback of a watcher is lent out where all watchers have theirs. -/
theorem lent_lend {i : Nat} {g : Generation} {e : Entry} (hat : c.watchers.at? i = some (g, e))
    (hall : ∀ i g e, c.watchers.at? i = some (g, e) → e.callback.isSome = true) (pass : Pass) :
    (c.lendCallback ⟨c.id, ⟨i, g⟩⟩).1.Lent (some (.calling pass ⟨c.id, ⟨i, g⟩⟩)) := by
  intro j g₁ e₁ ha hnone
  rw [lendCallback_ok (find_of_at? rfl hat)] at ha ⊢
  by_cases hj : j = i
  · subst hj
    rw [Arena.at?_put_self hat] at ha
    obtain ⟨rfl, -⟩ := Prod.mk.inj (Option.some.inj ha)
    exact ⟨pass, rfl⟩
  · have hsome := hall j g₁ e₁ (Arena.at?_put_other hj ▸ ha)
    rw [hnone] at hsome
    contradiction

/-- A callback goes back to the watcher that lacks it. -/
theorem lent_return {pass : Pass} {h : Handle} (hlent : c.Lent (some (.calling pass h)))
    (f : Callback) : (c.returnCallback h f).Lent stage := by
  have hmissing : ∀ i g e, c.watchers.at? i = some (g, e) → e.callback = none →
      h = ⟨c.id, ⟨i, g⟩⟩ := by
    intro i g e ha hnone
    obtain ⟨pass', hstage⟩ := hlent i g e ha hnone
    injection hstage with hstage
    injection hstage
  refine lent_of_callback fun i g e ha => ?_
  rw [Option.isSome_iff_ne_none]
  intro hnone
  by_cases hfound : ∃ e₁, c.find h = .ok e₁ ∧ e₁.callback = none
  · obtain ⟨e₁, hf, hnone₁⟩ := hfound
    have hat := (find_ok hf).2
    rw [returnCallback, hf] at ha
    simp only [hnone₁, Option.isNone_none, if_true, update_eq hf] at ha
    by_cases hi : i = h.key.index
    · subst hi
      rw [Arena.at?_put_self hat] at ha
      obtain ⟨-, rfl⟩ := Prod.mk.inj (Option.some.inj ha)
      contradiction
    · rw [Arena.at?_put_other hi] at ha
      exact hi (congrArg (fun h => h.key.index) (hmissing i g e ha hnone)).symm
  · rcases c.returnCallback_cases h f with hsame | ⟨e₁, hf, hnone₁, -⟩
    · rw [hsame] at ha
      have hh := hmissing i g e ha hnone
      subst hh
      exact hfound ⟨e, find_of_at? rfl ha, hnone⟩
    · exact hfound ⟨e₁, hf, hnone₁⟩

end Context

/-! ### The visit at a turn -/

/-- The pass goes on to where it has visited some slots and left the rest as they were. -/
structure Context.Progress (visited : List Nat) (c c' : Context) : Prop where
  rest : (visited ++ c'.roster.remaining).Sublist c.roster.remaining
  kept : ∀ i ∈ c.roster.remaining, i ∉ visited →
    (i ∈ c'.roster.remaining ↔ c'.tenure? i = c.tenure? i)

/-- A turn of the watcher in slot `i`: it is called if it is ready, and visited in any case. -/
structure TurnTaken (l l' : Loop) (now : Nat) (pass : Pass) (i : Nat) (stage' : Option Stage)
    (g : Generation) (e : Entry) : Prop where
  at_self : l.context.watchers.at? i = some (g, e)
  callback : e.callback.isSome = true
  becomes : ∃ callback, l'.context.watchers = l.context.watchers.put i
    { (e.visit (toMillis now) pass.signals).entry with callback }
  progress : l.context.Progress [i] l'.context
  lent : l'.context.Lent stage'
  outcome : ∃ deadline,
    (¬ e.IsReady (toMillis now) pass.signals ∧
      stage' = some (.passing { pass with deadline })) ∨
    (e.IsReady (toMillis now) pass.signals ∧
      stage' = some (.calling { pass with deadline } ⟨l.context.id, ⟨i, g⟩⟩))

/-- A visit takes one slot off the way, and nothing else. -/
theorem Context.progress_turn {c c' : Context} {i : Nat}
    (hrest : c.roster.remaining = i :: c'.roster.remaining)
    (hother : ∀ j, j ≠ i → c'.roster.contains j = c.roster.contains j) (ha : c.Alike c') :
    c.Progress [i] c' where
  rest := hrest ▸ .refl _
  kept := by
    intro j hj hji
    have hne : j ≠ i := fun h => hji (h ▸ List.mem_cons_self)
    rw [hrest] at hj
    exact iff_of_true ((List.mem_cons.mp hj).resolve_left hne) (ha.tenure? (hother j hne))

/-- Every turn of a pass is one of `TurnTaken`. -/
theorem Dispatch.turn {l l' : Loop} {now i : Nat} {pass : Pass} {stage' : Option Stage}
    (hs : l.Sound) (hlent : l.context.Lent (some (.passing pass)))
    (hi : l.context.roster.next.2 = some i) (hrun : l.context.running = true)
    (hd : Dispatch l now (.passing pass) stage' l') :
    ∃ g e, TurnTaken l l' now pass i stage' g e := by
  obtain ⟨g, e, roster, ha, hv, hrest, hother⟩ := hs.turn hi now pass.signals
  have hcallback : ∀ j g e, l.context.watchers.at? j = some (g, e) → e.callback.isSome = true :=
    fun j g e => hlent.callback (fun _ _ he => nomatch he)
  have hready : (e.visit (toMillis now) pass.signals).events.isSome = true ↔
      e.IsReady (toMillis now) pass.signals := Entry.visit_events_iff (hs.context.fits i g e ha)
  -- the context after the visit, and the watcher in it
  let e' := (e.visit (toMillis now) pass.signals).entry
  let c' : Context := { l.context with watchers := l.context.watchers.put i e', roster }
  let h : Handle := ⟨l.context.id, ⟨i, g⟩⟩
  have halike : l.context.Alike c' := Context.alike_put ha Entry.visit_traits roster
  have hat : c'.watchers.at? i = some (g, e') := Arena.at?_put_self ha
  have hfind : c'.find h = .ok e' := Context.find_of_at? rfl hat
  have hcb' : e'.callback = e.callback := Entry.visit_callback
  have hcallback' : ∀ j g e, c'.watchers.at? j = some (g, e) → e.callback.isSome = true := by
    intro j g₁ e₁ ha₁
    by_cases hj : j = i
    · subst hj
      obtain ⟨-, rfl⟩ := Prod.mk.inj (Option.some.inj (hat.symm.trans ha₁))
      rw [hcb']
      exact hcallback j g e ha
    · exact hcallback j g₁ e₁ (Arena.at?_put_other hj ▸ ha₁)
  have hlend := Context.lendCallback_ok hfind
  have hlent : (c'.lendCallback h).1.watchers =
      l.context.watchers.put i { e' with callback := none } := by
    rw [hlend]
    exact Arena.put_put ha _ _
  have hprogress' : l.context.Progress [i] (c'.lendCallback h).1 := by
    have hroster : (c'.lendCallback h).1.roster = roster := by rw [hlend]
    refine Context.progress_turn (hroster ▸ hrest) (hroster ▸ hother)
      (halike.trans (lend_alike c' h))
  cases hd with
  | @visited _ c i₁ hc hi₁ _ hcall =>
    obtain rfl := Option.some.inj (hi.symm.trans hi₁)
    subst hc
    rw [hv] at hcall ⊢
    refine ⟨g, e, ha, hcallback i g e ha, ⟨e'.callback, rfl⟩,
      Context.progress_turn hrest hother halike, Context.lent_of_callback hcallback', _,
      Or.inl ⟨?_, rfl⟩⟩
    rw [← hready, Bool.not_eq_true, Option.isSome_eq_false_iff, Option.isNone_iff_eq_none]
    exact Option.map_eq_none_iff.mp hcall
  | @called _ c i₁ h₁ events callback hc hi₁ _ hcall =>
    obtain rfl := Option.some.inj (hi.symm.trans hi₁)
    subst hc
    rw [hv] at hcall ⊢
    obtain ⟨events₁, hevents, hh⟩ := Option.map_eq_some_iff.mp hcall
    obtain ⟨rfl, -⟩ := Prod.mk.inj hh
    refine ⟨g, e, ha, hcallback i g e ha, ⟨none, hlent⟩, hprogress',
      Context.lent_lend hat hcallback' _, _, Or.inr ⟨hready.mp ?_, rfl⟩⟩
    rw [hevents]
    rfl
  | @missed _ c i₁ h₁ events hc hi₁ _ hcall hnone =>
    obtain rfl := Option.some.inj (hi.symm.trans hi₁)
    subst hc
    rw [hv] at hcall hnone
    obtain ⟨events₁, -, hh⟩ := Option.map_eq_some_iff.mp hcall
    obtain ⟨rfl, -⟩ := Prod.mk.inj hh
    have hnone' : e.callback = none := hcb'.symm.trans ((congrArg Prod.snd hlend).symm.trans hnone)
    have hsome := hcallback i g e ha
    rw [hnone'] at hsome
    contradiction
  | passed hend =>
    rw [hi, hrun] at hend
    rcases hend with hend | hend <;> contradiction
  | passedLast hend =>
    rw [hi, hrun] at hend
    rcases hend with hend | hend <;> contradiction

theorem Dispatch.lent {l l' : Loop} {now : Nat} {stage : Stage} {stage' : Option Stage}
    (hs : l.Sound) (hd : Dispatch l now stage stage' l') (h : l.context.Lent (some stage)) :
    l'.context.Lent stage' := by
  have hkept : (∀ pass h, stage ≠ .calling pass h) → l'.context.watchers = l.context.watchers →
      l'.context.Lent stage' := by
    intro hstage hw
    refine Context.lent_of_callback fun i g e ha => ?_
    exact h.callback (fun pass h he => hstage pass h (Option.some.inj he)) (hw ▸ ha)
  have hturn := hd
  cases hd with
  | finished => exact hkept (fun _ _ he => nomatch he) rfl
  | @honoured deadline wakeups =>
    have hexit := Context.Lent.moved (c := { l.context with wakeups }) h
      ⟨_, _, hs.wakeups wakeups, .exited rfl, rfl, rfl⟩
    refine Context.lent_of_callback fun i g e ha => ?_
    exact hexit.callback (fun _ _ he => nomatch he) ha
  | woken => exact hkept (fun _ _ he => nomatch he) rfl
  | visited _ hi hrun =>
    obtain ⟨g, e, ht⟩ := hturn.turn hs h hi hrun
    exact ht.lent
  | called _ hi hrun =>
    obtain ⟨g, e, ht⟩ := hturn.turn hs h hi hrun
    exact ht.lent
  | missed _ hi hrun =>
    obtain ⟨g, e, ht⟩ := hturn.turn hs h hi hrun
    exact ht.lent
  | returned => exact Context.lent_return h _
  | passed => exact hkept (fun _ _ he => nomatch he) rfl
  | passedLast => exact hkept (fun _ _ he => nomatch he) rfl

theorem stageInvariant_lent : Config.StageInvariant Context.Lent where
  create := fun _ _ _ _ _ _ ha => nomatch ha
  moved := fun _ _ _ hm h => h.moved hm
  entered := fun _ _ hs h => Context.lent_entering hs h
  dispatched := fun _ _ _ _ _ hs hd h => hd.lent hs h

end EventLoop
