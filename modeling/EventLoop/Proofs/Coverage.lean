import EventLoop.Proofs.Invariant

/-!
# No wake-up is lost

Whatever needs the dispatcher has raised its signal, or is on the way of a pass that was woken by
that signal: the signals are taken all at once before a pass, so what they stood for is carried over
to the watchers that the pass has still to visit. The deadline that bounds the next wait is likewise
not later than that of any timer the pass has behind it, unless a timer was set since.
-/
namespace EventLoop

/-- The signal by which the dispatcher has to know of a watcher. -/
def Entry.need? (e : Entry) : Option Signal :=
  match e.payload with
  | .event flag => if e.active && flag.posted then some .event else none
  | .io io => if e.active && io.ready.isPresent then some .readiness else none
  | .timer _ => if e.active then some .timer else none
  | .remote r => if r.active then some .timer else none

namespace Context

/-- The watchers that a pass has still to visit. A pass that finds its loop exited visits none. -/
def ahead (c : Context) (passing : Bool) : List Nat :=
  if passing && c.running then c.roster.remaining else []

/-- Posts, readiness and exit requests that nobody has served are signalled, or lie ahead of the
pass that was woken by `signals`. -/
structure Covered (c : Context) (signals : Signals) (passing : Bool) : Prop where
  needs : ∀ i g e s, c.watchers.at? i = some (g, e) → e.need? = some s → s ≠ .timer →
    c.wakeups.raised.has s = true ∨ (signals.has s = true ∧ i ∈ c.ahead passing)
  exit : c.exitAsked = true → c.wakeups.raised.has .exit = true

/-- A timer was set, or the deadline of every active timer that is not ahead of the pass is
known. -/
def Timed (c : Context) (passing : Bool) (bound : Option Nat) : Prop :=
  c.wakeups.raised.has .timer = true ∨
    ∀ i g e t, c.watchers.at? i = some (g, e) → e.activeTimer? = some t →
      i ∈ c.ahead passing ∨ ∃ d, t.deadline = some d ∧ NotLater bound d

/-- What holds of a context while its run is at a stage. -/
def Watchful : Option Stage → Context → Prop
  | none, c => c.Covered ∅ false
  | some (.waiting deadline), c => c.Covered ∅ false ∧ c.Timed false deadline
  | some (.passing pass), c => c.Covered pass.signals true ∧ c.Timed true pass.deadline
  | some (.calling pass _), c => c.Covered pass.signals true ∧ c.Timed true pass.deadline

end Context

/-- Outside a pass everything that needs the dispatcher is signalled. -/
theorem Context.Covered.raised {c : Context} {signals : Signals} (h : c.Covered signals false)
    {i : Nat} {g : Generation} {e : Entry} {s : Signal} (he : c.watchers.at? i = some (g, e))
    (hn : e.need? = some s) (hs : s ≠ .timer) : c.wakeups.raised.has s = true :=
  (h.needs i g e s he hn hs).resolve_right fun hm => absurd hm.2 List.not_mem_nil

/-! ### What operations signal -/

theorem need_of_activeTimer {e : Entry} {t : Timer} (h : e.activeTimer? = some t) :
    e.need? = some .timer := by
  unfold Entry.activeTimer? at h
  split at h
  · next ha =>
    cases hp : e.payload <;> simp_all [Entry.need?, Entry.isActive, Payload.timer?]
  · contradiction

theorem isActive_of_need {e : Entry} {s : Signal} (h : e.need? = some s) : e.isActive = true := by
  unfold Entry.need? at h
  split at h <;> split at h <;> simp_all [Entry.isActive]

/-- A watcher that is new or was changed is signalled if it needs the dispatcher. -/
theorem Loop.Operation.signals {l : Loop} {i : Nat} {before : Option (Generation × Entry)}
    {x : SlotChange} (h : l.Operation i before x) {g : Generation} {e : Entry} {s : Signal}
    (ha : x.after = some (g, e)) (hn : e.need? = some s) :
    x.signal = some s ∨ (before = x.after ∧ x.linking = .keep) := by
  cases h with
  | abandoned => contradiction
  | woken => exact Or.inr ⟨rfl, rfl⟩
  | timerCreated =>
    obtain ⟨-, rfl⟩ := Prod.mk.inj (Option.some.inj ha)
    simp only [Entry.need?] at hn
    split at hn <;> simp_all
  | remoteCreated =>
    obtain ⟨-, rfl⟩ := Prod.mk.inj (Option.some.inj ha)
    simp only [Entry.need?] at hn
    split at hn <;> simp_all
  | eventCreated =>
    obtain ⟨-, rfl⟩ := Prod.mk.inj (Option.some.inj ha)
    simp [Entry.need?, PostFlag.clear] at hn
  | ioCreated =>
    obtain ⟨-, rfl⟩ := Prod.mk.inj (Option.some.inj ha)
    simp [Entry.need?, Readiness.isPresent, Readiness.empty] at hn
  | timerSet =>
    obtain ⟨-, rfl⟩ := Prod.mk.inj (Option.some.inj ha)
    simp only [Entry.need?] at hn
    split at hn <;> simp_all
  | remoteSet =>
    obtain ⟨-, rfl⟩ := Prod.mk.inj (Option.some.inj ha)
    simp only [Entry.need?] at hn
    split at hn <;> simp_all
  | remoteStopped =>
    obtain ⟨-, rfl⟩ := Prod.mk.inj (Option.some.inj ha)
    simp [Entry.need?, RemoteTimer.stop] at hn
  | stopped =>
    obtain ⟨-, rfl⟩ := Prod.mk.inj (Option.some.inj ha)
    exact absurd (isActive_of_need hn) (by rw [stopped_isActive]; exact Bool.false_ne_true)
  | released => contradiction
  | ioStarted =>
    obtain ⟨-, rfl⟩ := Prod.mk.inj (Option.some.inj ha)
    simp [Entry.need?, Entry.aimed, Readiness.isPresent, Readiness.empty] at hn
  | ioRefused =>
    obtain ⟨-, rfl⟩ := Prod.mk.inj (Option.some.inj ha)
    simp [Entry.need?, Entry.aimed] at hn
  | posted =>
    obtain ⟨-, rfl⟩ := Prod.mk.inj (Option.some.inj ha)
    simp only [Entry.need?] at hn
    split at hn <;> simp_all
  | delivered =>
    obtain ⟨-, rfl⟩ := Prod.mk.inj (Option.some.inj ha)
    simp only [Entry.need?] at hn
    split at hn <;> simp_all

namespace Loop

variable {l l' : Loop} {i j : Nat} {x : SlotChange} {signals : Signals} {passing : Bool}

/-- A change leaves the other slots on the way of a pass, and the slot itself if it is kept
linked. -/
theorem Changed.ahead (hc : l.Changed l' i x) (hr : l.context.roster.WellFormed)
    (hj : j ∈ l.context.ahead passing) (hk : j ≠ i ∨ x.linking = .keep) :
    j ∈ l'.context.ahead passing := by
  unfold Context.ahead at hj ⊢
  rw [hc.running]
  split at hj
  · next hp =>
    rw [if_pos hp, hc.roster, x.linking.remaining_apply hr]
    split
    · next hleaves =>
      rcases hk with hne | hkeep
      · exact (List.mem_erase_of_ne hne).mpr hj
      · rw [hkeep] at hleaves
        contradiction
    · exact hj
  · exact absurd hj List.not_mem_nil

theorem Changed.raised (hc : l.Changed l' i x) {s : Signal}
    (h : l.context.wakeups.raised.has s = true ∨ x.signal = some s) :
    l'.context.wakeups.raised.has s = true := by
  rw [hc.wakeups]
  rcases h with h | h
  · cases x.signal with
    | none => exact h
    | some t => simp [h]
  · rw [h]
    simp

variable (passing) in
/-- What a watcher needs after an operation is signalled, or it was there before. -/
theorem Changed.need (hc : l.Changed l' i x) (ho : l.Operation i (l.context.watchers.at? i) x)
    (hr : l.context.roster.WellFormed) {g : Generation} {e : Entry} {s : Signal}
    (he : l'.context.watchers.at? j = some (g, e)) (hn : e.need? = some s) :
    l'.context.wakeups.raised.has s = true ∨
      (l.context.watchers.at? j = some (g, e) ∧
        (j ∈ l.context.ahead passing → j ∈ l'.context.ahead passing)) := by
  by_cases hj : j = i
  · subst hj
    rw [hc.at_self] at he
    rcases ho.signals he hn with hs | ⟨hsame, hkeep⟩
    · exact Or.inl (hc.raised (Or.inr hs))
    · exact Or.inr ⟨hsame.trans he, fun hm => hc.ahead hr hm (Or.inr hkeep)⟩
  · rw [hc.at_other j hj] at he
    exact Or.inr ⟨he, fun hm => hc.ahead hr hm (Or.inl hj)⟩

theorem Changed.covered (hc : l.Changed l' i x)
    (ho : l.Operation i (l.context.watchers.at? i) x) (hr : l.context.roster.WellFormed)
    (h : l.context.Covered signals passing) : l'.context.Covered signals passing := by
  constructor
  · intro j g e s he hn hs
    rcases hc.need passing ho hr he hn with hraised | ⟨hold, hahead⟩
    · exact Or.inl hraised
    · rcases h.needs j g e s hold hn hs with hraised | ⟨hsig, hm⟩
      · exact Or.inl (hc.raised (Or.inl hraised))
      · exact Or.inr ⟨hsig, hahead hm⟩
  · intro hask
    rw [hc.exitAsked] at hask
    exact hc.raised (Or.inl (h.exit hask))

theorem Changed.timed (hc : l.Changed l' i x)
    (ho : l.Operation i (l.context.watchers.at? i) x) (hr : l.context.roster.WellFormed)
    {bound : Option Nat} (h : l.context.Timed passing bound) : l'.context.Timed passing bound := by
  by_cases hraised : l'.context.wakeups.raised.has .timer = true
  · exact Or.inl hraised
  · right
    intro j g e t he ht
    rcases hc.need passing ho hr he (need_of_activeTimer ht) with hs | ⟨hold, hahead⟩
    · exact absurd hs hraised
    · rcases h with hs | h
      · exact absurd (hc.raised (Or.inl hs)) hraised
      · exact (h j g e t hold ht).imp_left hahead

end Loop

namespace Context

variable {c c' : Context} {signals : Signals} {passing : Bool} {bound : Option Nat}

/-- Where nothing is active and nobody has asked for exit there is nothing to cover. -/
theorem covered_of_idle (h : ∀ i, Loop.Idle (c.watchers.at? i)) (he : c.exitAsked = false) :
    c.Covered signals passing := by
  constructor
  · intro i g e s hat hn
    exact absurd (isActive_of_need hn) (by rw [h i g e hat]; exact Bool.false_ne_true)
  · intro hask
    rw [he] at hask
    contradiction

theorem timed_of_idle (h : ∀ i, Loop.Idle (c.watchers.at? i)) : c.Timed passing bound :=
  Or.inr fun i g e _ hat ht => absurd (isActive_of_need (need_of_activeTimer ht))
    (by rw [h i g e hat]; exact Bool.false_ne_true)

theorem Covered.moved (h : c.Covered signals passing) (hm : c.Moved c') :
    c'.Covered signals passing := by
  obtain ⟨l, l', hs, hm, rfl, rfl⟩ := hm
  cases hm with
  | slot ho hc => exact hc.covered ho hs.context.roster h
  | exitRequested he =>
    subst he
    constructor
    · intro i g e s hat hn ht
      refine (h.needs i g e s hat hn ht).imp_left fun hraised => ?_
      simp [requestExit, raise, hraised]
    · intro _
      simp [requestExit, raise]
  | exited he =>
    subst he
    exact covered_of_idle (Loop.idle_exit hs) rfl
  | refused he => exact he ▸ h

theorem Timed.moved (h : c.Timed passing bound) (hm : c.Moved c') : c'.Timed passing bound := by
  obtain ⟨l, l', hs, hm, rfl, rfl⟩ := hm
  cases hm with
  | slot ho hc => exact hc.timed ho hs.context.roster h
  | exitRequested he =>
    subst he
    refine h.imp_left fun hraised => ?_
    simp [requestExit, raise, hraised]
  | exited he =>
    subst he
    exact timed_of_idle (Loop.idle_exit hs)
  | refused he => exact he ▸ h

theorem Watchful.moved {stage : Option Stage} (h : Watchful stage c) (hm : c.Moved c') :
    Watchful stage c' := by
  cases stage with
  | none => exact Covered.moved h hm
  | some stage => cases stage <;> exact ⟨h.1.moved hm, h.2.moved hm⟩

end Context

/-! ### What the dispatcher leaves -/

namespace Entry

variable {e : Entry} {ms : Nat} {signals : Signals} {s : Signal}

/-- A watcher needs a signal after its visit only if it was not woken for it. -/
theorem visit_need (hn : (e.visit ms signals).entry.need? = some s) (hs : s ≠ .timer) :
    signals.has s = false ∧ e.need? = some s := by
  obtain ⟨serial, active, callback, payload⟩ := e
  cases payload with
  | timer t =>
    simp only [visit] at hn
    split at hn <;> simp only [need?] at hn <;> split at hn <;> simp_all
  | remote r =>
    simp only [visit] at hn
    split at hn <;> simp only [need?] at hn <;> split at hn <;> simp_all
  | io io =>
    cases active <;> cases hsig : signals.has .readiness <;>
      simp [visit, need?, hsig, Readiness.take, Readiness.isPresent, Readiness.empty] at hn ⊢
    obtain ⟨hready, rfl⟩ := hn
    exact ⟨hsig, hready, rfl⟩
  | event flag =>
    cases active <;> cases hsig : signals.has .event <;>
      simp [visit, need?, hsig, PostFlag.take, PostFlag.clear] at hn ⊢
    obtain ⟨hposted, rfl⟩ := hn
    exact ⟨hsig, hposted, rfl⟩

theorem arm_need (hs : s ≠ .timer) : (e.arm ms).need? = some s ↔ e.need? = some s := by
  obtain ⟨serial, active, callback, payload⟩ := e
  cases payload with
  | timer t => cases active <;> simp [arm, need?, hs.symm]
  | remote r => cases ha : r.active <;> simp [arm, need?, ha, hs.symm]
  | io io => rfl
  | event flag => rfl

theorem isLinked_of_need (hn : e.need? = some s) : e.isLinked = true :=
  isLinked_of_active (isActive_of_need hn)

end Entry

namespace Context

variable {c c' : Context} {signals : Signals} {passing : Bool} {bound : Option Nat}

/-- Coverage looks at watchers, way, signals and the exit request. -/
theorem Covered.congr (h : c.Covered signals passing)
    (hneed : ∀ i g e s, c'.watchers.at? i = some (g, e) → e.need? = some s → s ≠ .timer →
      ∃ g e, c.watchers.at? i = some (g, e) ∧ e.need? = some s ∧
        (i ∈ c.ahead passing → signals.has s = true → i ∈ c'.ahead passing))
    (hw : c'.wakeups = c.wakeups) (he : c'.exitAsked = c.exitAsked) :
    c'.Covered signals passing := by
  constructor
  · intro i g e s hat hn hs
    obtain ⟨g₁, e₁, hat₁, hn₁, hahead⟩ := hneed i g e s hat hn hs
    rw [hw]
    exact (h.needs i g₁ e₁ s hat₁ hn₁ hs).imp_right fun ⟨hsig, hm⟩ => ⟨hsig, hahead hm hsig⟩
  · rw [hw, he]
    exact h.exit

/-- A pass that has nothing ahead covers no more than the signals do. -/
theorem Covered.of_passed (h : c.Covered signals true) (ha : c.ahead true = []) :
    c.Covered ∅ false := by
  refine ⟨fun i g e s hat hn hs => ?_, h.exit⟩
  rcases h.needs i g e s hat hn hs with hraised | ⟨-, hm⟩
  · exact Or.inl hraised
  · rw [ha] at hm
    exact absurd hm List.not_mem_nil

theorem Timed.of_passed (h : c.Timed true bound) (ha : c.ahead true = []) :
    c.Timed false bound := by
  refine h.imp_right fun h i g e t hat ht => ?_
  refine (h i g e t hat ht).imp_left fun hm => ?_
  rw [ha] at hm
  exact absurd hm List.not_mem_nil

end Context

namespace Loop

variable {l : Loop} {i now : Nat} {signals : Signals} {bound : Option Nat}

theorem ahead_of_running {c : Context} (hrun : c.running = true) :
    c.ahead true = c.roster.remaining := by
  rw [Context.ahead, hrun]
  rfl

theorem ahead_of_passed (hs : l.Sound)
    (h : l.context.roster.next.2 = none ∨ l.context.running = false) :
    l.context.ahead true = [] := by
  unfold Context.ahead
  rcases h with h | h
  · rw [hs.context.roster.next_eq, List.head?_eq_none_iff] at h
    rw [h]
    exact ite_self _
  · rw [h]
    rfl

/-- One turn of a pass keeps what the pass has covered. -/
theorem Sound.covered_turn (hs : l.Sound) (hi : l.context.roster.next.2 = some i)
    (hrun : l.context.running = true) (h : l.context.Covered signals true) :
    (Context.visit { l.context with roster := l.context.roster.next.1 } now signals
      i).context.Covered signals true := by
  obtain ⟨g, e, roster, hat, hv, hrem, -⟩ := hs.turn hi now signals
  have hahead := ahead_of_running (c := { l.context with
    watchers := l.context.watchers.put i (e.visit (toMillis now) signals).entry, roster }) hrun
  rw [hv]
  refine h.congr (fun j g' e' s he hn ht => ?_) rfl rfl
  rw [hahead, ahead_of_running hrun, hrem]
  by_cases hj : j = i
  · subst hj
    rw [Arena.at?_put_self hat] at he
    obtain ⟨-, rfl⟩ := Prod.mk.inj (Option.some.inj he)
    obtain ⟨hsig, hold⟩ := Entry.visit_need hn ht
    exact ⟨g, e, hat, hold, fun _ hs => absurd hs (by rw [hsig]; exact Bool.false_ne_true)⟩
  · rw [Arena.at?_put_other hj] at he
    exact ⟨g', e', he, hn, fun hm _ => (List.mem_cons.mp hm).resolve_left hj⟩

theorem Sound.timed_turn (hs : l.Sound) (hi : l.context.roster.next.2 = some i)
    (hrun : l.context.running = true) (h : l.context.Timed true bound) :
    (Context.visit { l.context with roster := l.context.roster.next.1 } now signals
      i).context.Timed true (sooner bound
        (Context.visit { l.context with roster := l.context.roster.next.1 } now signals
          i).deadline) := by
  obtain ⟨g, e, roster, hat, hv, hrem, -⟩ := hs.turn hi now signals
  have hahead := ahead_of_running (c := { l.context with
    watchers := l.context.watchers.put i (e.visit (toMillis now) signals).entry, roster }) hrun
  rw [hv]
  refine h.imp_right fun h j g' e' t he ht => ?_
  rw [hahead]
  rw [ahead_of_running hrun, hrem] at h
  by_cases hj : j = i
  · subst hj
    rw [Arena.at?_put_self hat] at he
    obtain ⟨-, rfl⟩ := Prod.mk.inj (Option.some.inj he)
    obtain ⟨d, hd, hvd⟩ := Entry.visit_deadline (hs.context.fits j g e hat) ht
    refine Or.inr ⟨d, hd, ?_⟩
    dsimp only
    rw [hvd]
    exact notLater_sooner_right bound
  · rw [Arena.at?_put_other hj] at he
    rcases h j g' e' t he ht with hm | ⟨d, hd, hb⟩
    · exact Or.inl ((List.mem_cons.mp hm).resolve_left hj)
    · exact Or.inr ⟨d, hd, notLater_sooner_left hb _⟩

end Loop

namespace Context

variable {c : Context} {signals : Signals} {passing : Bool} {bound : Option Nat}

/-- At most callbacks have changed. -/
def Recalled (c c' : Context) : Prop :=
  ∃ watchers, c' = { c with watchers } ∧ ∀ j g e, watchers.at? j = some (g, e) →
    ∃ e₀ f, c.watchers.at? j = some (g, e₀) ∧ e = { e₀ with callback := f }

theorem recalled_refl (c : Context) : c.Recalled c :=
  ⟨c.watchers, rfl, fun _ _ e h => ⟨e, e.callback, h, rfl⟩⟩

theorem recalled_put {h : Handle} {e : Entry} (hf : c.find h = .ok e) (f : Option Callback) :
    c.Recalled
      { c with watchers := c.watchers.put h.key.index { e with callback := f } } := by
  have ha := (find_ok hf).2
  refine ⟨_, rfl, fun j g e' he => ?_⟩
  by_cases hj : j = h.key.index
  · subst hj
    rw [Arena.at?_put_self ha] at he
    obtain ⟨rfl, rfl⟩ := Prod.mk.inj (Option.some.inj he)
    exact ⟨e, f, ha, rfl⟩
  · rw [Arena.at?_put_other hj] at he
    exact ⟨e', e'.callback, he, rfl⟩

theorem recalled_lend (c : Context) (h : Handle) : c.Recalled (c.lendCallback h).1 := by
  cases hf : c.find h with
  | error err =>
    rw [lendCallback, hf]
    exact recalled_refl c
  | ok e =>
    rw [lendCallback_ok hf]
    exact recalled_put hf none

theorem recalled_return (c : Context) (h : Handle) (f : Callback) :
    c.Recalled (c.returnCallback h f) := by
  rcases c.returnCallback_cases h f with he | ⟨e, hf, -, he⟩
  · exact he.symm ▸ recalled_refl c
  · exact he.symm ▸ recalled_put hf (some f)

theorem Covered.recalled {c' : Context} (h : c.Covered signals passing) (hr : c.Recalled c') :
    c'.Covered signals passing := by
  obtain ⟨watchers, rfl, hslots⟩ := hr
  refine h.congr (fun i g e s he hn _ => ?_) rfl rfl
  obtain ⟨e₀, f, he₀, rfl⟩ := hslots i g e he
  exact ⟨g, e₀, he₀, hn, fun hm _ => hm⟩

theorem Timed.recalled {c' : Context} (h : c.Timed passing bound) (hr : c.Recalled c') :
    c'.Timed passing bound := by
  obtain ⟨watchers, rfl, hslots⟩ := hr
  refine h.imp_right fun h i g e t he ht => ?_
  obtain ⟨e₀, f, he₀, rfl⟩ := hslots i g e he
  exact h i g e₀ t he₀ ht

end Context

/-! ### The invariant -/

/-- A pass is woken by all that was signalled. -/
theorem Wakeups.has_of_taken {w : Wakeups} {timeout : Option Nat} {signals : Signals}
    (hw : (w.wait (Mask.full Signal) timeout).2 = .woken signals ∨
      ((∃ us, (w.wait (Mask.full Signal) timeout).2 = .elapsed us) ∧ signals = ∅))
    {s : Signal} (hraised : w.raised.has s = true) : signals.has s = true := by
  rcases hw with hw | ⟨⟨us, hw⟩, -⟩
  · rw [woken_has hw]
    exact hraised
  · have hslept : ∀ signals, (w.wait (Mask.full Signal) timeout).2 ≠ .woken signals := by
      intro signals he
      rw [hw] at he
      contradiction
    rw [has_of_not_woken hslept s] at hraised
    contradiction

/-- A pass begins with all that needs it on its way. -/
theorem Context.Sound.mem_rewind {c : Context} (hs : c.Sound) {i : Nat} {g : Generation} {e : Entry}
    {s : Signal} (he : c.watchers.at? i = some (g, e)) (hn : e.need? = some s) :
    i ∈ c.roster.rewind.remaining := by
  rw [hs.roster.rewind.2.1, hs.linked_iff]
  exact ⟨g, e, he, Entry.isLinked_of_need hn⟩

open Context in
/-- A pass begins with all that was signalled ahead of it. -/
theorem watchful_woken {l : Loop} {timeout : Option Nat} {signals : Signals} (hs : l.Sound)
    (hrun : l.context.running = true)
    (hw : (l.context.wakeups.wait (Mask.full Signal) timeout).2 = .woken signals ∨
      ((∃ us, (l.context.wakeups.wait (Mask.full Signal) timeout).2 = .elapsed us) ∧
        signals = ∅))
    (hexit : (signals.has .exit && l.context.exitAsked) = false)
    (h : l.context.Covered ∅ false) :
    Watchful (some (.passing ⟨signals, 0, none⟩))
      { l.context with
        wakeups := (l.context.wakeups.wait (Mask.full Signal) timeout).1
        roster := l.context.roster.rewind } := by
  have hahead : ∀ i g e s, l.context.watchers.at? i = some (g, e) → e.need? = some s →
      i ∈ Context.ahead { l.context with
        wakeups := (l.context.wakeups.wait (Mask.full Signal) timeout).1
        roster := l.context.roster.rewind } true := by
    intro i g e s he hn
    have hlist := Loop.ahead_of_running (c := { l.context with
      wakeups := (l.context.wakeups.wait (Mask.full Signal) timeout).1
      roster := l.context.roster.rewind }) hrun
    rw [hlist]
    exact hs.context.mem_rewind he hn
  refine ⟨⟨fun i g e s he hn ht => ?_, fun hask => ?_⟩, ?_⟩
  · exact Or.inr ⟨Wakeups.has_of_taken hw (h.raised he hn ht), hahead i g e s he hn⟩
  · have hsig := Wakeups.has_of_taken hw (h.exit hask)
    rw [hsig, Bool.true_and] at hexit
    exact absurd (hexit.symm.trans hask) Bool.false_ne_true
  · exact Or.inr fun i g e t he ht => Or.inl (hahead i g e .timer he (need_of_activeTimer ht))

/-- The timers of a loop are armed when a run of it begins. -/
theorem watchful_entering (w : World) {l : Loop} (hs : l.Sound) (h : l.context.Covered ∅ false) :
    Context.Watchful (some (.waiting (w.entering l).2)) (w.entering l).1 := by
  obtain ⟨watchers, hc, -, hbound⟩ := World.entering_spec (w := w) hs
  have hslots : ∀ j g e, watchers.at? j = some (g, e) → ∃ e₀,
      l.context.watchers.at? j = some (g, e₀) ∧ e = e₀.arm (toMillis (w.now l.context)) := by
    intro j g e he
    have hat := World.entering_at (w := w) hs j
    rw [hc, he] at hat
    obtain ⟨⟨g, e₀⟩, he₀, heq⟩ := Option.map_eq_some_iff.mp hat.symm
    obtain ⟨rfl, rfl⟩ := Prod.mk.inj heq
    exact ⟨e₀, he₀, rfl⟩
  rw [hc]
  refine ⟨h.congr (fun j g e s he hn hs => ?_) rfl rfl, Or.inr fun j g e t he ht => Or.inr ?_⟩
  · obtain ⟨e₀, he₀, rfl⟩ := hslots j g e he
    exact ⟨g, e₀, he₀, (Entry.arm_need hs).mp hn, fun hm _ => hm⟩
  · obtain ⟨e₀, he₀, rfl⟩ := hslots j g e he
    have hlinked : j ∈ l.context.roster.toList := by
      refine (hs.context.linked_iff j).mpr ⟨g, e₀, he₀, ?_⟩
      exact Entry.arm_isLinked ▸ Entry.isLinked_of_need (need_of_activeTimer ht)
    obtain ⟨d, hd, hdl⟩ := Entry.arm_deadline (hs.context.fits j g e₀ he₀) ht
    exact ⟨d, hd, hbound j hlinked (g, e₀) d he₀ hdl⟩

theorem Dispatch.watchful {l l' : Loop} {now : Nat} {stage : Stage} {stage' : Option Stage}
    (hs : l.Sound) (hd : Dispatch l now stage stage' l')
    (h : Context.Watchful (some stage) l.context) : Context.Watchful stage' l'.context := by
  cases hd with
  | finished => exact ⟨h.1.needs, h.1.exit⟩
  | @honoured deadline wakeups =>
    exact Context.covered_of_idle (fun i => Loop.idle_exit (hs.wakeups wakeups) i) rfl
  | woken hrun hw hexit => exact watchful_woken hs hrun hw hexit h.1
  | visited hc hi hrun =>
    subst hc
    exact ⟨hs.covered_turn hi hrun h.1, hs.timed_turn hi hrun h.2⟩
  | called hc hi hrun =>
    subst hc
    exact ⟨(hs.covered_turn hi hrun h.1).recalled (Context.recalled_lend _ _),
      (hs.timed_turn hi hrun h.2).recalled (Context.recalled_lend _ _)⟩
  | missed hc hi hrun =>
    subst hc
    exact ⟨(hs.covered_turn hi hrun h.1).recalled (Context.recalled_lend _ _),
      (hs.timed_turn hi hrun h.2).recalled (Context.recalled_lend _ _)⟩
  | returned =>
    exact ⟨h.1.recalled (Context.recalled_return _ _ _),
      h.2.recalled (Context.recalled_return _ _ _)⟩
  | passed hend =>
    have hpassed := Loop.ahead_of_passed hs hend
    have hc := h.1.of_passed hpassed
    exact ⟨⟨hc.needs, hc.exit⟩, h.2.of_passed hpassed⟩
  | passedLast hend =>
    have hc := h.1.of_passed (Loop.ahead_of_passed hs hend)
    exact ⟨hc.needs, hc.exit⟩

theorem stageInvariant_watchful : Config.StageInvariant Context.Watchful where
  create := fun _ _ _ => Context.covered_of_idle (fun _ _ _ h => nomatch h) rfl
  moved := fun _ _ _ hm h => h.moved hm
  entered := fun w _ hs h => watchful_entering w hs h
  dispatched := fun _ _ _ _ _ hs hd h => hd.watchful hs h

/-! ### In every reachable state -/

/-- The innermost run is about to wait. -/
structure Machine.AtWait (m : Machine) (a : Activation) (below : List Activation) (l : Loop) :
    Prop where
  stack : m.stack = a :: below
  going : m.abort = none
  waiting : a.phase = .waiting
  loop : m.world.loop? a.context = some l
  running : l.context.running = true
  linked : l.context.roster.isEmpty = false

/-- What there is to do for a context is signalled, or due at the known deadline at the latest. -/
structure Context.Signalled (c : Context) (deadline : Option Nat) : Prop where
  event : ∀ i g e flag, c.watchers.at? i = some (g, e) → e.payload = .event flag →
    e.active = true → flag.posted = true → c.wakeups.raised.has .event = true
  readiness : ∀ i g e io, c.watchers.at? i = some (g, e) → e.payload = .io io →
    e.active = true → io.ready.events.isEmpty = false → c.wakeups.raised.has .readiness = true
  exit : c.exitAsked = true → c.wakeups.raised.has .exit = true
  timer : c.wakeups.raised.has .timer = true ∨
    ∀ i g e t, c.watchers.at? i = some (g, e) → e.isActive = true → e.payload.timer? = some t →
      ∃ d b, t.deadline = some d ∧ deadline = some b ∧ b ≤ d

/-- There is nothing to do for a context until somebody else acts. -/
structure Context.Quiet (c : Context) : Prop where
  event : ∀ i g e flag, c.watchers.at? i = some (g, e) → e.payload = .event flag →
    e.active = true → flag.posted = false
  readiness : ∀ i g e io, c.watchers.at? i = some (g, e) → e.payload = .io io →
    e.active = true → io.ready.events.isEmpty = true
  exit : c.exitAsked = false
  timer : ∀ i g e t, c.watchers.at? i = some (g, e) → e.payload.timer? = some t →
    e.isActive = false

namespace Context

variable {c : Context} {deadline : Option Nat}

theorem Watchful.signalled (h : Watchful (some (.waiting deadline)) c) : c.Signalled deadline := by
  obtain ⟨hcovered, htimed⟩ := h
  refine ⟨fun i g e flag he hp ha hf => ?_, fun i g e io he hp ha hr => ?_, hcovered.exit, ?_⟩
  · exact hcovered.raised he (s := .event) (by simp [Entry.need?, hp, ha, hf]) (by decide)
  · exact hcovered.raised he (s := .readiness)
      (by simp [Entry.need?, hp, ha, Readiness.isPresent, hr]) (by decide)
  · refine htimed.imp_right fun h i g e t he ha ht => ?_
    have hactive : e.activeTimer? = some t := by rw [Entry.activeTimer?, if_pos ha, ht]
    obtain ⟨d, hd, b, hb, hle⟩ :=
      (h i g e t he hactive).resolve_left fun hm => absurd hm List.not_mem_nil
    exact ⟨d, b, hd, hb, hle⟩

/-- If nothing is raised and no deadline is known, there is nothing to do. -/
theorem Signalled.quiet (h : c.Signalled none) (hnone : ∀ s, c.wakeups.raised.has s = false) :
    c.Quiet := by
  have hraised : ∀ s, ¬ c.wakeups.raised.has s = true := fun s => by
    rw [hnone s]
    exact Bool.false_ne_true
  refine ⟨fun i g e flag he hp ha => ?_, fun i g e io he hp ha => ?_, ?_,
    fun i g e t he ht => ?_⟩
  · exact Bool.not_eq_true _ ▸ fun hf => hraised .event (h.event i g e flag he hp ha hf)
  · exact Bool.not_eq_false _ ▸ fun hr => hraised .readiness (h.readiness i g e io he hp ha hr)
  · exact Bool.not_eq_true _ ▸ fun hask => hraised .exit (h.exit hask)
  · refine Bool.not_eq_true _ ▸ fun ha => ?_
    obtain ⟨d, b, -, hb, -⟩ := h.timer.resolve_left (hraised .timer) i g e t he ha ht
    contradiction

end Context

/-- What there is to do for a context that is about to wait is signalled, or due at the deadline. -/
theorem Machine.Reachable.signalled {m : Machine} (h : m.Reachable) {id : Nat} {c : Context}
    {deadline : Option Nat} (hc : m.world.context? id = some c)
    (hst : m.config.StandsAt id (some (.waiting deadline))) : c.Signalled deadline :=
  have hq := (stageInvariant_watchful.inductive.reachable (fun _ _ _ _ _ hc => nomatch hc) h).2
  (hq id c _ hc hst).signalled

theorem deadline_of_forever {w : World} {a : Activation} {l : Loop}
    (h : (l.context.wakeups.wait (Mask.full Signal)
      (Machine.waitTimeout w a l.context)).2 = .forever) : a.deadline = none := by
  have ht := Wakeups.timeout_of_forever h
  unfold Machine.waitTimeout at ht
  split at ht
  · contradiction
  · exact Option.map_eq_none_iff.mp ht

/-- Whenever a run is about to wait, all that is to be done for its context is signalled or due at
the known deadline at the latest. So a run waits for ever only if there is nothing to do. -/
theorem no_lost_wakeup {m : Machine} {a : Activation} {below : List Activation} {l : Loop}
    (h : m.Reachable) (hw : m.AtWait a below l) :
    l.context.Signalled a.deadline ∧
      ((l.context.wakeups.wait (Mask.full Signal)
        (Machine.waitTimeout m.world a l.context)).2 = .forever → l.context.Quiet) := by
  have hstands := Config.standsAt_of_mem (hw.stack ▸ List.mem_cons_self : a ∈ m.stack)
  rw [Activation.standing, hw.waiting] at hstands
  have hsig := h.signalled (World.loop?_eq_some.mp hw.loop).1 hstands
  refine ⟨hsig, fun hforever => ?_⟩
  rw [deadline_of_forever hforever] at hsig
  have hnot : ∀ signals, (l.context.wakeups.wait (Mask.full Signal)
      (Machine.waitTimeout m.world a l.context)).2 ≠ .woken signals := by
    intro signals he
    rw [hforever] at he
    contradiction
  exact hsig.quiet (Wakeups.has_of_not_woken hnot)

/-- A scenario that has made a loop with one event. -/
def Machine.withEvent : Machine :=
  ((Machine.create (World.create ⟨1000000, 0, false⟩ .standIn)).submit
    (.newContext .none .scenario)).submit (.create none "event" .event ⟨[], false⟩)

/-- A run of the loop, begun after some other step. -/
def Machine.runAfter (command : Command) : Machine :=
  (Machine.withEvent.submit command).submit (.run none ∅)

/-- A post is signalled to the wait, and without one the wait is for ever. -/
theorem no_lost_wakeup_withEvent :
    (∃ a below l, (Machine.runAfter (.watcher none "event" .eventPost)).AtWait a below l ∧
      l.context.wakeups.raised.has .event = true ∧ l.context.Signalled a.deadline) ∧
    ∃ a below l, (Machine.runAfter .unknown).AtWait a below l ∧
      (l.context.wakeups.wait (Mask.full Signal)
        (Machine.waitTimeout (Machine.runAfter .unknown).world a l.context)).2 = .forever ∧
      l.context.Quiet := by
  have hmade : Machine.withEvent.Reachable :=
    ((Machine.Reachable.start _ _).step (.submitted _ rfl rfl)).step (.submitted _ rfl rfl)
  have hposted : (Machine.runAfter (.watcher none "event" .eventPost)).AtWait _ _ _ :=
    ⟨rfl, rfl, rfl, rfl, rfl, rfl⟩
  have hidle : (Machine.runAfter .unknown).AtWait _ _ _ := ⟨rfl, rfl, rfl, rfl, rfl, rfl⟩
  exact ⟨⟨_, _, _, hposted, by decide, (no_lost_wakeup ((hmade.step
      (.submitted _ rfl rfl)).step (.submitted _ rfl rfl)) hposted).1⟩,
    _, _, _, hidle, by decide, (no_lost_wakeup ((hmade.step
      (.submitted _ rfl rfl)).step (.submitted _ rfl rfl)) hidle).2 (by decide)⟩

end EventLoop
