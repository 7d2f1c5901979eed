import EventLoop.Proofs.Armed
import EventLoop.Proofs.Deadline
import EventLoop.Proofs.Rest

/-!
# Turns without a call

A turn that calls nobody leaves its watcher as it is, and moves the cursor only. It adds the deadline
of the watcher to those known, so that a whole pass without calls comes to know the same deadline as
arming the timers of a loop that has them armed already.
-/
namespace EventLoop

namespace Entry

variable {e : Entry} {ms : Nat} {signals : Signals} {polled : Bool}

/-- The watcher is no active timer without a deadline. -/
def IsArmed (e : Entry) : Prop := ∀ t, e.activeTimer? = some t → ∃ d, t.deadline = some d

/-- A visit that does not call the watcher leaves it as it is. -/
theorem visit_of_uncalled (hf : e.Fits polled) (ha : e.IsArmed)
    (hn : (e.visit ms signals).events = none) :
    e.visit ms signals = ⟨e, false, e.deadline?, none⟩ := by
  have htimer : ∀ t, e.activeTimer? = some t → ((t.arm ms).fire ms).2 = .idle →
      ((t.arm ms).fire ms).1 = t := by
    intro t ht hidle
    obtain ⟨d, hd⟩ := ha t ht
    rw [Timer.fire_of_idle hidle, Timer.arm_of_deadline ms hd]
  obtain ⟨serial, active, callback, payload⟩ := e
  cases payload with
  | timer t =>
    cases active with
    | false => rfl
    | true =>
      have hidle : ((t.arm ms).fire ms).2 = .idle := by simpa [visit] using hn
      have hsame := htimer t rfl hidle
      simp [visit, hidle, hsame, deadline?, activeTimer?, isActive, Payload.timer?]
  | remote r =>
    cases hactive : r.active with
    | false => simp [visit, hactive, deadline?, activeTimer?, isActive]
    | true =>
      have hidle : ((r.timer.arm ms).fire ms).2 = .idle := by simpa [visit, hactive] using hn
      have hsame := htimer r.timer (by simp [activeTimer?, isActive, Payload.timer?, hactive]) hidle
      have hr : { r with timer := r.timer, active := true } = r := by rw [← hactive]
      simp [visit, hactive, hidle, hsame, deadline?, activeTimer?, isActive, Payload.timer?]
      exact hr
  | event flag =>
    cases active <;> cases hs : signals.has .event <;> cases hposted : flag.posted <;>
      simp [visit, hs, PostFlag.take, hposted, deadline?, activeTimer?, Payload.timer?] at hn ⊢
    exact congrArg PostFlag.mk hposted.symm
  | io io =>
    have hknown : io.ready.events.known = io.ready.events := hf.2.2
    cases active <;> cases hs : signals.has .readiness <;>
      simp [visit, hs, Readiness.take, hknown, deadline?, activeTimer?, Payload.timer?] at hn ⊢
    have hempty : Readiness.empty = io.ready :=
      congrArg Readiness.mk ((Mask.isEmpty_iff _).mp hn).symm
    rw [hempty]
    exact ⟨rfl, hn⟩

/-- A pass that nothing but time has begun calls timers only, and those that are due. -/
theorem visit_uncalled (hf : e.Fits polled) (h : ∀ d, e.deadline? = some d → ¬ d < ms) :
    (e.visit ms ∅).events = none := by
  rw [← Option.isNone_iff_eq_none, ← Option.isSome_eq_false_iff, ← Bool.not_eq_true,
    visit_events_iff hf]
  intro hready
  obtain ⟨serial, active, callback, payload⟩ := e
  cases payload with
  | timer t =>
    obtain ⟨rfl, d, hd, hdue⟩ := hready
    exact h d hd hdue
  | remote r =>
    obtain ⟨hactive, d, hd, hdue⟩ := hready
    exact h d (deadline?_eq_some.mpr ⟨r.timer, rfl, hactive, hd⟩) hdue
  | event flag => exact absurd hready.2.1 (by simp)
  | io io => exact absurd hready.2.1 (by simp)

/-- Arming a timer that is armed does nothing. -/
theorem arm_of_armed (h : e.IsArmed) : e.arm ms = e := by
  cases ht : e.activeTimer? with
  | none =>
    obtain ⟨serial, active, callback, payload⟩ := e
    cases payload with
    | timer t => cases active <;> [rfl; contradiction]
    | remote r =>
      cases ha : r.active <;> simp [activeTimer?, isActive, Payload.timer?, arm, ha] at ht ⊢
    | event => rfl
    | io => rfl
  | some t =>
    obtain ⟨d, hd⟩ := h t ht
    exact arm_of_deadline (d := d) (by rw [deadline?, ht, Option.bind_some, hd])

end Entry

namespace Context

variable {c : Context} {i : Nat}

/-- The deadline of an active timer in a slot. -/
def slotDeadline (c : Context) (i : Nat) : Option Nat :=
  (c.watchers.at? i).bind fun v => v.2.deadline?

/-- The earliest of the deadlines in some slots and another one. -/
def earliest (c : Context) (L : List Nat) (bound : Option Nat) : Option Nat :=
  L.foldl (fun bound i => sooner bound (c.slotDeadline i)) bound

theorem slotDeadline_eq_some {d : Nat} : c.slotDeadline i = some d ↔
    ∃ g e, c.watchers.at? i = some (g, e) ∧ e.deadline? = some d := by
  rw [slotDeadline, Option.bind_eq_some_iff]
  exact ⟨fun ⟨v, hat, hd⟩ => ⟨v.1, v.2, hat, hd⟩, fun ⟨g, e, hat, hd⟩ => ⟨(g, e), hat, hd⟩⟩

/-- A slot with a deadline is linked. -/
theorem Sound.mem_of_deadline (hs : c.Sound) {d : Nat} (h : c.slotDeadline i = some d) :
    i ∈ c.roster.toList := by
  obtain ⟨g, e, hat, hd⟩ := slotDeadline_eq_some.mp h
  exact (hs.linked_iff i).mpr ⟨g, e, hat, Entry.isLinked_of_need (Entry.need_of_deadline hd)⟩

/-- The earliest deadline is not later than any. -/
theorem notLater_earliest {d : Nat} : ∀ (L : List Nat) (bound : Option Nat),
    NotLater bound d ∨ (∃ i ∈ L, c.slotDeadline i = some d) → NotLater (c.earliest L bound) d
  | [], _, h => h.resolve_right fun ⟨_, hi, _⟩ => absurd hi List.not_mem_nil
  | i :: L, bound, h => by
    refine notLater_earliest L _ ?_
    rcases h with h | ⟨j, hj, hd⟩
    · exact Or.inl (notLater_sooner_left h _)
    · rcases List.mem_cons.mp hj with rfl | hj
      · have hnew : NotLater (sooner bound (c.slotDeadline j)) d := by
          rw [hd]
          exact notLater_sooner_right bound
        exact Or.inl hnew
      · exact Or.inr ⟨j, hj, hd⟩

/-- The earliest deadline is one of them. -/
theorem earliest_attained {d : Nat} : ∀ (L : List Nat) (bound : Option Nat),
    c.earliest L bound = some d → bound = some d ∨ ∃ i ∈ L, c.slotDeadline i = some d
  | [], _, h => Or.inl h
  | i :: L, bound, h => by
    rcases earliest_attained L _ h with h | ⟨j, hj, hd⟩
    · exact (sooner_eq_some h).imp_right fun hd => ⟨i, List.mem_cons_self, hd⟩
    · exact Or.inr ⟨j, List.mem_cons_of_mem i hj, hd⟩

/-- Unless a timer was set since, no deadline is earlier than the bound that is known. -/
theorem Timed.notLater {bound : Option Nat} (h : c.Timed false bound)
    (hquiet : c.wakeups.raised.has .timer = false) {d : Nat} (hd : c.slotDeadline i = some d) :
    NotLater bound d := by
  obtain ⟨g, e, hat, hd⟩ := slotDeadline_eq_some.mp hd
  obtain ⟨t, ht, hd⟩ := Option.bind_eq_some_iff.mp hd
  rcases h with hraised | hall
  · exact nomatch hquiet.symm.trans hraised
  · rcases hall i g e t hat ht with hahead | ⟨d', hd', hle⟩
    · exact absurd hahead List.not_mem_nil
    · obtain rfl := Option.some.inj (hd.symm.trans hd')
      exact hle

theorem Armed.isArmed (h : c.Armed) (hrun : c.running = true) {g : Generation} {e : Entry}
    (hat : c.watchers.at? i = some (g, e)) : e.IsArmed :=
  fun t ht => h hrun i g e t hat ht

/-- Arming a loop whose timers are armed does nothing but find the earliest deadline. -/
theorem armAll_of_armed (h : c.Armed) (hrun : c.running = true) (now : Nat) :
    c.armAll now = (c, c.earliest c.roster.toList none) := by
  have hslot : ∀ i, c.armSlot (toMillis now) i = (c, c.slotDeadline i) := by
    intro i
    cases hat : c.watchers.at? i with
    | none => rw [armSlot_of_none hat, slotDeadline, hat, Option.bind_none]
    | some v =>
      obtain ⟨g, e⟩ := v
      rw [armSlot_of_some hat, Entry.arm_of_armed (h.isArmed hrun hat), Arena.put_self hat,
        slotDeadline, hat, Option.bind_some]
  rw [armAll_eq]
  generalize none = bound
  generalize c.roster.toList = L
  induction L generalizing bound with
  | nil => rfl
  | cons i L ih =>
    have hfold : armList (toMillis now) (i :: L) c bound =
        armList (toMillis now) L (c.armSlot (toMillis now) i).1
          (sooner bound (c.armSlot (toMillis now) i).2) := rfl
    rw [hfold, hslot]
    exact ih _

/-- A pass that nothing but time has begun calls nobody in a slot whose deadline has not passed. -/
theorem visit_uncalled {l : Loop} (hs : l.Sound) {now : Nat}
    (hw : c.watchers = l.context.watchers)
    (h : ∀ d, c.slotDeadline i = some d → ¬ d < toMillis now) : (c.visit now ∅ i).call = none := by
  cases hat : c.watchers.at? i with
  | none => rw [visit_of_none hat]
  | some v =>
    obtain ⟨g, e⟩ := v
    rw [visit_of_some hat]
    refine Option.map_eq_none_iff.mpr (Entry.visit_uncalled (hs.context.fits i g e (hw ▸ hat)) ?_)
    exact fun d hd => h d (slotDeadline_eq_some.mpr ⟨g, e, hat, hd⟩)

/-- A visit that calls nobody changes nothing. -/
theorem visit_of_uncalled {l : Loop} (hs : l.Sound) (ha : l.context.Armed)
    (hrun : l.context.running = true) {now : Nat} {signals : Signals}
    (hw : c.watchers = l.context.watchers) (hn : (c.visit now signals i).call = none) :
    c.visit now signals i = ⟨c, c.slotDeadline i, none⟩ := by
  cases hat : c.watchers.at? i with
  | none => rw [visit_of_none hat, slotDeadline, hat, Option.bind_none]
  | some v =>
    obtain ⟨g, e⟩ := v
    rw [visit_of_some hat] at hn
    have hvisit := Entry.visit_of_uncalled (hs.context.fits i g e (hw ▸ hat))
      (ha.isArmed hrun (hw ▸ hat)) (Option.map_eq_none_iff.mp hn)
    rw [visit_of_some hat, hvisit, Arena.put_self hat, slotDeadline, hat, Option.bind_some]
    rfl

end Context
end EventLoop
