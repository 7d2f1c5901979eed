import EventLoop.Proofs.Moves

/-!
# What the dispatcher does to its context

The dispatcher arms timers, visits watchers, and lends and returns their callbacks. Each of these
replaces one watcher by another with the same traits, and unlinks at most a plain timer that has
fired for the last time.
-/
namespace EventLoop

/-! ### One watcher -/

/-- The ticket, descriptor and interest of an I/O watcher that is started. -/
def Entry.aim? (e : Entry) : Option (Nat × Int × Events) :=
  match e.payload with
  | .io io => if e.active then some (io.ticket, io.fd, io.interest) else none
  | _ => none

/-- What the dispatcher leaves as it is in a watcher. -/
def Entry.traits (e : Entry) : Nat × WatcherKind × Option (Nat × Int × Events) :=
  (e.serial, e.payload.kind, e.aim?)

/-- What a visit makes of a watcher: the watcher afterwards, whether it leaves the roster, the
deadline of an active timer, and the events of the call that is due. -/
structure Entry.Outcome where
  entry : Entry
  leaves : Bool
  deadline : Option Nat
  events : Option Events

namespace Entry

variable (e : Entry) (ms : Nat) (signals : Signals)

/-- The visit of a watcher, its context apart. -/
def visit : Outcome :=
  match e.payload with
  | .event flag =>
    if e.active && signals.has .event then
      ⟨{ e with payload := .event flag.take.1 }, false, none,
        if flag.take.2 then some (Mask.only .read) else none⟩
    else ⟨e, false, none, none⟩
  | .timer t =>
    if e.active then
      let f := (t.arm ms).fire ms
      ⟨{ e with payload := .timer f.1, active := f.2 != .expired }, f.2 = .expired, f.1.deadline,
        if f.2 != .idle then some (Mask.only .read) else none⟩
    else ⟨e, false, none, none⟩
  | .remote r =>
    if r.active then
      let f := (r.timer.arm ms).fire ms
      ⟨{ e with payload := .remote { r with timer := f.1, active := f.2 != .expired } }, false,
        f.1.deadline, if f.2 != .idle then some (Mask.only .read) else none⟩
    else ⟨e, false, none, none⟩
  | .io io =>
    if e.active && signals.has .readiness then
      ⟨{ e with payload := .io { io with ready := io.ready.take.1 } }, false, none,
        if !io.ready.take.2.isEmpty then some io.ready.take.2 else none⟩
    else ⟨e, false, none, none⟩

/-- A watcher armed for a run, if it is an active timer. -/
def arm : Entry :=
  match e.payload with
  | .timer t => if e.active then { e with payload := .timer (t.arm ms) } else e
  | .remote r =>
    if r.active then { e with payload := .remote { r with timer := r.timer.arm ms } } else e
  | _ => e

/-- The timer of a watcher that is an active timer, of either kind. -/
def activeTimer? : Option Timer := if e.isActive then e.payload.timer? else none

/-- The deadline of an active timer. -/
def deadline? : Option Nat := e.activeTimer?.bind Timer.deadline

/-- Whether the watcher is to be called at its turn in a pass. A timer is not due before the clock
has moved past its deadline. -/
def IsReady : Prop :=
  match e.payload with
  | .event flag => e.active = true ∧ signals.has .event = true ∧ flag.posted = true
  | .timer t => e.active = true ∧ ∃ d, t.deadline = some d ∧ d < ms
  | .remote r => r.active = true ∧ ∃ d, r.timer.deadline = some d ∧ d < ms
  | .io io =>
    e.active = true ∧ signals.has .readiness = true ∧ io.ready.events.isEmpty = false

variable {e ms signals}

theorem visit_traits : (e.visit ms signals).entry.traits = e.traits := by
  obtain ⟨serial, active, callback, payload⟩ := e
  cases payload <;> simp only [visit] <;> split <;>
    simp_all [traits, aim?, Payload.kind]

theorem visit_callback : (e.visit ms signals).entry.callback = e.callback := by
  obtain ⟨serial, active, callback, payload⟩ := e
  cases payload <;> simp only [visit] <;> split <;> rfl

theorem visit_isLinked :
    (e.visit ms signals).entry.isLinked = (e.isLinked && !(e.visit ms signals).leaves) := by
  obtain ⟨serial, active, callback, payload⟩ := e
  cases payload with
  | timer t =>
    cases active
    · rfl
    · cases hf : ((t.arm ms).fire ms).2 <;> simp [visit, isLinked, Payload.isRemote, hf]
  | remote r => cases ha : r.active <;> simp [visit, isLinked, Payload.isRemote, ha]
  | event flag =>
    cases active <;> cases hs : signals.has .event <;>
      simp [visit, isLinked, Payload.isRemote, hs]
  | io io =>
    cases active <;> cases hs : signals.has .readiness <;>
      simp [visit, isLinked, Payload.isRemote, hs]

theorem arm_traits : (e.arm ms).traits = e.traits := by
  obtain ⟨serial, active, callback, payload⟩ := e
  cases payload <;> simp only [arm] <;> (try split) <;> rfl

theorem arm_callback : (e.arm ms).callback = e.callback := by
  obtain ⟨serial, active, callback, payload⟩ := e
  cases payload <;> simp only [arm] <;> (try split) <;> rfl

theorem arm_isLinked : (e.arm ms).isLinked = e.isLinked := by
  obtain ⟨serial, active, callback, payload⟩ := e
  cases payload <;> simp only [arm] <;> (try split) <;> rfl

/-- Only linked watchers are armed. -/
theorem arm_of_not_linked (h : ¬ e.isLinked = true) : e.arm ms = e := by
  obtain ⟨serial, active, callback, payload⟩ := e
  cases payload <;> simp_all [isLinked, arm, Payload.isRemote]

end Entry

namespace Timer

variable {t : Timer} {ms : Nat}

theorem isSet_arm : (t.arm ms).isSet = t.isSet := by
  unfold arm
  split <;> rfl

theorem deadline_arm (ms : Nat) (h : t.isSet = true) : ∃ d, (t.arm ms).deadline = some d := by
  cases hd : t.deadline with
  | some d => exact ⟨d, by simp [arm, hd]⟩
  | none =>
    by_cases ht : t.timeout > 0
    · exact ⟨ms + t.timeout, by simp [arm, hd, deadlineFrom, ht]⟩
    · have hp : t.period > 0 := by simpa [isSet, ht] using h
      exact ⟨ms, by simp [arm, hd, deadlineFrom, ht, hp]⟩

/-- A timer that is not spent keeps something to fire for, and has a deadline. -/
theorem fire_set (hs : t.isSet = true) (hd : t.deadline.isSome = true)
    (hf : (t.fire ms).2 ≠ .expired) :
    (t.fire ms).1.isSet = true ∧ (t.fire ms).1.deadline.isSome = true := by
  unfold fire at hf ⊢
  by_cases hdue : t.isDue ms = true
  · rw [if_pos hdue] at hf ⊢
    by_cases hp : t.period = 0
    · rw [if_pos hp] at hf
      exact absurd rfl hf
    · rw [if_neg hp]
      exact ⟨by simp [isSet, Nat.pos_of_ne_zero hp], rfl⟩
  · rw [if_neg hdue]
    exact ⟨hs, hd⟩

theorem fire_idle_iff : (t.fire ms).2 = .idle ↔ t.isDue ms = false := by
  unfold fire
  cases t.isDue ms
  · exact iff_of_true rfl rfl
  · simp only [if_true]
    split <;> simp

/-- A timer that the dispatcher has just armed is not due. -/
theorem isDue_arm : (t.arm ms).isDue ms = true ↔ ∃ d, t.deadline = some d ∧ d < ms := by
  cases hd : t.deadline with
  | some d =>
    simp only [arm, hd, isDue, Option.isNone_some, Bool.false_eq_true, if_false, Option.some.injEq,
      exists_eq_left', Bool.and_eq_true, decide_eq_true_eq]
    omega
  | none =>
    simp only [arm, hd, isDue, deadlineFrom, Option.isNone_none, if_true]
    split
    · simp
    · next d hd' =>
      split at hd'
      · simp at hd'
        simp
        omega
      · split at hd'
        · simp at hd'
          simp
          omega
        · contradiction

end Timer

namespace Entry

variable {e : Entry} {ms : Nat} {signals : Signals} {polled : Bool}

theorem fits_arm (h : e.Fits polled) : (e.arm ms).Fits polled := by
  obtain ⟨serial, active, callback, payload⟩ := e
  cases payload with
  | timer t =>
    cases active
    · exact h
    · exact fun _ => Timer.isSet_arm.trans (h rfl)
  | remote r =>
    cases ha : r.active
    · simpa only [arm, ha, Bool.false_eq_true, if_false] using h
    · simp only [arm, ha, if_true]
      exact ⟨h.1, h.2.1, fun _ => Timer.isSet_arm.trans (h.2.2 ha)⟩
  | io io => exact h
  | event flag => exact h

/-- What a visit leaves of an active timer, of either kind. -/
theorem fire_arm {t : Timer} (hset : t.isSet = true) :
    ((t.arm ms).fire ms).2 ≠ .expired →
      ((t.arm ms).fire ms).1.isSet = true ∧ ((t.arm ms).fire ms).1.deadline.isSome = true := by
  obtain ⟨d, hd⟩ := Timer.deadline_arm ms hset
  exact Timer.fire_set (Timer.isSet_arm.trans hset) (hd ▸ rfl)

theorem fits_visit (h : e.Fits polled) : (e.visit ms signals).entry.Fits polled := by
  obtain ⟨serial, active, callback, payload⟩ := e
  cases payload with
  | timer t =>
    cases active
    · exact h
    · intro hactive
      exact (fire_arm (h rfl) (by simpa [visit] using hactive)).1
  | remote r =>
    cases ha : r.active
    · simpa only [visit, ha, Bool.false_eq_true, if_false] using h
    · simp only [visit, ha, if_true]
      refine ⟨h.1, h.2.1, fun hactive => ?_⟩
      exact (fire_arm (h.2.2 ha) (by simpa using hactive)).1
  | io io =>
    simp only [visit]
    split
    · exact ⟨h.1, h.2.1, Events.named_empty⟩
    · exact h
  | event flag =>
    simp only [visit]
    split
    · trivial
    · exact h

/-- An active timer has a deadline once it is armed. -/
theorem arm_deadline {t : Timer} (h : e.Fits polled) (ht : (e.arm ms).activeTimer? = some t) :
    ∃ d, t.deadline = some d ∧ (e.arm ms).deadline? = some d := by
  have hdl : (e.arm ms).deadline? = t.deadline := by rw [deadline?, ht]; rfl
  suffices hd : ∃ d, t.deadline = some d by
    obtain ⟨d, hd⟩ := hd
    exact ⟨d, hd, hdl.trans hd⟩
  obtain ⟨serial, active, callback, payload⟩ := e
  cases payload with
  | timer t₀ =>
    cases active
    · contradiction
    · obtain rfl : t₀.arm ms = t := Option.some.inj ht
      exact Timer.deadline_arm ms (h rfl)
  | remote r =>
    cases ha : r.active
    · simp [arm, activeTimer?, isActive, ha] at ht
    · have hr : r.timer.arm ms = t := by
        simpa [arm, activeTimer?, isActive, Payload.timer?, ha] using ht
      exact hr ▸ Timer.deadline_arm ms (h.2.2 ha)
  | io io => cases active <;> contradiction
  | event flag => cases active <;> contradiction

/-- A timer that is active after its visit has a deadline, the one that the visit answers. -/
theorem visit_deadline {t : Timer} (h : e.Fits polled)
    (ht : (e.visit ms signals).entry.activeTimer? = some t) :
    ∃ d, t.deadline = some d ∧ (e.visit ms signals).deadline = some d := by
  obtain ⟨serial, active, callback, payload⟩ := e
  cases payload with
  | timer t₀ =>
    cases active
    · contradiction
    · by_cases hf : ((t₀.arm ms).fire ms).2 = .expired
      · simp [visit, activeTimer?, isActive, hf] at ht
      · have hr : ((t₀.arm ms).fire ms).1 = t := by
          simpa [visit, activeTimer?, isActive, Payload.timer?, hf] using ht
        obtain ⟨d, hd⟩ := Option.isSome_iff_exists.mp (fire_arm (h rfl) hf).2
        exact ⟨d, hr ▸ hd, hd⟩
  | remote r =>
    cases ha : r.active
    · simp [visit, activeTimer?, isActive, ha] at ht
    · by_cases hf : ((r.timer.arm ms).fire ms).2 = .expired
      · simp [visit, activeTimer?, isActive, ha, hf] at ht
      · have hr : ((r.timer.arm ms).fire ms).1 = t := by
          simpa [visit, activeTimer?, isActive, Payload.timer?, ha, hf] using ht
        obtain ⟨d, hd⟩ := Option.isSome_iff_exists.mp (fire_arm (h.2.2 ha) hf).2
        refine ⟨d, hr ▸ hd, ?_⟩
        simpa only [visit, ha, if_true] using hd
  | io io =>
    simp only [visit] at ht
    split at ht <;> simp [activeTimer?, Payload.timer?] at ht
  | event flag =>
    simp only [visit] at ht
    split at ht <;> simp [activeTimer?, Payload.timer?] at ht

/-- A watcher is called at its visit exactly if it is ready then. -/
theorem visit_events_iff (h : e.Fits polled) :
    (e.visit ms signals).events.isSome = true ↔ e.IsReady ms signals := by
  obtain ⟨serial, active, callback, payload⟩ := e
  cases payload with
  | timer t =>
    cases active
    · simp [visit, IsReady]
    · have hidle : ((t.arm ms).fire ms).2 ≠ .idle ↔ ∃ d, t.deadline = some d ∧ d < ms := by
        rw [ne_eq, Timer.fire_idle_iff, Bool.not_eq_false, Timer.isDue_arm]
      simp [visit, IsReady, ← hidle]
  | remote r =>
    cases ha : r.active
    · simp [visit, IsReady, ha]
    · have hidle : ((r.timer.arm ms).fire ms).2 ≠ .idle ↔
          ∃ d, r.timer.deadline = some d ∧ d < ms := by
        rw [ne_eq, Timer.fire_idle_iff, Bool.not_eq_false, Timer.isDue_arm]
      simp [visit, IsReady, ha, ← hidle]
  | io io =>
    have hknown : io.ready.events.known = io.ready.events := h.2.2
    cases active <;> cases hs : signals.has .readiness <;>
      simp [visit, IsReady, hs, Readiness.take, hknown]
  | event flag =>
    cases active <;> cases hs : signals.has .event <;> cases hf : flag.posted <;>
      simp [visit, IsReady, hs, hf, PostFlag.take]

end Entry

/-- The roster after a visit. -/
def Linking.ofVisit (leaves : Bool) : Linking := if leaves then .unlink else .keep

namespace Context

variable {c : Context} {i : Nat} {g : Generation} {e : Entry}

theorem visit_of_none (ha : c.watchers.at? i = none) (now : Nat) (signals : Signals) :
    c.visit now signals i = ⟨c, none, none⟩ := by
  rw [visit, ha]

theorem visit_of_some (ha : c.watchers.at? i = some (g, e)) (now : Nat) (signals : Signals) :
    c.visit now signals i =
      ⟨{ c with
          watchers := c.watchers.put i (e.visit (toMillis now) signals).entry
          roster := (Linking.ofVisit (e.visit (toMillis now) signals).leaves).apply c.roster i },
        (e.visit (toMillis now) signals).deadline,
        (e.visit (toMillis now) signals).events.map fun events => (⟨c.id, ⟨i, g⟩⟩, events)⟩ := by
  have hself := Arena.put_self ha
  obtain ⟨serial, active, callback, payload⟩ := e
  rw [visit, ha]
  cases payload with
  | event flag =>
    cases active <;> cases hs : signals.has .event <;>
      simp [Entry.visit, hs, hself, Linking.ofVisit, Linking.apply]
  | timer t =>
    cases active
    · simp [Entry.visit, hself, Linking.ofVisit, Linking.apply]
    · cases hf : ((t.arm (toMillis now)).fire (toMillis now)).2 <;>
        simp [Entry.visit, hf, Linking.ofVisit, Linking.apply, unlinkSlot]
  | remote r =>
    cases ha : r.active
    · simp [Entry.visit, ha, hself, Linking.ofVisit, Linking.apply]
    · cases hf : ((r.timer.arm (toMillis now)).fire (toMillis now)).2 <;>
        simp [Entry.visit, ha, hf, Linking.ofVisit, Linking.apply]
  | io io =>
    cases active <;> cases hs : signals.has .readiness <;>
      simp [Entry.visit, hs, hself, Linking.ofVisit, Linking.apply]

/-- A visit changes nothing but watchers and roster. -/
theorem visit_frame (c : Context) (now : Nat) (signals : Signals) (i : Nat) :
    ∃ watchers roster, (c.visit now signals i).context = { c with watchers, roster } := by
  cases ha : c.watchers.at? i with
  | none => exact ⟨_, _, by rw [visit_of_none ha]⟩
  | some v => exact ⟨_, _, by rw [visit_of_some ha]⟩

theorem armSlot_of_none (ha : c.watchers.at? i = none) (ms : Nat) : c.armSlot ms i = (c, none) := by
  rw [armSlot, ha]

theorem armSlot_of_some (ha : c.watchers.at? i = some (g, e)) (ms : Nat) :
    c.armSlot ms i =
      ({ c with watchers := c.watchers.put i (e.arm ms) }, (e.arm ms).deadline?) := by
  have hself := Arena.put_self ha
  obtain ⟨serial, active, callback, payload⟩ := e
  rw [armSlot, ha]
  cases payload with
  | event | timer | io =>
    cases active <;>
      simp [Entry.arm, Entry.deadline?, Entry.activeTimer?, Entry.isActive, Payload.timer?, hself]
  | remote r =>
    cases ha : r.active <;>
      simp [Entry.arm, Entry.deadline?, Entry.activeTimer?, Entry.isActive, Payload.timer?, ha,
        hself]

/-- The same watchers with the same traits are in the slots of both contexts. -/
structure Alike (c c' : Context) : Prop where
  id : c'.id = c.id
  number : c'.poller = c.poller
  serial : c'.nextSerial = c.nextSerial
  slots : ∀ i, (c'.watchers.at? i).map (fun v => (v.1, v.2.traits)) =
    (c.watchers.at? i).map fun v => (v.1, v.2.traits)

theorem Alike.refl (c : Context) : c.Alike c := ⟨rfl, rfl, rfl, fun _ => rfl⟩

theorem Alike.trans {c₁ c₂ c₃ : Context} (h : c₁.Alike c₂) (h' : c₂.Alike c₃) : c₁.Alike c₃ :=
  ⟨h'.id.trans h.id, h'.number.trans h.number, h'.serial.trans h.serial,
    fun i => (h'.slots i).trans (h.slots i)⟩

/-- Replacing a watcher by one with the same traits. -/
theorem alike_put {e' : Entry} (ha : c.watchers.at? i = some (g, e)) (ht : e'.traits = e.traits)
    (roster : Roster) : c.Alike { c with watchers := c.watchers.put i e', roster } := by
  refine ⟨rfl, rfl, rfl, fun j => ?_⟩
  dsimp only
  by_cases hj : j = i
  · subst hj
    rw [Arena.at?_put_self ha, ha]
    simp only [Option.map_some, ht]
  · rw [Arena.at?_put_other hj]

theorem traits_serial {e' : Entry} (h : e'.traits = e.traits) : e'.serial = e.serial :=
  congrArg Prod.fst h

end Context

namespace Loop

variable {l : Loop} {i : Nat} {g : Generation} {e e' : Entry}

/-- Replacing a watcher by one with the same traits, in the course of dispatch. -/
theorem Sound.put (hs : l.Sound) (ha : l.context.watchers.at? i = some (g, e))
    (ht : e'.traits = e.traits) (hfit : e'.Fits l.context.poller.isSome) (leaves : Bool)
    (hl : e'.isLinked = (e.isLinked && !leaves)) :
    Loop.Sound ⟨{ l.context with
      watchers := l.context.watchers.put i e'
      roster := (Linking.ofVisit leaves).apply l.context.roster i }, l.poller⟩ := by
  refine hs.replace (changed_put hs.context.arena ha e' _ none l.poller) ?_ ?_ ?_ rfl
  · rw [ha]
    cases leaves with
    | false => exact holdsLinked_some.trans (holdsLinked_some.trans (by simp [hl])).symm
    | true =>
      refine iff_of_false Bool.false_ne_true ?_
      simp [holdsLinked_some, hl]
  · intro g' e'' he
    obtain ⟨-, rfl⟩ := Prod.mk.inj (Option.some.inj he)
    exact hfit
  · intro g₁ e₁ g₂ e₂ h₁ h₂
    obtain ⟨-, rfl⟩ := Prod.mk.inj (Option.some.inj (ha.symm.trans h₁))
    obtain ⟨-, rfl⟩ := Prod.mk.inj (Option.some.inj h₂)
    exact Context.traits_serial ht

theorem Sound.visit (hs : l.Sound) (now : Nat) (signals : Signals) (i : Nat) :
    Loop.Sound ⟨(l.context.visit now signals i).context, l.poller⟩ := by
  cases ha : l.context.watchers.at? i with
  | none =>
    rw [Context.visit_of_none ha]
    exact hs
  | some v =>
    rw [Context.visit_of_some ha]
    exact hs.put ha Entry.visit_traits (Entry.fits_visit (hs.context.fits i v.1 v.2 ha))
      _ Entry.visit_isLinked

theorem visit_alike (c : Context) (now : Nat) (signals : Signals) (i : Nat) :
    c.Alike (c.visit now signals i).context := by
  cases ha : c.watchers.at? i with
  | none =>
    rw [Context.visit_of_none ha]
    exact .refl c
  | some v =>
    rw [Context.visit_of_some ha]
    exact Context.alike_put ha Entry.visit_traits _

theorem Sound.armSlot (hs : l.Sound) (ms i : Nat) :
    Loop.Sound ⟨(l.context.armSlot ms i).1, l.poller⟩ := by
  cases ha : l.context.watchers.at? i with
  | none =>
    rw [Context.armSlot_of_none ha]
    exact hs
  | some v =>
    rw [Context.armSlot_of_some ha]
    exact hs.put ha Entry.arm_traits (Entry.fits_arm (hs.context.fits i v.1 v.2 ha))
      false (by rw [Entry.arm_isLinked, Bool.not_false, Bool.and_true])

end Loop

/-! ### A turn of a pass -/

namespace Loop

variable {l : Loop} {i : Nat}

/-- The watcher at its turn is there, and its visit takes just its own slot off the way. -/
theorem Sound.turn (hs : l.Sound) (hi : l.context.roster.next.2 = some i) (now : Nat)
    (signals : Signals) :
    ∃ g e roster, l.context.watchers.at? i = some (g, e) ∧
      Context.visit { l.context with roster := l.context.roster.next.1 } now signals i =
        ⟨{ l.context with
            watchers := l.context.watchers.put i (e.visit (toMillis now) signals).entry
            roster },
          (e.visit (toMillis now) signals).deadline,
          (e.visit (toMillis now) signals).events.map fun events =>
            (⟨l.context.id, ⟨i, g⟩⟩, events)⟩ ∧
      l.context.roster.remaining = i :: roster.remaining ∧
      ∀ j, j ≠ i → roster.contains j = l.context.roster.contains j := by
  have hw := hs.context.roster
  obtain ⟨hnext, hrest, hlist⟩ := hw.next
  obtain ⟨rest, hrem⟩ : ∃ rest, l.context.roster.remaining = i :: rest := by
    rw [hw.next_eq] at hi
    exact List.head?_eq_some_iff.mp hi
  have hmem : i ∈ l.context.roster.toList :=
    hw.mem_toList_of_remaining (hrem ▸ List.mem_cons_self)
  obtain ⟨g, e, ha, -⟩ := (hs.context.linked_iff i).mp hmem
  refine ⟨g, e, (Linking.ofVisit (e.visit (toMillis now) signals).leaves).apply
    l.context.roster.next.1 i, ha, ?_, ?_, fun j hj => ?_⟩
  · exact Context.visit_of_some (c := { l.context with roster := l.context.roster.next.1 }) ha now
      signals
  · have hnot : i ∉ rest := (List.nodup_cons.mp (hrem ▸ hw.nodup_remaining)).1
    rw [Linking.remaining_apply _ hnext, hrest, hrem, List.tail_cons, List.erase_of_not_mem hnot,
      ite_self]
  · rw [Linking.contains_apply _ hnext hj, Bool.eq_iff_iff, hnext.contains_iff, hw.contains_iff,
      hlist]

end Loop

/-! ### Arming before a run -/

/-- The deadline `d` is not missed if one waits until `bound` at most. -/
def NotLater (bound : Option Nat) (d : Nat) : Prop := ∃ b, bound = some b ∧ b ≤ d

theorem notLater_sooner_left {a : Option Nat} {d : Nat} (h : NotLater a d) (b : Option Nat) :
    NotLater (sooner a b) d := by
  obtain ⟨x, rfl, hx⟩ := h
  cases b with
  | none => exact ⟨x, rfl, hx⟩
  | some y => exact ⟨min x y, rfl, Nat.le_trans (Nat.min_le_left x y) hx⟩

theorem notLater_sooner_right {d : Nat} (a : Option Nat) : NotLater (sooner a (some d)) d := by
  cases a with
  | none => exact ⟨d, rfl, Nat.le_refl d⟩
  | some x => exact ⟨min x d, rfl, Nat.min_le_right x d⟩

namespace Context

/-- Arms the timers in some slots, and answers the earliest deadline among these and `deadline`. -/
def armList (ms : Nat) (L : List Nat) (c : Context) (deadline : Option Nat) :
    Context × Option Nat :=
  L.foldl (fun (c, deadline) index =>
    let (c, candidate) := c.armSlot ms index
    (c, sooner deadline candidate)) (c, deadline)

theorem armAll_eq (c : Context) (now : Nat) :
    c.armAll now = armList (toMillis now) c.roster.toList c none := rfl

/-- The watcher in a slot after those in the slots of `L` were armed. -/
def armedAt (c : Context) (ms : Nat) (L : List Nat) (j : Nat) : Option (Generation × Entry) :=
  if j ∈ L then (c.watchers.at? j).map fun v => (v.1, v.2.arm ms) else c.watchers.at? j

theorem armSlot_frame (c : Context) (ms i : Nat) :
    ∃ watchers, (c.armSlot ms i).1 = { c with watchers } ∧
      (∀ j, watchers.at? j = c.armedAt ms [i] j) ∧
      (c.armSlot ms i).2 = (c.watchers.at? i).bind fun v => (v.2.arm ms).deadline? := by
  cases ha : c.watchers.at? i with
  | none =>
    rw [armSlot_of_none ha]
    refine ⟨c.watchers, rfl, fun j => ?_, rfl⟩
    by_cases hj : j = i
    · subst hj
      simp [armedAt, ha]
    · simp [armedAt, hj]
  | some v =>
    rw [armSlot_of_some ha]
    refine ⟨_, rfl, fun j => ?_, rfl⟩
    by_cases hj : j = i
    · subst hj
      simp [armedAt, ha, Arena.at?_put_self ha]
    · simp [armedAt, hj, Arena.at?_put_other hj]

theorem armList_spec (ms : Nat) (L : List Nat) (hL : L.Nodup) :
    ∀ (c : Context) (bound : Option Nat),
      ∃ watchers, (armList ms L c bound).1 = { c with watchers } ∧
        (∀ j, watchers.at? j = c.armedAt ms L j) ∧
        (∀ d, NotLater bound d → NotLater (armList ms L c bound).2 d) ∧
        ∀ j ∈ L, ∀ v d, c.watchers.at? j = some v → (v.2.arm ms).deadline? = some d →
          NotLater (armList ms L c bound).2 d := by
  induction L with
  | nil =>
    exact fun c bound => ⟨c.watchers, rfl, fun j => by simp [armedAt], fun _ h => h,
      fun _ hj => absurd hj List.not_mem_nil⟩
  | cons i L ih =>
    intro c bound
    obtain ⟨hi, hL⟩ := List.nodup_cons.mp hL
    obtain ⟨w₁, hc₁, hat₁, hd₁⟩ := armSlot_frame c ms i
    have hfold : armList ms (i :: L) c bound =
        armList ms L (c.armSlot ms i).1 (sooner bound (c.armSlot ms i).2) := rfl
    rw [hfold, hc₁]
    obtain ⟨w₂, hc₂, hat₂, hkeep, hmem⟩ := ih hL { c with watchers := w₁ }
      (sooner bound (c.armSlot ms i).2)
    refine ⟨w₂, hc₂, fun j => ?_, fun d hd => hkeep d (notLater_sooner_left hd _), ?_⟩
    · rw [hat₂, armedAt]
      by_cases hj : j ∈ L
      · have hji : j ≠ i := fun h => hi (h ▸ hj)
        simp [armedAt, hat₁, hj, hji]
      · simp [armedAt, hat₁, hj]
    · intro j hj v d hv hd
      rcases List.mem_cons.mp hj with rfl | hj
      · refine hkeep d ?_
        rw [hd₁, hv, Option.bind_some, hd]
        exact notLater_sooner_right bound
      · have hji : j ≠ i := fun h => hi (h ▸ hj)
        refine hmem j hj v d ?_ hd
        simpa [hat₁, armedAt, hji] using hv

end Context

theorem Loop.Sound.armAll {l : Loop} (hs : l.Sound) (now : Nat) :
    Loop.Sound ⟨(l.context.armAll now).1, l.poller⟩ := by
  suffices hall : ∀ (L : List Nat) (c : Context) (bound : Option Nat), Loop.Sound ⟨c, l.poller⟩ →
      Loop.Sound ⟨(Context.armList (toMillis now) L c bound).1, l.poller⟩ from hall _ _ _ hs
  intro L
  induction L with
  | nil => exact fun _ _ h => h
  | cons i L ih => exact fun c bound h => ih _ _ (h.armSlot (toMillis now) i)

/-- A sound loop stays so when it is started. -/
theorem Loop.Sound.begun {l : Loop} (hs : l.Sound) :
    Loop.Sound ⟨{ l.context with busy := true, running := true }, l.poller⟩ :=
  ⟨hs.context.congr rfl rfl rfl rfl, hs.poller⟩

theorem Context.armAll_frame (c : Context) (hr : c.roster.WellFormed) (now : Nat) :
    ∃ watchers, (c.armAll now).1 = { c with watchers } ∧
      ∀ i, watchers.at? i = c.armedAt (toMillis now) c.roster.toList i := by
  obtain ⟨watchers, hc, hat, -⟩ := armList_spec (toMillis now) c.roster.toList hr.nodup c none
  exact ⟨watchers, hc, hat⟩

/-- Whatever is in a slot is armed. -/
theorem Loop.Sound.armAll_at {l : Loop} (hs : l.Sound) (now i : Nat) :
    (l.context.armAll now).1.watchers.at? i =
      (l.context.watchers.at? i).map fun v => (v.1, v.2.arm (toMillis now)) := by
  obtain ⟨watchers, hc, hat⟩ := l.context.armAll_frame hs.context.roster now
  rw [hc, hat, Context.armedAt]
  split
  · rfl
  · next hi =>
    -- what is not linked is no active timer, so that arming it does nothing
    cases hv : l.context.watchers.at? i with
    | none => rfl
    | some v =>
      have hlinked : ¬ v.2.isLinked = true :=
        fun he => hi ((hs.context.linked_iff i).mpr ⟨v.1, v.2, hv, he⟩)
      rw [Option.map_some, Entry.arm_of_not_linked hlinked]

theorem Context.alike_armAll (c : Context) (hr : c.roster.WellFormed) (now : Nat) :
    c.Alike (c.armAll now).1 := by
  obtain ⟨w, hc, hat⟩ := c.armAll_frame hr now
  rw [hc]
  refine ⟨rfl, rfl, rfl, fun j => ?_⟩
  dsimp only
  rw [hat, armedAt]
  split
  · rw [Option.map_map]
    exact congrArg (Option.map · _) (funext fun v => by simp [Entry.arm_traits])
  · rfl

/-! ### Lending a callback -/

namespace Context

variable {c : Context} {h : Handle} {e : Entry}

theorem lendCallback_ok (hf : c.find h = .ok e) :
    c.lendCallback h =
      ({ c with watchers := c.watchers.put h.key.index { e with callback := none } },
        e.callback) := by
  rw [lendCallback, hf]
  dsimp only
  rw [update_eq hf]

theorem lendCallback_frame (c : Context) (h : Handle) :
    ∃ watchers, (c.lendCallback h).1 = { c with watchers } := by
  cases hf : c.find h with
  | error err => exact ⟨c.watchers, by rw [lendCallback, hf]⟩
  | ok e => exact ⟨_, by rw [lendCallback_ok hf]⟩

/-- A callback goes back to the watcher that lent it, and to no other. -/
theorem returnCallback_cases (c : Context) (h : Handle) (f : Callback) :
    c.returnCallback h f = c ∨
      ∃ e, c.find h = .ok e ∧ e.callback = none ∧
        c.returnCallback h f =
          { c with watchers := c.watchers.put h.key.index { e with callback := some f } } := by
  unfold returnCallback
  split
  · exact Or.inl rfl
  · next e hf =>
    split
    · next hnone =>
      exact Or.inr ⟨e, hf, Option.isNone_iff_eq_none.mp hnone, update_eq hf _⟩
    · exact Or.inl rfl

theorem returnCallback_frame (c : Context) (h : Handle) (f : Callback) :
    ∃ watchers, c.returnCallback h f = { c with watchers } := by
  rcases c.returnCallback_cases h f with he | ⟨e, -, -, he⟩
  · exact ⟨c.watchers, he⟩
  · exact ⟨_, he⟩

end Context

namespace Loop

variable {l : Loop} {h : Handle} {e : Entry}

/-- Replacing nothing but the callback of a watcher. -/
theorem Sound.callback (hs : l.Sound) (hf : l.context.find h = .ok e) (f : Option Callback) :
    Loop.Sound ⟨{ l.context with
      watchers := l.context.watchers.put h.key.index { e with callback := f } }, l.poller⟩ :=
  have ha := (Context.find_ok hf).2
  have hfit : e.Fits l.context.poller.isSome := hs.context.fits _ _ _ ha
  have ht : Entry.traits { e with callback := f } = e.traits := rfl
  hs.put ha ht hfit false (Bool.and_true _).symm

theorem alike_callback (hf : l.context.find h = .ok e) (f : Option Callback) :
    l.context.Alike { l.context with
      watchers := l.context.watchers.put h.key.index { e with callback := f } } :=
  have ht : Entry.traits { e with callback := f } = e.traits := rfl
  Context.alike_put (Context.find_ok hf).2 ht _

end Loop
end EventLoop
