import EventLoop.Poller
import EventLoop.Wakeups

/-!
# Which flags a mask has

Every operation on masks is described by the flags that its result has. A wait of the dispatcher
takes all signals that are raised, and a poll tells watchers of named events only.
-/
namespace EventLoop

namespace Mask

variable {F : Type}

theorem isEmpty_iff (a : Mask F) : a.isEmpty = true ↔ a = ∅ := by
  obtain ⟨word⟩ := a
  simp only [isEmpty, beq_iff_eq]
  exact ⟨fun h => congrArg Mask.mk h, fun h => congrArg Mask.word h⟩

@[simp] theorem isEmpty_empty : (∅ : Mask F).isEmpty = true := rfl

theorem isEmpty_union (a b : Mask F) : (a ∪ b).isEmpty = (a.isEmpty && b.isEmpty) := by
  rw [Bool.eq_iff_iff, Bool.and_eq_true]
  simp only [isEmpty, beq_iff_eq]
  exact BitVec.or_eq_zero_iff

theorem bit_of_subset {a b : Mask F} (h : a.subset b = true) {i : Nat}
    (hi : a.word.getLsbD i = true) : b.word.getLsbD i = true := by
  have hlt := BitVec.lt_of_getLsbD hi
  have hword : a.word &&& ~~~b.word = 0 := congrArg word ((isEmpty_iff _).mp h)
  have hbit : (a.word &&& ~~~b.word).getLsbD i = false := hword ▸ BitVec.getLsbD_zero
  rw [BitVec.getLsbD_and, BitVec.getLsbD_not, hi, decide_eq_true hlt, Bool.true_and,
    Bool.true_and] at hbit
  exact Bool.not_eq_eq_eq_not.mp hbit

/-- A mask with something in it has a bit. -/
theorem exists_bit {a : Mask F} (h : a.isEmpty = false) : ∃ i, a.word.getLsbD i = true := by
  refine Classical.byContradiction fun hnone => ?_
  have hempty : a = ∅ := by
    refine congrArg Mask.mk (BitVec.eq_of_getLsbD_eq fun i _ => ?_)
    exact (Bool.eq_false_iff.mpr fun hi => hnone ⟨i, hi⟩).trans BitVec.getLsbD_zero.symm
  exact absurd (h.symm.trans ((isEmpty_iff a).mpr hempty)) Bool.false_ne_true

/-- Whether a bit of the mask is set, be there a flag for it or not. -/
def hasBit (m : Mask F) (i : Nat) : Bool := m.word.getLsbD i

theorem hasBit_empty (i : Nat) : (∅ : Mask F).hasBit i = false := BitVec.getLsbD_zero

theorem hasBit_union (a b : Mask F) (i : Nat) : (a ∪ b).hasBit i = (a.hasBit i || b.hasBit i) :=
  BitVec.getLsbD_or

theorem hasBit_inter (a b : Mask F) (i : Nat) : (a ∩ b).hasBit i = (a.hasBit i && b.hasBit i) :=
  BitVec.getLsbD_and

theorem hasBit_sdiff (a b : Mask F) (i : Nat) : (a \ b).hasBit i = (a.hasBit i && !b.hasBit i) := by
  change (a.word &&& ~~~b.word).getLsbD i = (a.word.getLsbD i && !b.word.getLsbD i)
  rw [BitVec.getLsbD_and, BitVec.getLsbD_not]
  by_cases h : i < 32
  · simp [h]
  · rw [BitVec.getLsbD_of_ge a.word i (by omega)]
    rfl

theorem ext_hasBit {a b : Mask F} (h : ∀ i, a.hasBit i = b.hasBit i) : a = b :=
  congrArg Mask.mk (BitVec.eq_of_getLsbD_eq fun i _ => h i)

theorem sdiff_eq_self {a b : Mask F} (h : a ∩ b = ∅) : a \ b = a := by
  refine ext_hasBit fun i => ?_
  have hbit : (a.hasBit i && b.hasBit i) = false := by rw [← hasBit_inter, h, hasBit_empty]
  rw [hasBit_sdiff]
  revert hbit
  cases a.hasBit i <;> simp

variable [Flag F]

@[simp] theorem hasBit_bit (a : Mask F) (f : F) : a.hasBit (Flag.bit f) = a.has f := rfl

@[simp] theorem has_empty (f : F) : (∅ : Mask F).has f = false := hasBit_empty _

@[simp] theorem has_union (a b : Mask F) (f : F) : (a ∪ b).has f = (a.has f || b.has f) :=
  hasBit_union a b _

@[simp] theorem has_inter (a b : Mask F) (f : F) : (a ∩ b).has f = (a.has f && b.has f) :=
  hasBit_inter a b _

@[simp] theorem has_sdiff (a b : Mask F) (f : F) : (a \ b).has f = (a.has f && !b.has f) :=
  hasBit_sdiff a b _

theorem known_known (a : Mask F) : a.known.known = a.known := by
  apply congrArg Mask.mk
  change a.word &&& (full F).word &&& (full F).word = a.word &&& (full F).word
  rw [BitVec.and_assoc, BitVec.and_self]

theorem has_of_known {a : Mask F} {f : F} (h : a.known.has f = true) : a.has f = true := by
  rw [known, has_inter, Bool.and_eq_true] at h
  exact h.1

theorem known_union (a b : Mask F) : (a ∪ b).known = a.known ∪ b.known := by
  apply congrArg Mask.mk
  exact BitVec.and_or_distrib_right ..

theorem known_inter (a b : Mask F) : (a ∩ b).known = a.known ∩ b := by
  refine ext_hasBit fun i => ?_
  simp only [known, hasBit_inter, Bool.and_right_comm]

theorem known_sdiff (a b : Mask F) : (a \ b).known = a.known \ b := by
  refine ext_hasBit fun i => ?_
  simp only [known, hasBit_inter, hasBit_sdiff, Bool.and_right_comm]

end Mask

/-! ### Signals -/

namespace Signals

@[simp] theorem has_only (s t : Signal) : (Mask.only s : Signals).has t = decide (s = t) := by
  cases s <;> cases t <;> decide

@[simp] theorem has_full (s : Signal) : (Mask.full Signal).has s = true := by
  cases s <;> decide

@[simp] theorem has_known (a : Signals) (s : Signal) : a.known.has s = a.has s := by
  rw [Mask.known, Mask.has_inter, has_full, Bool.and_true]

/-- The bits that have names are those of the signals. -/
theorem hasBit_full (i : Nat) :
    (Mask.full Signal).hasBit i = true ↔ ∃ s : Signal, Flag.bit s = i := by
  constructor
  · intro h
    have hall : ∀ i : Fin 32, (Mask.full Signal).hasBit i = true →
        i.val ∈ (Flag.all : List Signal).map Flag.bit := by
      decide
    obtain ⟨s, -, hs⟩ := List.mem_map.mp (hall ⟨i, BitVec.lt_of_getLsbD h⟩ h)
    exact ⟨s, hs⟩
  · rintro ⟨s, rfl⟩
    exact has_full s

end Signals

namespace Wakeups

@[simp] theorem has_raise (w : Wakeups) (s t : Signal) :
    (w.raise s).raised.has t = (w.raised.has t || decide (s = t)) := by
  simp only [raise, add, Mask.has_union, Signals.has_only]

/-- To raise what is raised already changes nothing. -/
theorem add_eq_self {w : Wakeups} {signals : Signals}
    (h : ∀ i, signals.hasBit i = true → w.raised.hasBit i = true) : w.add signals = w := by
  refine congrArg Wakeups.mk (Mask.ext_hasBit fun i => ?_)
  rw [Mask.hasBit_union]
  cases hi : signals.hasBit i with
  | false => rw [Bool.or_false]
  | true => rw [Bool.or_true, h i hi]

/-- What a wait for all signals takes is exactly what was raised. -/
theorem has_take_full (w : Wakeups) (s : Signal) :
    (w.take (Mask.full Signal)).2.has s = w.raised.has s := by
  simp only [take, Signals.has_known, Mask.has_inter, Signals.has_full, Bool.and_true]

/-- However a wait ends, the bits of its mask are removed. -/
theorem wait_fst (w : Wakeups) (mask : Signals) (timeout : Option Nat) :
    (w.wait mask timeout).1 = (w.take mask).1 := by
  unfold wait
  dsimp only
  split
  · cases timeout <;> rfl
  · rfl

theorem wait_snd (w : Wakeups) (mask : Signals) (timeout : Option Nat) :
    (w.wait mask timeout).2 =
      if (w.take mask).2 = ∅ then timeout.elim .forever .elapsed else .woken (w.take mask).2 := by
  simp only [wait, Mask.isEmpty_iff]
  split
  · cases timeout <;> rfl
  · rfl

theorem woken_has {w : Wakeups} {timeout : Option Nat} {signals : Signals}
    (h : (w.wait (Mask.full Signal) timeout).2 = .woken signals) (s : Signal) :
    signals.has s = w.raised.has s := by
  simp only [wait] at h
  split at h
  · split at h <;> contradiction
  · rw [← Wait.woken.inj h, has_take_full]

/-- A wait that is not woken takes nothing. -/
theorem taken_of_not_woken {w : Wakeups} {mask : Signals} {timeout : Option Nat}
    (h : ∀ signals, (w.wait mask timeout).2 ≠ .woken signals) : (w.take mask).2 = ∅ := by
  refine Classical.byContradiction fun hne => h (w.take mask).2 ?_
  rw [wait_snd, if_neg hne]

/-- A wait that is not woken found nothing raised. -/
theorem has_of_not_woken {w : Wakeups} {timeout : Option Nat}
    (h : ∀ signals, (w.wait (Mask.full Signal) timeout).2 ≠ .woken signals) (s : Signal) :
    w.raised.has s = false := by
  rw [← has_take_full, taken_of_not_woken h, Mask.has_empty]

/-- A signal that is raised ends the wait, and is taken. -/
theorem woken_of_raised {w : Wakeups} {s : Signal} (h : w.raised.has s = true)
    (timeout : Option Nat) : ∃ signals,
      (w.wait (Mask.full Signal) timeout).2 = .woken signals ∧ signals.has s = true := by
  by_cases hw : ∃ signals, (w.wait (Mask.full Signal) timeout).2 = .woken signals
  · obtain ⟨signals, hw⟩ := hw
    exact ⟨signals, hw, (woken_has hw s).trans h⟩
  · rw [has_of_not_woken fun signals he => hw ⟨signals, he⟩] at h
    contradiction

/-- Only a wait without a bound goes on for ever. -/
theorem timeout_of_forever {w : Wakeups} {mask : Signals} {timeout : Option Nat}
    (h : (w.wait mask timeout).2 = .forever) : timeout = none := by
  simp only [wait] at h
  split at h
  · split at h
    · rfl
    · contradiction
  · contradiction

/-- A wait that nothing ends early lasts as long as it was to. -/
theorem timeout_of_elapsed {w : Wakeups} {mask : Signals} {timeout : Option Nat} {us : Nat}
    (h : (w.wait mask timeout).2 = .elapsed us) : timeout = some us := by
  simp only [wait] at h
  split at h
  · split at h
    · contradiction
    · exact congrArg some (Wait.elapsed.inj h)
  · contradiction

/-- Nothing is raised that would end a wait. -/
def Quiet (w : Wakeups) : Prop := (w.take (Mask.full Signal)).2 = ∅

instance (w : Wakeups) : Decidable w.Quiet :=
  inferInstanceAs (Decidable ((w.take (Mask.full Signal)).2 = ∅))

theorem Quiet.has {w : Wakeups} (h : w.Quiet) (s : Signal) : w.raised.has s = false := by
  rw [← has_take_full, h, Mask.has_empty]

/-- A wait that nothing ends early changes nothing. -/
theorem Quiet.wait {w : Wakeups} (h : w.Quiet) (timeout : Option Nat) :
    w.wait (Mask.full Signal) timeout =
      (w, match timeout with | none => .forever | some us => .elapsed us) := by
  have hnone : w.raised ∩ Mask.full Signal = ∅ := (Mask.known_known w.raised).symm.trans h
  have hrest : (w.take (Mask.full Signal)).1 = w := congrArg Wakeups.mk (Mask.sdiff_eq_self hnone)
  refine Prod.ext ((wait_fst ..).trans hrest) ((wait_snd ..).trans ((if_pos h).trans ?_))
  cases timeout <;> rfl

/-- Signals end every wait alike. -/
theorem wait_of_not_quiet {w : Wakeups} (h : ¬ w.Quiet) (timeout timeout' : Option Nat) :
    w.wait (Mask.full Signal) timeout = w.wait (Mask.full Signal) timeout' := by
  have hwoken : ∀ timeout, (w.wait (Mask.full Signal) timeout).2 =
      .woken (w.take (Mask.full Signal)).2 := fun _ => (wait_snd ..).trans (if_neg h)
  exact Prod.ext ((wait_fst ..).trans (wait_fst ..).symm)
    ((hwoken timeout).trans (hwoken timeout').symm)

end Wakeups

/-! ### Events -/

namespace Events

/-- Every bit of the mask names an event. -/
def Named (events : Events) : Prop := events.known = events

theorem Named.union {a b : Events} (ha : a.Named) (hb : b.Named) : Named (a ∪ b) := by
  rw [Named, Mask.known_union, ha, hb]

theorem named_empty : Named ∅ := rfl

theorem named_onlyIf (b : Bool) (e : Event) : Named (Mask.onlyIf b e) := by
  unfold Named
  cases b <;> cases e <;> decide

@[simp] theorem has_onlyIf (b : Bool) (e f : Event) :
    (Mask.onlyIf b e : Events).has f = (b && decide (e = f)) := by
  cases b <;> cases e <;> cases f <;> decide

end Events

/-- Watchers are told of input and output only if they have asked for them. -/
theorem PollFlags.toEvents_asked {flags : PollFlags} {interest : Events} :
    ((flags.toEvents interest).has .read = true → interest.has .read = true) ∧
      ((flags.toEvents interest).has .write = true → interest.has .write = true) := by
  refine ⟨fun h => ?_, fun h => ?_⟩
  · simp [toEvents] at h
    exact h.elim And.right And.right
  · simp [toEvents] at h
    exact h.2

/-- What a poll may report of a descriptor that is polled for `asked`: that, and what is reported
unasked. -/
def PollFlags.reportable (asked : PollFlags) : PollFlags :=
  asked ∪ Mask.only .failure ∪ Mask.only .hangup ∪ Mask.only .invalid

/-- For an interest, nothing may be reported that has no name. -/
theorem PollFlags.exists_flag {interest : Events} {i : Nat}
    (h : (reportable interest.toPoll).word.getLsbD i = true) : ∃ f : PollFlag, Flag.bit f = i := by
  have hall : ∀ (read write : Bool) (i : Fin 32),
      (reportable (Mask.onlyIf read .input ∪ Mask.onlyIf write .output)).word.getLsbD i = true →
        i.val ∈ (Flag.all : List PollFlag).map Flag.bit := by
    decide
  obtain ⟨f, -, hf⟩ := List.mem_map.mp (hall _ _ ⟨i, BitVec.lt_of_getLsbD h⟩ h)
  exact ⟨f, hf⟩

theorem PollFlags.has_reportable (interest : Events) :
    ((reportable interest.toPoll).has .input = true → interest.has .read = true) ∧
      ((reportable interest.toPoll).has .output = true → interest.has .write = true) := by
  unfold Events.toPoll
  generalize interest.has .read = read
  generalize interest.has .write = write
  revert read write
  decide

/-- Whatever may be reported for an interest is something to be told of. -/
theorem PollFlags.toEvents_nonempty {flags : PollFlags} {interest : Events}
    (hsub : flags.subset (reportable interest.toPoll) = true) (h : flags.isEmpty = false) :
    (flags.toEvents interest).isEmpty = false := by
  obtain ⟨i, hi⟩ := Mask.exists_bit h
  obtain ⟨f, rfl⟩ := exists_flag (Mask.bit_of_subset hsub hi)
  have hreportable : (reportable interest.toPoll).has f = true := Mask.bit_of_subset hsub hi
  have hflags : flags.has f = true := hi
  refine Bool.eq_false_iff.mpr fun hempty => ?_
  have hnone : ∀ event, (flags.toEvents interest).has event = false := by
    intro event
    rw [(Mask.isEmpty_iff _).mp hempty, Mask.has_empty]
  have hread := hnone .read
  have hwrite := hnone .write
  have herror := hnone .error
  have hhangup := hnone .hangup
  simp only [toEvents, Mask.has_union, Events.has_onlyIf, Bool.or_eq_false_iff,
    Bool.and_eq_false_iff] at hread hwrite herror hhangup
  cases f with
  | input => simp_all [(has_reportable interest).1 hreportable]
  | output => simp_all [(has_reportable interest).2 hreportable]
  | failure => simp_all
  | hangup => simp_all
  | invalid => simp_all

/-- What a poll tells a watcher consists of named events. -/
theorem PollFlags.toEvents_named (flags : PollFlags) (interest : Events) :
    (flags.toEvents interest).Named := by
  unfold PollFlags.toEvents
  exact ((((Events.named_onlyIf _ _).union (Events.named_onlyIf _ _)).union
    (Events.named_onlyIf _ _)).union (Events.named_onlyIf _ _)).union (Events.named_onlyIf _ _)

end EventLoop
