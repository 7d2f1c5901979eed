import EventLoop.Proofs.Flags

/-!
# Waits give back just what was raised

Signals may be raised, and waited for with any masks, in any order. What is raised stays raised
until a wait has it in its mask. That wait gives it back if it is a signal, and drops it if it is a
bit without a name; the other bits are left for other waits.

A wait that finds nothing sleeps, and looks again whenever something has been raised. Each look is a
wait of its own here: those that find nothing leave no trace in what is given back later.

All is said of the wait that may come next after any requests, and so of every wait among any
requests.
-/
namespace EventLoop

/-- What a wait gives back when it returns. -/
def Wait.answer? : Wait → Option Signals
  | .woken signals => some signals
  | .elapsed _ => some ∅
  | .forever => none

/-- Whether a wait gives a signal back. -/
def Wait.gives (v : Wait) (s : Signal) : Bool := v.answer?.any fun signals => signals.has s

namespace Wakeups

/-- What is asked of wake-ups. -/
inductive Request where
  | add (signals : Signals)
  | wait (mask : Signals) (timeout : Option Nat)
  deriving DecidableEq

/-- Serves one request, and tells how a wait ends. -/
def serve (w : Wakeups) : Request → Wakeups × List Wait
  | .add signals => (w.add signals, [])
  | .wait mask timeout => ((w.wait mask timeout).1, [(w.wait mask timeout).2])

/-- Serves requests one after the other, and tells how the waits among them end. -/
def run (w : Wakeups) : List Request → Wakeups × List Wait
  | [] => (w, [])
  | q :: more =>
    let later := (w.serve q).1.run more
    (later.1, (w.serve q).2 ++ later.2)

/-- Whether a request raises a bit. -/
def Request.raises (i : Nat) : Request → Bool
  | .add signals => signals.hasBit i
  | .wait _ _ => false

/-- Whether a request is a wait with a bit in its mask. -/
def Request.takes (i : Nat) : Request → Bool
  | .add _ => false
  | .wait mask _ => mask.hasBit i

/-- A bit was raised, at least once since the last wait that had it in its mask. -/
def RaisedSince (i : Nat) (requests : List Request) : Prop :=
  ∃ before q after, requests = before ++ q :: after ∧ q.raises i = true ∧
    ∀ p ∈ after, p.takes i = false

variable {w : Wakeups} {q : Request} {requests : List Request} {mask : Signals}
  {timeout : Option Nat} {i : Nat} {s : Signal}

theorem not_raisedSince_nil : ¬ RaisedSince i [] := by
  rintro ⟨before, q, after, h, -⟩
  exact List.append_ne_nil_of_right_ne_nil before (List.cons_ne_nil q after) h.symm

theorem raisedSince_cons : RaisedSince i (q :: requests) ↔
    (q.raises i = true ∧ ∀ p ∈ requests, p.takes i = false) ∨ RaisedSince i requests := by
  constructor
  · rintro ⟨before, p, after, h, hraises, hafter⟩
    cases before with
    | nil =>
      obtain ⟨rfl, rfl⟩ := List.cons.inj h
      exact Or.inl ⟨hraises, hafter⟩
    | cons _ before =>
      obtain ⟨-, rfl⟩ := List.cons.inj h
      exact Or.inr ⟨before, p, after, rfl, hraises, hafter⟩
  · rintro (⟨hraises, hafter⟩ | ⟨before, p, after, rfl, hraises, hafter⟩)
    · exact ⟨[], q, requests, rfl, hraises, hafter⟩
    · exact ⟨q :: before, p, after, rfl, hraises, hafter⟩

theorem not_takes_adds {more : List Signals} : ∀ p ∈ more.map Request.add, p.takes i = false := by
  rintro p hp
  obtain ⟨signals, -, rfl⟩ := List.mem_map.mp hp
  rfl

/-- Where nobody waits, a bit was raised since the last wait if it was raised at all. -/
theorem raisedSince_adds {more : List Signals} :
    RaisedSince i (more.map .add) ↔ ∃ signals ∈ more, signals.hasBit i = true := by
  induction more with
  | nil => simpa using not_raisedSince_nil
  | cons signals more ih =>
    simp only [List.map_cons, raisedSince_cons, ih, List.mem_cons, exists_eq_or_imp]
    exact or_congr_left (and_iff_left not_takes_adds)

/-! ### One wait -/

theorem hasBit_taken : (w.take mask).2.hasBit i = true ↔
    (∃ s : Signal, Flag.bit s = i) ∧ mask.hasBit i = true ∧ w.raised.hasBit i = true := by
  rw [take, Mask.known, Mask.hasBit_inter, Mask.hasBit_inter, Bool.and_eq_true, Bool.and_eq_true,
    Signals.hasBit_full, and_comm (a := w.raised.hasBit i = true), and_comm]

theorem has_taken (w : Wakeups) (mask : Signals) (s : Signal) :
    (w.take mask).2.has s = (w.raised.has s && mask.has s) := by
  rw [take, Signals.has_known, Mask.has_inter]

/-- Nothing is taken exactly when no signal of the mask is raised. -/
theorem taken_eq_empty : (w.take mask).2 = ∅ ↔
    ∀ s : Signal, mask.has s = true → w.raised.has s = false := by
  constructor
  · intro h s hs
    have hs' := has_taken w mask s
    rw [h, Mask.has_empty, hs, Bool.and_true] at hs'
    exact hs'.symm
  · intro h
    refine Mask.ext_hasBit fun i => ?_
    rw [Mask.hasBit_empty, Bool.eq_false_iff]
    intro hbit
    obtain ⟨⟨s, rfl⟩, hmask, hraised⟩ := hasBit_taken.mp hbit
    exact absurd hraised (Bool.eq_false_iff.mp (h s hmask))

/-- A wait gives back what it takes, unless it has no bound and takes nothing. -/
theorem answer?_wait : (w.wait mask timeout).2.answer? =
    if timeout = none ∧ (w.take mask).2 = ∅ then none else some (w.take mask).2 := by
  rw [wait_snd]
  by_cases h : (w.take mask).2 = ∅
  · rw [if_pos h, h]
    cases timeout <;> rfl
  · rw [if_neg h, if_neg (fun hnone => h hnone.2)]
    rfl

theorem eq_taken_of_answer {answer : Signals}
    (h : (w.wait mask timeout).2.answer? = some answer) : answer = (w.take mask).2 := by
  rw [answer?_wait] at h
  split at h
  · contradiction
  · exact (Option.some.inj h).symm

/-! ### One request -/

/-- A request removes the bits that it takes, and then raises those that it raises. -/
theorem hasBit_serve : (w.serve q).1.raised.hasBit i =
    ((w.raised.hasBit i && !q.takes i) || q.raises i) := by
  cases q with
  | add signals =>
    rw [serve, add, Mask.hasBit_union, Request.takes, Request.raises, Bool.not_false, Bool.and_true]
  | wait mask timeout =>
    rw [serve, wait_fst, take, Mask.hasBit_sdiff, Request.takes, Request.raises, Bool.or_false]

/-- A request gives back, once, the signals that it takes. -/
theorem countP_serve : (w.serve q).2.countP (·.gives s) =
    (w.raised.has s && q.takes (Flag.bit s)).toNat := by
  cases q with
  | add signals => rw [Request.takes, Bool.and_false]; rfl
  | wait mask timeout =>
    have hgives : (w.wait mask timeout).2.gives s = (w.raised.has s && mask.has s) := by
      rw [← has_taken, Wait.gives, answer?_wait]
      split
      case isTrue h => rw [h.2, Mask.has_empty, Option.any_none]
      case isFalse => rfl
    rw [serve, List.countP_singleton, hgives, Request.takes, Mask.hasBit_bit]
    cases w.raised.has s && mask.has s <;> rfl

/-- Each signal that is raised is given back or left, and not both. -/
theorem serve_balance (w : Wakeups) (q : Request) (s : Signal) :
    (w.serve q).2.countP (·.gives s) + ((w.serve q).1.raised.has s).toNat =
      (w.raised.has s || q.raises (Flag.bit s)).toNat := by
  have hafter : (w.serve q).1.raised.has s =
      ((w.raised.has s && !q.takes (Flag.bit s)) || q.raises (Flag.bit s)) := hasBit_serve
  -- no request both takes and raises
  have hapart : (q.takes (Flag.bit s) && q.raises (Flag.bit s)) = false := by
    cases q with
    | add signals => rfl
    | wait mask timeout => exact Bool.and_false _
  rw [countP_serve, hafter]
  revert hapart
  generalize w.raised.has s = a, q.takes (Flag.bit s) = b, q.raises (Flag.bit s) = c
  revert a b c
  decide

/-- What is given back, and which signals are left, hangs on the signals that are raised. -/
theorem serve_congr {w' : Wakeups} (h : w.raised.known = w'.raised.known) (q : Request) :
    (w.serve q).2 = (w'.serve q).2 ∧
      (w.serve q).1.raised.known = (w'.serve q).1.raised.known := by
  cases q with
  | add signals =>
    simp only [serve, add, Mask.known_union, h, and_self]
  | wait mask timeout =>
    have htaken : (w.take mask).2 = (w'.take mask).2 := by
      simp only [take, Mask.known_inter, h]
    constructor
    · simp only [serve, wait_snd, htaken]
    · simp only [serve, wait_fst, take, Mask.known_sdiff, h]

/-! ### Requests one after the other -/

theorem run_append (w : Wakeups) (earlier later : List Request) :
    w.run (earlier ++ later) = (((w.run earlier).1.run later).1,
      (w.run earlier).2 ++ ((w.run earlier).1.run later).2) := by
  induction earlier generalizing w with
  | nil => rfl
  | cons q earlier ih => simp only [List.cons_append, run, ih, List.append_assoc]

theorem hasBit_run (w : Wakeups) (requests : List Request) (i : Nat) :
    (w.run requests).1.raised.hasBit i = true ↔
      (w.raised.hasBit i = true ∧ ∀ q ∈ requests, q.takes i = false) ∨ RaisedSince i requests := by
  induction requests generalizing w with
  | nil => simp [run, not_raisedSince_nil]
  | cons q requests ih =>
    rw [run, ih, hasBit_serve, raisedSince_cons, List.forall_mem_cons, Bool.or_eq_true,
      Bool.and_eq_true, Bool.not_eq_true', or_and_right, and_assoc, or_assoc]

theorem hasBit_run_empty (requests : List Request) (i : Nat) :
    (empty.run requests).1.raised.hasBit i = true ↔ RaisedSince i requests := by
  rw [hasBit_run, empty, Mask.hasBit_empty]
  simp only [Bool.false_eq_true, false_and, false_or]

/-- A signal that is raised is given back or left in the end. It is not given back more often than
it was raised. -/
theorem run_balance (w : Wakeups) (requests : List Request) (s : Signal) :
    (w.raised.has s).toNat ≤
        (w.run requests).2.countP (·.gives s) + ((w.run requests).1.raised.has s).toNat ∧
      (w.run requests).2.countP (·.gives s) + ((w.run requests).1.raised.has s).toNat ≤
        (w.raised.has s).toNat + requests.countP (·.raises (Flag.bit s)) := by
  induction requests generalizing w with
  | nil => simp [run]
  | cons q requests ih =>
    have hserve := serve_balance w q s
    obtain ⟨hkept, hgiven⟩ := ih (w.serve q).1
    have hor : ∀ a b : Bool, a.toNat ≤ (a || b).toNat ∧
        (a || b).toNat ≤ a.toNat + (if b = true then 1 else 0) := by decide
    obtain ⟨hle, hadd⟩ := hor (w.raised.has s) (q.raises (Flag.bit s))
    rw [run, List.countP_append, List.countP_cons]
    dsimp only
    omega

/-- A signal is given back by no request that does not take it. -/
theorem not_gives_run (h : ∀ q ∈ requests, q.takes (Flag.bit s) = false) (w : Wakeups) :
    ∀ v ∈ (w.run requests).2, v.gives s = false := by
  induction requests generalizing w with
  | nil => simp [run]
  | cons q requests ih =>
    obtain ⟨hq, hmore⟩ := List.forall_mem_cons.mp h
    have hnone : (w.serve q).2.countP (·.gives s) = 0 := by
      rw [countP_serve, hq, Bool.and_false, Bool.toNat_false]
    intro v hv
    rcases List.mem_append.mp hv with hv | hv
    · exact Bool.eq_false_iff.mpr (List.countP_eq_zero.mp hnone v hv)
    · exact ih hmore _ v hv

/-- A signal is raised exactly if it was not given back since it was raised. -/
theorem has_run_empty (requests : List Request) (s : Signal) :
    (empty.run requests).1.raised.has s = true ↔
      ∃ before signals after, requests = before ++ .add signals :: after ∧
        signals.has s = true ∧
        ∀ v ∈ ((empty.run (before ++ [.add signals])).1.run after).2, v.gives s = false := by
  constructor
  · intro h
    obtain ⟨before, q, after, rfl, hraises, hafter⟩ := (hasBit_run_empty requests _).mp h
    cases q with
    | add signals => exact ⟨before, signals, after, rfl, hraises, not_gives_run hafter _⟩
    | wait mask timeout => contradiction
  · rintro ⟨before, signals, after, rfl, hs, hafter⟩
    have hraised : (empty.run (before ++ [.add signals])).1.raised.has s = true :=
      (hasBit_run_empty _ _).mpr ⟨before, .add signals, [], rfl, hs, by simp⟩
    have hnone : ((empty.run (before ++ [.add signals])).1.run after).2.countP (·.gives s) = 0 :=
      List.countP_eq_zero.mpr fun v hv => Bool.eq_false_iff.mp (hafter v hv)
    have hkept := (run_balance (empty.run (before ++ [.add signals])).1 after s).1
    rw [hraised, hnone, Nat.zero_add] at hkept
    rw [List.append_cons, run_append]
    exact Bool.toNat_eq_one.mp (Nat.le_antisymm (Bool.toNat_le _) hkept)

/-- The same signals being raised, the same is given back. -/
theorem run_congr {w w' : Wakeups} (h : w.raised.known = w'.raised.known)
    (requests : List Request) : (w.run requests).2 = (w'.run requests).2 := by
  induction requests generalizing w w' with
  | nil => rfl
  | cons q requests ih =>
    obtain ⟨hwaits, hleft⟩ := serve_congr h q
    rw [run, run, hwaits, ih hleft]

/-- A wait that goes to sleep has removed no signal, so all that is given back later is as it would
have been without it. -/
theorem run_of_asleep (h : ∀ signals, (w.wait mask timeout).2 ≠ .woken signals)
    (later : List Request) : ((w.wait mask timeout).1.run later).2 = (w.run later).2 := by
  have hnone : w.raised.known ∩ mask = ∅ :=
    (Mask.known_inter w.raised mask).symm.trans (taken_of_not_woken h)
  refine run_congr ?_ later
  rw [wait_fst, take, Mask.known_sdiff, Mask.sdiff_eq_self hnone]

/-! ### Every sequence of requests -/

/-- What holds of wake-ups that have served requests, the waits among which have ended so. -/
structure Conserves (w : Wakeups) (requests : List Request) (waits : List Wait) : Prop where
  /-- A bit, with a name or without, is raised if it was raised since the last wait for it. -/
  raised_iff : ∀ i, w.raised.hasBit i = true ↔ RaisedSince i requests
  /-- While nobody waits, all that is raised comes together. -/
  gathers : ∀ (more : List Signals) (i : Nat),
    (w.run (more.map .add)).1.raised.hasBit i = true ↔
      w.raised.hasBit i = true ∨ ∃ signals ∈ more, signals.hasBit i = true
  /-- To raise again what was raised since the last wait for it changes nothing. -/
  again : ∀ signals : Signals, (∀ i, signals.hasBit i = true → RaisedSince i requests) →
    w.add signals = w
  /-- A wait that returns gives back the signals of its mask that were raised since the last wait
  for them, and nothing else. -/
  answer_iff : ∀ mask timeout answer, (w.wait mask timeout).2.answer? = some answer →
    ∀ i, answer.hasBit i = true ↔
      (∃ s : Signal, Flag.bit s = i) ∧ mask.hasBit i = true ∧ RaisedSince i requests
  /-- It returns with nothing only if there is nothing for it. -/
  answer_empty : ∀ mask timeout, (w.wait mask timeout).2.answer? = some ∅ →
    ∀ s : Signal, mask.has s = true → ¬ RaisedSince (Flag.bit s) requests
  /-- It goes on for ever only if it has no bound either. -/
  blocks_iff : ∀ mask timeout, (w.wait mask timeout).2.answer? = none ↔
    timeout = none ∧ ∀ s : Signal, mask.has s = true → ¬ RaisedSince (Flag.bit s) requests
  /-- However it ends, it leaves nothing of its mask, and everything else as it was. -/
  leaves : ∀ mask timeout i, (w.wait mask timeout).1.raised.hasBit i =
    (w.raised.hasBit i && !mask.hasBit i)
  /-- A wait that goes to sleep makes no difference to what is given back later. -/
  asleep : ∀ mask timeout, (∀ signals, (w.wait mask timeout).2 ≠ .woken signals) →
    ∀ later, ((w.wait mask timeout).1.run later).2 = (w.run later).2
  /-- No signal is lost: it stays raised until it is given back, and only so long. -/
  has_iff : ∀ s : Signal, w.raised.has s = true ↔
    ∃ before signals after, requests = before ++ .add signals :: after ∧ signals.has s = true ∧
      ∀ v ∈ ((empty.run (before ++ [.add signals])).1.run after).2, v.gives s = false
  /-- No signal is invented or given back twice: it is given back, or raised in the end, at most
  as often as it was raised. -/
  balance : ∀ s : Signal, waits.countP (·.gives s) + (w.raised.has s).toNat ≤
    requests.countP (·.raises (Flag.bit s))

/-- Whatever is raised and waited for, in any order and with any masks, each wait gives back just
the signals of its mask that were raised since the last wait for them. No signal is lost, invented or
given back twice. -/
theorem waits_conserve_signals (requests : List Request) :
    (empty.run requests).1.Conserves requests (empty.run requests).2 := by
  have hraised := hasBit_run_empty requests
  have hnone : ∀ mask, ((empty.run requests).1.take mask).2 = ∅ ↔
      ∀ s : Signal, mask.has s = true → ¬ RaisedSince (Flag.bit s) requests := by
    intro mask
    rw [taken_eq_empty]
    refine forall_congr' fun s => imp_congr_right fun _ => ?_
    rw [← hraised, Bool.not_eq_true, Mask.hasBit_bit]
  constructor
  case raised_iff => exact hraised
  case gathers =>
    intro more i
    rw [hasBit_run, raisedSince_adds, and_iff_left not_takes_adds]
  case again => exact fun signals h => add_eq_self fun i hi => (hraised i).mpr (h i hi)
  case answer_iff =>
    intro mask timeout answer h i
    rw [eq_taken_of_answer h, hasBit_taken, hraised]
  case answer_empty =>
    intro mask timeout h
    exact (hnone mask).mp (eq_taken_of_answer h).symm
  case blocks_iff =>
    intro mask timeout
    rw [← hnone, answer?_wait]
    split
    case isTrue h => exact iff_of_true rfl h
    case isFalse h => exact iff_of_false (by simp) h
  case leaves =>
    intro mask timeout i
    rw [wait_fst, take, Mask.hasBit_sdiff]
  case asleep => exact fun mask timeout h later => run_of_asleep h later
  case has_iff => exact has_run_empty requests
  case balance =>
    intro s
    simpa [empty] using (run_balance empty requests s).2

/-- A bit that is no signal is dropped by a wait that has it in its mask, and does not end it. -/
example : (empty.run [.add (Mask.ofNat 0b10001), .wait (Mask.ofNat 0b10010) none,
    .add (Mask.ofNat 0b00011), .wait (Mask.ofNat 0b10010) none,
    .wait (Mask.full Signal) (some 0), .wait (Mask.full Signal) (some 0)]).2 =
      [.forever, .woken (Mask.only .event), .woken (Mask.only .readiness), .elapsed 0] := by
  decide

end Wakeups
end EventLoop
