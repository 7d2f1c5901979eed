import EventLoop.Proofs.Timing

/-!
# The range of timeouts and periods

Timers are set to 64-bit numbers with a sign that are not negative, and nothing else gives a timer
other times, but for an expiry that takes its timeout away. So the times of every timer fit into
such a number again, and are not changed when it is started anew.
-/
namespace EventLoop

/-- Timeout and period fit into 64-bit numbers with a sign. -/
structure Timer.InRange (t : Timer) : Prop where
  timeout : t.timeout < 2 ^ 63
  period : t.period < 2 ^ 63

theorem checkTimes_lt {timeout period : Int64} {a b : Nat}
    (h : checkTimes timeout period = .ok (a, b)) : a < 2 ^ 63 ∧ b < 2 ^ 63 := by
  rw [checkTimes] at h
  split at h
  · contradiction
  · obtain ⟨rfl, rfl⟩ := Prod.mk.inj (Except.ok.inj h)
    exact ⟨timeout.toNatClampNeg_lt, period.toNatClampNeg_lt⟩

theorem checkTimes_ofNat {a b : Nat} (ha : a < 2 ^ 63) (hb : b < 2 ^ 63) :
    checkTimes (Int64.ofNat a) (Int64.ofNat b) = .ok (a, b) := by
  have hnonneg : ∀ {n : Nat}, n < 2 ^ 63 → ¬ Int64.ofNat n < 0 := by
    intro n hn
    rw [Int64.lt_iff_toInt_lt, Int64.toInt_ofNat_of_lt hn, Int64.toInt_zero]
    exact Int.not_lt.mpr (Int.natCast_nonneg n)
  rw [checkTimes, decide_eq_false (hnonneg ha), decide_eq_false (hnonneg hb),
    Int64.toNatClampNeg_ofNat_of_lt ha, Int64.toNatClampNeg_ofNat_of_lt hb]
  rfl

/-! ### What can be done to a timer -/

namespace Timer.InRange

variable {tm : Timer} {a b ms : Nat} {now : Option Nat}

theorem again (h : tm.InRange) (hagain : tm.Again a b) : a < 2 ^ 63 ∧ b < 2 ^ 63 := by
  rcases hagain with ⟨rfl, rfl⟩ | hcheck
  · exact ⟨h.timeout, h.period⟩
  · exact checkTimes_lt hcheck

theorem arm (h : tm.InRange) : (tm.arm ms).InRange := by
  rw [Timer.arm]
  split
  · exact ⟨h.timeout, h.period⟩
  · exact h

theorem fire (h : tm.InRange) : (tm.fire ms).1.InRange := by
  rw [Timer.fire]
  split
  · split
    · exact ⟨Nat.two_pow_pos 63, h.period⟩
    · exact ⟨h.timeout, h.period⟩
  · exact h

theorem assigns {action : WatcherAction} (h : tm.InRange) (hassigns : action.Assigns tm a b) :
    a < 2 ^ 63 ∧ b < 2 ^ 63 := by
  cases hassigns with
  | set hcheck => exact checkTimes_lt hcheck
  | started hagain => exact h.again hagain

theorem assigned {action : WatcherAction} (h : tm.InRange) (hassigns : action.Assigns tm a b) :
    (tm.set a b now).InRange :=
  ⟨(h.assigns hassigns).1, (h.assigns hassigns).2⟩

theorem timing {t : Transition} {r : WatcherRef} {active active' : Bool} {tm' : Timer}
    (h : tm.InRange) (htiming : t.Timing r tm active tm' active') : tm'.InRange := by
  cases htiming with
  | kept => exact h
  | assigned _ hassigns htm => exact htm ▸ h.assigned hassigns
  | armed => exact h.arm
  | fired => exact h.fire

end Timer.InRange

theorem Entry.Born.inRange {e : Entry} {now : Option Nat} {spec : WatcherSpec} {tm : Timer}
    (h : e.Born now spec) (ht : e.payload.timer? = some tm) : tm.InRange := by
  cases h with
  | timer hcheck hset | remoteTimer hcheck hset =>
    obtain rfl := Option.some.inj ht
    obtain ⟨ha, hb⟩ := checkTimes_lt hcheck
    rw [hset]
    exact ⟨ha, hb⟩
  | event => contradiction
  | io => contradiction

theorem Entry.timer?_of_kind {e e' : Entry} {tm : Timer}
    (hk : e'.payload.kind = e.payload.kind) (ht : e'.payload.timer? = some tm) :
    ∃ tm', e.payload.timer? = some tm' := by
  cases hp : e.payload with
  | timer t => exact ⟨t, rfl⟩
  | remote t => exact ⟨t.timer, rfl⟩
  | io | event =>
    rcases kind_of_timer? ht with hkind | hkind <;> exact nomatch (hkind.symm.trans hk).trans
      (congrArg Payload.kind hp)

/-! ### In every reachable state -/

/-- Every timer is like this. -/
def World.EveryTimer (P : Timer → Prop) (w : World) : Prop :=
  ∀ r e tm, w.meant? r = some e → e.payload.timer? = some tm → P tm

/-- What holds of the timers that are created, and is kept by all that a transition can make of a
timer, lasts. -/
theorem Transition.everyTimer {P : Timer → Prop} (t : Transition)
    (hborn : ∀ {r : WatcherRef} {e : Entry} {spec : WatcherSpec} {tm : Timer},
      e.Born (t.before.world.armingTime? r.owner) spec → e.payload.timer? = some tm → P tm)
    (htiming : ∀ {r : WatcherRef} {tm tm' : Timer} {active active' : Bool},
      t.Timing r tm active tm' active' → P tm → P tm')
    (h : t.before.world.EveryTimer P) : t.after.world.EveryTimer P := by
  intro r e' tm' he' ht'
  obtain ⟨v, heffect, htold⟩ := t.effect r
  rw [he'] at htold
  obtain ⟨e₁, rfl⟩ := htold.before
  -- polls tell timers nothing
  obtain ⟨tm₁, ht₁⟩ := Entry.timer?_of_kind htold.frame.2.2.2 ht'
  obtain rfl := htold.eq_of_kind (Entry.kind_ne_io ht₁)
  cases hbefore : t.before.world.meant? r with
  | none =>
    rw [hbefore] at heffect
    cases heffect with
    | commanded _ heffect =>
      cases heffect with
      | born _ _ hbirth => exact hborn hbirth ht'
  | some e =>
    rw [hbefore] at heffect
    obtain ⟨tm, ht⟩ := Entry.timer?_of_kind heffect.kind ht'
    obtain ⟨tm₂, ht₂, hmakes⟩ := heffect.timing hbefore ht
    obtain rfl := Option.some.inj (ht'.symm.trans ht₂)
    exact htiming hmakes (h r e tm hbefore ht)

/-- All timers have times in range. -/
def World.TimesInRange (w : World) : Prop :=
  ∀ r e tm, w.meant? r = some e → e.payload.timer? = some tm → tm.InRange

theorem Transition.timesInRange (t : Transition) (h : t.before.world.TimesInRange) :
    t.after.world.TimesInRange :=
  t.everyTimer Entry.Born.inRange (fun hmakes htimes => htimes.timing hmakes) h

theorem History.timesInRange {past : List Transition} {m : Machine} (h : History past m) :
    m.world.TimesInRange := by
  induction h with
  | start clock host =>
    intro r e tm he
    contradiction
  | step t _ ih => exact t.timesInRange ih

/-- In every reachable state all timers have times in range. -/
theorem Machine.Reachable.timesInRange {m : Machine} (h : m.Reachable) : m.world.TimesInRange := by
  obtain ⟨past, hpast⟩ := h.history
  exact hpast.timesInRange

end EventLoop
