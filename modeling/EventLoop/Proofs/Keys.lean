import EventLoop.Proofs.Arena
import Mathlib.Algebra.GroupWithZero.Nat

/-!
# How long a key finds its value

A key finds the value that was stored under it, as changed since, until it is erased. Each erasure
moves its slot on to the next generation, and generations wrap: an erased key finds something again
after every 2^32 erasures in its slot, as long as the slot is occupied then. Of the vacant slots the
one that was vacated last is used first.
-/
namespace EventLoop
namespace Arena

variable {α : Type}

/-- What is asked of an arena. A value that is found may be changed in its place. -/
inductive Request (α : Type) where
  | insert (a : α)
  | erase (k : SlotKey)
  | get (k : SlotKey)
  | change (k : SlotKey) (f : α → α)
  /-- The value in a slot is changed, whatever its generation. -/
  | changeAt (i : Nat) (f : α → α)

/-- What an arena answers. -/
inductive Reply (α : Type) where
  | stored (k : SlotKey)
  | found (a : Option α)
  | inSlot (a : Option (Generation × α))

/-- Serves one request. -/
def serve (s : Arena α) : Request α → Arena α × Reply α
  | .insert a => ((s.insert a).1, .stored (s.insert a).2)
  | .erase k => ((s.erase k).1, .found (s.erase k).2)
  | .get k => (s, .found (s.get? k))
  | .change k f => ((s.get? k).elim s fun a => s.set k (f a), .found (s.get? k))
  | .changeAt i f => ((s.at? i).elim s fun v => s.put i (f v.2), .inSlot (s.at? i))

/-- The arena after it has served requests. -/
def after (s : Arena α) (requests : List (Request α)) : Arena α :=
  requests.foldl (fun s q => (s.serve q).1) s

/-- The slot that a request vacates. -/
def vacates (s : Arena α) : Request α → List Nat
  | .erase k => if (s.get? k).isSome then [k.index] else []
  | _ => []

/-- The slots that are vacated by requests, the last one first. -/
def vacated (s : Arena α) : List (Request α) → List Nat
  | [] => []
  | q :: rest => (s.serve q).1.vacated rest ++ s.vacates q

/-- A slot is there, and no value in it. -/
def isVacant (s : Arena α) (i : Nat) : Bool := s.slots[i]?.any fun slot => slot.value.isNone

/-- A slot is there, and a value in it. -/
def isOccupied (s : Arena α) (i : Nat) : Bool := s.slots[i]?.any fun slot => slot.value.isSome

/-- The generation that a slot has come to. -/
def generation? (s : Arena α) (i : Nat) : Option Generation := s.slots[i]?.map Slot.generation

/-- What a request makes of the value under a key, if it does not erase it. -/
def Request.rewrite (k : SlotKey) (a : α) : Request α → α
  | .change k' f => if k' = k then f a else a
  | .changeAt i f => if i = k.index then f a else a
  | _ => a

theorem get?_isSome_iff {s : Arena α} {k : SlotKey} : (s.get? k).isSome = true ↔
    s.isOccupied k.index = true ∧ s.generation? k.index = some k.generation := by
  rw [Option.isSome_iff_exists]
  simp only [get?_eq_some, at?_eq_some, isOccupied, generation?]
  cases s.slots[k.index]? with
  | none => simp
  | some slot =>
    obtain ⟨g, v⟩ := slot
    cases v <;> simp

theorem isOccupied_eq (s : Arena α) (i : Nat) : s.isOccupied i = (s.at? i).isSome := by
  rw [isOccupied, at?]
  cases s.slots[i]? with
  | none => rfl
  | some slot =>
    obtain ⟨g, v⟩ := slot
    cases v <;> rfl

theorem isVacant_iff {s : Arena α} {i : Nat} :
    s.isVacant i = true ↔ ∃ g, s.slots[i]? = some ⟨g, none⟩ := by
  rw [isVacant]
  cases s.slots[i]? with
  | none => simp
  | some slot =>
    obtain ⟨g, v⟩ := slot
    cases v <;> simp

theorem erase_snd (s : Arena α) (k : SlotKey) : (s.erase k).2 = s.get? k := by
  rw [erase]
  cases s.get? k <;> rfl

/-! ### One request -/

/-- What a request can do to an arena, and the slot that it vacates. -/
inductive Change (s : Arena α) : Arena α → List Nat → Prop
  | same : Change s s []
  | rewritten {i g a} (b : α) : s.slots[i]? = some ⟨g, some a⟩ →
      Change s { s with slots := s.slots.set i ⟨g, some b⟩ } []
  | grown (a : α) : s.free = [] →
      Change s { s with slots := s.slots ++ [⟨0, some a⟩], size := s.size + 1 } []
  | reused {i free g} (a : α) : s.free = i :: free → s.slots[i]? = some ⟨g, none⟩ →
      Change s ⟨s.slots.set i ⟨g, some a⟩, free, s.size + 1⟩ []
  | vacated {i g a} : s.slots[i]? = some ⟨g, some a⟩ →
      Change s ⟨s.slots.set i ⟨g + 1, none⟩, i :: s.free, s.size - 1⟩ [i]

theorem put_change {s : Arena α} {i : Nat} {v : Generation × α} (h : s.at? i = some v) (b : α) :
    s.Change (s.put i b) [] := by
  rw [put, h]
  exact .rewritten b (at?_eq_some.mp h)

theorem serve_change {s : Arena α} (h : s.WellFormed) (q : Request α) :
    s.Change (s.serve q).1 (s.vacates q) := by
  cases q with
  | insert a =>
    simp only [serve, vacates]
    rcases insert_cases h a with ⟨he, hf⟩ | ⟨i, free, g, hf, hi, he⟩
    · rw [he]
      exact .grown a hf
    · rw [he]
      exact .reused a hf hi
  | erase k =>
    simp only [serve, vacates]
    cases hk : s.get? k with
    | none =>
      rw [erase, hk]
      exact .same
    | some a =>
      rw [erase_eq hk]
      exact .vacated (at?_eq_some.mp (get?_eq_some.mp hk))
  | get k => exact .same
  | change k f =>
    simp only [serve, vacates]
    cases hk : s.get? k with
    | none => exact .same
    | some a =>
      rw [Option.elim_some, set_eq_put hk]
      exact put_change (get?_eq_some.mp hk) _
  | changeAt i f =>
    simp only [serve, vacates]
    cases hi : s.at? i with
    | none => exact .same
    | some v => exact put_change hi _

theorem WellFormed.serve {s : Arena α} (h : s.WellFormed) (q : Request α) :
    (s.serve q).1.WellFormed := by
  cases q with
  | insert a => exact h.insert a
  | erase k =>
    simp only [Arena.serve]
    cases hk : s.get? k with
    | none =>
      rw [Arena.erase, hk]
      exact h
    | some a => exact h.erase hk
  | get k => exact h
  | change k f =>
    simp only [Arena.serve]
    cases hk : s.get? k with
    | none => exact h
    | some a =>
      rw [Option.elim_some, set_eq_put hk]
      exact h.put _ _
  | changeAt i f =>
    simp only [Arena.serve]
    cases hi : s.at? i with
    | none => exact h
    | some v => exact h.put _ _

/-- A request leaves the value under a key alone, unless it erases it or is made to change it. -/
theorem get?_serve {s : Arena α} (h : s.WellFormed) {k : SlotKey} {a : α} (hk : s.get? k = some a)
    {q : Request α} (hq : q ≠ .erase k) : (s.serve q).1.get? k = some (q.rewrite k a) := by
  have hat := get?_eq_some.mp hk
  have hother : ∀ {k' : SlotKey} {b : α}, s.get? k' = some b → k' ≠ k → k.index ≠ k'.index := by
    intro k' b hk' hne hi
    have hat' := get?_eq_some.mp hk'
    rw [← hi, hat] at hat'
    obtain ⟨hg, -⟩ := Prod.mk.inj (Option.some.inj hat')
    exact hne (congr (congrArg SlotKey.mk hi.symm) hg.symm)
  rw [get?_eq_some]
  cases q with
  | insert b =>
    have hne : k.index ≠ (s.insert b).2.index := by
      intro he
      rw [he, at?_insert_vacant h b] at hat
      contradiction
    exact (at?_insert_other h b hne).trans hat
  | erase k' =>
    have hne : k' ≠ k := fun he => hq (he ▸ rfl)
    cases hk' : s.get? k' with
    | none =>
      rw [Arena.serve, Arena.erase, hk']
      exact hat
    | some b => exact (at?_erase_other hk' (hother hk' hne)).trans hat
  | get k' => exact hat
  | change k' f =>
    simp only [serve, Request.rewrite]
    by_cases he : k' = k
    · subst he
      rw [hk, Option.elim_some, set_eq_put hk, if_pos rfl]
      exact at?_put_self hat
    · rw [if_neg he]
      cases hk' : s.get? k' with
      | none => exact hat
      | some b =>
        rw [Option.elim_some, set_eq_put hk']
        exact (at?_put_other (hother hk' he)).trans hat
  | changeAt i f =>
    simp only [serve, Request.rewrite]
    by_cases he : i = k.index
    · subst he
      rw [hat, Option.elim_some, if_pos rfl]
      exact at?_put_self hat
    · rw [if_neg he]
      cases hi : s.at? i with
      | none => exact hat
      | some v => exact (at?_put_other (Ne.symm he)).trans hat

namespace Change

variable {s s' : Arena α} {log : List Nat}

theorem isVacant_set {i j : Nat} {old new : Slot α} (h : s.slots[i]? = some old) {free : List Nat}
    {size : Nat} : isVacant ⟨s.slots.set i new, free, size⟩ j =
      if j = i then new.value.isNone else s.isVacant j := by
  have hlt := (List.getElem?_eq_some_iff.mp h).1
  rw [isVacant, List.getElem?_set]
  by_cases hj : i = j
  · subst hj
    simp [hlt]
  · rw [if_neg hj, if_neg (Ne.symm hj), isVacant]

theorem isVacant_append {a : α} {free : List Nat} {size j : Nat} :
    isVacant ⟨s.slots ++ [⟨0, some a⟩], free, size⟩ j = s.isVacant j := by
  rw [isVacant, isVacant, List.getElem?_append]
  split
  · rfl
  · rw [List.getElem?_eq_none (l := s.slots) (by omega)]
    cases j - s.slots.length <;> simp

/-- The stack of vacant slots has each of them where it was vacated last. -/
theorem free_eq (h : s.Change s' log) {past : List Nat}
    (hfree : s.free = (past.filter s.isVacant).eraseDups) :
    s'.free = ((log ++ past).filter s'.isVacant).eraseDups := by
  have hsame : (∀ j, s'.isVacant j = s.isVacant j) →
      s.free = (past.filter s'.isVacant).eraseDups := by
    intro hv
    rw [hfree, List.filter_congr fun j _ => hv j]
  cases h with
  | same => exact hfree
  | rewritten b hi =>
    refine hsame fun j => ?_
    rw [isVacant_set hi]
    split
    · next hj => rw [hj, isVacant, hi]; rfl
    · rfl
  | grown a hnil => exact hsame fun j => isVacant_append
  | @reused i free g a hf hi =>
    -- the slot that is used again drops out of the vacant ones, wherever it was vacated before
    rw [hf] at hfree
    cases hpast : past.filter s.isVacant with
    | nil => rw [hpast] at hfree; contradiction
    | cons j rest =>
      rw [hpast, List.eraseDups_cons, List.cons.injEq] at hfree
      obtain ⟨rfl, hrest⟩ := hfree
      have hfilter : past.filter (isVacant ⟨s.slots.set i ⟨g, some a⟩, free, s.size + 1⟩) =
          (past.filter s.isVacant).filter fun b => !b == i := by
        rw [List.filter_filter]
        refine List.filter_congr fun j _ => ?_
        rw [isVacant_set hi]
        by_cases hj : j = i <;> simp [hj]
      rw [List.nil_append, hfilter, hpast, List.filter_cons_of_neg (by simp)]
      exact hrest
  | @vacated i g a hi =>
    have hoccupied : s.isVacant i = false := by
      rw [isVacant, hi]
      rfl
    have hfilter : (past.filter (isVacant ⟨s.slots.set i ⟨g + 1, none⟩, i :: s.free,
        s.size - 1⟩)).filter (fun b => !b == i) = past.filter s.isVacant := by
      rw [List.filter_filter]
      refine List.filter_congr fun j _ => ?_
      rw [isVacant_set hi]
      by_cases hj : j = i <;> simp [hj, hoccupied]
    rw [List.singleton_append, List.filter_cons_of_pos (by rw [isVacant_set hi]; simp),
      List.eraseDups_cons, hfilter, ← hfree]

theorem size_eq (h : s.Change s' log)
    (hsize : s.size = s.slots.countP fun slot => slot.value.isSome) :
    s'.size = s'.slots.countP fun slot => slot.value.isSome := by
  have hset : ∀ {i : Nat} {old : Slot α} (new : Slot α), s.slots[i]? = some old →
      (s.slots.set i new).countP (fun slot => slot.value.isSome) + old.value.isSome.toNat =
        s.size + new.value.isSome.toNat := by
    intro i old new hi
    obtain ⟨hlt, rfl⟩ := List.getElem?_eq_some_iff.mp hi
    have hpos : (s.slots[i].value.isSome = true) → 0 < s.size := fun hs => by
      rw [hsize]
      exact List.countP_pos_iff.mpr ⟨_, List.getElem_mem hlt, hs⟩
    rw [List.countP_set hlt, ← hsize]
    cases hold : s.slots[i].value.isSome <;> cases hnew : new.value.isSome <;>
      simp [hold] at hpos ⊢ <;> omega
  cases h with
  | same => exact hsize
  | @rewritten i g a b hi =>
    have hsame := hset ⟨g, some b⟩ hi
    exact (Nat.add_right_cancel hsame).symm
  | grown a => simp [hsize]
  | @reused i free g a _ hi => exact (hset ⟨g, some a⟩ hi).symm
  | @vacated i g a hi =>
    have hless := hset ⟨g + 1, none⟩ hi
    simp only [Option.isSome_some, Bool.toNat_true, Option.isSome_none, Bool.toNat_false] at hless
    dsimp only
    omega

/-- A slot has moved on by one generation for each time it was vacated. -/
theorem generation_eq (h : s.Change s' log) {i : Nat} {g : Generation}
    (hg : s.generation? i = some g) :
    s'.generation? i = some (g + BitVec.ofNat 32 (log.count i)) := by
  have hset : ∀ {j : Nat} {old new : Slot α} {free : List Nat} {size : Nat},
      s.slots[j]? = some old → generation? ⟨s.slots.set j new, free, size⟩ i =
        some (if i = j then new.generation else g) := by
    intro j old new free size hj
    have hlt := (List.getElem?_eq_some_iff.mp hj).1
    rw [generation?, List.getElem?_set]
    by_cases he : j = i
    · subst he
      simp [hlt]
    · rw [if_neg he, if_neg (Ne.symm he)]
      exact hg
  have hold : ∀ {j : Nat} {old : Slot α}, s.slots[j]? = some old → i = j → old.generation = g := by
    rintro j old hj rfl
    rw [generation?, hj] at hg
    exact Option.some.inj hg
  have hnone : g = g + BitVec.ofNat 32 (List.count i []) := by simp
  cases h with
  | same => exact hg.trans (congrArg some hnone)
  | @rewritten j g' a b hj =>
    have hsame : i = j → g' = g := hold hj
    rw [hset hj, ← hnone]
    split
    · next he => exact congrArg some (hsame he)
    · rfl
  | grown a =>
    obtain ⟨slot, hslot, -⟩ := Option.map_eq_some_iff.mp hg
    have hlt := (List.getElem?_eq_some_iff.mp hslot).1
    rw [generation?, List.getElem?_append_left hlt, ← hnone]
    exact hg
  | @reused j free g' a _ hj =>
    have hsame : i = j → g' = g := hold hj
    rw [hset hj, ← hnone]
    split
    · next he => exact congrArg some (hsame he)
    · rfl
  | @vacated j g' a hj =>
    rw [hset hj]
    by_cases he : i = j
    · obtain rfl : g' = g := hold hj he
      subst he
      simp
    · rw [if_neg he, List.count_singleton]
      simp [Ne.symm he]

end Change

/-! ### Many requests -/

/-- What an arena keeps as long as it serves requests, the slots in `past` having been vacated. -/
structure Kept (s : Arena α) (past : List Nat) : Prop where
  wellFormed : s.WellFormed
  free : s.free = (past.filter s.isVacant).eraseDups
  size : s.size = s.slots.countP fun slot => slot.value.isSome

theorem kept_empty : (empty : Arena α).Kept [] := ⟨wellFormed_empty, rfl, rfl⟩

theorem Kept.serve {s : Arena α} {past : List Nat} (h : s.Kept past) (q : Request α) :
    (s.serve q).1.Kept (s.vacates q ++ past) :=
  have hchange := serve_change h.wellFormed q
  ⟨h.wellFormed.serve q, hchange.free_eq h.free, hchange.size_eq h.size⟩

theorem Kept.after {s : Arena α} {past : List Nat} (h : s.Kept past)
    (requests : List (Request α)) : (s.after requests).Kept (s.vacated requests ++ past) := by
  induction requests generalizing s past with
  | nil => exact h
  | cons q rest ih =>
    rw [vacated, List.append_assoc]
    exact ih (h.serve q)

section After

variable {s : Arena α} {k : SlotKey} {a : α} {since : List (Request α)}

theorem vacated_append (s : Arena α) (earlier later : List (Request α)) :
    s.vacated (earlier ++ later) = (s.after earlier).vacated later ++ s.vacated earlier := by
  induction earlier generalizing s with
  | nil => rw [List.nil_append, vacated, List.append_nil]; rfl
  | cons q rest ih =>
    rw [List.cons_append, vacated, ih, vacated, List.append_assoc]
    rfl

/-- A key that is not erased finds its value, as changed since. -/
theorem get?_after (h : s.WellFormed) (hk : s.get? k = some a)
    (hkept : Request.erase k ∉ since) :
    (s.after since).get? k = some (since.foldl (Request.rewrite k) a) := by
  induction since generalizing s a with
  | nil => exact hk
  | cons q rest ih =>
    rw [List.mem_cons, not_or] at hkept
    exact ih (h.serve q) (get?_serve h hk (Ne.symm hkept.1)) hkept.2

theorem generation_after (h : s.WellFormed) {i : Nat} {g : Generation}
    (hg : s.generation? i = some g) (requests : List (Request α)) :
    (s.after requests).generation? i =
      some (g + BitVec.ofNat 32 ((s.vacated requests).count i)) := by
  induction requests generalizing s g with
  | nil => simpa [after, vacated] using hg
  | cons q rest ih =>
    rw [vacated, List.count_append, Nat.add_comm, BitVec.ofNat_add, ← BitVec.add_assoc]
    exact ih (h.serve q) ((serve_change h q).generation_eq hg)

/-- The first erasure of a key vacates its slot. -/
theorem vacated_of_erased (h : s.WellFormed) (hk : s.get? k = some a)
    (herased : Request.erase k ∈ since) : 0 < (s.vacated since).count k.index := by
  obtain ⟨earlier, later, rfl, hfirst⟩ := List.eq_append_cons_of_mem herased
  have hfound := get?_after h hk hfirst
  rw [vacated_append, vacated, vacates, hfound, List.count_append, List.count_append,
    Option.isSome_some, if_pos rfl, List.count_singleton_self]
  omega

theorem add_ofNat_eq_self_iff (g : Generation) (n : Nat) :
    g + BitVec.ofNat 32 n = g ↔ 2 ^ 32 ∣ n := by
  rw [BitVec.add_right_eq_self, BitVec.toNat_eq, BitVec.toNat_ofNat, BitVec.toNat_ofNat,
    Nat.zero_mod, Nat.dvd_iff_mod_eq_zero]

/-- A key finds something exactly when its slot is occupied and its generation has come round. -/
theorem isSome_after_iff (h : s.WellFormed) (hk : s.get? k = some a) :
    ((s.after since).get? k).isSome = true ↔
      (s.after since).isOccupied k.index = true ∧
        2 ^ 32 ∣ (s.vacated since).count k.index := by
  have hg : s.generation? k.index = some k.generation :=
    (get?_isSome_iff.mp (by rw [hk]; rfl)).2
  rw [get?_isSome_iff, generation_after h hg, Option.some.injEq, add_ofNat_eq_self_iff]

end After

/-! ### Every sequence of requests -/

/-- The state of an arena in which the slots of `past` have been vacated, the last one first. -/
structure Orderly (s : Arena α) (past : List Nat) : Prop where
  /-- A new value does not take the place of another. -/
  takes_vacant : ∀ a, s.isOccupied (s.insert a).2.index = false
  /-- A new value goes to the slot that was vacated last. -/
  takes_last : ∀ a, (s.insert a).2.index = (past.find? s.isVacant).getD s.slots.length
  /-- No slot is added while one is vacant. -/
  grows_last : ∀ a i, s.isVacant i = true → (s.insert a).2.index < s.slots.length
  free_nodup : s.free.Nodup
  mem_free : ∀ i, i ∈ s.free ↔ s.isVacant i = true
  size : s.size = s.slots.countP fun slot => slot.value.isSome
  /-- All that look for a key find it, or none of them does. -/
  found : ∀ k f, ∃ v, (s.serve (.get k)).2 = .found v ∧ (s.serve (.change k f)).2 = .found v ∧
    (s.serve (.erase k)).2 = .found v ∧
    (v.isSome = true ↔
      s.isOccupied k.index = true ∧ s.generation? k.index = some k.generation)

/-- What a key finds in an arena that has just handed it out for a value, after more requests. -/
structure HandsOut (s : Arena α) (k : SlotKey) (a : α) : Prop where
  kept : ∀ since, .erase k ∉ since →
    (s.after since).get? k = some (since.foldl (Request.rewrite k) a)
  again_iff : ∀ since, .erase k ∈ since →
    (((s.after since).get? k).isSome = true ↔
      (s.after since).isOccupied k.index = true ∧
        ∃ n, 0 < n ∧ (s.vacated since).count k.index = n * 2 ^ 32)
  lost : ∀ since, .erase k ∈ since → (s.vacated since).count k.index ≤ 2 ^ 32 - 1 →
    (s.after since).get? k = none

theorem Kept.orderly {s : Arena α} {past : List Nat} (h : s.Kept past) : s.Orderly past where
  takes_vacant := by
    intro a
    rw [isOccupied_eq, at?_insert_vacant h.wellFormed]
    rfl
  takes_last := by
    intro a
    -- the stack and what was vacated have the same first slot that is vacant
    have hfirst : s.free.head? = past.find? s.isVacant := by
      rw [h.free, ← List.head?_filter]
      cases past.filter s.isVacant with
      | nil => rfl
      | cons i rest => rw [List.eraseDups_cons, List.head?_cons, List.head?_cons]
    rw [← hfirst]
    rcases insert_cases h.wellFormed a with ⟨he, hf⟩ | ⟨i, free, g, hf, -, he⟩
    · rw [he, hf]
      rfl
    · rw [he, hf]
      rfl
  grows_last := by
    intro a i hi
    have hmem := (h.wellFormed.mem_free i).mpr (isVacant_iff.mp hi)
    rcases insert_cases h.wellFormed a with ⟨-, hf⟩ | ⟨j, free, g, -, hj, he⟩
    · rw [hf] at hmem
      contradiction
    · rw [he]
      exact (List.getElem?_eq_some_iff.mp hj).1
  free_nodup := h.wellFormed.free_nodup
  mem_free := fun i => (h.wellFormed.mem_free i).trans isVacant_iff.symm
  size := h.size
  found := by
    intro k f
    exact ⟨s.get? k, rfl, rfl, congrArg Reply.found (erase_snd s k), get?_isSome_iff⟩

theorem handsOut_insert {s : Arena α} (h : s.WellFormed) (a : α) :
    (s.insert a).1.HandsOut (s.insert a).2 a := by
  have hw := h.insert a
  have hk := get?_insert_self h a
  have hagain : ∀ since, Request.erase (s.insert a).2 ∈ since →
      (2 ^ 32 ∣ ((s.insert a).1.vacated since).count (s.insert a).2.index ↔
        ∃ n, 0 < n ∧ ((s.insert a).1.vacated since).count (s.insert a).2.index = n * 2 ^ 32) := by
    intro since herased
    have hpos := vacated_of_erased hw hk herased
    constructor
    · rintro ⟨n, hn⟩
      refine ⟨n, Nat.pos_of_ne_zero ?_, by rw [hn, Nat.mul_comm]⟩
      rintro rfl
      rw [hn] at hpos
      contradiction
    · rintro ⟨n, -, hn⟩
      exact ⟨n, by rw [hn, Nat.mul_comm]⟩
  refine ⟨fun since hkept => get?_after hw hk hkept, fun since herased => ?_,
    fun since herased hfew => ?_⟩
  · rw [isSome_after_iff hw hk, hagain since herased]
  · rw [← Option.not_isSome_iff_eq_none, isSome_after_iff hw hk, hagain since herased]
    rintro ⟨-, n, hn, hcount⟩
    omega

/-- Whatever is asked of an arena, it never stores a value over another one. It uses the slot that
was vacated last before it adds one, and counts its values and its vacant slots. A key finds its
value, as changed through it or in its slot, until it is erased, and something again only when its
slot is occupied and has been vacated a multiple of 2^32 times since. -/
theorem keys_find_until_erased (requests : List (Request α)) :
    (empty.after requests).Orderly (empty.vacated requests) ∧
      ∀ a, ((empty.after requests).insert a).1.HandsOut ((empty.after requests).insert a).2 a := by
  have hkept : (empty.after requests).Kept (empty.vacated requests) := by
    simpa using kept_empty.after requests
  exact ⟨hkept.orderly, fun a => handsOut_insert hkept.wellFormed a⟩

/-- The slot of the number is used again, and its first key finds neither number. -/
theorem keys_find_until_erased_reused : ∃ (s : Arena Nat) (k : SlotKey),
    Request.erase k ∈ [Request.erase k, .insert 20, .changeAt k.index (· + 1)] ∧
    (s.after [.erase k, .insert 20, .changeAt k.index (· + 1)]).isOccupied k.index = true ∧
    (s.after [.change k (· + 1)]).get? k = some 11 ∧
    (s.after [.erase k, .insert 20, .changeAt k.index (· + 1)]).get? k = none := by
  have hout := (keys_find_until_erased ([] : List (Request Nat))).2 10
  have hmem : (.erase ⟨0, 0⟩ : Request Nat) ∈
      [.erase ⟨0, 0⟩, .insert 20, .changeAt 0 (· + 1)] := List.mem_cons_self
  exact ⟨_, ⟨0, 0⟩, hmem, rfl, hout.kept [.change ⟨0, 0⟩ (· + 1)] (by simp),
    hout.lost [.erase ⟨0, 0⟩, .insert 20, .changeAt 0 (· + 1)] hmem (by decide)⟩

end Arena
end EventLoop
