import EventLoop.Arena

/-!
# What an arena holds

An arena is seen through `at?`, the value in each slot. It is well formed if the stack of vacant
slots names each of them once; then storing a value never replaces another one.
-/
namespace EventLoop
namespace Arena

variable {α : Type}

structure WellFormed (s : Arena α) : Prop where
  free_nodup : s.free.Nodup
  mem_free : ∀ i, i ∈ s.free ↔ ∃ g, s.slots[i]? = some ⟨g, none⟩

theorem wellFormed_empty : (empty : Arena α).WellFormed :=
  ⟨List.nodup_nil, fun i => by simp [empty]⟩

theorem at?_eq_some {s : Arena α} {i : Nat} {g : Generation} {a : α} :
    s.at? i = some (g, a) ↔ s.slots[i]? = some ⟨g, some a⟩ := by
  unfold at?
  split
  · next g' a' h => simp [h]
  · next h =>
    simp only [reduceCtorEq, false_iff]
    exact h g a

theorem at?_lt {s : Arena α} {i : Nat} {v : Generation × α} (h : s.at? i = some v) :
    i < s.slots.length :=
  (List.getElem?_eq_some_iff.mp (at?_eq_some.mp h)).1

theorem at?_congr {s t : Arena α} {i : Nat} (h : t.slots[i]? = s.slots[i]?) :
    t.at? i = s.at? i := by
  unfold at?
  rw [h]

@[simp] theorem at?_empty (i : Nat) : (empty : Arena α).at? i = none := rfl

theorem get?_eq_some {s : Arena α} {k : SlotKey} {a : α} :
    s.get? k = some a ↔ s.at? k.index = some (k.generation, a) := by
  unfold get?
  cases h : s.at? k.index with
  | none => simp
  | some v =>
    obtain ⟨g, b⟩ := v
    by_cases hg : g = k.generation <;> simp [hg]

/-! ### Replacing a value -/

theorem at?_put_self {s : Arena α} {i : Nat} {g : Generation} {a b : α}
    (h : s.at? i = some (g, a)) : (s.put i b).at? i = some (g, b) := by
  have hi : i < s.slots.length := (List.getElem?_eq_some_iff.mp (at?_eq_some.mp h)).1
  rw [at?_eq_some, put, h]
  simp [hi]

theorem at?_put_other {s : Arena α} {i j : Nat} {b : α} (h : j ≠ i) :
    (s.put i b).at? j = s.at? j := by
  unfold put
  split
  · exact at?_congr (by simp [h.symm])
  · rfl

theorem put_put {s : Arena α} {i : Nat} {g : Generation} {a : α} (h : s.at? i = some (g, a))
    (b b' : α) : (s.put i b).put i b' = s.put i b' := by
  have hb : (s.put i b).at? i = some (g, b) := at?_put_self h
  rw [put, hb, put, h]
  simp only [List.set_set]
  rw [put, h]

theorem put_self {s : Arena α} {i : Nat} {g : Generation} {a : α} (h : s.at? i = some (g, a)) :
    s.put i a = s := by
  obtain ⟨hi, hslot⟩ := List.getElem?_eq_some_iff.mp (at?_eq_some.mp h)
  rw [put, h]
  dsimp only
  rw [← hslot, List.set_getElem_self]

theorem WellFormed.put {s : Arena α} (h : s.WellFormed) (i : Nat) (b : α) :
    (s.put i b).WellFormed := by
  unfold Arena.put
  split
  · next g a ha =>
    refine ⟨h.free_nodup, fun j => ?_⟩
    rw [h.mem_free j, List.getElem?_set]
    by_cases hj : i = j
    · subst hj
      have hs := at?_eq_some.mp ha
      have hi : i < s.slots.length := (List.getElem?_eq_some_iff.mp hs).1
      rw [if_pos rfl, if_pos hi, hs]
      simp
    · rw [if_neg hj]
  · exact h

theorem set_eq_put {s : Arena α} {k : SlotKey} {a b : α} (h : s.get? k = some a) :
    s.set k b = s.put k.index b := by
  rw [set, h]

/-! ### Storing a value -/

theorem insert_cases {s : Arena α} (h : s.WellFormed) (a : α) :
    (s.insert a = ({ s with slots := s.slots ++ [⟨0, some a⟩], size := s.size + 1 },
      ⟨s.slots.length, 0⟩) ∧ s.free = []) ∨
    ∃ i free g, s.free = i :: free ∧ s.slots[i]? = some ⟨g, none⟩ ∧
      s.insert a = (⟨s.slots.set i ⟨g, some a⟩, free, s.size + 1⟩, ⟨i, g⟩) := by
  cases hf : s.free with
  | nil => exact Or.inl ⟨by rw [insert, hf], rfl⟩
  | cons i free =>
    obtain ⟨g, hg⟩ := (h.mem_free i).mp (by rw [hf]; exact List.mem_cons_self)
    exact Or.inr ⟨i, free, g, rfl, hg, by rw [insert, hf]; simp [hg]⟩

theorem WellFormed.insert {s : Arena α} (h : s.WellFormed) (a : α) : (s.insert a).1.WellFormed := by
  rcases insert_cases h a with ⟨he, hf⟩ | ⟨i, free, g, hf, hi, he⟩
  · rw [he]
    refine ⟨h.free_nodup, fun j => ?_⟩
    rw [h.mem_free j, List.getElem?_append]
    by_cases hj : j < s.slots.length
    · simp [hj]
    · have hnone : s.slots[j]? = none := List.getElem?_eq_none (by omega)
      simp only [hnone, hj, if_false, reduceCtorEq, exists_false, false_iff, not_exists]
      intro g hg
      cases hk : j - s.slots.length <;> simp [hk] at hg
  · have hnd := h.free_nodup
    rw [hf, List.nodup_cons] at hnd
    rw [he]
    refine ⟨hnd.2, fun j => ?_⟩
    have hm := h.mem_free j
    rw [hf, List.mem_cons] at hm
    simp only [List.getElem?_set]
    by_cases hj : i = j
    · subst hj
      have hlt : i < s.slots.length := (List.getElem?_eq_some_iff.mp hi).1
      simp [hnd.1, hlt]
    · rw [if_neg hj, ← hm]
      simp [Ne.symm hj]

/-- The slot of a new value was vacant. -/
theorem at?_insert_vacant {s : Arena α} (h : s.WellFormed) (a : α) :
    s.at? (s.insert a).2.index = none := by
  rcases insert_cases h a with ⟨he, -⟩ | ⟨i, free, g, -, hi, he⟩
  · rw [he]
    unfold at?
    simp
  · rw [he]
    unfold at?
    simp [hi]

theorem at?_insert_self {s : Arena α} (h : s.WellFormed) (a : α) :
    (s.insert a).1.at? (s.insert a).2.index = some ((s.insert a).2.generation, a) := by
  rw [at?_eq_some]
  rcases insert_cases h a with ⟨he, -⟩ | ⟨i, free, g, -, hi, he⟩
  · simp [he]
  · have hlt : i < s.slots.length := (List.getElem?_eq_some_iff.mp hi).1
    simp [he, hlt]

theorem get?_insert_self {s : Arena α} (h : s.WellFormed) (a : α) :
    (s.insert a).1.get? (s.insert a).2 = some a :=
  get?_eq_some.mpr (at?_insert_self h a)

theorem at?_insert_other {s : Arena α} (h : s.WellFormed) (a : α) {j : Nat}
    (hj : j ≠ (s.insert a).2.index) : (s.insert a).1.at? j = s.at? j := by
  rcases insert_cases h a with ⟨he, -⟩ | ⟨i, free, g, -, hi, he⟩
  · rw [he] at hj ⊢
    have hj : j ≠ s.slots.length := hj
    refine at?_congr ?_
    simp only [List.getElem?_append]
    split
    · rfl
    · rw [List.getElem?_eq_none (by simp; omega), List.getElem?_eq_none (by omega)]
  · rw [he] at hj ⊢
    exact at?_congr (by simp [Ne.symm hj])

/-! ### Erasing a value -/

theorem erase_eq {s : Arena α} {k : SlotKey} {a : α} (h : s.get? k = some a) :
    s.erase k = (⟨s.slots.set k.index ⟨k.generation + 1, none⟩, k.index :: s.free, s.size - 1⟩,
      some a) := by
  rw [erase, h]

theorem WellFormed.erase {s : Arena α} (h : s.WellFormed) {k : SlotKey} {a : α}
    (hk : s.get? k = some a) : (s.erase k).1.WellFormed := by
  have hs := at?_eq_some.mp (get?_eq_some.mp hk)
  have hlt : k.index < s.slots.length := (List.getElem?_eq_some_iff.mp hs).1
  have hnot : k.index ∉ s.free := by
    rw [h.mem_free]
    simp [hs]
  rw [erase_eq hk]
  refine ⟨List.nodup_cons.mpr ⟨hnot, h.free_nodup⟩, fun j => ?_⟩
  rw [List.mem_cons, h.mem_free j, List.getElem?_set]
  by_cases hj : k.index = j
  · simp [hj.symm, hlt]
  · simp [hj, Ne.symm hj]

theorem at?_erase_self {s : Arena α} {k : SlotKey} {a : α} (hk : s.get? k = some a) :
    (s.erase k).1.at? k.index = none := by
  have hs := at?_eq_some.mp (get?_eq_some.mp hk)
  have hlt : k.index < s.slots.length := (List.getElem?_eq_some_iff.mp hs).1
  rw [erase_eq hk, at?]
  simp [hlt]

theorem at?_erase_other {s : Arena α} {k : SlotKey} {a : α} (hk : s.get? k = some a) {j : Nat}
    (hj : j ≠ k.index) : (s.erase k).1.at? j = s.at? j := by
  rw [erase_eq hk]
  exact at?_congr (by simp [Ne.symm hj])

end Arena
end EventLoop
