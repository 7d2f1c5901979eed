import EventLoop.Roster

/-!
# The roster as a list with a part still to visit

A well-formed roster represents the list of its linked slots, without repetition, and a suffix of
it that the current pass has still to visit. Linking puts a slot in front of the list and leaves the
suffix alone; unlinking takes it out of both.
-/
namespace EventLoop

/-- Following `f` from the front, the slots of `l` are linked in turn, between `before` and
`after`. -/
def Chain (f : Nat → Link) : Option Nat → List Nat → Option Nat → Prop
  | _, [], _ => True
  | before, i :: l, after => f i = ⟨before, l.head?.or after, true⟩ ∧ Chain f (some i) l after

namespace Chain

variable {f g : Nat → Link} {before after : Option Nat}

theorem congr {l : List Nat} (h : Chain f before l after) (hg : ∀ i ∈ l, g i = f i) :
    Chain g before l after := by
  induction l generalizing before with
  | nil => trivial
  | cons i l ih =>
    exact ⟨(hg i List.mem_cons_self).trans h.1,
      ih h.2 fun j hj => hg j (List.mem_cons_of_mem i hj)⟩

theorem append_iff {a b : List Nat} :
    Chain f before (a ++ b) after ↔
      Chain f before a (b.head?.or after) ∧ Chain f (a.getLast?.or before) b after := by
  induction a generalizing before with
  | nil => simp [Chain]
  | cons i a ih =>
    have hhead : (a ++ b).head?.or after = a.head?.or (b.head?.or after) := by
      cases a <;> simp
    have hlast : (i :: a).getLast?.or before = a.getLast?.or (some i) := by
      cases a with
      | nil => rfl
      | cons j a => simp [List.getLast?_cons]
    simp only [List.cons_append, Chain, hhead, hlast, ih, and_assoc]

theorem linked {l : List Nat} (h : Chain f before l after) {i : Nat} (hi : i ∈ l) :
    (f i).linked = true := by
  induction l generalizing before with
  | nil => contradiction
  | cons j l ih =>
    rcases List.mem_cons.mp hi with rfl | hi
    · rw [h.1]
    · exact ih h.2 hi

/-- The first slot of a chain may be given another predecessor. -/
theorem change_before {l : List Nat} (h : Chain f before l after) (hd : l.Nodup)
    {before' : Option Nat}
    (hg : ∀ i ∈ l, g i =
      if l.head? = some i then ⟨before', (f i).next, (f i).linked⟩ else f i) :
    Chain g before' l after := by
  cases l with
  | nil => trivial
  | cons i l =>
    have hd := List.nodup_cons.mp hd
    refine ⟨?_, h.2.congr fun j hj => ?_⟩
    · rw [hg i List.mem_cons_self, List.head?_cons, if_pos rfl, h.1]
    · have hij : i ≠ j := fun he => hd.1 (he ▸ hj)
      rw [hg j (List.mem_cons_of_mem i hj), if_neg (by simpa using hij)]

/-- The last slot of a chain may be given another successor. -/
theorem change_after {l : List Nat} (h : Chain f before l after) (hd : l.Nodup)
    {after' : Option Nat}
    (hg : ∀ i ∈ l, g i =
      if l.getLast? = some i then ⟨(f i).prev, after', (f i).linked⟩ else f i) :
    Chain g before l after' := by
  induction l generalizing before with
  | nil => trivial
  | cons i l ih =>
    have hd := List.nodup_cons.mp hd
    cases l with
    | nil =>
      refine ⟨?_, trivial⟩
      rw [hg i List.mem_cons_self, List.getLast?_singleton, if_pos rfl, h.1]
      rfl
    | cons j l =>
      have hlast : (i :: j :: l).getLast? = (j :: l).getLast? := by simp
      refine ⟨?_, ih h.2 hd.2 fun k hk => ?_⟩
      · have hne : (i :: j :: l).getLast? ≠ some i := by
          rw [hlast]
          exact fun he => hd.1 (List.mem_of_getLast? he)
        rw [hg i List.mem_cons_self, if_neg hne, h.1]
        rfl
      · rw [hg k (List.mem_cons_of_mem i hk), hlast]

end Chain

namespace Roster

/-- The roster links the slots of `order`, and `rest` are those that the pass has still to visit. -/
structure Represents (r : Roster) (order rest : List Nat) : Prop where
  nodup : order.Nodup
  suffix : rest <:+ order
  head : r.head = order.head?
  cursor : r.cursor = rest.head?
  length : r.length = order.length
  chain : Chain r.link none order none
  mem_of_linked : ∀ i, r.contains i = true → i ∈ order

theorem represents_empty : empty.Represents [] [] := by
  refine ⟨List.nodup_nil, List.suffix_refl _, rfl, rfl, rfl, trivial, fun i hi => ?_⟩
  simp [contains, link, empty, Link.free] at hi

namespace Represents

variable {r : Roster} {order rest : List Nat}

theorem contains_iff (h : r.Represents order rest) (i : Nat) : r.contains i = true ↔ i ∈ order :=
  ⟨h.mem_of_linked i, h.chain.linked⟩

theorem walk_eq {before : Option Nat} {l : List Nat} (h : Chain r.link before l none) {fuel : Nat}
    (hf : l.length ≤ fuel) : r.walk fuel l.head? = l := by
  induction l generalizing before fuel with
  | nil => cases fuel <;> rfl
  | cons i l ih =>
    cases fuel with
    | zero => simp at hf
    | succ fuel =>
      have hnext : (r.link i).next = l.head? := by rw [h.1, Option.or_none]
      rw [List.head?_cons, walk, hnext, ih h.2 (by simpa using hf)]

/-- A linked slot stands between its neighbours in the list. -/
theorem link_eq {a b : List Nat} {i : Nat} (h : r.Represents (a ++ i :: b) rest) :
    r.link i = ⟨a.getLast?, b.head?, true⟩ := by
  have hchain := (Chain.append_iff.mp h.chain).2.1
  rwa [Option.or_none, Option.or_none] at hchain

theorem toList_eq (h : r.Represents order rest) : r.toList = order := by
  rw [toList, h.head]
  exact walk_eq h.chain (Nat.le_of_eq h.length.symm)

theorem remaining_eq (h : r.Represents order rest) : r.remaining = rest := by
  obtain ⟨visited, hv⟩ := h.suffix
  have hc := h.chain
  rw [← hv, Chain.append_iff] at hc
  rw [remaining, h.cursor]
  exact walk_eq hc.2 (by rw [h.length]; exact h.suffix.length_le)

end Represents

/-! ### The links after an operation -/

theorem getD_modifyLink {links : List Link} {o : Option Nat} {f : Link → Link} {j : Nat}
    (h : ∀ i, o = some i → i < links.length) :
    (modifyLink links o f)[j]?.getD Link.free =
      if o = some j then f (links[j]?.getD Link.free) else links[j]?.getD Link.free := by
  cases o with
  | none => simp [modifyLink]
  | some i =>
    have hi := h i rfl
    rw [modifyLink, List.getElem?_modify]
    by_cases hij : i = j
    · subst hij
      simp [hi]
    · simp [hij]

theorem getD_reserve (links : List Link) (i j : Nat) :
    (reserve links i)[j]?.getD Link.free = links[j]?.getD Link.free := by
  rw [reserve, List.getElem?_append]
  split
  · rfl
  · rw [List.getElem?_eq_none (l := links) (by omega), List.getElem?_replicate]
    split <;> rfl

theorem lt_of_contains {r : Roster} {i : Nat} (h : r.contains i = true) : i < r.links.length := by
  apply Nat.lt_of_not_le
  intro hge
  rw [contains, link, List.getElem?_eq_none hge] at h
  contradiction

theorem link_insert {r : Roster} {i : Nat} (hi : r.contains i = false)
    (hh : ∀ k, r.head = some k → r.contains k = true) (j : Nat) :
    (r.insert i).1.link j =
      if j = i then ⟨none, r.head, true⟩
      else if r.head = some j then { r.link j with prev := some i } else r.link j := by
  have hlen : ∀ k, k < r.links.length →
      k < ((reserve r.links i).set i ⟨none, r.head, true⟩).length := by
    intro k hk
    simp only [List.length_set, reserve, List.length_append]
    omega
  have hself : i < (reserve r.links i).length := by
    simp only [reserve, List.length_append, List.length_replicate]
    omega
  have hset : ((reserve r.links i).set i ⟨none, r.head, true⟩)[j]?.getD Link.free =
      if j = i then ⟨none, r.head, true⟩ else r.link j := by
    rw [List.getElem?_set]
    by_cases hj : i = j
    · subst hj
      simp [hself]
    · rw [if_neg hj, if_neg (Ne.symm hj), getD_reserve, link]
  rw [insert, if_neg (by simp [hi]), link]
  rw [getD_modifyLink fun k hk => hlen k (lt_of_contains (hh k hk)), hset]
  by_cases hj : j = i
  · subst hj
    have hne : r.head ≠ some j := by
      intro he
      rw [hh j he] at hi
      contradiction
    simp [hne]
  · simp [hj]

theorem length_modifyLink (links : List Link) (o : Option Nat) (f : Link → Link) :
    (modifyLink links o f).length = links.length := by
  cases o <;> simp [modifyLink]

theorem link_erase_self {r : Roster} {i : Nat} (hi : r.contains i = true) :
    (r.erase i).1.link i = Link.free := by
  rw [erase, if_pos hi, link]
  dsimp only
  rw [List.getElem?_set, if_pos rfl]
  split <;> rfl

theorem link_erase_other {r : Roster} {i j : Nat} (hi : r.contains i = true) (hj : j ≠ i)
    (hp : ∀ k, (r.link i).prev = some k → r.contains k = true)
    (hn : ∀ k, (r.link i).next = some k → r.contains k = true) :
    (r.erase i).1.link j =
      ⟨if (r.link i).next = some j then (r.link i).prev else (r.link j).prev,
        if (r.link i).prev = some j then (r.link i).next else (r.link j).next,
        (r.link j).linked⟩ := by
  rw [erase, if_pos hi, link]
  dsimp only
  rw [List.getElem?_set, if_neg (Ne.symm hj)]
  rw [getD_modifyLink fun k hk => by rw [length_modifyLink]; exact lt_of_contains (hn k hk)]
  rw [getD_modifyLink fun k hk => lt_of_contains (hp k hk)]
  rw [show r.links[j]?.getD Link.free = r.link j from rfl]
  split <;> split <;> rfl

/-! ### What the operations do to the represented list -/

namespace Represents

variable {r : Roster} {order rest : List Nat} {i : Nat}

theorem insert_of_mem (h : r.Represents order rest) (hi : i ∈ order) : r.insert i = (r, false) := by
  rw [insert, if_pos ((h.contains_iff i).mpr hi)]

theorem erase_of_not_mem (h : r.Represents order rest) (hi : i ∉ order) :
    r.erase i = (r, false) := by
  rw [erase, if_neg fun hc => hi ((h.contains_iff i).mp hc)]

theorem insert (h : r.Represents order rest) (hi : i ∉ order) :
    (r.insert i).1.Represents (i :: order) rest := by
  have hc : r.contains i = false := by
    simpa using fun hc => hi ((h.contains_iff i).mp hc)
  have hlink := link_insert hc fun k hk => by
    rw [h.head] at hk
    exact (h.contains_iff k).mpr (List.mem_of_head? hk)
  have hne : ∀ j ∈ order, j ≠ i := fun j hj he => hi (he ▸ hj)
  have hfields : (r.insert i).1.head = some i ∧ (r.insert i).1.cursor = r.cursor ∧
      (r.insert i).1.length = r.length + 1 := by
    rw [Roster.insert, if_neg (by simp [hc])]
    exact ⟨rfl, rfl, rfl⟩
  refine ⟨List.nodup_cons.mpr ⟨hi, h.nodup⟩, h.suffix.trans (List.suffix_cons i order), hfields.1,
    hfields.2.1.trans h.cursor, by rw [hfields.2.2, h.length]; rfl, ⟨?_, ?_⟩, fun j hj => ?_⟩
  · rw [hlink, if_pos rfl, h.head, Option.or_none]
  · refine h.chain.change_before h.nodup fun j hj => ?_
    rw [hlink, if_neg (hne j hj), h.head]
  · rw [contains, hlink] at hj
    by_cases hji : j = i
    · exact hji ▸ List.mem_cons_self
    · rw [if_neg hji] at hj
      refine List.mem_cons_of_mem i (h.mem_of_linked j ?_)
      split at hj <;> exact hj

/-- A suffix of a list loses an element with the list, and its new head is found without it. -/
theorem suffix_erase {a b rest : List Nat} (hd : (a ++ i :: b).Nodup) (hs : rest <:+ a ++ i :: b) :
    rest.erase i <:+ a ++ b ∧
      (rest.erase i).head? = if rest.head? = some i then b.head? else rest.head? := by
  obtain ⟨-, hib, hdis⟩ := List.nodup_append.mp hd
  have hia : i ∉ a := fun hm => hdis i hm i List.mem_cons_self rfl
  obtain ⟨visited, hv⟩ := hs
  have hcases : (∃ c, a = visited ++ c ∧ rest = c ++ i :: b) ∨ ∃ c, b = c ++ rest := by
    rcases List.append_eq_append_iff.mp hv with ⟨c, ha, hr⟩ | ⟨c, hv', hr⟩
    · exact Or.inl ⟨c, ha, hr⟩
    · cases c with
      | nil => exact Or.inl ⟨[], by simpa using hv'.symm, by simpa using hr.symm⟩
      | cons j c =>
        rw [List.cons_append, List.cons.injEq] at hr
        exact Or.inr ⟨c, hr.2⟩
  rcases hcases with ⟨c, rfl, rfl⟩ | ⟨c, rfl⟩
  · have hic : i ∉ c := fun hm => hia (List.mem_append_right visited hm)
    rw [List.erase_append_right _ hic, List.erase_cons_head]
    refine ⟨⟨visited, by simp⟩, ?_⟩
    cases c with
    | nil => simp
    | cons j c =>
      have hji : j ≠ i := fun he => hic (he ▸ List.mem_cons_self)
      simp [hji]
  · have hir : i ∉ rest := fun hm => (List.nodup_cons.mp hib).1 (List.mem_append_right c hm)
    rw [List.erase_of_not_mem hir, if_neg fun he => hir (List.mem_of_head? he)]
    exact ⟨⟨a ++ c, by simp⟩, rfl⟩

/-- The neighbours of a slot that leaves a chain are linked to each other. -/
theorem chain_erase {f g : Nat → Link} {a b : List Nat} (hd : (a ++ i :: b).Nodup)
    (h : Chain f none (a ++ i :: b) none)
    (hg : ∀ j, j ≠ i → g j = ⟨if b.head? = some j then a.getLast? else (f j).prev,
      if a.getLast? = some j then b.head? else (f j).next, (f j).linked⟩) :
    Chain g none (a ++ b) none := by
  obtain ⟨hna, hnib, hdis⟩ := List.nodup_append.mp hd
  obtain ⟨hib, hnb⟩ := List.nodup_cons.mp hnib
  have hia : ∀ j ∈ a, j ≠ i := fun j hj => hdis j hj i List.mem_cons_self
  rw [Chain.append_iff] at h
  rw [Chain.append_iff, Option.or_none, Option.or_none]
  constructor
  · refine h.1.change_after hna fun j hj => ?_
    have hb : b.head? ≠ some j := fun he =>
      hdis j hj j (List.mem_cons_of_mem i (List.mem_of_head? he)) rfl
    rw [hg j (hia j hj), if_neg hb]
    split <;> rfl
  · refine h.2.2.change_before hnb fun j hj => ?_
    have ha : a.getLast? ≠ some j := fun he =>
      hdis j (List.mem_of_getLast? he) j (List.mem_cons_of_mem i hj) rfl
    rw [hg j fun he => hib (he ▸ hj), if_neg ha]
    split <;> rfl

theorem erase (h : r.Represents order rest) (hi : i ∈ order) :
    (r.erase i).1.Represents (order.erase i) (rest.erase i) := by
  have hc : r.contains i = true := (h.contains_iff i).mpr hi
  obtain ⟨a, b, rfl⟩ := List.append_of_mem hi
  have hia : i ∉ a := fun hm => (List.nodup_append.mp h.nodup).2.2 i hm i List.mem_cons_self rfl
  have herase : (a ++ i :: b).erase i = a ++ b := by
    rw [List.erase_append_right _ hia, List.erase_cons_head]
  have hself : r.link i = ⟨a.getLast?, b.head?, true⟩ := h.link_eq
  have hother : ∀ j, j ≠ i → (r.erase i).1.link j =
      ⟨if b.head? = some j then a.getLast? else (r.link j).prev,
        if a.getLast? = some j then b.head? else (r.link j).next, (r.link j).linked⟩ := by
    intro j hj
    have hlink := link_erase_other hc hj
    rw [hself] at hlink
    refine hlink (fun k hk => ?_) fun k hk => ?_
    · exact (h.contains_iff k).mpr (List.mem_append_left _ (List.mem_of_getLast? hk))
    · exact (h.contains_iff k).mpr
        (List.mem_append_right _ (List.mem_cons_of_mem i (List.mem_of_head? hk)))
  have hfields : (r.erase i).1.head = (if a.getLast?.isNone then b.head? else r.head) ∧
      (r.erase i).1.cursor = (if r.cursor = some i then b.head? else r.cursor) ∧
      (r.erase i).1.length = r.length - 1 := by
    rw [Roster.erase, if_pos hc, hself]
    exact ⟨rfl, rfl, rfl⟩
  have hrest := suffix_erase h.nodup h.suffix
  rw [herase]
  refine ⟨herase ▸ h.nodup.erase i, hrest.1, ?_, ?_, ?_, chain_erase h.nodup h.chain hother,
    fun j hj => ?_⟩
  · rw [hfields.1, h.head]
    cases a <;> simp
  · rw [hfields.2.1, h.cursor, hrest.2]
  · rw [hfields.2.2, h.length]
    simp only [List.length_append, List.length_cons]
    omega
  · by_cases hji : j = i
    · subst hji
      rw [contains, link_erase_self hc] at hj
      contradiction
    · rw [contains, hother j hji] at hj
      rw [← herase]
      exact (List.mem_erase_of_ne hji).mpr (h.mem_of_linked j hj)

theorem rewind (h : r.Represents order rest) : r.rewind.Represents order order :=
  ⟨h.nodup, List.suffix_refl _, h.head, h.head, h.length, h.chain, h.mem_of_linked⟩

theorem next_eq (h : r.Represents order rest) : r.next.2 = rest.head? := by
  rw [next, ← h.cursor]
  cases r.cursor <;> rfl

theorem next (h : r.Represents order rest) : r.next.1.Represents order rest.tail := by
  cases rest with
  | nil =>
    have hc : r.cursor = none := h.cursor
    rw [Roster.next, hc]
    exact h
  | cons i rest =>
    have hc : r.cursor = some i := h.cursor
    obtain ⟨visited, hv⟩ := h.suffix
    have hchain := h.chain
    rw [← hv, Chain.append_iff] at hchain
    have hlink : (r.link i).next = rest.head? := by
      rw [hchain.2.1, Option.or_none, Option.or_none]
    rw [Roster.next, hc]
    exact ⟨h.nodup, (List.suffix_cons i rest).trans h.suffix, h.head, hlink, h.length, h.chain,
      h.mem_of_linked⟩

end Represents

/-! ### The list that a roster represents -/

/-- The links of the roster are those of the list that walking it gives. -/
def WellFormed (r : Roster) : Prop := r.Represents r.toList r.remaining

theorem Represents.wellFormed {r : Roster} {order rest : List Nat} (h : r.Represents order rest) :
    r.WellFormed := by
  rw [WellFormed, h.toList_eq, h.remaining_eq]
  exact h

theorem wellFormed_empty : empty.WellFormed := represents_empty.wellFormed

namespace WellFormed

variable {r : Roster}

theorem contains_iff (h : r.WellFormed) (i : Nat) : r.contains i = true ↔ i ∈ r.toList :=
  Represents.contains_iff h i

theorem mem_toList_of_remaining (h : r.WellFormed) {i : Nat} (hi : i ∈ r.remaining) :
    i ∈ r.toList :=
  h.suffix.mem hi

theorem isEmpty_of_mem (h : r.WellFormed) {i : Nat} (hi : i ∈ r.toList) : r.isEmpty = false := by
  rw [isEmpty, h.length, beq_eq_false_iff_ne]
  exact Nat.ne_of_gt (List.length_pos_of_mem hi)

theorem insert (h : r.WellFormed) (i : Nat) :
    (r.insert i).1.WellFormed ∧ (r.insert i).1.remaining = r.remaining ∧
      (r.insert i).1.toList = if i ∈ r.toList then r.toList else i :: r.toList := by
  by_cases hi : i ∈ r.toList
  · rw [Represents.insert_of_mem h hi, if_pos hi]
    exact ⟨h, rfl, rfl⟩
  · have hr := Represents.insert h hi
    rw [if_neg hi]
    exact ⟨hr.wellFormed, hr.remaining_eq, hr.toList_eq⟩

theorem insert_insert (h : r.WellFormed) (i : Nat) :
    ((r.insert i).1.insert i).1 = (r.insert i).1 := by
  have hi := h.insert i
  have hmem : i ∈ (r.insert i).1.toList := by
    rw [hi.2.2]
    split
    · assumption
    · exact List.mem_cons_self
  rw [Represents.insert_of_mem hi.1 hmem]

theorem erase (h : r.WellFormed) (i : Nat) :
    (r.erase i).1.WellFormed ∧ (r.erase i).1.remaining = r.remaining.erase i ∧
      (r.erase i).1.toList = r.toList.erase i := by
  by_cases hi : i ∈ r.toList
  · have hr := Represents.erase h hi
    exact ⟨hr.wellFormed, hr.remaining_eq, hr.toList_eq⟩
  · rw [Represents.erase_of_not_mem h hi, List.erase_of_not_mem hi,
      List.erase_of_not_mem fun hm => hi (h.mem_toList_of_remaining hm)]
    exact ⟨h, rfl, rfl⟩

theorem rewind (h : r.WellFormed) :
    r.rewind.WellFormed ∧ r.rewind.remaining = r.toList ∧ r.rewind.toList = r.toList :=
  have hr := Represents.rewind h
  ⟨hr.wellFormed, hr.remaining_eq, hr.toList_eq⟩

theorem next (h : r.WellFormed) :
    r.next.1.WellFormed ∧ r.next.1.remaining = r.remaining.tail ∧ r.next.1.toList = r.toList :=
  have hr := Represents.next h
  ⟨hr.wellFormed, hr.remaining_eq, hr.toList_eq⟩

theorem next_eq (h : r.WellFormed) : r.next.2 = r.remaining.head? := Represents.next_eq h

theorem nodup_remaining (h : r.WellFormed) : r.remaining.Nodup :=
  h.suffix.sublist.nodup h.nodup

end WellFormed

end Roster
end EventLoop
