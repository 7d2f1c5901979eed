import EventLoop.Proofs.Roster

/-!
# A roster answers as a list does

Linking, unlinking and visiting slots in any order, a roster answers as a list without repetition
does that keeps the part of it which the pass has still to visit. Its links lead both ways and only
to slots that are linked, so a walk along them goes through the list and ends.
-/
namespace EventLoop

/-- A list of slots and the part of it that a pass has still to visit. -/
structure Itinerary where
  order : List Nat
  rest : List Nat
  deriving DecidableEq

namespace Roster

/-- What is asked of a roster. -/
inductive Request where
  | insert (i : Nat)
  | erase (i : Nat)
  | rewind
  | next
  deriving DecidableEq

/-- What a roster answers. -/
inductive Reply where
  | changed (b : Bool)
  | begun
  | visits (i : Option Nat)
  deriving DecidableEq

/-- Serves one request. -/
def serve (r : Roster) : Request → Roster × Reply
  | .insert i => ((r.insert i).1, .changed (r.insert i).2)
  | .erase i => ((r.erase i).1, .changed (r.erase i).2)
  | .rewind => (r.rewind, .begun)
  | .next => (r.next.1, .visits r.next.2)

/-- Serves requests one after the other. -/
def run (r : Roster) : List Request → Roster × List Reply
  | [] => (r, [])
  | q :: more =>
    let served := (r.serve q).1.run more
    (served.1, (r.serve q).2 :: served.2)

/-- Following the links from a slot leads through the slots of a list and ends there. -/
inductive Walks (r : Roster) : Option Nat → List Nat → Prop
  | done : r.Walks none []
  | step (i : Nat) {l : List Nat} : r.Walks (r.link i).next l → r.Walks (some i) (i :: l)

end Roster

namespace Itinerary

/-- Nothing is listed. -/
def empty : Itinerary := ⟨[], []⟩

/-- What the list answers to a request, and what becomes of it. -/
def serve (p : Itinerary) : Roster.Request → Itinerary × Roster.Reply
  | .insert i =>
    if i ∈ p.order then (p, .changed false) else ({ p with order := i :: p.order }, .changed true)
  | .erase i =>
    if i ∈ p.order then (⟨p.order.erase i, p.rest.erase i⟩, .changed true)
    else (p, .changed false)
  | .rewind => ({ p with rest := p.order }, .begun)
  | .next => ({ p with rest := p.rest.tail }, .visits p.rest.head?)

/-- What the list answers to requests one after the other. -/
def run (p : Itinerary) : List Roster.Request → Itinerary × List Roster.Reply
  | [] => (p, [])
  | q :: more =>
    let served := (p.serve q).1.run more
    (served.1, (p.serve q).2 :: served.2)

end Itinerary

namespace Roster

/-- The answer that visits a slot. -/
def Reply.isVisit : Reply → Bool
  | .visits (some _) => true
  | _ => false

/-- A roster represents the list, and a slot outside it has no neighbours. -/
structure Follows (r : Roster) (p : Itinerary) : Prop where
  represents : r.Represents p.order p.rest
  free : ∀ i, r.contains i = false → r.link i = Link.free

theorem follows_empty : empty.Follows Itinerary.empty := ⟨represents_empty, fun _ _ => rfl⟩

namespace Follows

variable {r : Roster} {p : Itinerary} {i j : Nat}

/-! ### The links of a roster -/

theorem next_eq_some_iff (h : r.Follows p) :
    (r.link i).next = some j ↔ ∃ a b, p.order = a ++ i :: j :: b := by
  constructor
  · intro hn
    cases hc : r.contains i with
    | false =>
      rw [h.free i hc] at hn
      contradiction
    | true =>
      obtain ⟨a, b, hab⟩ := List.append_of_mem ((h.represents.contains_iff i).mp hc)
      rw [(hab ▸ h.represents : r.Represents (a ++ i :: b) p.rest).link_eq] at hn
      obtain ⟨b, rfl⟩ := List.head?_eq_some_iff.mp hn
      exact ⟨a, b, hab⟩
  · rintro ⟨a, b, hab⟩
    rw [(hab ▸ h.represents : r.Represents (a ++ i :: j :: b) p.rest).link_eq]
    rfl

theorem prev_eq_some_iff (h : r.Follows p) :
    (r.link j).prev = some i ↔ ∃ a b, p.order = a ++ i :: j :: b := by
  constructor
  · intro hp
    cases hc : r.contains j with
    | false =>
      rw [h.free j hc] at hp
      contradiction
    | true =>
      obtain ⟨a, b, hab⟩ := List.append_of_mem ((h.represents.contains_iff j).mp hc)
      rw [(hab ▸ h.represents : r.Represents (a ++ j :: b) p.rest).link_eq] at hp
      obtain ⟨a, rfl⟩ := List.getLast?_eq_some_iff.mp hp
      exact ⟨a, b, by rw [hab, List.append_assoc]; rfl⟩
  · rintro ⟨a, b, hab⟩
    have hab' : p.order = (a ++ [i]) ++ j :: b := by rw [hab, List.append_assoc]; rfl
    rw [(hab' ▸ h.represents : r.Represents ((a ++ [i]) ++ j :: b) p.rest).link_eq,
      List.getLast?_concat]

theorem contains_of_mem (h : r.Follows p) (hi : i ∈ p.order) :
    i < r.links.length ∧ r.contains i = true :=
  have hc := (h.represents.contains_iff i).mpr hi
  ⟨lt_of_contains hc, hc⟩

theorem neighbour_mem (h : r.Follows p) (hj : (r.link i).next = some j ∨ (r.link i).prev = some j) :
    j ∈ p.order := by
  rcases hj with hj | hj
  · obtain ⟨a, b, hab⟩ := h.next_eq_some_iff.mp hj
    simp [hab]
  · obtain ⟨a, b, hab⟩ := h.prev_eq_some_iff.mp hj
    simp [hab]

/-! ### One request -/

theorem insert (h : r.Follows p) (i : Nat) :
    (r.serve (.insert i)).1.Follows (p.serve (.insert i)).1 ∧
      (r.serve (.insert i)).2 = (p.serve (.insert i)).2 := by
  by_cases hi : i ∈ p.order
  · rw [Roster.serve, Itinerary.serve, h.represents.insert_of_mem hi, if_pos hi]
    exact ⟨h, rfl⟩
  · have hc : r.contains i = false := by
      simpa using fun hc => hi ((h.represents.contains_iff i).mp hc)
    have hhead : ∀ k, r.head = some k → r.contains k = true := fun k hk => by
      rw [h.represents.head] at hk
      exact (h.represents.contains_iff k).mpr (List.mem_of_head? hk)
    simp only [serve, Itinerary.serve, if_neg hi]
    refine ⟨⟨h.represents.insert hi, fun j hj => ?_⟩, by rw [Roster.insert, if_neg (by simp [hc])]⟩
    -- the slots whose links change are linked, so a slot that is not has its old link
    rw [contains, link_insert hc hhead] at hj
    rw [link_insert hc hhead]
    split at hj
    · contradiction
    · next hji =>
      rw [if_neg hji]
      split at hj
      · next hjh => exact absurd hj (by simpa [contains] using hhead j hjh)
      · next hjh => rw [if_neg hjh, h.free j hj]

theorem erase (h : r.Follows p) (i : Nat) :
    (r.serve (.erase i)).1.Follows (p.serve (.erase i)).1 ∧
      (r.serve (.erase i)).2 = (p.serve (.erase i)).2 := by
  by_cases hi : i ∈ p.order
  · have hc := (h.represents.contains_iff i).mpr hi
    have hmem : ∀ k, (r.link i).next = some k ∨ (r.link i).prev = some k → r.contains k = true :=
      fun k hk => (h.represents.contains_iff k).mpr (h.neighbour_mem hk)
    simp only [serve, Itinerary.serve, if_pos hi]
    refine ⟨⟨h.represents.erase hi, fun j hj => ?_⟩, by rw [Roster.erase, if_pos hc]⟩
    by_cases hji : j = i
    · rw [hji, link_erase_self hc]
    · have hlink := link_erase_other hc hji (fun k hk => hmem k (Or.inr hk))
        (fun k hk => hmem k (Or.inl hk))
      have hfree : r.contains j = false := by rwa [contains, hlink] at hj
      have hnot : ∀ {o}, o = (r.link i).next ∨ o = (r.link i).prev → o ≠ some j := by
        rintro o ho rfl
        rw [hmem j (ho.imp Eq.symm Eq.symm)] at hfree
        contradiction
      rw [hlink, if_neg (hnot (Or.inl rfl)), if_neg (hnot (Or.inr rfl)), h.free j hfree]
  · rw [Roster.serve, Itinerary.serve, h.represents.erase_of_not_mem hi, if_neg hi]
    exact ⟨h, rfl⟩

theorem serve (h : r.Follows p) (q : Request) :
    (r.serve q).1.Follows (p.serve q).1 ∧ (r.serve q).2 = (p.serve q).2 := by
  cases q with
  | insert i => exact h.insert i
  | erase i => exact h.erase i
  | rewind => exact ⟨⟨h.represents.rewind, h.free⟩, rfl⟩
  | next =>
    have hlinks : r.next.1.links = r.links := by
      rw [Roster.next]
      cases r.cursor <;> rfl
    refine ⟨⟨h.represents.next, fun i hi => ?_⟩, congrArg Reply.visits h.represents.next_eq⟩
    rw [Roster.serve, contains, link, hlinks] at hi
    rw [Roster.serve, link, hlinks]
    exact h.free i hi

/-! ### Many requests -/

theorem run (h : r.Follows p) (requests : List Request) :
    (r.run requests).1.Follows (p.run requests).1 ∧
      (r.run requests).2 = (p.run requests).2 := by
  induction requests generalizing r p with
  | nil => exact ⟨h, rfl⟩
  | cons q more ih =>
    obtain ⟨hserved, hreply⟩ := h.serve q
    obtain ⟨hrun, hreplies⟩ := ih hserved
    exact ⟨hrun, congr (congrArg List.cons hreply) hreplies⟩

end Follows

theorem walks_of_chain {r : Roster} {before : Option Nat} {l : List Nat}
    (h : Chain r.link before l none) : r.Walks l.head? l := by
  induction l generalizing before with
  | nil => exact .done
  | cons i l ih =>
    refine .step i ?_
    rw [h.1, Option.or_none]
    exact ih h.2

end Roster

namespace Itinerary

open Roster

theorem visits_serve_le (p : Itinerary) {q : Request} (hq : q ≠ .rewind) :
    (p.serve q).1.rest.length + (p.serve q).2.isVisit.toNat ≤ p.rest.length := by
  cases q with
  | insert i =>
    rw [serve]
    split <;> exact Nat.le_refl _
  | erase i =>
    rw [serve]
    split
    · exact List.length_erase_le
    · exact Nat.le_refl _
  | rewind => exact absurd rfl hq
  | next =>
    obtain ⟨order, rest⟩ := p
    cases rest <;> simp [serve, Reply.isVisit]

/-- A pass that is not started anew makes no more visits than it had still to make. -/
theorem visits_run_le (p : Itinerary) {later : List Request} (hl : Request.rewind ∉ later) :
    (p.run later).2.countP Reply.isVisit ≤ p.rest.length := by
  induction later generalizing p with
  | nil => exact Nat.zero_le _
  | cons q more ih =>
    rw [List.mem_cons, not_or] at hl
    have hstep := p.visits_serve_le (Ne.symm hl.1)
    have hmore := ih (p.serve q).1 hl.2
    rw [run, List.countP_cons]
    cases hv : (p.serve q).2.isVisit <;> simp [hv] at hstep ⊢ <;> omega

end Itinerary

namespace Roster

/-- All that can be seen of a roster that represents a list. -/
structure Shows (r : Roster) (p : Itinerary) : Prop where
  nodup : p.order.Nodup
  suffix : p.rest <:+ p.order
  contains_iff : ∀ i, r.contains i = true ↔ i ∈ p.order
  length : r.length = p.order.length
  isEmpty : r.isEmpty = p.order.isEmpty
  toList : r.toList = p.order
  remaining : r.remaining = p.rest
  /-- A slot is not linked twice. -/
  insert_again : ∀ i ∈ p.order, r.insert i = (r, false)
  /-- A slot that is not linked is not unlinked. -/
  erase_again : ∀ i, i ∉ p.order → r.erase i = (r, false)
  /-- The links lead both ways. -/
  next_iff_prev : ∀ i j, (r.link i).next = some j ↔ (r.link j).prev = some i
  /-- All that is stored leads to slots that are linked. -/
  within : ∀ j, (r.head = some j ∨ r.cursor = some j ∨
      ∃ l ∈ r.links, l.next = some j ∨ l.prev = some j) →
    j < r.links.length ∧ r.contains j = true
  walks : r.Walks r.head p.order
  /-- What is left of a pass ends, whatever is linked and unlinked meanwhile. -/
  pass : r.Walks r.cursor p.rest ∧ ∀ later, .rewind ∉ later →
    (r.run later).2.countP Reply.isVisit ≤ p.rest.length

theorem Follows.shows {r : Roster} {p : Itinerary} (h : r.Follows p) : r.Shows p where
  nodup := h.represents.nodup
  suffix := h.represents.suffix
  contains_iff := h.represents.contains_iff
  length := h.represents.length
  isEmpty := by
    rw [Roster.isEmpty, h.represents.length]
    cases p.order <;> rfl
  toList := h.represents.toList_eq
  remaining := h.represents.remaining_eq
  insert_again := fun _ hi => h.represents.insert_of_mem hi
  erase_again := fun _ hi => h.represents.erase_of_not_mem hi
  next_iff_prev := fun _ _ => h.next_eq_some_iff.trans h.prev_eq_some_iff.symm
  within := by
    rintro j (hj | hj | ⟨l, hl, hj⟩)
    · rw [h.represents.head] at hj
      exact h.contains_of_mem (List.mem_of_head? hj)
    · rw [h.represents.cursor] at hj
      exact h.contains_of_mem (h.represents.suffix.mem (List.mem_of_head? hj))
    · obtain ⟨i, hi, rfl⟩ := List.mem_iff_getElem.mp hl
      have hlink : r.link i = r.links[i] := by
        rw [link, List.getElem?_eq_getElem hi, Option.getD_some]
      exact h.contains_of_mem (h.neighbour_mem (hlink ▸ hj))
  walks := by
    rw [h.represents.head]
    exact walks_of_chain h.represents.chain
  pass := by
    obtain ⟨visited, hv⟩ := h.represents.suffix
    have hchain := h.represents.chain
    rw [← hv, Chain.append_iff] at hchain
    refine ⟨?_, fun later hl => ?_⟩
    · rw [h.represents.cursor]
      exact walks_of_chain hchain.2
    · rw [(h.run later).2]
      exact p.visits_run_le hl

/-- Whatever is asked of a roster, it answers as the list does, and shows the list that comes of
it. -/
theorem answers_as_itinerary (requests : List Request) :
    (empty.run requests).2 = (Itinerary.empty.run requests).2 ∧
      (empty.run requests).1.Shows (Itinerary.empty.run requests).1 :=
  have hrun := follows_empty.run requests
  ⟨hrun.2, hrun.1.shows⟩

/-- The slot being visited, its successor and a slot that is linked again in front. -/
example : (empty.run [.insert 0, .insert 1, .insert 2, .rewind, .next, .erase 2, .erase 1,
    .insert 1, .next, .next]).2.drop 4 = [.visits (some 2), .changed true, .changed true,
      .changed true, .visits (some 0), .visits none] := by decide

end Roster
end EventLoop
