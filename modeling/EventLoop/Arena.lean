/-!
Slots addressed by keys that go stale.

An arena stores values in numbered slots. Storing a value hands out a key, the slot's number
together with its generation. Erasing the value moves the slot to its next generation, so the old
key no longer finds anything, even after the slot is used again. Generations are 32-bit words and
wrap.
-/
namespace EventLoop

/-- A generation of a slot. -/
abbrev Generation := BitVec 32

/-- What an arena hands out for a stored value. -/
structure SlotKey where
  index : Nat
  generation : Generation
  deriving DecidableEq

/-- One place for a value. -/
structure Slot (α : Type) where
  generation : Generation
  value : Option α
  deriving DecidableEq

/-- Slots in order of their numbers, with the vacant ones stacked for reuse. -/
structure Arena (α : Type) where
  slots : List (Slot α)
  /-- Numbers of the vacant slots, the most recently vacated first. -/
  free : List Nat
  /-- Number of stored values. -/
  size : Nat
  deriving DecidableEq

namespace Arena

variable {α : Type}

/-- An arena without slots. -/
def empty : Arena α := ⟨[], [], 0⟩

instance : Inhabited (Arena α) := ⟨empty⟩

/-- Stores a value in the most recently vacated slot, or in a new slot if none is vacant. -/
def insert (s : Arena α) (a : α) : Arena α × SlotKey :=
  match s.free with
  | [] =>
    ({ s with slots := s.slots ++ [⟨0, some a⟩], size := s.size + 1 }, ⟨s.slots.length, 0⟩)
  | i :: free =>
    match s.slots[i]? with
    | none => (s, ⟨i, 0⟩)
    | some slot =>
      ({ slots := s.slots.set i { slot with value := some a }, free, size := s.size + 1 },
        ⟨i, slot.generation⟩)

/-- The value in a slot whatever its generation, with that generation. -/
def at? (s : Arena α) (i : Nat) : Option (Generation × α) :=
  match s.slots[i]? with
  | some ⟨generation, some a⟩ => some (generation, a)
  | _ => none

/-- The value that a key finds. -/
def get? (s : Arena α) (k : SlotKey) : Option α :=
  match s.at? k.index with
  | some (generation, a) => if generation = k.generation then some a else none
  | none => none

/-- Replaces the value in an occupied slot, keeping its generation. -/
def put (s : Arena α) (i : Nat) (a : α) : Arena α :=
  match s.at? i with
  | some (generation, _) => { s with slots := s.slots.set i ⟨generation, some a⟩ }
  | none => s

/-- Replaces the value that a key finds. A stale key changes nothing. -/
def set (s : Arena α) (k : SlotKey) (a : α) : Arena α :=
  match s.get? k with
  | some _ => s.put k.index a
  | none => s

/-- Erases the value that a key finds, which makes the key stale and vacates the slot. -/
def erase (s : Arena α) (k : SlotKey) : Arena α × Option α :=
  match s.get? k with
  | none => (s, none)
  | some a =>
    ({ slots := s.slots.set k.index ⟨k.generation + 1, none⟩
       free := k.index :: s.free
       size := s.size - 1 }, some a)

/-- The stored values in the order of their slots. -/
def values (s : Arena α) : List α := s.slots.filterMap Slot.value

/-- Changes every stored value. -/
def mapValues (s : Arena α) (f : α → α) : Arena α :=
  { s with slots := s.slots.map fun slot => { slot with value := slot.value.map f } }

end Arena
end EventLoop
