/-!
The watchers that take part in dispatch, as a doubly linked list over slot numbers.

A new watcher is linked at the head. A pass walks the list with a cursor that always stands at the
watcher to be visited next, and unlinking that watcher moves the cursor on. So any watcher may be
linked or unlinked during a pass, the one being visited included, and the walk goes on from the
right place.
-/
namespace EventLoop

/-- The place of one slot in the list. -/
structure Link where
  prev : Option Nat
  next : Option Nat
  linked : Bool
  deriving DecidableEq

/-- The place of a slot outside the list. -/
def Link.free : Link := ⟨none, none, false⟩

/-- The list of linked slots, with the cursor of the pass over it. -/
structure Roster where
  /-- One link for each slot number up to the largest that was ever in the list. -/
  links : List Link
  head : Option Nat
  /-- The watcher that the current pass visits next. -/
  cursor : Option Nat
  length : Nat
  deriving DecidableEq

namespace Roster

/-- Nothing is linked. -/
def empty : Roster := ⟨[], none, none, 0⟩

instance : Inhabited Roster := ⟨empty⟩

/-- The link of a slot. -/
def link (r : Roster) (i : Nat) : Link := r.links[i]?.getD Link.free

/-- Whether a slot is linked. -/
def contains (r : Roster) (i : Nat) : Bool := (r.link i).linked

/-- No slot is linked. -/
def isEmpty (r : Roster) : Bool := r.length == 0

/-- Changes the link of a slot, if there is one to change. -/
def modifyLink (links : List Link) (i : Option Nat) (f : Link → Link) : List Link :=
  match i with
  | none => links
  | some i => links.modify i f

/-- Makes room for the link of slot `i`. -/
def reserve (links : List Link) (i : Nat) : List Link :=
  links ++ List.replicate (i + 1 - links.length) Link.free

/-- Links a slot at the head, unless it is linked already. Answers whether it was not. -/
def insert (r : Roster) (i : Nat) : Roster × Bool :=
  if r.contains i then (r, false)
  else
    let links := (reserve r.links i).set i ⟨none, r.head, true⟩
    ({ r with
        links := modifyLink links r.head fun l => { l with prev := some i }
        head := some i
        length := r.length + 1 }, true)

/-- Unlinks a slot, moving the cursor on if it stands there; nothing happens if it is not linked.
Answers whether it was. -/
def erase (r : Roster) (i : Nat) : Roster × Bool :=
  if r.contains i then
    let old := r.link i
    let links := modifyLink r.links old.prev fun l => { l with next := old.next }
    let links := modifyLink links old.next fun l => { l with prev := old.prev }
    ({ links := links.set i Link.free
       head := if old.prev.isNone then old.next else r.head
       cursor := if r.cursor = some i then old.next else r.cursor
       length := r.length - 1 }, true)
  else (r, false)

/-- Starts a pass at the head of the list. -/
def rewind (r : Roster) : Roster := { r with cursor := r.head }

/-- Takes the next watcher of the pass and moves the cursor past it. -/
def next (r : Roster) : Roster × Option Nat :=
  match r.cursor with
  | none => (r, none)
  | some i => ({ r with cursor := (r.link i).next }, some i)

/-- The slots met from `i` on, at most `fuel` of them. -/
def walk (r : Roster) : Nat → Option Nat → List Nat
  | 0, _ => []
  | _, none => []
  | fuel + 1, some i => i :: r.walk fuel (r.link i).next

/-- The linked slots in the order in which a pass visits them. -/
def toList (r : Roster) : List Nat := r.walk r.length r.head

/-- The slots that the current pass has still to visit. -/
def remaining (r : Roster) : List Nat := r.walk r.length r.cursor

end Roster
end EventLoop
