/-!
Sets of flags packed into a 32-bit word.

Each kind of flag numbers its flags by bit. A mask may carry bits that no flag of its kind names:
they are kept by union and difference, and dropped by `Mask.known`.
-/
namespace EventLoop

/-- A finite kind of flag, each flag standing at its own bit of a word. -/
class Flag (F : Type) where
  bit : F → Nat
  all : List F

/-- A word read as a set of flags of kind `F`. -/
structure Mask (F : Type) where
  word : BitVec 32
  deriving DecidableEq

namespace Mask

variable {F : Type}

/-- The mask whose word is `n`, reduced to 32 bits. -/
def ofNat (n : Nat) : Mask F := ⟨BitVec.ofNat 32 n⟩

/-- The mask whose word is the low 32 bits of `n` in two's complement. -/
def ofInt (n : Int) : Mask F := ⟨BitVec.ofInt 32 n⟩

/-- The word as a number. -/
def toNat (m : Mask F) : Nat := m.word.toNat

instance : EmptyCollection (Mask F) := ⟨⟨0⟩⟩
instance : Union (Mask F) := ⟨fun a b => ⟨a.word ||| b.word⟩⟩
instance : Inter (Mask F) := ⟨fun a b => ⟨a.word &&& b.word⟩⟩
instance : SDiff (Mask F) := ⟨fun a b => ⟨a.word &&& ~~~b.word⟩⟩
instance : Inhabited (Mask F) := ⟨∅⟩

/-- No bit is set, named or not. -/
def isEmpty (m : Mask F) : Bool := m.word == 0

/-- Every bit of `m` is a bit of `n`. -/
def subset (m n : Mask F) : Bool := (m \ n).isEmpty

variable [Flag F]

/-- Whether flag `f` is in the mask. -/
def has (m : Mask F) (f : F) : Bool := m.word.getLsbD (Flag.bit f)

/-- The mask of one flag. -/
def only (f : F) : Mask F := ⟨BitVec.twoPow 32 (Flag.bit f)⟩

/-- The flag `f` if `b`, and nothing otherwise. -/
def onlyIf (b : Bool) (f : F) : Mask F := if b then only f else ∅

/-- The mask of every flag of the kind. -/
def full (F : Type) [Flag F] : Mask F := (Flag.all : List F).foldl (fun m f => m ∪ only f) ∅

/-- The mask without the bits that no flag names. -/
def known (m : Mask F) : Mask F := m ∩ full F

end Mask
end EventLoop
