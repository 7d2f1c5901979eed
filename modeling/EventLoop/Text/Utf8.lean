/-!
Reading text from bytes that need not be well-formed UTF-8.

Each longest piece that cannot be continued to a character, and each byte that can begin none,
becomes one replacement character.
-/
namespace EventLoop.Utf8

/-- The character that stands for bytes that are no text. -/
def replacement : Char := '\uFFFD'

/-- How many bytes a character takes that begins with this byte; none if no character does. -/
def sequenceLength (b : UInt8) : Option Nat :=
  if b < 0x80 then some 1
  else if 0xC2 ≤ b && b ≤ 0xDF then some 2
  else if 0xE0 ≤ b && b ≤ 0xEF then some 3
  else if 0xF0 ≤ b && b ≤ 0xF4 then some 4
  else none

/-- Whether `b` continues a character. -/
def isContinuation (b : UInt8) : Bool := 0x80 ≤ b && b ≤ 0xBF

/-- Whether `b` may follow the first byte `a`. Overlong forms, surrogates and numbers beyond the
last character are excluded here. -/
def isSecond (a b : UInt8) : Bool :=
  isContinuation b &&
    (if a = 0xE0 then 0xA0 ≤ b
      else if a = 0xED then b ≤ 0x9F
      else if a = 0xF0 then 0x90 ≤ b
      else if a = 0xF4 then b ≤ 0x8F
      else true)

/-- Six bits that a continuation byte carries. -/
def payload (b : UInt8) : Nat := b.toNat % 64

/-- How many of the bytes after `a` continue the character that `a` begins, of the `count` that it
needs. -/
def continued (a : UInt8) (count : Nat) : List UInt8 → Nat
  | [] => 0
  | b :: rest =>
    if count = 0 || !isSecond a b then 0
    else 1 + ((rest.take (count - 1)).takeWhile isContinuation).length

/-- The character that the bytes `a :: rest` start with, and how many bytes of `rest` it takes. -/
def first (a : UInt8) (rest : List UInt8) : Char × Nat :=
  match sequenceLength a with
  | none => (replacement, 0)
  | some 1 => (Char.ofNat a.toNat, 0)
  | some n =>
    let more := continued a (n - 1) rest
    if more + 1 < n then (replacement, more)
    else
      let lead := a.toNat % (1 <<< (7 - n))
      (Char.ofNat ((rest.take more).foldl (fun code b => code * 64 + payload b) lead), more)

/-- The characters of a sequence of bytes, of which the first `skip` belong to an earlier one. -/
def decodeFrom : Nat → List UInt8 → List Char
  | _, [] => []
  | skip + 1, _ :: rest => decodeFrom skip rest
  | 0, a :: rest =>
    let (c, more) := first a rest
    c :: decodeFrom more rest

/-- The characters of a sequence of bytes. -/
def decode (bs : List UInt8) : List Char := decodeFrom 0 bs

/-- The bytes of a text. -/
def bytes (s : String) : List UInt8 := s.toUTF8.data.toList

/-- The text of a sequence of bytes. -/
def text (bs : List UInt8) : String := String.ofList (decode bs)

end EventLoop.Utf8
