/-
A buffer to look things up in by position, with the bytes of the numbers that
it holds.
-/
import DetectorHeader.Bytes
import DetectorHeader.FlatBuffer.Fault

namespace DetectorHeader.FlatBuffer

/-- The bytes of a flat buffer, by position. A buffer is only ever looked up,
so its bytes may be kept in any form. -/
structure Buffer where
  size : Nat
  /-- The byte at a position inside of the buffer. -/
  byte : (position : Nat) → UInt8

namespace Buffer

/-- The buffer that an array holds. -/
def ofArray (cells : Array UInt8) : Buffer :=
  ⟨cells.size, fun position => cells.getD position 0⟩

instance : Coe (Array UInt8) Buffer := ⟨ofArray⟩

/-- The byte at a position, if that is inside of the buffer. -/
def get? (b : Buffer) (position : Nat) : Option UInt8 :=
  if position < b.size then some (b.byte position) else none

/-- The byte at a position, with zeros past the end. -/
def get (b : Buffer) (position : Nat) : UInt8 := (b.get? position).getD 0

/-- `n` bytes from `position` on; what lies past the end is left out. -/
def slice (b : Buffer) (position n : Nat) : Bytes :=
  (List.range' position (min n (b.size - position))).map b.byte

/-- Whether the `n` bytes from `position` on are all ASCII. -/
def isAscii (b : Buffer) (position : Nat) : (n : Nat) → Bool
  | 0 => true
  | n + 1 => b.get position < 0x80 && isAscii b (position + 1) n

/-- Why the `n` bytes from `position` on are no text, if they are none. ASCII
is, and needs no decoding. -/
def textFault? (b : Buffer) (position n : Nat) : Option Utf8.Fault :=
  if b.isAscii position n then none
  else
    match Utf8.decode (b.slice position n) with
    | .ok _ => none
    | .error fault => some fault

/-- The unsigned number in the `n` bytes at `position`, least significant
byte first; bytes past the end count as zeros. -/
def unsigned (b : Buffer) (position : Nat) : (n : Nat) → Nat
  | 0 => 0
  | n + 1 => (b.get position).toNat + 256 * unsigned b (position + 1) n

/-- The unsigned 16-bit number at `position`. -/
def u16 (b : Buffer) (position : Nat) : Nat := b.unsigned position 2

/-- The unsigned 32-bit number at `position`. -/
def u32 (b : Buffer) (position : Nat) : Nat := b.unsigned position 4

/-- The signed 32-bit number at `position`. -/
def i32 (b : Buffer) (position : Nat) : Int :=
  (BitVec.ofNat 32 (b.u32 position)).toInt

end Buffer

end DetectorHeader.FlatBuffer
