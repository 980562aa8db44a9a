/-
Reading a flat buffer. A read follows the same offsets as the verification,
and trusts them: that a number is at a multiple of its size is not looked at
again, and the place of a vtable is computed in 32 bits. `none` means that the
read would have left the buffer, or met a string that is not UTF-8. On a
verified buffer no read is `none`, as long as 31 bits are enough for the
places of the vtables.
-/
import DetectorHeader.FlatBuffer.Buffer
import DetectorHeader.Text.Utf8

namespace DetectorHeader.FlatBuffer

/-- Reads what is at a position of a buffer. -/
def Read (α : Type) := Buffer → (position : Nat) → Option α

namespace Read

/-- The position itself, for what is to be read later. -/
def place : Read Nat := fun _ position => some position

/-- A scalar, by its unsigned number. -/
def number (s : Scalar) : Read Nat := fun b position =>
  if position + s.size ≤ b.size then some (b.unsigned position s.size)
  else none

/-- A scalar, converted from its unsigned number. -/
def scalar {α : Type} (s : Scalar) (ofNat : Nat → α) : Read α :=
  fun b position => (number s b position).map ofNat

/-- What the offset leads to. -/
def offsetTo {α : Type} (target : Read α) : Read α := fun b position => do
  let offset ← number .u32 b position
  target b (position + offset)

/-- The elements of a vector, each of `size` bytes. -/
def elements {α : Type} (size : Nat) (element : Read α) : Read (List α) :=
  fun b position => do
    let count ← number .u32 b position
    (List.range count).mapM fun i => element b (position + 4 + i * size)

/-- A vector of scalars. -/
def vector {α : Type} (s : Scalar) (ofNat : Nat → α) : Read (List α) :=
  elements s.size (scalar s ofNat)

/-- A vector of offsets, by what they lead to. -/
def vectorOf {α : Type} (target : Read α) : Read (List α) :=
  elements 4 (offsetTo target)

/-- A string. -/
def string : Read String := fun b position => do
  let length ← number .u32 b position
  if b.size < position + 4 + length then none
  else (Utf8.decode (b.slice (position + 4) length)).toOption

-- =============================================================== tables

/-- A table, with the place and the length of its vtable. -/
structure Table where
  position : Nat
  vtable : Nat
  length : Nat

/-- Where the vtable of the table at a position is looked for: the signed
offset at the position is subtracted in 32 bits, which leaves the place meant
only if that is below 2³¹. -/
def vtablePlace (b : Buffer) (position : Nat) : Int :=
  (BitVec.ofNat 32 position - BitVec.ofNat 32 (b.u32 position)).toInt

/-- The table at a position. A place below zero is in no buffer. -/
def table : Read Table := fun b position => do
  let _ ← number .i32 b position
  let vtable := vtablePlace b position
  if vtable < 0 then none
  else
    let length ← number .u16 b vtable.toNat
    some ⟨position, vtable.toNat, length⟩

/-- The field in a slot of a table, if the table has it. -/
def field? {α : Type} (b : Buffer) (t : Table) (slot : Nat) (read : Read α) :
    Option (Option α) :=
  if slot + 2 ≤ t.length then do
    let offset ← number .u16 b (t.vtable + slot)
    if offset = 0 then some none
    else some <$> read b (t.position + offset)
  else some none

/-- The field in a slot of a table, or the default for its type. -/
def fieldD {α : Type} [Inhabited α] (b : Buffer) (t : Table) (slot : Nat)
    (read : Read α) : Option α :=
  (·.getD default) <$> field? b t slot read

end Read

end DetectorHeader.FlatBuffer
