/-
Verification: whether everything that a reader of the buffer will look at is
inside of it, at a position that fits its type, and well formed.

A `Check` looks at one thing at one position. Checks are put together as the
data are: a check of what an offset leads to, of the elements of a vector, of
the fields of a table. They share a `Usage`, which bounds the work that a
small buffer with many references to one place can cause.
-/
import DetectorHeader.FlatBuffer.Buffer

namespace DetectorHeader.FlatBuffer

-- =============================================================== limits

/-- What has been looked at so far. -/
structure Usage where
  /-- Bytes, counted each time they are looked at. -/
  apparentSize : Nat := 0
  /-- Tables, counted each time they are looked at. -/
  tables : Nat := 0
  /-- Tables inside of which the current position is. -/
  depth : Nat := 0
  deriving DecidableEq

/-- The greatest apparent size. -/
def maxApparentSize : Nat := 0x80000000

/-- The greatest number of tables. -/
def maxTables : Nat := 1000000

/-- The greatest depth of nested tables. -/
def maxDepth : Nat := 64

/-- A part of the verification: goes on with the usage so far, or stops at a
fault. -/
abbrev Verify := StateT Usage (Except Fault)

/-- Verification of what is at a position of a buffer. -/
def Check := Buffer → (position : Nat) → Verify Unit

namespace Verify

/-- The verification that stops at a defect. -/
def fail {α : Type} (defect : Defect) : Verify α := throw ⟨defect, []⟩

/-- Faults are met behind `step`. -/
def behind (step : Step) (v : Verify Unit) : Verify Unit :=
  fun usage => (v usage).mapError (·.behind step)

/-- The `n` bytes from `position` on are inside of the buffer. -/
def range (b : Buffer) (position n : Nat) : Verify Unit := do
  if b.size < position + n then fail (.range position (position + n))
  let usage ← get
  set { usage with apparentSize := usage.apparentSize + n }
  if maxApparentSize < usage.apparentSize + n then fail .apparentSize

/-- The position is a multiple of the size of the scalar. -/
def aligned (scalar : Scalar) (position : Nat) : Verify Unit :=
  if position % scalar.size ≠ 0 then fail (.unaligned scalar position)
  else pure ()

/-- A table is entered. -/
def enter : Verify Unit := do
  let usage ← get
  set { usage with depth := usage.depth + 1, tables := usage.tables + 1 }
  if maxDepth < usage.depth + 1 then fail .depth
  if maxTables < usage.tables + 1 then fail .tables

/-- A table is left. -/
def leave : Verify Unit :=
  modify fun usage => { usage with depth := usage.depth - 1 }

/-- The check for `count` elements of `size` bytes from `start` on, of which
the first has the given index. -/
def elements (check : Nat → Verify Unit) (start size index : Nat) :
    (count : Nat) → Verify Unit
  | 0 => pure ()
  | count + 1 => do
      behind (.element index start) (check start)
      elements check (start + size) size (index + 1) count

end Verify

namespace Check

open Verify

/-- A scalar. -/
def scalar (s : Scalar) : Check := fun b position => do
  aligned s position
  range b position s.size

/-- An offset, and what it leads to. -/
def offsetTo (target : Check) : Check := fun b position => do
  scalar .u32 b position
  target b (position + b.u32 position)

/-- The length of a vector and its elements, as far as their place goes. -/
def vector (element : Scalar) : Check := fun b position => do
  scalar .u32 b position
  aligned element (position + 4)
  range b (position + 4) (b.u32 position * element.size)

/-- A vector of offsets, and what each of them leads to. -/
def vectorOf (target : Check) : Check := fun b position => do
  vector .u32 b position
  elements (offsetTo target b) (position + 4) 4 0 (b.u32 position)

/-- A string: a vector of bytes that are UTF-8, with a zero behind. -/
def string : Check := fun b position => do
  vector .u8 b position
  let first := position + 4
  let last := first + b.u32 position
  if let some fault := b.textFault? first (b.u32 position) then
    fail (.text first last fault)
  if b.get? last ≠ some 0 then fail (.terminator first last)

-- =============================================================== tables

/-- A field of a table: its name for messages, its slot, which is where the
vtable tells its place, and the check for what is there. -/
structure Field where
  name : String
  slot : Nat
  check : Check

/-- A field, if the table at `position` has it according to the vtable at
`vtable`, which has `length` bytes. -/
def field (f : Field) (b : Buffer) (position vtable length : Nat) :
    Verify Unit := do
  if f.slot < length then
    scalar .u16 b (vtable + f.slot)
    let offset := b.u16 (vtable + f.slot)
    if offset ≠ 0 then
      behind (.field f.name (position + offset))
        (f.check b (position + offset))

/-- A table: the offset back to its vtable, the vtable, and the fields. -/
def table (fields : List Field) : Check := fun b position => do
  scalar .i32 b position
  let offset := b.i32 position
  let vtable := (position : Int) - offset
  if vtable < 0 ∨ (b.size : Int) ≤ vtable then
    fail (.signedOffset position offset)
  let vtable := vtable.toNat
  scalar .u16 b vtable
  let length := b.u16 vtable
  aligned .u16 (vtable + length)
  range b vtable length
  enter
  fields.forM fun f => field f b position vtable length
  leave

end Check

end DetectorHeader.FlatBuffer
