/-
Reading protobuf from the front of a byte string.

A reader takes values off the front of its input and is limited by the end
of the whole input alone: an enclosing length is looked at only between
records, and a record that runs past it is noticed afterwards, as an
overrun. `repeatTo` is the one loop; it knows an enclosing length as the
number of bytes that must be left when it ends.
-/
import DetectorHeader.Binary32.Basic
import DetectorHeader.Bytes
import DetectorHeader.Protobuf.Fault
import DetectorHeader.Text.Utf8

namespace DetectorHeader.Protobuf

-- ============================================================== the input

/-- Bytes still to be read, with their number at hand. -/
structure Input where
  bytes : Bytes
  left : Nat
  left_eq : left = bytes.length

namespace Input

/-- The input that holds all of a byte string. -/
def ofBytes (bytes : Bytes) : Input := ⟨bytes, bytes.length, rfl⟩

/-- The input after its first `n` bytes. -/
def drop (input : Input) (n : Nat) : Input :=
  ⟨input.bytes.drop n, input.left - n, by simp [input.left_eq]⟩

end Input

/-- Takes a value off the front of the input, or finds a fault in it. -/
abbrev Reader := StateT Input (Except Fault)

namespace Reader

/-- The reader that finds a defect. -/
def fail {α : Type} (defect : Defect) : Reader α := throw ⟨defect, []⟩

/-- Reads a known field: faults name it. -/
def within {α : Type} (field : FieldName) (reader : Reader α) : Reader α :=
  fun input => (reader input).mapError (·.within field)

/-- How many bytes are left of the whole input. -/
def remaining : Reader Nat := fun input => .ok (input.left, input)

/-- The next byte, or `defect` if there is none. -/
def byte (defect : Defect) : Reader UInt8 := fun input =>
  match input.bytes with
  | [] => fail defect input
  | b :: _ => .ok (b, input.drop 1)

/-- The next `n` bytes. -/
def take (n : Nat) : Reader Bytes := fun input =>
  if input.left < n then fail .underflow input
  else .ok (input.bytes.take n, input.drop n)

/-- Reads items until at most `limit` bytes are left, and puts them in front
of `done`, the last one first. An item that takes no bytes is the last. -/
def repeatTo {α : Type} (item : Reader α) (limit : Nat) (done : List α) :
    Reader (List α) := fun input =>
  if input.left ≤ limit then .ok (done, input)
  else
    match item input with
    | .error fault => .error fault
    | .ok (a, rest) =>
      if _progress : rest.left < input.left then
        repeatTo item limit (a :: done) rest
      else .ok (a :: done, rest)
termination_by input => input.left

-- ================================================================ varints

/-- A varint of which at most `count` bytes are still to come: seven bits a
byte, the least significant first, and every byte but the last with its high
bit set. The tenth byte has room for one bit. -/
def varintWithin : (count : Nat) → Reader Nat
  | 0 => fail .varint
  | count + 1 => do
      let b ← byte .varint
      if b < 0x80 then
        if count = 0 && 1 < b then fail .varint else pure b.toNat
      else
        let high ← varintWithin count
        pure (b.toNat % 128 + 128 * high)

/-- A varint: at most ten bytes, and below 2⁶⁴. -/
def varint : Reader Nat := varintWithin 10

-- =================================================== lengths and payloads

/-- A length, and as many bytes. -/
def blob : Reader Bytes := do
  let length ← varint
  take length

/-- A length, and as many bytes of UTF-8. -/
def text : Reader String := do
  match Utf8.decode (← blob) with
  | .ok s => pure s
  | .error _ => fail .text

/-- A length, and items that fill it exactly. -/
def delimited {α : Type} (item : Reader α) : Reader (List α) := do
  let length ← varint
  let left ← remaining
  if left < length then fail .underflow
  let items ← repeatTo item (left - length) []
  if (← remaining) ≠ left - length then fail .overrun
  pure items.reverse

/-- A signed 64-bit integer in a varint. -/
def int64 : Reader Int64 := do return (UInt64.ofNat (← varint)).toInt64

/-- An unsigned 64-bit integer in a varint. -/
def uint64 : Reader UInt64 := do return UInt64.ofNat (← varint)

/-- A signed 32-bit integer in a varint; its upper half is ignored. -/
def int32 : Reader Int32 := do return (UInt32.ofNat (← varint)).toInt32

/-- A single-precision number in four bytes. -/
def binary32 : Reader Binary32 := do
  return ⟨UInt32.ofNat (LittleEndian.decode (← take 4))⟩

/-- A double-precision number in eight bytes. -/
def binary64 : Reader Binary64 := do
  return ⟨UInt64.ofNat (LittleEndian.decode (← take 8))⟩

end Reader

end DetectorHeader.Protobuf
