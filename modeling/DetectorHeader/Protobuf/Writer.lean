/-
Writing protobuf: the inverse of what the readers take apart, in the one
spelling that a writer chooses. Varints are as short as they can be, and a
record is its key and its payload.
-/
import DetectorHeader.Binary32.Basic
import DetectorHeader.Bytes
import DetectorHeader.Protobuf.Fault
import DetectorHeader.Text.Utf8

namespace DetectorHeader.Protobuf.Writer

/-- A varint in as few bytes as it takes. -/
def varint (n : Nat) : Bytes :=
  if n < 128 then [UInt8.ofNat n]
  else UInt8.ofNat (n % 128 + 128) :: varint (n / 128)
termination_by n

/-- A signed 64-bit integer: negative ones take ten bytes. -/
def int64 (i : Int64) : Bytes := varint i.toUInt64.toNat

/-- An unsigned 64-bit integer. -/
def uint64 (n : UInt64) : Bytes := varint n.toNat

/-- A signed 32-bit integer, widened first: negative ones take ten bytes. -/
def int32 (i : Int32) : Bytes := int64 i.toInt64

/-- A single-precision number in four bytes. -/
def binary32 (x : Binary32) : Bytes := LittleEndian.encode 4 x.bits.toNat

/-- A double-precision number in eight bytes. -/
def binary64 (x : Binary64) : Bytes := LittleEndian.encode 8 x.bits.toNat

/-- The key of a record. -/
def key (field : Nat) (wire : WireType) : Bytes :=
  varint (field * 8 + wire.code)

/-- A record with an integer. -/
def varintRecord (field : Nat) (payload : Bytes) : Bytes :=
  key field .varint ++ payload

/-- A record with a length and as many bytes. -/
def blobRecord (field : Nat) (payload : Bytes) : Bytes :=
  key field .delimited ++ varint payload.length ++ payload

/-- A record with a text. -/
def textRecord (field : Nat) (text : String) : Bytes :=
  blobRecord field (Utf8.encode text)

/-- The record of an optional field: nothing if it is absent, also written
if it is the default. -/
def optional {α : Type} (record : α → Bytes) : Option α → Bytes
  | none => []
  | some a => record a

/-- One record for each element. -/
def repeated {α : Type} (record : α → Bytes) (items : List α) : Bytes :=
  items.flatMap record

/-- One record for all elements, none if there are none. -/
def packed {α : Type} (field : Nat) (element : α → Bytes) (items : List α) :
    Bytes :=
  if items.isEmpty then [] else blobRecord field (items.flatMap element)

end DetectorHeader.Protobuf.Writer
