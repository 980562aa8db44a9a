/-
The numbers in a constant tensor. They are in its raw bytes if it has any,
else in the list that ONNX has for the type; bytes at the end of raw data
that do not make up an element are left out.
-/
import DetectorHeader.Binary32.Round
import DetectorHeader.Error
import DetectorHeader.Onnx.Schema

namespace DetectorHeader.Onnx

/-- The first `count` runs of `size` bytes. -/
def runs (size : Nat) : (count : Nat) → Bytes → List Bytes
  | 0, _ => []
  | count + 1, bytes => bytes.take size :: runs size count (bytes.drop size)

/-- The numbers in raw data of `size` bytes each. -/
def rawNumbers (size : Nat) (raw : Bytes) : List Nat :=
  (runs size (raw.length / size) raw).map LittleEndian.decode

/-- The signed number with the given bits. -/
def signed (bits n : Nat) : Int64 := .ofInt (BitVec.ofNat bits n).toInt

namespace Tensor

/-- The element type; a tensor without one has an unknown type. -/
def type (t : Tensor) : DataType := .ofOnnxCode (t.dataType.getD 0)

/-- The raw bytes, if there are any. -/
def raw? (t : Tensor) : Option Bytes := t.rawData.filter (· ≠ [])

/-- The elements as scales, narrowed to single precision. -/
def scales (t : Tensor) : Except Error (List Binary32) :=
  if !t.type.isFloat then
    .error (.invalidModel (.scaleType (t.name.getD "") t.type))
  else
    match t.type, t.raw? with
    | .float32, some raw =>
        .ok ((rawNumbers 4 raw).map fun n => ⟨UInt32.ofNat n⟩)
    | .float64, some raw =>
        .ok ((rawNumbers 8 raw).map fun n => .ofBinary64 ⟨UInt64.ofNat n⟩)
    | .float32, none => .ok t.floatData
    | .float64, none => .ok (t.doubleData.map .ofBinary64)
    | type, _ => .error (.unsupported (.elementType .scale type))

/-- An unsigned number as a signed one. -/
def narrow (n : UInt64) : Except Error Int64 :=
  if 0x8000000000000000 ≤ n.toNat then .error (.invalidModel .numberTooLarge)
  else .ok n.toInt64

/-- The elements as zero points. -/
def zeroPoints (t : Tensor) : Except Error (List Int64) :=
  if !t.type.isInteger then
    .error (.invalidModel (.zeroPointType (t.name.getD "") t.type))
  else
    match t.raw? with
    | some raw =>
        match t.type with
        | .int8 => .ok ((rawNumbers 1 raw).map (signed 8))
        | .uint8 => .ok ((rawNumbers 1 raw).map (.ofNat ·))
        | .int16 => .ok ((rawNumbers 2 raw).map (signed 16))
        | .uint16 => .ok ((rawNumbers 2 raw).map (.ofNat ·))
        | .int32 => .ok ((rawNumbers 4 raw).map (signed 32))
        | type => .error (.unsupported (.elementType .zeroPoint type))
    | none =>
        match t.type with
        | .int64 => .ok t.int64Data
        | .uint32 | .uint64 => t.uint64Data.mapM narrow
        | _ => .ok (t.int32Data.map Int32.toInt64)

end Tensor

end DetectorHeader.Onnx
