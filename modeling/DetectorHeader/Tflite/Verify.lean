/-
Verification of a TFLite model: the tables that are read, each with its
fields in the order in which they are looked at.
-/
import DetectorHeader.FlatBuffer.Verify
import DetectorHeader.Tflite.Schema

namespace DetectorHeader.Tflite

open FlatBuffer

namespace Check

open FlatBuffer.Check

/-- The quantization of a tensor. -/
def quantization : Check :=
  table [
    ⟨"scale", Vtable.quantizationScale, offsetTo (vector .f32)⟩,
    ⟨"zero_point", Vtable.quantizationZeroPoint, offsetTo (vector .i64)⟩,
    ⟨"quantized_dimension", Vtable.quantizationDimension, scalar .i32⟩]

/-- A tensor. -/
def tensor : Check :=
  table [
    ⟨"shape", Vtable.tensorShape, offsetTo (vector .i32)⟩,
    ⟨"type_", Vtable.tensorType, scalar .i8⟩,
    ⟨"buffer", Vtable.tensorBuffer, scalar .u32⟩,
    ⟨"name", Vtable.tensorName, offsetTo string⟩,
    ⟨"quantization", Vtable.tensorQuantization, offsetTo quantization⟩,
    ⟨"shape_signature", Vtable.tensorShapeSignature, offsetTo (vector .i32)⟩]

/-- A subgraph. -/
def subgraph : Check :=
  table [
    ⟨"tensors", Vtable.subgraphTensors, offsetTo (vectorOf tensor)⟩,
    ⟨"inputs", Vtable.subgraphInputs, offsetTo (vector .i32)⟩,
    ⟨"outputs", Vtable.subgraphOutputs, offsetTo (vector .i32)⟩,
    ⟨"name", Vtable.subgraphName, offsetTo string⟩]

/-- A model. -/
def model : Check :=
  table [
    ⟨"version", Vtable.modelVersion, scalar .u32⟩,
    ⟨"subgraphs", Vtable.modelSubgraphs, offsetTo (vectorOf subgraph)⟩,
    ⟨"description", Vtable.modelDescription, offsetTo string⟩]

/-- The whole buffer: the offset at its start leads to a model. -/
def root : Check := offsetTo model

end Check

/-- Verifies a buffer from its start, with nothing looked at before. -/
def verify (b : Buffer) : Except Fault Unit :=
  match Check.root b 0 {} with
  | .error fault => .error fault
  | .ok _ => .ok ()

/-- A buffer is accepted if the check of its root passes, from no usage on. -/
theorem verify_eq_ok_iff {b : Buffer} :
    verify b = .ok () ↔ ∃ usage, Check.root b 0 {} = .ok ((), usage) := by
  unfold verify
  cases Check.root b 0 {} with
  | error fault => simp
  | ok r => exact ⟨fun _ => ⟨r.2, rfl⟩, fun _ => rfl⟩

/-- And it is refused with the fault that the check stops at. -/
theorem verify_eq_error_iff {b : Buffer} {fault : Fault} :
    verify b = .error fault ↔ Check.root b 0 {} = .error fault := by
  unfold verify
  cases Check.root b 0 {} <;> simp

end DetectorHeader.Tflite
