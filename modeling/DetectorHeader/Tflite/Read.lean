/-
Reading a TFLite model out of a verified buffer. The readers of subgraph and
model take a reader for their elements: with `Read.place` they read no more
than the places of these.
-/
import DetectorHeader.FlatBuffer.Read
import DetectorHeader.Tflite.Verify

namespace DetectorHeader.Tflite

open FlatBuffer

namespace Read

open FlatBuffer.Read

/-- A 32-bit integer. -/
def int32 (n : Nat) : Int32 := (UInt32.ofNat n).toInt32

/-- A 64-bit integer. -/
def int64 (n : Nat) : Int64 := (UInt64.ofNat n).toInt64

/-- A vector of 32-bit integers. -/
def int32s : FlatBuffer.Read (List Int32) := vector .i32 int32

/-- The quantization of a tensor. -/
def quantization : FlatBuffer.Read QuantizationTable := fun b position => do
  let t ← table b position
  let scale ← field? b t Vtable.quantizationScale
    (offsetTo (vector .f32 fun n => ⟨UInt32.ofNat n⟩))
  let zeroPoint ← field? b t Vtable.quantizationZeroPoint
    (offsetTo (vector .i64 int64))
  let quantizedDimension ← fieldD b t Vtable.quantizationDimension
    (scalar .i32 int32)
  return { scale, zeroPoint, quantizedDimension }

/-- A tensor. -/
def tensor : FlatBuffer.Read Tensor := fun b position => do
  let t ← table b position
  let shape ← field? b t Vtable.tensorShape (offsetTo int32s)
  let type ← fieldD b t Vtable.tensorType
    (scalar .i8 fun n => (UInt8.ofNat n).toInt8)
  let buffer ← fieldD b t Vtable.tensorBuffer (scalar .u32 UInt32.ofNat)
  let name ← field? b t Vtable.tensorName (offsetTo string)
  let quantization ← field? b t Vtable.tensorQuantization
    (offsetTo quantization)
  let shapeSignature ← field? b t Vtable.tensorShapeSignature (offsetTo int32s)
  return { name, shape, type, buffer, shapeSignature, quantization }

/-- A subgraph, with `tensor` to read its tensors. -/
def subgraph {τ : Type} (tensor : FlatBuffer.Read τ) :
    FlatBuffer.Read (Subgraph τ) := fun b position => do
  let t ← table b position
  let tensors ← field? b t Vtable.subgraphTensors (offsetTo (vectorOf tensor))
  let inputs ← field? b t Vtable.subgraphInputs (offsetTo int32s)
  let outputs ← field? b t Vtable.subgraphOutputs (offsetTo int32s)
  let name ← field? b t Vtable.subgraphName (offsetTo string)
  return { name, inputs, outputs, tensors }

/-- A model, with `subgraph` to read its subgraphs. -/
def model {σ : Type} (subgraph : FlatBuffer.Read σ) :
    FlatBuffer.Read (Model σ) := fun b position => do
  let t ← table b position
  let version ← fieldD b t Vtable.modelVersion (scalar .u32 UInt32.ofNat)
  let subgraphs ← field? b t Vtable.modelSubgraphs
    (offsetTo (vectorOf subgraph))
  let description ← field? b t Vtable.modelDescription (offsetTo string)
  return { version, description, subgraphs }

/-- The model that the offset at the start of the buffer leads to. -/
def root {σ : Type} (subgraph : FlatBuffer.Read σ) (b : Buffer) :
    Option (Model σ) :=
  offsetTo (model subgraph) b 0

end Read

/-- A read of a verified buffer. -/
def checked {α : Type} (read : Option α) : Except Fault α :=
  match read with
  | some a => .ok a
  | none => .error ⟨.unchecked, []⟩

/-- Verifies a buffer and reads the whole model in it. -/
def WholeModel.ofBuffer (b : Buffer) : Except Fault WholeModel := do
  verify b
  checked (Read.root (Read.subgraph Read.tensor) b)

/-- Verifies a byte string and reads the whole model in it. -/
def WholeModel.decode (bytes : Bytes) : Except Fault WholeModel :=
  ofBuffer bytes.toArray

end DetectorHeader.Tflite
