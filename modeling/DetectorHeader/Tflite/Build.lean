/-
Writing a TFLite model: tensors, then the subgraph that they belong to, then
the model, so that everything is there before it is referred to.
-/
import DetectorHeader.FlatBuffer.Build
import DetectorHeader.Text.Utf8
import DetectorHeader.Tflite.Schema

namespace DetectorHeader.Tflite

open FlatBuffer

namespace Build

open FlatBuffer.Build

/-- A vector of 32-bit integers. -/
def int32s (items : List Int32) : FlatBuffer.Build Reference :=
  vector 4 (items.map (·.toUInt32.toNat))

/-- A text. -/
def text (s : String) : FlatBuffer.Build Reference := string (Utf8.encode s)

/-- The quantization of a tensor. -/
def quantization (q : QuantizationTable) : FlatBuffer.Build Reference := do
  let scale ← q.scale.mapM fun items =>
    vector 4 (items.map (·.bits.toNat))
  let zeroPoint ← q.zeroPoint.mapM fun items =>
    vector 8 (items.map (·.toUInt64.toNat))
  table
    (number? Vtable.quantizationDimension 4
        q.quantizedDimension.toUInt32.toNat
      ++ offset? Vtable.quantizationZeroPoint zeroPoint
      ++ offset? Vtable.quantizationScale scale)

/-- A tensor. -/
def tensor (t : Tensor) : FlatBuffer.Build Reference := do
  let quantization ← t.quantization.mapM quantization
  let shape ← t.shape.mapM int32s
  let shapeSignature ← t.shapeSignature.mapM int32s
  let name ← t.name.mapM text
  table
    (offset? Vtable.tensorShapeSignature shapeSignature
      ++ offset? Vtable.tensorQuantization quantization
      ++ offset? Vtable.tensorName name
      ++ number? Vtable.tensorBuffer 4 t.buffer.toNat
      ++ offset? Vtable.tensorShape shape
      ++ number? Vtable.tensorType 1 t.type.toUInt8.toNat)

/-- A subgraph. -/
def subgraph (g : Subgraph Tensor) : FlatBuffer.Build Reference := do
  let tensors ← g.tensors.mapM fun ts => do vectorOf (← ts.mapM tensor)
  let inputs ← g.inputs.mapM int32s
  let outputs ← g.outputs.mapM int32s
  let name ← g.name.mapM text
  table
    (offset? Vtable.subgraphName name
      ++ offset? Vtable.subgraphOutputs outputs
      ++ offset? Vtable.subgraphInputs inputs
      ++ offset? Vtable.subgraphTensors tensors)

/-- A model. -/
def model (m : WholeModel) : FlatBuffer.Build Reference := do
  let subgraphs ← m.subgraphs.mapM fun gs => do vectorOf (← gs.mapM subgraph)
  let description ← m.description.mapM text
  table
    (offset? Vtable.modelDescription description
      ++ offset? Vtable.modelSubgraphs subgraphs
      ++ number? Vtable.modelVersion 4 m.version.toNat)

end Build

/-- The version that a model has unless another is asked for. -/
def currentVersion : UInt32 := 3

/-- The model of the given parts. -/
def WholeModel.ofParts (version : Option UInt32) (description : Option String)
    (subgraphs : Option (List (Subgraph Tensor))) : WholeModel :=
  { version := version.getD currentVersion, description, subgraphs }

/-- The bytes of a model. -/
def WholeModel.encode (m : WholeModel) : Bytes :=
  Build.bytes do Build.finish identifier (← Build.model m)

end DetectorHeader.Tflite
