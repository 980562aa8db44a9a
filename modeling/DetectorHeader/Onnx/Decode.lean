/-
Reading an ONNX model. Each message has one table here, from field numbers to
what a record of that field contributes; a field that is not listed is
skipped. The names in the tables are those by which faults are reported.
-/
import DetectorHeader.Onnx.Schema

namespace DetectorHeader.Onnx

open Protobuf
open Protobuf.Reader

namespace Dimension

/-- The records of a dimension. Value and name exclude each other, the last
one counts, and faults in either are reported under one name. -/
def field (budget : Nat) (k : Key) : Reader Dimension :=
  match k.field with
  | 1 => within ⟨"Dimension", "value"⟩ do
      return { extent := some (.value (← expecting .varint int64 k)) }
  | 2 => within ⟨"Dimension", "value"⟩ do
      return { extent := some (.symbol (← expecting .delimited text k)) }
  | _ => do
      skip budget k
      return {}

end Dimension

namespace Shape

/-- The records of a shape. -/
def field (budget : Nat) (k : Key) : Reader Shape :=
  match k.field with
  | 1 => within ⟨"TensorShapeProto", "dim"⟩ do
      return { dims := [← submessage Dimension.field budget k] }
  | _ => do
      skip budget k
      return {}

end Shape

namespace TensorType

/-- The records of a tensor type. -/
def field (budget : Nat) (k : Key) : Reader TensorType :=
  match k.field with
  | 1 => within ⟨"Tensor", "elem_type"⟩ do
      return { elementType := some (← expecting .varint int32 k) }
  | 2 => within ⟨"Tensor", "shape"⟩ do
      return { shape := some (← submessage Shape.field budget k) }
  | _ => do
      skip budget k
      return {}

end TensorType

namespace ValueType

/-- The records of a type. -/
def field (budget : Nat) (k : Key) : Reader ValueType :=
  match k.field with
  | 1 => within ⟨"TypeProto", "value"⟩ do
      return { tensor := some (← submessage TensorType.field budget k) }
  | _ => do
      skip budget k
      return {}

end ValueType

namespace ValueInfo

/-- The records of a graph value. -/
def field (budget : Nat) (k : Key) : Reader ValueInfo :=
  match k.field with
  | 1 => within ⟨"ValueInfoProto", "name"⟩ do
      return { name := some (← expecting .delimited text k) }
  | 2 => within ⟨"ValueInfoProto", "r#type"⟩ do
      return { type := some (← submessage ValueType.field budget k) }
  | _ => do
      skip budget k
      return {}

end ValueInfo

namespace Tensor

/-- The records of a constant tensor. -/
def field (budget : Nat) (k : Key) : Reader Tensor :=
  match k.field with
  | 1 => within ⟨"TensorProto", "dims"⟩ do
      return { dims := ← elements .varint int64 k }
  | 2 => within ⟨"TensorProto", "data_type"⟩ do
      return { dataType := some (← expecting .varint int32 k) }
  | 4 => within ⟨"TensorProto", "float_data"⟩ do
      return { floatData := ← elements .fixed32 binary32 k }
  | 5 => within ⟨"TensorProto", "int32_data"⟩ do
      return { int32Data := ← elements .varint int32 k }
  | 7 => within ⟨"TensorProto", "int64_data"⟩ do
      return { int64Data := ← elements .varint int64 k }
  | 8 => within ⟨"TensorProto", "name"⟩ do
      return { name := some (← expecting .delimited text k) }
  | 9 => within ⟨"TensorProto", "raw_data"⟩ do
      return { rawData := some (← expecting .delimited blob k) }
  | 10 => within ⟨"TensorProto", "double_data"⟩ do
      return { doubleData := ← elements .fixed64 binary64 k }
  | 11 => within ⟨"TensorProto", "uint64_data"⟩ do
      return { uint64Data := ← elements .varint uint64 k }
  | _ => do
      skip budget k
      return {}

end Tensor

namespace Node

/-- The records of an operation. -/
def field (budget : Nat) (k : Key) : Reader Node :=
  match k.field with
  | 1 => within ⟨"NodeProto", "input"⟩ do
      return { input := [← expecting .delimited text k] }
  | 2 => within ⟨"NodeProto", "output"⟩ do
      return { output := [← expecting .delimited text k] }
  | 3 => within ⟨"NodeProto", "name"⟩ do
      return { name := some (← expecting .delimited text k) }
  | 4 => within ⟨"NodeProto", "op_type"⟩ do
      return { opType := some (← expecting .delimited text k) }
  | 7 => within ⟨"NodeProto", "domain"⟩ do
      return { domain := some (← expecting .delimited text k) }
  | _ => do
      skip budget k
      return {}

end Node

namespace Graph

/-- The records of a graph. -/
def field (budget : Nat) (k : Key) : Reader Graph :=
  match k.field with
  | 1 => within ⟨"GraphProto", "node"⟩ do
      return { node := [← submessage Node.field budget k] }
  | 2 => within ⟨"GraphProto", "name"⟩ do
      return { name := some (← expecting .delimited text k) }
  | 5 => within ⟨"GraphProto", "initializer"⟩ do
      return { initializer := [← submessage Tensor.field budget k] }
  | 11 => within ⟨"GraphProto", "input"⟩ do
      return { input := [← submessage ValueInfo.field budget k] }
  | 12 => within ⟨"GraphProto", "output"⟩ do
      return { output := [← submessage ValueInfo.field budget k] }
  | 13 => within ⟨"GraphProto", "value_info"⟩ do
      return { valueInfo := [← submessage ValueInfo.field budget k] }
  | _ => do
      skip budget k
      return {}

end Graph

namespace Model

/-- The records of a model. -/
def field (budget : Nat) (k : Key) : Reader Model :=
  match k.field with
  | 1 => within ⟨"ModelProto", "ir_version"⟩ do
      return { irVersion := some (← expecting .varint int64 k) }
  | 2 => within ⟨"ModelProto", "producer_name"⟩ do
      return { producerName := some (← expecting .delimited text k) }
  | 3 => within ⟨"ModelProto", "producer_version"⟩ do
      return { producerVersion := some (← expecting .delimited text k) }
  | 5 => within ⟨"ModelProto", "model_version"⟩ do
      return { modelVersion := some (← expecting .varint int64 k) }
  | 7 => within ⟨"ModelProto", "graph"⟩ do
      return { graph := some (← submessage Graph.field budget k) }
  | _ => do
      skip budget k
      return {}

/-- Reads the bytes of a model. -/
def decode (bytes : Bytes) : Except Fault Model :=
  Protobuf.decode Model.field bytes

end Model

end DetectorHeader.Onnx
