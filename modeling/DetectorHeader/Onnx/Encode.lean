/-
Writing an ONNX model: fields in the order of their numbers, absent ones and
empty lists not at all, present ones also if they hold their default. Lists
of numbers are packed into one record, except for a tensor's dimensions.
-/
import DetectorHeader.Onnx.Schema
import DetectorHeader.Protobuf.Writer

namespace DetectorHeader.Onnx

open Protobuf.Writer

/-- The bytes of a dimension. -/
def Dimension.encode (d : Dimension) : Bytes :=
  match d.extent with
  | none => []
  | some (.value v) => varintRecord 1 (int64 v)
  | some (.symbol name) => textRecord 2 name

/-- The bytes of a shape. -/
def Shape.encode (s : Shape) : Bytes :=
  repeated (fun d => blobRecord 1 d.encode) s.dims

/-- The bytes of a tensor type. -/
def TensorType.encode (t : TensorType) : Bytes :=
  optional (fun v => varintRecord 1 (int32 v)) t.elementType
    ++ optional (fun s => blobRecord 2 s.encode) t.shape

/-- The bytes of a type. -/
def ValueType.encode (t : ValueType) : Bytes :=
  optional (fun tensor => blobRecord 1 tensor.encode) t.tensor

/-- The bytes of a graph value. -/
def ValueInfo.encode (v : ValueInfo) : Bytes :=
  optional (textRecord 1) v.name
    ++ optional (fun t => blobRecord 2 t.encode) v.type

/-- The bytes of a constant tensor. -/
def Tensor.encode (t : Tensor) : Bytes :=
  repeated (fun v => varintRecord 1 (int64 v)) t.dims
    ++ optional (fun v => varintRecord 2 (int32 v)) t.dataType
    ++ packed 4 binary32 t.floatData
    ++ packed 5 int32 t.int32Data
    ++ packed 7 int64 t.int64Data
    ++ optional (textRecord 8) t.name
    ++ optional (blobRecord 9) t.rawData
    ++ packed 10 binary64 t.doubleData
    ++ packed 11 uint64 t.uint64Data

/-- The bytes of an operation. -/
def Node.encode (n : Node) : Bytes :=
  repeated (textRecord 1) n.input
    ++ repeated (textRecord 2) n.output
    ++ optional (textRecord 3) n.name
    ++ optional (textRecord 4) n.opType
    ++ optional (textRecord 7) n.domain

/-- The bytes of a graph. -/
def Graph.encode (g : Graph) : Bytes :=
  repeated (fun n => blobRecord 1 n.encode) g.node
    ++ optional (textRecord 2) g.name
    ++ repeated (fun t => blobRecord 5 t.encode) g.initializer
    ++ repeated (fun v => blobRecord 11 v.encode) g.input
    ++ repeated (fun v => blobRecord 12 v.encode) g.output
    ++ repeated (fun v => blobRecord 13 v.encode) g.valueInfo

/-- The bytes of a model. -/
def Model.encode (m : Model) : Bytes :=
  optional (fun v => varintRecord 1 (int64 v)) m.irVersion
    ++ optional (textRecord 2) m.producerName
    ++ optional (textRecord 3) m.producerVersion
    ++ optional (fun v => varintRecord 5 (int64 v)) m.modelVersion
    ++ optional (fun g => blobRecord 7 g.encode) m.graph

end DetectorHeader.Onnx
