/-
The part of an ONNX model that describes its graph: inputs and outputs with
their types, nodes, and constant tensors (initializers). Every field can be
absent, and an absent field is told apart from one that holds its default.

Messages merge field by field: a single value gives way to a later one, a
list is continued by a later one, and a message within is merged with a
later one.
-/
import DetectorHeader.Binary32.Basic
import DetectorHeader.Bytes
import DetectorHeader.Protobuf.Record

namespace DetectorHeader.Onnx

open Protobuf (Message)

/-- The later of two optional values, if there is one. -/
def latest {α : Type} (earlier later : Option α) : Option α :=
  later.or earlier

/-- The merge of two optional messages. -/
def joined {M : Type} [Message M] (earlier later : Option M) : Option M :=
  Option.merge Message.merge earlier later

-- =============================================================== shapes

/-- What is known of a dimension: its value, or a name for it. -/
inductive Extent
  | value (value : Int64)
  | symbol (name : String)
  deriving DecidableEq

/-- A dimension, of which nothing need be known. -/
structure Dimension where
  extent : Option Extent := none
  deriving DecidableEq

/-- The dimensions of a tensor. -/
structure Shape where
  dims : List Dimension := []
  deriving DecidableEq

/-- Element type, by its number, and shape. -/
structure TensorType where
  elementType : Option Int32 := none
  shape : Option Shape := none
  deriving DecidableEq

/-- The type of a graph value. Of the kinds of values only tensors are read;
the others leave nothing here. -/
structure ValueType where
  tensor : Option TensorType := none
  deriving DecidableEq

/-- A named value of the graph. -/
structure ValueInfo where
  name : Option String := none
  type : Option ValueType := none
  deriving DecidableEq

-- ====================================================== tensors and nodes

/-- A constant tensor. Its elements are in `rawData`, little-endian, or in
the list for its type; which one counts is for the reader of the values. -/
structure Tensor where
  dims : List Int64 := []
  dataType : Option Int32 := none
  floatData : List Binary32 := []
  int32Data : List Int32 := []
  int64Data : List Int64 := []
  name : Option String := none
  rawData : Option Bytes := none
  doubleData : List Binary64 := []
  uint64Data : List UInt64 := []
  deriving DecidableEq

/-- An operation. Its inputs and outputs are names of values. -/
structure Node where
  input : List String := []
  output : List String := []
  name : Option String := none
  opType : Option String := none
  domain : Option String := none
  deriving DecidableEq

/-- Values, the operations between them, and the constants they use. -/
structure Graph where
  node : List Node := []
  name : Option String := none
  initializer : List Tensor := []
  input : List ValueInfo := []
  output : List ValueInfo := []
  valueInfo : List ValueInfo := []
  deriving DecidableEq

/-- A whole model file. -/
structure Model where
  irVersion : Option Int64 := none
  producerName : Option String := none
  producerVersion : Option String := none
  modelVersion : Option Int64 := none
  graph : Option Graph := none
  deriving DecidableEq

-- ============================================================== merging

instance : Message Dimension where
  empty := {}
  merge a b := { extent := latest a.extent b.extent }

instance : Message Shape where
  empty := {}
  merge a b := { dims := a.dims ++ b.dims }

instance : Message TensorType where
  empty := {}
  merge a b :=
    { elementType := latest a.elementType b.elementType
      shape := joined a.shape b.shape }

instance : Message ValueType where
  empty := {}
  merge a b := { tensor := joined a.tensor b.tensor }

instance : Message ValueInfo where
  empty := {}
  merge a b :=
    { name := latest a.name b.name
      type := joined a.type b.type }

instance : Message Tensor where
  empty := {}
  merge a b :=
    { dims := a.dims ++ b.dims
      dataType := latest a.dataType b.dataType
      floatData := a.floatData ++ b.floatData
      int32Data := a.int32Data ++ b.int32Data
      int64Data := a.int64Data ++ b.int64Data
      name := latest a.name b.name
      rawData := latest a.rawData b.rawData
      doubleData := a.doubleData ++ b.doubleData
      uint64Data := a.uint64Data ++ b.uint64Data }

instance : Message Node where
  empty := {}
  merge a b :=
    { input := a.input ++ b.input
      output := a.output ++ b.output
      name := latest a.name b.name
      opType := latest a.opType b.opType
      domain := latest a.domain b.domain }

instance : Message Graph where
  empty := {}
  merge a b :=
    { node := a.node ++ b.node
      name := latest a.name b.name
      initializer := a.initializer ++ b.initializer
      input := a.input ++ b.input
      output := a.output ++ b.output
      valueInfo := a.valueInfo ++ b.valueInfo }

instance : Message Model where
  empty := {}
  merge a b :=
    { irVersion := latest a.irVersion b.irVersion
      producerName := latest a.producerName b.producerName
      producerVersion := latest a.producerVersion b.producerVersion
      modelVersion := latest a.modelVersion b.modelVersion
      graph := joined a.graph b.graph }

end DetectorHeader.Onnx
