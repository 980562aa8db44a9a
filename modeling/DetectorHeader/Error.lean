/-
Why there is no header: the causes, by the kinds under which they are
reported, and their wording.
-/
import DetectorHeader.FileTree
import DetectorHeader.FlatBuffer.Fault
import DetectorHeader.Protobuf.Fault
import DetectorHeader.Slot

namespace DetectorHeader

/-- A model that can be read, and makes no sense. -/
inductive InvalidModel
  | noSubgraph
  | noGraph
  /-- A tensor index below zero. -/
  | negativeIndex
  /-- A zero point above the greatest signed 64-bit integer. -/
  | numberTooLarge
  /-- A tensor index past the end of the list. -/
  | danglingTensor (side : Side) (index count : Nat)
  /-- An output dimension from which the box fields cannot be taken. -/
  | boxFields (dimension : Int64)
  /-- Not one input and one output, where that is asked for. -/
  | slotCounts (inputs outputs : Nat)
  /-- A tensor whose element type is given as undefined. -/
  | undefinedElementType
  /-- A scale that is not of a floating-point type. -/
  | scaleType (tensor : String) (type : DataType)
  /-- A zero point that is not of an integer type. -/
  | zeroPointType (tensor : String) (type : DataType)
  deriving DecidableEq

/-- A part of a model that has to be there. -/
inductive MissingField
  | indexList (side : Side)
  | tensors
  | elementType
  deriving DecidableEq

/-- The two constants of a quantization. -/
inductive Parameter
  | scale | zeroPoint
  deriving DecidableEq

/-- A model that makes sense, and cannot be handled. -/
inductive Unsupported
  /-- A scale that has no literal, by its name. -/
  | literal (name : String)
  /-- A file of which neither contents nor name tell the format. -/
  | unknownFormat (path : String)
  /-- A graph value of another type. -/
  | notATensor (name : String)
  /-- A parameter that is computed, in the operation that gives `output`. -/
  | notConstant (operation : String) (parameter : Parameter)
      (name output : String)
  /-- A parameter of a type whose elements are not read. -/
  | elementType (parameter : Parameter) (type : DataType)
  deriving DecidableEq

/-- Why an operation failed. -/
inductive Error
  | file (fault : FileFault)
  | protobuf (fault : Protobuf.Fault)
  | flatBuffer (fault : FlatBuffer.Fault)
  | invalidModel (cause : InvalidModel)
  | missingField (field : MissingField)
  | unsupported (cause : Unsupported)
  /-- An input or output that the model does not have. -/
  | slotIndex (side : Side) (index count : Nat)
  /-- A dimension that the shape of a tensor does not have. -/
  | dimensionIndex (tensor : String) (index rank : Nat)
  deriving DecidableEq

-- ============================================================== wording

/-- The cause in words. -/
def InvalidModel.message : InvalidModel → String
  | noSubgraph => "No subgraphs found in model"
  | noGraph => "No graph found in model"
  | negativeIndex =>
      "Integer conversion error: number too small to fit in target type"
  | numberTooLarge =>
      "Integer conversion error: number too large to fit in target type"
  | danglingTensor side index count =>
      s!"{side.name} refers to tensor {index} but subgraph has {count}"
  | boxFields dimension =>
      s!"output dimension {dimension.toInt} cannot hold box fields"
  | slotCounts inputs outputs =>
      s!"expected 1 input and 1 output, model has {inputs} and {outputs}"
  | undefinedElementType => "tensor elem_type must not be UNDEFINED (0)"
  | scaleType tensor type =>
      s!"quantization scale '{tensor}' has type {type.name}"
  | zeroPointType tensor type =>
      s!"quantization zero point '{tensor}' has type {type.name}"

/-- The missing part in words. -/
def MissingField.message : MissingField → String
  | indexList side => s!"subgraph {side.name} list"
  | tensors => "subgraph tensors"
  | elementType => "tensor elem_type"

/-- The word for a parameter. -/
def Parameter.name : Parameter → String
  | scale => "scale"
  | zeroPoint => "zero point"

/-- The cause in words. -/
def Unsupported.message : Unsupported → String
  | literal name => s!"{name} has no C float literal"
  | unknownFormat path => s!"cannot determine model format of '{path}'"
  | notATensor name => s!"graph value '{name}' is not a tensor"
  | notConstant operation parameter name output =>
      s!"{operation} {parameter.name} '{name}' for '{output}' "
        ++ "is not an initializer"
  | elementType parameter type =>
      s!"quantization {parameter.name} of type {type.name}"

namespace Error

/-- The kind of an error, as it stands in front of the cause; the two kinds
about an index have none. -/
def kind : Error → String
  | file _ => "I/O error: "
  | protobuf _ => "Protobuf decode error: "
  | flatBuffer _ => "FlatBuffer verification error: "
  | invalidModel _ => "Invalid model: "
  | missingField _ => "Missing required field: "
  | unsupported _ => "Unsupported feature: "
  | slotIndex .. => ""
  | dimensionIndex .. => ""

/-- The cause in words, without the kind of the error. -/
def cause : Error → String
  | file fault => fault.message
  | protobuf fault => fault.message
  | flatBuffer fault => fault.message
  | invalidModel cause => cause.message
  | missingField field => field.message
  | unsupported cause => cause.message
  | slotIndex side index count =>
      s!"{side.name} index {index} out of range, model has {count}"
  | dimensionIndex tensor index rank =>
      s!"dimension {index} requested from tensor '{tensor}' of rank {rank}"

/-- The error in words. -/
def message (e : Error) : String := e.kind ++ e.cause

/-- The faults that an error passes on, from the one it wraps to the first
one. An error of the program's own has none. -/
def sources : Error → List String
  | file fault => [fault.message]
  | protobuf fault => [fault.message]
  | flatBuffer fault =>
      fault.message ::
        match fault.defect with
        | .text _ _ utf8 => [utf8.message]
        | _ => []
  | _ => []

end Error

end DetectorHeader
