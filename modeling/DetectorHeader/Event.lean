/-
What happens on the way to a header: the events of the log, each with its
level, its message and its fields, and the requests made to a runtime.
-/
import DetectorHeader.Error
import DetectorHeader.Format
import DetectorHeader.Params

namespace DetectorHeader

/-- How important an event is. -/
inductive Level
  | warning | info | debug
  deriving DecidableEq

/-- The name of a level in the log. -/
def Level.title : Level → String
  | .warning => "WARN"
  | .info => "INFO"
  | .debug => "DEBUG"

/-- Events of the log. -/
inductive Event
  /-- A search for parameters begins. -/
  | search (path : String)
  /-- The bytes of a model are at hand and its format is known. -/
  | load (path : String) (format : Format) (bytes : Nat)
  /-- A TFLite model without its identifier. -/
  | noIdentifier
  /-- A TFLite model with more subgraphs than the one that is used. -/
  | severalSubgraphs (count : Nat)
  /-- A tensor with parameters for each channel; the axis is known in a
  TFLite model. -/
  | perChannel (tensor : String) (channels : Nat) (axis : Option Int32)
  | loaded (inputs outputs : Nat)
  /-- A model with more slots on a side than the one that is used. -/
  | severalSlots (side : Side) (count : Nat)
  | selected (input output : Slot)
  /-- An input that may have its channels before height and width. -/
  | channelsFirst (tensor : String) (shape : List Int64)
  /-- An output without per-tensor parameters. -/
  | unquantized (tensor : String)
  | derived (params : Params)
  | written (path : String) (bytes : Nat)
  deriving DecidableEq

/-- A shape in brackets. -/
def showShape (shape : List Int64) : String :=
  "[" ++ ", ".intercalate (shape.map fun d => toString d.toInt) ++ "]"

namespace Event

/-- How important the event is. -/
def level : Event → Level
  | search _ => .info
  | perChannel .. | severalSlots .. | channelsFirst .. | unquantized _ =>
      .warning
  | _ => .debug

/-- The message of an event. -/
def message : Event → String
  | search path => s!"loading model {path}"
  | load .. => "loading model"
  | noIdentifier => "buffer has no TFL3 identifier, reading it anyway"
  | severalSubgraphs _ => "model has several subgraphs, using the first"
  | perChannel .. =>
      "tensor is quantized per channel, reporting scale 0 and zero point 0"
  | loaded .. => "model loaded"
  | severalSlots side count =>
      s!"model has {count} {side.name}s, only {side.name} 0 is read"
  | selected .. => "selected tensors"
  | channelsFirst .. =>
      "input looks like (batch, channel, height, width), "
        ++ "height/width are still read from dimensions 1 and 2"
  | unquantized _ =>
      "output has no per-tensor quantization, scale and zero point will be 0"
  | derived _ => "derived parameters"
  | written .. => "header written"

/-- The value of a field of an event. -/
inductive Value
  | integer (value : Int)
  | text (text : String)
  deriving DecidableEq

/-- The fields of an event, by name. -/
def fields : Event → List (String × Value)
  | load path format bytes =>
      [("path", .text path), ("format", .text format.title),
        ("bytes", .integer bytes)]
  | severalSubgraphs count => [("count", .integer count)]
  | perChannel tensor channels axis =>
      [("tensor", .text tensor), ("channels", .integer channels)]
        ++ axis.toList.map fun a => ("axis", .integer a.toInt)
  | loaded inputs outputs =>
      [("inputs", .integer inputs), ("outputs", .integer outputs)]
  | selected input output =>
      [("input", .text input.name),
        ("input_shape", .text (showShape input.shape)),
        ("output", .text output.name),
        ("output_shape", .text (showShape output.shape))]
  | channelsFirst tensor shape =>
      [("tensor", .text tensor), ("shape", .text (showShape shape))]
  | unquantized tensor => [("tensor", .text tensor)]
  | derived params => [("params", .text params.describe)]
  | written path bytes =>
      [("path", .text path), ("bytes", .integer bytes)]
  | search _ | noIdentifier | severalSlots .. => []

end Event

/-- What a runtime is asked for. -/
inductive Request
  | load (path : String)
  | count (side : Side)
  | slot (side : Side) (index : Nat)
  deriving DecidableEq

/-- The request on one line. -/
def Request.describe : Request → String
  | load path => s!"load {path}"
  | count side => s!"{side.name}_count"
  | slot side index => s!"{side.name}_descriptor {index}"

end DetectorHeader
