/-
What a header needs of an ONNX model: the slots of its graph's inputs and
outputs. A constant that is also listed as an input is no input, and the
quantization of an output is that of the operation that gives it.
-/
import DetectorHeader.Onnx.Constant
import DetectorHeader.Onnx.Decode
import DetectorHeader.Recorded

namespace DetectorHeader.Onnx

open Recorded

/-- The inputs and outputs of a model, and what it says of itself. -/
structure Metadata where
  modelVersion : Int64
  producerName : String
  producerVersion : String
  inputs : List Slot
  outputs : List Slot
  deriving DecidableEq

-- ================================================================ names

/-- The constant of the given name. Of several the last one counts, and the
empty name is nobody's. -/
def Graph.constant? (g : Graph) (name : String) : Option Tensor :=
  if name = "" then none
  else g.initializer.reverse.find? (·.name = some name)

/-- The operation that gives a value: the first with its name among the
outputs. -/
def Graph.producer? (g : Graph) (name : String) : Option Node :=
  g.node.find? (·.output.contains name)

/-- The constant for a parameter of the operation that gives `output`. -/
def Graph.parameter (g : Graph) (operation : String) (parameter : Parameter)
    (name output : String) : Except Error Tensor :=
  match g.constant? name with
  | some t => .ok t
  | none =>
      .error (.unsupported (.notConstant operation parameter name output))

-- ========================================================= quantization

/-- The quantization of a graph value. It has one if it is the output of a
quantizing or dequantizing operation, of which scale and zero point have to
be constants; without a zero point it is 0. -/
def Graph.quantization (g : Graph) (name : String) :
    Recorded Quantization := do
  let some node := g.producer? name | return .none
  let operation := node.opType.getD ""
  if operation ≠ "QuantizeLinear" && operation ≠ "DequantizeLinear" then
    return .none
  let scale ← ofExcept
    (g.parameter operation .scale (node.input[1]?.getD "") name)
  let zeroPoint ← ofExcept <|
    match node.input[2]?.getD "" with
    | "" => .ok none
    | z => some <$> g.parameter operation .zeroPoint z name
  let scales ← ofExcept scale.scales
  let zeroPoints ← ofExcept <|
    match zeroPoint with
    | none => .ok [0]
    | some t => t.zeroPoints
  match scales, zeroPoints with
  | [scale], [zeroPoint] => return ⟨scale, zeroPoint⟩
  | _, _ =>
      log (.perChannel name scales.length none)
      return .none

-- ================================================================ slots

/-- What is known of a dimension; `-1` if it is not known or only named. -/
def Dimension.size (d : Dimension) : Int64 :=
  match d.extent with
  | some (.value v) => v
  | _ => -1

/-- The name of a value; an absent one is empty. -/
def ValueInfo.nameText (v : ValueInfo) : String := v.name.getD ""

/-- The slot that a graph value makes. It has to be a tensor with a defined
element type. -/
def ValueInfo.slot (v : ValueInfo) (quantization : Quantization) :
    Except Error Slot :=
  match v.type.bind (·.tensor) with
  | none => .error (.unsupported (.notATensor v.nameText))
  | some t =>
      match t.elementType with
      | none => .error (.missingField .elementType)
      | some 0 => .error (.invalidModel .undefinedElementType)
      | some code => .ok {
          name := v.nameText
          shape := (t.shape.elim [] (·.dims)).map Dimension.size
          type := .ofOnnxCode code
          quantization }

/-- Whether a listed input is fed from outside: it has a name, and is no
constant. -/
def Graph.isFed (g : Graph) (v : ValueInfo) : Bool :=
  v.nameText ≠ "" && (g.constant? v.nameText).isNone

/-- The metadata of a model that is at hand as a whole. -/
def Metadata.ofModel (model : Model) : Recorded Metadata := do
  let some g := model.graph | fail (.invalidModel .noGraph)
  let inputs ← (g.input.filter g.isFed).mapM fun v =>
    ofExcept (v.slot .none)
  let outputs ← g.output.mapM fun v => do
    ofExcept (v.slot (← g.quantization v.nameText))
  return {
    modelVersion := model.modelVersion.getD 0
    producerName := model.producerName.getD ""
    producerVersion := model.producerVersion.getD ""
    inputs, outputs }

/-- Reads the metadata in the bytes of a model. -/
def Metadata.ofBytes (bytes : Bytes) : Recorded Metadata := do
  ofModel (← ofExcept ((Model.decode bytes).mapError .protobuf))

end DetectorHeader.Onnx
