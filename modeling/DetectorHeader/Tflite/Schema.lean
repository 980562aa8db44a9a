/-
The part of a TFLite model that describes inputs and outputs. Fields that can
be absent are `Option`s, and an absent list is told apart from an empty one;
an absent number is 0.

What a model and a subgraph are lists of is left open: their elements, or the
places where these are in a buffer. So one definition serves whole models and
a reader that looks only at the subgraph and the tensors it needs.
-/
import DetectorHeader.Binary32.Basic

namespace DetectorHeader.Tflite

/-- The quantization of a tensor: scales and zero points, one of each for the
tensor or one for each channel along the quantized dimension. -/
structure QuantizationTable where
  scale : Option (List Binary32) := none
  zeroPoint : Option (List Int64) := none
  quantizedDimension : Int32 := 0
  deriving DecidableEq

/-- A tensor: element type by its number, and `shapeSignature` the shape with
`-1` for dimensions that vary. -/
structure Tensor where
  name : Option String := none
  shape : Option (List Int32) := none
  type : Int8 := 0
  buffer : UInt32 := 0
  shapeSignature : Option (List Int32) := none
  quantization : Option QuantizationTable := none
  deriving DecidableEq

/-- A subgraph with its tensors; inputs and outputs are indices of them. -/
structure Subgraph (τ : Type) where
  name : Option String := none
  inputs : Option (List Int32) := none
  outputs : Option (List Int32) := none
  tensors : Option (List τ) := none
  deriving DecidableEq

/-- A model with its subgraphs, of which the first is the one that runs. -/
structure Model (σ : Type) where
  version : UInt32 := 0
  description : Option String := none
  subgraphs : Option (List σ) := none
  deriving DecidableEq

/-- A model with all that it describes. -/
abbrev WholeModel := Model (Subgraph Tensor)

/-- What stands at bytes 4 to 8 of a model: `TFL3`. -/
def identifier : List UInt8 := [0x54, 0x46, 0x4C, 0x33]

/-- Whether the bytes carry the identifier. -/
def hasIdentifier (bytes : List UInt8) : Bool :=
  (bytes.drop 4).take 4 = identifier

-- ============================================================= vtables

/-! Where a vtable tells the places of the fields. -/

namespace Vtable

def modelVersion : Nat := 4
def modelSubgraphs : Nat := 8
def modelDescription : Nat := 10

def subgraphTensors : Nat := 4
def subgraphInputs : Nat := 6
def subgraphOutputs : Nat := 8
def subgraphName : Nat := 12

def tensorShape : Nat := 4
def tensorType : Nat := 6
def tensorBuffer : Nat := 8
def tensorName : Nat := 10
def tensorQuantization : Nat := 12
def tensorShapeSignature : Nat := 18

def quantizationScale : Nat := 8
def quantizationZeroPoint : Nat := 10
def quantizationDimension : Nat := 16

end Vtable

end DetectorHeader.Tflite
