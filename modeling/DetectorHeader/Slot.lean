/-
The inputs and outputs of a model, as far as a header needs them: name,
shape, element type and the per-tensor quantization.
-/
import DetectorHeader.Binary32.Round
import DetectorHeader.DataType

namespace DetectorHeader

/-- Affine quantization: the real value is `scale · (stored - zeroPoint)`.
A tensor that is not quantized, or quantized per channel, has scale 0 and
zero point 0. -/
structure Quantization where
  scale : Binary32
  zeroPoint : Int64
  deriving DecidableEq

namespace Quantization

/-- The quantization of a tensor that has none. -/
def none : Quantization := ⟨.zero, 0⟩

/-- Whether there are per-tensor parameters. A scale of either zero says
there are not, whatever the zero point. -/
def isQuantized (q : Quantization) : Bool := !q.scale.isZero

/-- Whether the parameters are those of an unquantized tensor, with both
zeros taken for one. -/
def isNone (q : Quantization) : Bool := q.scale.isZero && q.zeroPoint = 0

/-- The real value of a stored integer. The difference is exact; it is
rounded to single precision, and then the product is. -/
def dequantize (q : Quantization) (stored : Int64) : Binary32 :=
  q.scale.mul (.ofInt (stored.toInt - q.zeroPoint.toInt))

end Quantization

/-- The two lists that a model's slots are in. -/
inductive Side
  | input | output
  deriving DecidableEq

/-- The word for one slot of a side. -/
def Side.name : Side → String
  | input => "input"
  | output => "output"

/-- An input or output of a model. -/
structure Slot where
  name : String
  /-- The dimensions; `-1` stands for one that is not known. -/
  shape : List Int64
  type : DataType
  quantization : Quantization
  deriving DecidableEq

/-- The number of dimensions. -/
def Slot.rank (slot : Slot) : Nat := slot.shape.length

end DetectorHeader
