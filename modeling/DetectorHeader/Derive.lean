/-
From an input and an output to the parameters, and from a model to its first
input and output.

The input is taken to have height and width as dimensions 1 and 2. An input
that looks different gives a warning and the same dimensions.
-/
import DetectorHeader.Recorded

namespace DetectorHeader

/-- The dimension at an index. -/
def Slot.dim (slot : Slot) (index : Nat) : Except Error Int64 :=
  match slot.shape[index]? with
  | some d => .ok d
  | none => .error (.dimensionIndex slot.name index slot.rank)

/-- The slot at an index of the list for a side. -/
def Side.pick (side : Side) (slots : List Slot) (index : Nat) :
    Except Error Slot :=
  match slots[index]? with
  | some slot => .ok slot
  | none => .error (.slotIndex side index slots.length)

/-- The values of a detection before its class scores: a box of four and the
score of there being an object. -/
def boxFields : Int := 5

/-- The number of classes in an output with `values` values per detection. -/
def classCount (values : Int64) : Except Error Int64 :=
  let classes := values.toInt - boxFields
  if classes < Int64.minValue.toInt then
    .error (.invalidModel (.boxFields values))
  else .ok (.ofInt classes)

/-- Whether a shape looks like batch, channels, height and width: one or
three channels, and larger dimensions after them. -/
def looksChannelsFirst : List Int64 → Bool
  | [_, channels, height, width] =>
      (channels = 1 || channels = 3) && 4 < height && 4 < width
  | _ => false

open Recorded

/-- The parameters that an input and an output give. -/
def Params.ofSlots (input output : Slot) : Recorded Params := do
  let inputHeight ← ofExcept (input.dim 1)
  let inputWidth ← ofExcept (input.dim 2)
  if looksChannelsFirst input.shape then
    log (.channelsFirst input.name input.shape)
  let detections ← ofExcept (output.dim 1)
  let values ← ofExcept (output.dim 2)
  let classes ← ofExcept (classCount values)
  if !output.quantization.isQuantized then log (.unquantized output.name)
  return {
    inputHeight, inputWidth
    scale := output.quantization.scale
    zeroPoint := output.quantization.zeroPoint
    classes, detections }

-- ============================================================== sources

/-- Where models come from, and how they are asked for their inputs and
outputs. -/
structure ModelSource (Handle : Type) where
  load : (path : String) → Recorded Handle
  count : Handle → Side → Recorded Nat
  slot : Handle → Side → (index : Nat) → Recorded Slot

/-- The source that has the same inputs and outputs at every path, and
records what it is asked for. -/
def ModelSource.fixed (inputs outputs : List Slot) : ModelSource Unit :=
  let slots : Side → List Slot
    | .input => inputs
    | .output => outputs
  { load := fun path => request (.load path)
    count := fun _ side => do
      request (.count side)
      return (slots side).length
    slot := fun _ side index => do
      request (.slot side index)
      ofExcept (side.pick (slots side) index) }

/-- The parameters of the model at a path, from its first input and output.
If `strict`, it must have no others. -/
def find {Handle : Type} (source : ModelSource Handle) (strict : Bool)
    (path : String) : Recorded Params := do
  log (.search path)
  let model ← source.load path
  let inputs ← source.count model .input
  let outputs ← source.count model .output
  log (.loaded inputs outputs)
  if strict && (inputs ≠ 1 || outputs ≠ 1) then
    fail (.invalidModel (.slotCounts inputs outputs))
  if 1 < inputs then log (.severalSlots .input inputs)
  if 1 < outputs then log (.severalSlots .output outputs)
  let output ← source.slot model .output 0
  let input ← source.slot model .input 0
  log (.selected input output)
  let params ← Params.ofSlots input output
  log (.derived params)
  return params

end DetectorHeader
