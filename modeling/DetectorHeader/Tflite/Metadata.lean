/-
What a header needs of a TFLite model: the slots that the inputs and outputs
of its first subgraph refer to. The loader looks at the buffer only where
these lead; `Metadata.ofModel` says over a whole model what it finds there.
-/
import DetectorHeader.Recorded
import DetectorHeader.Tflite.Read

namespace DetectorHeader.Tflite

open Recorded

/-- The inputs and outputs of a model, and what it says of itself. -/
structure Metadata where
  version : UInt32
  description : String
  inputs : List Slot
  outputs : List Slot
  deriving DecidableEq

/-- The per-tensor quantization: exactly one scale and one zero point. -/
def QuantizationTable.perTensor (tensor : String) (q : QuantizationTable) :
    Recorded Quantization :=
  match q.scale, q.zeroPoint with
  | some [scale], some [zeroPoint] => return ⟨scale, zeroPoint⟩
  | some scale, _ => do
      if 1 < scale.length then
        log (.perChannel tensor scale.length (some q.quantizedDimension))
      return .none
  | none, _ => return .none

/-- The slot that a tensor makes. -/
def Tensor.slot (t : Tensor) : Recorded Slot := do
  let name := t.name.getD ""
  let quantization ←
    match t.quantization with
    | some q => q.perTensor name
    | none => pure .none
  return {
    name
    shape := (t.shape.getD []).map Int32.toInt64
    type := .ofTfliteCode t.type
    quantization }

/-- The slots of one side: the tensors at the indices that are listed for it.
`read` gets a tensor from the element that stands for it. -/
def slots {τ : Type} (read : τ → Except Error Tensor) (side : Side)
    (indices : Option (List Int32)) (tensors : Option (List τ)) :
    Recorded (List Slot) :=
  match indices, tensors with
  | none, _ => fail (.missingField (.indexList side))
  | some _, none => fail (.missingField .tensors)
  | some indices, some tensors =>
      let tensors := tensors.toArray
      indices.mapM fun index => do
        if index < 0 then fail (.invalidModel .negativeIndex)
        match tensors[index.toInt.toNat]? with
        | none =>
            fail (.invalidModel
              (.danglingTensor side index.toInt.toNat tensors.size))
        | some t => (← ofExcept (read t)).slot

/-- The metadata of a model. `first` gets its first subgraph, and `read` the
tensors of that, from the elements that stand for them. -/
def Metadata.collect {σ τ : Type} (first : σ → Except Error (Subgraph τ))
    (read : τ → Except Error Tensor) (model : Model σ) :
    Recorded Metadata := do
  match model.subgraphs.getD [] with
  | [] => fail (.invalidModel .noSubgraph)
  | s :: others =>
      if others ≠ [] then
        log (.severalSubgraphs (others.length + 1))
      let g ← ofExcept (first s)
      let inputs ← slots read .input g.inputs g.tensors
      let outputs ← slots read .output g.outputs g.tensors
      return {
        version := model.version
        description := model.description.getD ""
        inputs, outputs }

/-- The metadata of a model that is at hand as a whole. -/
def Metadata.ofModel (model : WholeModel) : Recorded Metadata :=
  collect .ok .ok model

/-- Verifies the bytes of a model and reads its metadata. -/
def Metadata.ofBytes (bytes : Bytes) : Recorded Metadata := do
  if !hasIdentifier bytes then log .noIdentifier
  let b : FlatBuffer.Buffer := bytes.toArray
  let verified {α : Type} (x : Except FlatBuffer.Fault α) : Except Error α :=
    x.mapError .flatBuffer
  ofExcept (verified (verify b))
  let model ← ofExcept (verified (checked (Read.root .place b)))
  collect (fun place => verified (checked (Read.subgraph .place b place)))
    (fun place => verified (checked (Read.tensor b place))) model

end DetectorHeader.Tflite
