/-
A detector that is stored in both formats.

`Detector` is what the two files have in common: the shapes of one input and
one output, and the quantization of the output. The TFLite model has it in
the output tensor; in the ONNX model the output comes from an operation that
dequantizes, and its scale and zero point are constants. The parameters that
are found in the two files agree (`Detector.formats_agree`).
-/
import DetectorHeader.Onnx.Encode
import DetectorHeader.Proofs.Derive
import DetectorHeader.Proofs.Onnx.Loader
import DetectorHeader.Proofs.Onnx.Quantization
import DetectorHeader.Proofs.Protobuf.Size
import DetectorHeader.Proofs.Tflite.Loader
import DetectorHeader.Proofs.Tflite.RoundTrip

namespace DetectorHeader

open FlatBuffer Recorded

/-- A detector: the shapes of its input and output, and the quantization of
the output. -/
structure Detector where
  inputShape : List Int32
  outputShape : List Int32
  scale : Binary32
  zeroPoint : Int8

namespace Detector

-- =================================================================== models

/-- The tensors of a detector. -/
def tensors (d : Detector) : List Tflite.Tensor := [
  { name := some "serving_default_input_1:0"
    shape := some d.inputShape
    type := 3 },
  { name := some "StatefulPartitionedCall:0"
    shape := some d.outputShape
    type := 9
    quantization := some {
      scale := some [d.scale]
      zeroPoint := some [d.zeroPoint.toInt64] } }]

/-- A detector as a TFLite model. -/
def tflite (d : Detector) : Tflite.WholeModel :=
  .ofParts none none
    (some [{
      inputs := some [0]
      outputs := some [1]
      tensors := some d.tensors }])

/-- A shape of which every dimension is known. -/
def shape (dims : List Int32) : Onnx.Shape where
  dims := dims.map fun d => { extent := some (.value d.toInt64) }

/-- A graph value of the given name and dimensions. -/
def value (name : String) (dims : List Int32) : Onnx.ValueInfo where
  name := some name
  type := some { tensor := some {
    elementType := some 1
    shape := some (shape dims) } }

/-- A constant of the given type, with its elements in raw data. -/
def constant (name : String) (type : Int32) (raw : Bytes) : Onnx.Tensor where
  name := some name
  dataType := some type
  rawData := some raw

/-- The operation that gives the output. -/
def dequantize : Onnx.Node where
  input := ["output0_quantized", "output0_scale", "output0_zero_point"]
  output := ["output0"]
  name := some "output0_DequantizeLinear"
  opType := some "DequantizeLinear"

/-- The constant that holds the scale. -/
def scaleTensor (d : Detector) : Onnx.Tensor :=
  constant "output0_scale" 1 (LittleEndian.encode 4 d.scale.bits.toNat)

/-- The constant that holds the zero point. -/
def zeroPointTensor (d : Detector) : Onnx.Tensor :=
  constant "output0_zero_point" 3
    (LittleEndian.encode 1 d.zeroPoint.toUInt8.toNat)

/-- The graph of a detector. -/
def graph (d : Detector) : Onnx.Graph where
  name := some "main"
  node := [dequantize]
  initializer := [d.scaleTensor, d.zeroPointTensor]
  input := [value "images" d.inputShape]
  output := [value "output0" d.outputShape]

/-- A detector as an ONNX model. -/
def onnx (d : Detector) : Onnx.Model where
  irVersion := some 8
  producerName := some "onnx-quantize"
  graph := some d.graph

-- ==================================================================== slots

/-- The quantization of the output. -/
def quantization (d : Detector) : Quantization :=
  ⟨d.scale, d.zeroPoint.toInt64⟩

/-- The slots of a detector in a TFLite model. -/
def tfliteSlot (d : Detector) : Side → Slot
  | .input =>
      ⟨"serving_default_input_1:0", d.inputShape.map Int32.toInt64, .uint8,
        .none⟩
  | .output =>
      ⟨"StatefulPartitionedCall:0", d.outputShape.map Int32.toInt64, .int8,
        d.quantization⟩

/-- The slots of a detector in an ONNX model. -/
def onnxSlot (d : Detector) : Side → Slot
  | .input =>
      ⟨"images", d.inputShape.map Int32.toInt64, .float32, .none⟩
  | .output =>
      ⟨"output0", d.outputShape.map Int32.toInt64, .float32, d.quantization⟩

/-- As a TFLite model a detector is loaded with its two slots. -/
theorem outcome_tflite_ofModel (d : Detector) :
    (Tflite.Metadata.ofModel d.tflite).outcome
      = .ok ⟨3, "", [d.tfliteSlot .input], [d.tfliteSlot .output]⟩ := rfl

/-- A graph value makes the slot that it was made for. -/
theorem value_slot (name : String) (dims : List Int32) (q : Quantization) :
    (value name dims).slot q
      = .ok ⟨name, dims.map Int32.toInt64, .float32, q⟩ := by
  show Except.ok (Slot.mk name
    ((dims.map _).map Onnx.Dimension.size) .float32 q) = _
  rw [List.map_map]
  rfl

/-- The quantization of the output is found in the graph. -/
theorem outcome_quantization (d : Detector) :
    (d.graph.quantization "output0").outcome = .ok d.quantization :=
  Onnx.Graph.outcome_quantization
    (rfl : d.graph.producer? "output0" = some dequantize) (.inr rfl) rfl
    (by decide)
    (rfl : d.graph.constant? "output0_scale" = some d.scaleTensor)
    (rfl : d.graph.constant? "output0_zero_point" = some d.zeroPointTensor)
    (Onnx.Tensor.scales_of_raw rfl rfl)
    (Onnx.Tensor.zeroPoints_of_raw rfl rfl)

/-- As an ONNX model a detector is loaded with its two slots. -/
theorem outcome_onnx_ofModel (d : Detector) :
    (Onnx.Metadata.ofModel d.onnx).outcome
      = .ok ⟨0, "onnx-quantize", "", [d.onnxSlot .input],
          [d.onnxSlot .output]⟩ := by
  have hfed : d.graph.input.filter d.graph.isFed
      = [value "images" d.inputShape] := rfl
  have houtput : d.graph.output = [value "output0" d.outputShape] := rfl
  have hname : (value "output0" d.outputShape).nameText = "output0" := rfl
  unfold Onnx.Metadata.ofModel
  show Recorded.outcome (do
    let inputs ← (d.graph.input.filter d.graph.isFed).mapM fun v =>
      ofExcept (v.slot .none)
    let outputs ← d.graph.output.mapM fun v => do
      ofExcept (v.slot (← d.graph.quantization v.nameText))
    pure (⟨0, "onnx-quantize", "", inputs, outputs⟩ : Onnx.Metadata)) = _
  simp only [hfed, houtput, List.mapM_cons, List.mapM_nil, value_slot,
    ofExcept_ok, pure_bind, bind_assoc]
  rw [hname, outcome_bind_of_ok d.outcome_quantization]
  rfl

-- ===================================================================== sizes

/-- The verifier looks at every dimension of a tensor. -/
theorem length_shape_le {d : Detector} {t : Tflite.Tensor} {shape : List Int32}
    (ht : t ∈ d.tensors) (hshape : t.shape = some shape) :
    4 * shape.length ≤ (Load.offsetTo d.tflite.load).bytes :=
  (Tflite.Tensor.shape_le_load hshape).trans
    ((Tflite.Subgraph.tensor_le_load rfl ht).trans
    ((Tflite.WholeModel.subgraph_le_load rfl List.mem_cons_self).trans
    (Nat.le_add_left _ _)))

open Protobuf Protobuf.Writer

/-- A shape takes up at most 24 bytes for each dimension. -/
theorem length_shape_encode_le (dims : List Int32) :
    (shape dims).encode.length ≤ 24 * dims.length := by
  have hdim : ∀ d : Int32, (blobRecord 1 (Onnx.Dimension.encode
      { extent := some (.value d.toInt64) })).length ≤ 24 := fun d =>
    length_blobRecord_le 1 (by decide)
      (length_varintRecord_le 1 (by decide) (length_int64_le _))
  have hdims := length_repeated_le hdim dims
  unfold Onnx.Shape.encode shape
  unfold repeated at hdims ⊢
  rwa [List.flatMap_map]

/-- A graph value takes up little more than its dimensions and its name. -/
theorem length_value_encode_le (name : String) (dims : List Int32) {n : Nat}
    (hname : (Utf8.encode name).length = n) :
    (value name dims).encode.length ≤ 192 * dims.length + 2 * n + 60 := by
  have helement : (varintRecord 1 (int32 1)).length ≤ 11 :=
    length_varintRecord_le 1 (by decide) (length_int64_le _)
  have hshape := length_blobRecord_le 2 (by decide)
    (length_shape_encode_le dims)
  have htensor : (varintRecord 1 (int32 1)
      ++ blobRecord 2 (shape dims).encode).length
      ≤ 11 + (2 * (24 * dims.length) + 2) := by
    rw [List.length_append]
    exact Nat.add_le_add helement hshape
  have htype := length_blobRecord_le 2 (by decide)
    (length_blobRecord_le 1 (by decide) htensor)
  have hname' : (textRecord 1 name).length ≤ 2 * n + 2 :=
    length_blobRecord_le 1 (by decide) hname.le
  show (textRecord 1 name ++ _).length ≤ _
  rw [List.length_append]
  refine (Nat.add_le_add hname' htype).trans ?_
  omega

/-- A constant takes up little more than its name and its contents. -/
theorem length_constant_encode_le (name : String) (type : Int32) {raw : Bytes}
    {n k : Nat} (hname : (Utf8.encode name).length = n)
    (hraw : raw.length = k) :
    (constant name type raw).encode.length ≤ 2 * n + 2 * k + 15 := by
  have htype : (varintRecord 2 (int32 type)).length ≤ 11 :=
    length_varintRecord_le 2 (by decide) (length_int64_le _)
  have hname' : (textRecord 8 name).length ≤ 2 * n + 2 :=
    length_blobRecord_le 8 (by decide) hname.le
  have hraw' : (blobRecord 9 raw).length ≤ 2 * k + 2 :=
    length_blobRecord_le 9 (by decide) hraw.le
  unfold Onnx.Tensor.encode constant
  simp only [repeated, List.flatMap_nil, packed, List.isEmpty_nil, if_true,
    Writer.optional, List.length_append, List.length_nil]
  omega

/-- So a graph is not longer than its shapes allow. -/
theorem length_graph_encode_le (d : Detector) :
    d.graph.encode.length
      ≤ 384 * (d.inputShape.length + d.outputShape.length) + 900 := by
  -- Only the shapes can be of any length.
  have hnode : (blobRecord 1 dequantize.encode).length ≤ 200 := by
    decide +kernel
  have hname : (textRecord 2 "main").length ≤ 10 := by
    decide +kernel
  have hscale : (blobRecord 5 d.scaleTensor.encode).length
      ≤ 2 * (2 * 13 + 2 * 4 + 15) + 2 :=
    length_blobRecord_le 5 (by decide)
      (length_constant_encode_le "output0_scale" 1 (by decide +kernel)
        (LittleEndian.length_encode 4 _))
  have hzeroPoint : (blobRecord 5 d.zeroPointTensor.encode).length
      ≤ 2 * (2 * 18 + 2 * 1 + 15) + 2 :=
    length_blobRecord_le 5 (by decide)
      (length_constant_encode_le "output0_zero_point" 3 (by decide +kernel)
        (LittleEndian.length_encode 1 _))
  have hinput : (blobRecord 11 (value "images" d.inputShape).encode).length
      ≤ 2 * (192 * d.inputShape.length + 2 * 6 + 60) + 2 :=
    length_blobRecord_le 11 (by decide)
      (length_value_encode_le "images" _ (n := 6) (by decide +kernel))
  have houtput : (blobRecord 12 (value "output0" d.outputShape).encode).length
      ≤ 2 * (192 * d.outputShape.length + 2 * 7 + 60) + 2 :=
    length_blobRecord_le 12 (by decide)
      (length_value_encode_le "output0" _ (n := 7) (by decide +kernel))
  unfold Onnx.Graph.encode graph
  simp only [repeated, Writer.optional, List.flatMap_cons, List.flatMap_nil,
    List.length_append, List.length_nil]
  omega

/-- The ONNX model is not much longer than its shapes. -/
theorem length_onnx_encode_le (d : Detector) :
    d.onnx.encode.length
      ≤ 768 * (d.inputShape.length + d.outputShape.length) + 2000 := by
  have hversion : (varintRecord 1 (int64 8)).length ≤ 11 :=
    length_varintRecord_le 1 (by decide) (length_int64_le 8)
  have hproducer : (textRecord 2 "onnx-quantize").length ≤ 20 := by
    decide +kernel
  have hgraph := length_blobRecord_le 7 (by decide) d.length_graph_encode_le
  unfold Onnx.Model.encode onnx
  simp only [Writer.optional, List.length_append, List.length_nil]
  omega

-- ==================================================================== files

variable {contents : String → Except FileFault Bytes} {path : String}

/-- What the TFLite model is loaded as. -/
theorem outcome_tflite_ofBytes {d : Detector} (h : d.tflite.WithinLimits) :
    (Tflite.Metadata.ofBytes d.tflite.encode).outcome
      = .ok ⟨3, "", [d.tfliteSlot .input], [d.tfliteSlot .output]⟩ := by
  rw [Tflite.Metadata.ofBytes_eq (Tflite.WholeModel.decode_encode h),
    Tflite.WholeModel.hasIdentifier_encode h.length]
  exact d.outcome_tflite_ofModel

/-- What is found in a file with the TFLite model. -/
theorem outcome_find_tflite {d : Detector} (h : d.tflite.WithinLimits)
    (hfile : contents path = .ok d.tflite.encode) (strict : Bool) :
    (find (LoadedModel.source (some .tflite) contents) strict path).outcome
      = (Params.ofSlots (d.tfliteSlot .input)
          (d.tfliteSlot .output)).outcome := by
  have hload : ((LoadedModel.source (some .tflite) contents).load path).outcome
      = .ok (.tflite ⟨3, "", [d.tfliteSlot .input],
          [d.tfliteSlot .output]⟩) := by
    rw [LoadedModel.outcome_load hfile]
    unfold LoadedModel.ofBytes
    rw [outcome_map, outcome_tflite_ofBytes h]
    rfl
  exact LoadedModel.outcome_find hload rfl rfl strict

/-- What is found in a file with the ONNX model, which is short enough to be
read if the TFLite model is. -/
theorem outcome_find_onnx {d : Detector} (h : d.tflite.WithinLimits)
    (hfile : contents path = .ok d.onnx.encode) (strict : Bool) :
    (find (LoadedModel.source (some .onnx) contents) strict path).outcome
      = (Params.ofSlots (d.onnxSlot .input) (d.onnxSlot .output)).outcome := by
  have hshort : Short d.onnx.encode := by
    have hlength := d.length_onnx_encode_le
    have hinput := length_shape_le (d := d) List.mem_cons_self rfl
    have houtput := length_shape_le (d := d)
      (List.mem_cons_of_mem _ List.mem_cons_self) rfl
    have hbytes := h.bytes
    unfold maxApparentSize at hbytes
    unfold Short
    omega
  have hload : ((LoadedModel.source (some .onnx) contents).load path).outcome
      = .ok (.onnx ⟨0, "onnx-quantize", "", [d.onnxSlot .input],
          [d.onnxSlot .output]⟩) := by
    rw [LoadedModel.outcome_load hfile]
    unfold LoadedModel.ofBytes
    rw [outcome_map, Onnx.Metadata.ofBytes_encode hshort]
    exact congrArg (LoadedModel.onnx <$> ·) d.outcome_onnx_ofModel
  exact LoadedModel.outcome_find hload rfl rfl strict

/-- The parameters of a detector are the same in both formats, and with them
the header; or there are none in either, for the lack of the same dimension. -/
theorem formats_agree (d : Detector) (strict : Bool)
    {tflitePath onnxPath : String} (hlimits : d.tflite.WithinLimits)
    (htflite : contents tflitePath = .ok d.tflite.encode)
    (honnx : contents onnxPath = .ok d.onnx.encode) :
    ∃ x y,
      (find (LoadedModel.source (some .tflite) contents) strict
        tflitePath).outcome = x
      ∧ (find (LoadedModel.source (some .onnx) contents) strict
        onnxPath).outcome = y
      ∧ Agree x y
      ∧ x.toOption.map Header.render = y.toOption.map Header.render := by
  have hagree : Agree (Params.ofSlots (d.tfliteSlot .input)
      (d.tfliteSlot .output)).outcome
      (Params.ofSlots (d.onnxSlot .input) (d.onnxSlot .output)).outcome :=
    Params.ofSlots_agree rfl rfl rfl rfl
  exact ⟨_, _, outcome_find_tflite hlimits htflite strict,
    outcome_find_onnx hlimits honnx strict, hagree, hagree.render⟩

/-- A detector of 80 classes. -/
def sample : Detector where
  inputShape := [1, 640, 640, 3]
  outputShape := [1, 6300, 85]
  scale := ⟨0x3B807358⟩
  zeroPoint := -128

/-- A directory with the detector in both formats. -/
def sampleFiles (path : String) : Except FileFault Bytes :=
  if path = "model.tflite" then .ok sample.tflite.encode
  else .ok sample.onnx.encode

/-- The detector has the same header in both formats. -/
theorem sample_formats_agree :
    ∃ x y,
      (find (LoadedModel.source (some .tflite) sampleFiles) true
        "model.tflite").outcome = x
      ∧ (find (LoadedModel.source (some .onnx) sampleFiles) true
        "model.onnx").outcome = y
      ∧ Agree x y
      ∧ x.toOption.map Header.render = y.toOption.map Header.render :=
  sample.formats_agree true
    ⟨by decide +kernel, by decide +kernel, by decide +kernel⟩
    (if_pos rfl) (if_neg (by decide))

end Detector

end DetectorHeader
