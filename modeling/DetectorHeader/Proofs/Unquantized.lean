/-
Zero points of what is not quantized (`LoadedModel.unquantized_zeroPoint`).

A tensor that is not quantized has scale 0 and zero point 0, and a warning
about the output of a detector says so. A loader goes by the number of scales
and zero points alone. So a model that stores the scale 0 and a zero point, one
of each, is loaded with that zero point; and as it is not quantized by its
scale, the warning is given and the zero point is kept
(`zeroScale_zeroPoint_ne`). There is no other way to a zero point without a
quantization.
-/
import DetectorHeader.Proofs.CrossFormat
import DetectorHeader.Proofs.Listed

namespace DetectorHeader

open Recorded

-- ============================================================== parameters

/-- The quantization of the output goes into the parameters as it is, and a
warning is given if it is none. -/
theorem Params.ofSlots_quantization {input output : Slot} {p : Params}
    (h : (ofSlots input output).outcome = .ok p) :
    p.scale = output.quantization.scale
      ∧ p.zeroPoint = output.quantization.zeroPoint
      ∧ (ofSlots input output).events
        = (if looksChannelsFirst input.shape then
            [.channelsFirst input.name input.shape] else [])
          ++ (if !output.quantization.isQuantized then
            [.unquantized output.name] else []) := by
  unfold ofSlots at h ⊢
  obtain ⟨height, hheight, h⟩ := outcome_bind_eq_ok_iff.mp h
  obtain ⟨width, hwidth, h⟩ := outcome_bind_eq_ok_iff.mp h
  rw [outcome_when] at h
  obtain ⟨detections, hdetections, h⟩ := outcome_bind_eq_ok_iff.mp h
  obtain ⟨values, hvalues, h⟩ := outcome_bind_eq_ok_iff.mp h
  obtain ⟨classes, hclasses, h⟩ := outcome_bind_eq_ok_iff.mp h
  rw [outcome_when] at h
  cases h
  refine ⟨rfl, rfl, ?_⟩
  rw [events_bind_of_ok hheight, events_bind_of_ok hwidth]
  dsimp only
  rw [events_when, events_bind_of_ok hdetections, events_bind_of_ok hvalues,
    events_bind_of_ok hclasses, events_when]
  simp

/-- A tensor is not quantized iff its scale is zero, with either sign. -/
theorem Quantization.isQuantized_eq_false_iff {q : Quantization} :
    q.isQuantized = false ↔ q.scale.isZero = true := by
  unfold isQuantized
  rw [Bool.not_eq_false']

theorem Params.unquantized_mem_iff {input output : Slot} {p : Params}
    (h : (ofSlots input output).outcome = .ok p) :
    .unquantized output.name ∈ (ofSlots input output).events
      ↔ output.quantization.isQuantized = false := by
  rw [(ofSlots_quantization h).2.2]
  cases output.quantization.isQuantized with
  | false => simp
  | true => split <;> simp

namespace Listed

/-- There is one scale, which is zero, and one zero point, which is not. -/
def ZeroScale (e : Listed) : Prop :=
  ∃ c a z, e.channels = some c ∧ c.scales = [a] ∧ c.zeroPoints = [z]
    ∧ a.isZero = true ∧ z ≠ 0

/-- What is not quantized has zero point 0, unless a zero scale is stored with
another one; and what a warning says of the parameters of an output holds with
the same exception. -/
structure TellsUnquantized (e : Listed) (slot : Slot) : Prop where
  zeroPoint (h : slot.quantization.isQuantized = false) :
    slot.quantization.zeroPoint = 0 ↔ ¬ e.ZeroScale
  warned {input p} (hp : (Params.ofSlots input slot).outcome = .ok p) :
    .unquantized slot.name ∈ (Params.ofSlots input slot).events
      ↔ slot.quantization.isQuantized = false
  params {input p} (hp : (Params.ofSlots input slot).outcome = .ok p)
    (h : .unquantized slot.name ∈ (Params.ofSlots input slot).events) :
    p.scale.isZero = true ∧ (p.zeroPoint = 0 ↔ ¬ e.ZeroScale)

/-- One scale and one zero point are reported as they stand. -/
theorem quantization_of_single {e : Listed} {c : Channels} {a : Binary32}
    {z : Int64} (hc : e.channels = some c) (hscales : c.scales = [a])
    (hzeroPoints : c.zeroPoints = [z]) : e.quantization = ⟨a, z⟩ := by
  unfold quantization
  rw [hc, Option.elim_some]
  unfold Channels.quantization
  rw [hscales, hzeroPoints]

/-- A quantization as a whole is stored, or there is none. -/
theorem quantization_cases (e : Listed) :
    e.quantization = .none
      ∨ ∃ c a z, e.channels = some c ∧ c.scales = [a] ∧ c.zeroPoints = [z] := by
  unfold quantization
  cases hc : e.channels with
  | none => exact .inl rfl
  | some c =>
      by_cases hsingle : c.scales.length = 1 ∧ c.zeroPoints.length = 1
      · obtain ⟨a, ha⟩ := List.length_eq_one_iff.mp hsingle.1
        obtain ⟨z, hz⟩ := List.length_eq_one_iff.mp hsingle.2
        exact .inr ⟨c, a, z, rfl, ha, hz⟩
      · exact .inl (Channels.quantization_of_ne (not_and_or.mp hsingle))

/-- Without a quantization the zero point is zero, unless another one is stored
with a scale of zero. -/
theorem zeroPoint_eq_zero_iff {e : Listed}
    (h : e.quantization.isQuantized = false) :
    e.quantization.zeroPoint = 0 ↔ ¬ e.ZeroScale := by
  constructor
  · rintro hzero ⟨c, a, z, hc, hscales, hzeroPoints, -, hz⟩
    rw [quantization_of_single hc hscales hzeroPoints] at hzero
    exact hz hzero
  · intro hstored
    rcases e.quantization_cases with hnone | ⟨c, a, z, hc, hscales, hzs⟩
    · rw [hnone]
      rfl
    · rw [quantization_of_single hc hscales hzs] at h ⊢
      by_contra hz
      exact hstored ⟨c, a, z, hc, hscales, hzs,
        Quantization.isQuantized_eq_false_iff.mp h, hz⟩

theorem Makes.tellsUnquantized {e : Listed} {slot : Slot}
    (h : e.Makes slot) : e.TellsUnquantized slot where
  zeroPoint hunquantized := by
    rw [h.quantization] at hunquantized ⊢
    exact zeroPoint_eq_zero_iff hunquantized
  warned hp := Params.unquantized_mem_iff hp
  params hp hwarned := by
    have hunquantized := (Params.unquantized_mem_iff hp).mp hwarned
    obtain ⟨hscale, hzeroPoint, -⟩ := Params.ofSlots_quantization hp
    rw [hscale, hzeroPoint]
    refine ⟨Quantization.isQuantized_eq_false_iff.mp hunquantized, ?_⟩
    rw [h.quantization] at hunquantized ⊢
    exact zeroPoint_eq_zero_iff hunquantized

end Listed

namespace LoadedModel

/-- What is loaded for an input or output that is not quantized has the zero
point 0, unless the model stores one scale for it, which is zero, and one zero
point, which is not; and so have the parameters, of which a warning says that
their scale and zero point are 0. -/
theorem unquantized_zeroPoint {format : Format} {bytes : Bytes}
    {model : LoadedModel} (h : (ofBytes format bytes).outcome = .ok model)
    (side : Side) :
    ∃ listed, Lists bytes format side listed
      ∧ List.Forall₂ Listed.TellsUnquantized listed (model.slots side) := by
  obtain ⟨inputs, outputs, hinputs, houtputs, hmadeIn, hmadeOut, -⟩ :=
    ofBytes_listed h
  cases side with
  | input =>
      refine ⟨inputs, hinputs, hmadeIn.imp fun _ _ hmade => ?_⟩
      exact hmade.tellsUnquantized
  | output =>
      refine ⟨outputs, houtputs, hmadeOut.imp fun _ _ hmade => ?_⟩
      exact hmade.tellsUnquantized

/-- A detector of which the scale is zero, and the zero point is not. -/
def zeroScale : Detector where
  inputShape := [1, 640, 640, 3]
  outputShape := [1, 6300, 85]
  scale := .zero
  zeroPoint := -128

/-- The slots of the detector. -/
def zeroScaleSlots : LoadedModel :=
  .tflite ⟨3, "", [zeroScale.tfliteSlot .input],
    [zeroScale.tfliteSlot .output]⟩

theorem zeroScale_load :
    (ofBytes .tflite zeroScale.tflite.encode).outcome = .ok zeroScaleSlots := by
  have hload := Detector.outcome_tflite_ofBytes (d := zeroScale)
    ⟨by decide +kernel, by decide +kernel, by decide +kernel⟩
  rw [ofBytes_tflite, outcome_map, hload]
  rfl

/-- The zero point that is stored with a scale of zero is loaded as it stands.
-/
theorem zeroScale_unquantized_zeroPoint :
    (ofBytes .tflite zeroScale.tflite.encode).outcome = .ok zeroScaleSlots
      ∧ ∃ listed, Lists zeroScale.tflite.encode .tflite .output listed
        ∧ List.Forall₂ Listed.TellsUnquantized listed
          (zeroScaleSlots.slots .output) :=
  ⟨zeroScale_load, unquantized_zeroPoint zeroScale_load .output⟩

/-- The zero point of what is not quantized is not always 0. -/
theorem zeroScale_zeroPoint_ne :
    ¬ ∀ (format : Format) (bytes : Bytes) (model : LoadedModel) (side : Side)
      (slot : Slot), (ofBytes format bytes).outcome = .ok model →
      slot ∈ model.slots side → slot.quantization.isQuantized = false →
        slot.quantization.zeroPoint = 0 := by
  intro hzero
  have h := hzero _ _ _ .output _ zeroScale_load (List.mem_singleton_self _) rfl
  exact absurd h (by decide)

end LoadedModel

end DetectorHeader
