/-
Tensors that are quantized per channel (`LoadedModel.perChannel_reported`).

With several scales or several zero points a tensor has no quantization as a
whole, and is reported as one that is not quantized. A warning is to say so. In
an ONNX model it does in either case, in a TFLite model only if there are
several scales: several zero points beside one scale, or none, are passed over
in silence (`unevenModel_not_warned`).
-/
import DetectorHeader.Proofs.Listed
import DetectorHeader.Proofs.Tflite.RoundTrip

namespace DetectorHeader

open Recorded

namespace Listed

/-- More than one scale is stored. -/
def SeveralScales (e : Listed) : Prop :=
  ∃ c, e.channels = some c ∧ 1 < c.scales.length

/-- More than one zero point is stored. -/
def SeveralZeroPoints (e : Listed) : Prop :=
  ∃ c, e.channels = some c ∧ 1 < c.zeroPoints.length

/-- The slot and the warnings are those that are due to a listed tensor with
respect to its channels. -/
structure Reported (format : Format) (e : Listed) (slot : Slot) : Prop where
  name : slot.name = e.name
  zero (h : e.SeveralScales ∨ e.SeveralZeroPoints) : slot.quantization = .none
  warned (h : e.SeveralScales ∨ format = .onnx ∧ e.SeveralZeroPoints) :
    ∃ c, e.channels = some c
      ∧ e.warnings format = [.perChannel slot.name c.scales.length c.axis]
  silent (hformat : format = .tflite) (h : ¬ e.SeveralScales) :
    e.warnings format = []

/-- Several scales or zero points are reported as no quantization. -/
theorem quantization_eq_none {e : Listed}
    (h : e.SeveralScales ∨ e.SeveralZeroPoints) : e.quantization = .none := by
  unfold quantization
  rcases h with ⟨c, hc, hseveral⟩ | ⟨c, hc, hseveral⟩
  · rw [hc]
    exact Channels.quantization_of_ne (.inl hseveral.ne')
  · rw [hc]
    exact Channels.quantization_of_ne (.inr hseveral.ne')

/-- One warning is given where the format calls for it. -/
theorem warnings_eq_singleton {format : Format} {e : Listed}
    (h : e.SeveralScales ∨ format = .onnx ∧ e.SeveralZeroPoints) :
    ∃ c, e.channels = some c
      ∧ e.warnings format = [.perChannel e.name c.scales.length c.axis] := by
  obtain ⟨name, channels⟩ := e
  rcases h with ⟨c, hc, hseveral⟩ | ⟨rfl, c, hc, hseveral⟩
  · cases hc
    refine ⟨c, rfl, warnings_of_reported ?_⟩
    cases format with
    | tflite => exact decide_eq_true hseveral
    | onnx => simp [Channels.isReported, hseveral.ne']
  · cases hc
    refine ⟨c, rfl, warnings_of_reported ?_⟩
    simp [Channels.isReported, hseveral.ne']

/-- In a TFLite model there is none for anything else. -/
theorem warnings_eq_nil {e : Listed} (h : ¬ e.SeveralScales) :
    e.warnings .tflite = [] := by
  obtain ⟨name, channels⟩ := e
  cases channels with
  | none => rfl
  | some c =>
      apply warnings_of_not_reported
      exact decide_eq_false fun hseveral => h ⟨c, rfl, hseveral⟩

/-- So the slot of a listed tensor reports its channels as is due. -/
theorem Makes.reported {format : Format} {e : Listed} {slot : Slot}
    (h : e.Makes slot) : e.Reported format slot where
  name := h.name
  zero hseveral := h.quantization.trans (quantization_eq_none hseveral)
  warned hseveral := by
    rw [h.name]
    exact warnings_eq_singleton hseveral
  silent hformat hfew := by
    rw [hformat]
    exact warnings_eq_nil hfew

end Listed

namespace LoadedModel

/-- A tensor with several scales or zero points is reported with both 0. A
warning names it if it has several scales, and in an ONNX model also if it has
several zero points. These are all the warnings, in the order in which the
inputs and then the outputs are listed. -/
theorem perChannel_reported {format : Format} {bytes : Bytes}
    {model : LoadedModel} (h : (ofBytes format bytes).outcome = .ok model) :
    ∃ inputs outputs, Lists bytes format .input inputs
      ∧ Lists bytes format .output outputs
      ∧ List.Forall₂ (Listed.Reported format) inputs (model.slots .input)
      ∧ List.Forall₂ (Listed.Reported format) outputs (model.slots .output)
      ∧ shown false (ofBytes format bytes).events
        = (inputs ++ outputs).flatMap (Listed.warnings format) := by
  obtain ⟨inputs, outputs, hinputs, houtputs, hmadeIn, hmadeOut, hlog⟩ :=
    ofBytes_listed h
  refine ⟨inputs, outputs, hinputs, houtputs, ?_, ?_, hlog⟩
  · exact hmadeIn.imp fun _ _ hmade => hmade.reported
  · exact hmadeOut.imp fun _ _ hmade => hmade.reported

/-- The input has two scales and two zero points, the output one scale and two
zero points. -/
def unevenModel : Tflite.WholeModel :=
  .ofParts none none (some [{
    inputs := some [0]
    outputs := some [1]
    tensors := some [
      { name := some "perChannel"
        quantization := some {
          scale := some [⟨0x3E800000⟩, ⟨0x3F000000⟩]
          zeroPoint := some [0, 0]
          quantizedDimension := 3 } },
      { name := some "uneven"
        quantization := some {
          scale := some [⟨0x3E800000⟩]
          zeroPoint := some [1, 2] } }] }])

theorem unevenModel_decode :
    Tflite.WholeModel.decode unevenModel.encode = .ok unevenModel :=
  Tflite.WholeModel.decode_encode
    ⟨by decide +kernel, by decide +kernel, by decide +kernel⟩

/-- Both tensors are reported with scale and zero point 0. -/
def unevenSlots : LoadedModel :=
  .tflite ⟨3, "", [⟨"perChannel", [], .float32, .none⟩],
    [⟨"uneven", [], .float32, .none⟩]⟩

theorem unevenModel_load :
    (ofBytes .tflite unevenModel.encode).outcome = .ok unevenSlots := by
  rw [ofBytes_tflite, outcome_map,
    Tflite.Metadata.outcome_ofBytes unevenModel_decode]
  rfl

/-- The only warning is about the input. -/
theorem unevenModel_events :
    (ofBytes .tflite unevenModel.encode).events
      = [.perChannel "perChannel" 2 (some 3)] := by
  have hidentifier : Tflite.hasIdentifier unevenModel.encode = true := by
    decide +kernel
  rw [ofBytes_tflite, events_map,
    Tflite.Metadata.ofBytes_eq unevenModel_decode, hidentifier]
  rfl

/-- Both tensors are reported without a quantization, but only the first with a
warning. -/
theorem unevenModel_reported :
    (ofBytes .tflite unevenModel.encode).outcome = .ok unevenSlots
      ∧ ∃ inputs outputs,
        Lists unevenModel.encode .tflite .input inputs
        ∧ Lists unevenModel.encode .tflite .output outputs
        ∧ List.Forall₂ (Listed.Reported .tflite) inputs
          (unevenSlots.slots .input)
        ∧ List.Forall₂ (Listed.Reported .tflite) outputs
          (unevenSlots.slots .output)
        ∧ shown false (ofBytes .tflite unevenModel.encode).events
          = (inputs ++ outputs).flatMap (Listed.warnings .tflite) :=
  ⟨unevenModel_load, perChannel_reported unevenModel_load⟩

/-- Not every tensor with several zero points is named in a warning. -/
theorem unevenModel_not_warned :
    ¬ ∀ (format : Format) (bytes : Bytes) (model : LoadedModel) (side : Side)
      (listed : List Listed), (ofBytes format bytes).outcome = .ok model →
      Lists bytes format side listed → ∀ e ∈ listed,
        e.SeveralScales ∨ e.SeveralZeroPoints →
        ∃ channels axis, .perChannel e.name channels axis
          ∈ (ofBytes format bytes).events := by
  intro hwarned
  have hlists : Lists unevenModel.encode .tflite .output
      [⟨"uneven", some ⟨[⟨0x3E800000⟩], [1, 2], some 0⟩⟩] := by
    refine (lists_tflite_iff unevenModel_decode).mpr
      ⟨_, rfl, _, _, rfl, rfl, ?_⟩
    exact .cons ⟨_, _, ⟨by decide, rfl⟩, rfl, rfl⟩ .nil
  obtain ⟨channels, axis, hmem⟩ := hwarned _ _ _ _ _ unevenModel_load hlists _
    (List.mem_singleton_self _) (.inr ⟨_, rfl, by decide⟩)
  rw [unevenModel_events, List.mem_singleton] at hmem
  injection hmem with hname
  exact absurd hname (by decide)

end LoadedModel

end DetectorHeader
