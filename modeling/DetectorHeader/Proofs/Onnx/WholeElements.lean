/-
Raw data that its elements do not fill (`Metadata.outputs_of_wholes`).

Raw data is cut into elements from the front, and what is left at its end, if
it is too short for one, counts for nothing. So the number of whole elements
alone decides whether a scale or a zero point is a single one. Whether anything
is left over is not looked at: a byte behind the only scale does not keep it
from being reported (`Metadata.overlongModel_reported`).
-/
import DetectorHeader.Proofs.Listed
import DetectorHeader.Proofs.Onnx.Storage

namespace DetectorHeader.Onnx

open Protobuf Recorded

-- =================================================================== elements

/-- How many bytes an element of more than one byte has in raw data, by its
type. -/
inductive ElementSize : DataType → Nat → Prop
  | float32 : ElementSize .float32 4
  | float64 : ElementSize .float64 8
  | int16 : ElementSize .int16 2
  | uint16 : ElementSize .uint16 2
  | int32 : ElementSize .int32 4

namespace Tensor

variable {t : Tensor}

/-- If there is raw data, it has this many whole elements. -/
def Wholes (t : Tensor) (count : Nat) : Prop :=
  ∀ raw size, t.HasRaw raw → ElementSize t.type size →
    count = raw.length / size

/-- There is raw data, and it is not made up of whole elements. -/
def Ragged (t : Tensor) : Prop :=
  ∃ raw size, t.HasRaw raw ∧ ElementSize t.type size ∧ ¬ size ∣ raw.length

/-- A tensor has one piece of raw data. -/
theorem HasRaw.unique {raw raw' : Bytes} (h : t.HasRaw raw)
    (h' : t.HasRaw raw') : raw = raw' :=
  Option.some.inj (h.1.symm.trans h'.1)

/-- Without raw data nothing is left over. -/
theorem NoRaw.wholes (h : t.NoRaw) (count : Nat) : t.Wholes count :=
  fun raw _ hraw _ => absurd hraw (h raw)

/-- As many numbers are held as there are whole ones. -/
theorem wholes_of_holdsNumbers {size : Nat} {raw : Bytes}
    {numbers : List Nat} (hsize : ElementSize t.type size)
    (hraw : t.HasRaw raw) (h : HoldsNumbers size raw numbers) :
    t.Wholes numbers.length := by
  obtain ⟨-, rest, hrest, rfl⟩ := h
  intro raw' size' hraw' hsize'
  obtain rfl : size' = size := by
    generalize t.type = type at hsize hsize'
    cases hsize <;> cases hsize' <;> rfl
  rw [← hraw.unique hraw', List.length_append,
    LittleEndian.length_flatMap_encode, Nat.mul_comm,
    Nat.mul_add_div (Nat.zero_lt_of_lt hrest), Nat.div_eq_of_lt hrest,
    Nat.add_zero]

/-- Scales of either precision are read, whatever is left over. -/
theorem exists_scales (h : t.type = .float32 ∨ t.type = .float64) :
    ∃ scales, t.ReadsScales (.ok scales) ∧ t.Wholes scales.length := by
  obtain ⟨outcome, hreads⟩ := exists_readsScales t
  have hcopy := hreads
  cases hreads with
  | notFloat htype => rcases h with h | h <;> cases h ▸ htype
  | unread htype => rcases h with h | h <;> simp [h] at htype
  | rawSingle htype hraw hnumbers =>
      have hwholes :=
        wholes_of_holdsNumbers (htype ▸ .float32) hraw hnumbers
      rw [List.length_map] at hwholes
      exact ⟨_, hcopy, hwholes⟩
  | rawDouble htype hraw hnumbers =>
      have hwholes :=
        wholes_of_holdsNumbers (htype ▸ .float64) hraw hnumbers
      rw [List.length_map] at hwholes
      exact ⟨_, hcopy, by rwa [List.length_map]⟩
  | single _ hraw => exact ⟨_, hcopy, hraw.wholes _⟩
  | double _ hraw => exact ⟨_, hcopy, hraw.wholes _⟩

/-- These types are read from raw data in elements of more than one byte. -/
theorem rawInteger_of_mem {type : DataType}
    (h : type ∈ [.int16, .uint16, .int32]) :
    ∃ size least, RawInteger type size least ∧ ElementSize type size := by
  fin_cases h
  · exact ⟨2, _, .int16, .int16⟩
  · exact ⟨2, _, .uint16, .uint16⟩
  · exact ⟨4, _, .int32, .int32⟩

/-- So are zero points of more than one byte. -/
theorem exists_zeroPoints (h : t.type ∈ [.int16, .uint16, .int32]) :
    ∃ zs, t.ReadsZeroPoints (.ok zs) ∧ t.Wholes zs.length := by
  obtain ⟨size, least, hinteger, hsize⟩ := rawInteger_of_mem h
  by_cases hraw : t.NoRaw
  · have hread := zeroPoints_of_noRaw hraw hinteger.mem_listed
    exact ⟨_, zeroPoints_eq_iff.mp hread, hraw.wholes _⟩
  · obtain ⟨raw, hraw⟩ := not_forall_not.mp hraw
    obtain ⟨read, hread, hpos, -⟩ := zeroPoints_of_hasRaw hraw hinteger
    refine ⟨_, zeroPoints_eq_iff.mp hread, ?_⟩
    rw [List.length_map]
    exact wholes_of_holdsNumbers hsize hraw (holdsNumbers_rawNumbers hpos raw)

end Tensor

/-- The zero point of an operation, which is a single 0 if there is none. -/
theorem exists_readsZeroPoint {zeroPoint : Option Tensor}
    (h : ∀ t, zeroPoint = some t → t.type ∈ [.int16, .uint16, .int32]) :
    ∃ zs, ReadsZeroPoint zeroPoint (.ok zs)
      ∧ ∀ t, zeroPoint = some t → t.Wholes zs.length := by
  cases zeroPoint with
  | none => exact ⟨[0], .absent, fun _ h => nomatch h⟩
  | some t =>
      obtain ⟨zs, hzs, hwholes⟩ := Tensor.exists_zeroPoints (h t rfl)
      refine ⟨zs, .constant hzs, fun t' ht' => ?_⟩
      cases ht'
      exact hwholes

-- =================================================================== outputs

/-- One scale and one zero point are the quantization, and anything else is
none. -/
theorem outcome_ofElements (name : String) (scales : List Binary32)
    (zs : List Int64) :
    (ofElements name scales zs).outcome
      = .ok (Channels.quantization ⟨scales, zs, none⟩) := by
  by_cases h : scales.length = 1 ∧ zs.length = 1
  · obtain ⟨a, rfl⟩ := List.length_eq_one_iff.mp h.1
    obtain ⟨z, rfl⟩ := List.length_eq_one_iff.mp h.2
    rfl
  · have hne := not_and_or.mp h
    rw [ofElements_of_ne hne, Channels.quantization_of_ne hne]

/-- Constants that are read decide the quantization of the value. -/
theorem Graph.HasParameters.outcome_quantization {g : Graph} {name : String}
    {scale : Tensor} {zeroPoint : Option Tensor} {scales : List Binary32}
    {zs : List Int64} (h : g.HasParameters name scale zeroPoint)
    (hscales : scale.ReadsScales (.ok scales))
    (hzs : ReadsZeroPoint zeroPoint (.ok zs)) :
    (g.quantization name).outcome
      = .ok (Channels.quantization ⟨scales, zs, none⟩) := by
  rw [h.quantization_eq, hscales.scales_eq, readsZeroPoint_iff.mpr hzs,
    ofExcept_ok, pure_bind, ofExcept_ok, pure_bind, outcome_ofElements]

/-- Bytes that are loaded have a slot for the first output of their graph, with
the quantization that this has in the graph. -/
theorem exists_slot_of_output {bytes : Bytes} {m : Model} {g : Graph}
    {v : ValueInfo} {more : List ValueInfo} {q : Quantization}
    {metadata : Metadata} (hdecode : Model.decode bytes = .ok m)
    (hgraph : m.graph = some g) (houtput : g.output = v :: more)
    (hq : (g.quantization (v.name.getD "")).outcome = .ok q)
    (hmetadata : (Metadata.ofBytes bytes).outcome = .ok metadata) :
    ∃ slot slots, metadata.outputs = slot :: slots
      ∧ slot.quantization = q := by
  obtain ⟨m', hm', hload⟩ := exists_decode_of_ofBytes hmetadata
  cases hdecode.symm.trans hm'
  rw [hload] at hmetadata
  cases outcome_ofModel_iff.mp hmetadata with
  | graph hgraph' hlists =>
      cases hgraph.symm.trans hgraph'
      cases hlists with
      | both _ houtputs =>
          have hslots := houtputs.forall₂
          rw [houtput] at hslots
          obtain ⟨slot, slots, ⟨q', log, hrecovers, hslot⟩, -, heq⟩ :=
            List.forall₂_cons_left_iff.mp hslots
          cases hq.symm.trans
            (Graph.outcome_quantization_iff.mpr ⟨log, hrecovers⟩)
          exact ⟨slot, slots, heq, hslot.quantization⟩

/-- The bytes are a model with this graph, whose first output comes from an
operation with these constants, a scale of a type that is read and, if there is
one, a zero point of more than one byte that is read from raw data. -/
structure FirstOutput (bytes : Bytes) (g : Graph) (v : ValueInfo)
    (scale : Tensor) (zeroPoint : Option Tensor) : Prop where
  model : ∃ m, Model.decode bytes = .ok m ∧ m.graph = some g
  output : ∃ more, g.output = v :: more
  parameters : g.HasParameters (v.name.getD "") scale zeroPoint
  scale_type : scale.type = .float32 ∨ scale.type = .float64
  zeroPoint_type : ∀ t, zeroPoint = some t → t.type ∈ [.int16, .uint16, .int32]

/-- Raw data of any length is read, as the whole elements that it has. With one
of them for the scale and one for the zero point these are reported, and else
no quantization is; what is left over behind them makes no difference. -/
theorem Metadata.outputs_of_wholes {bytes : Bytes} {g : Graph} {v : ValueInfo}
    {scale : Tensor} {zeroPoint : Option Tensor}
    (h : FirstOutput bytes g v scale zeroPoint) :
    ∃ scales zs, scale.ReadsScales (.ok scales)
      ∧ ReadsZeroPoint zeroPoint (.ok zs)
      ∧ scale.Wholes scales.length
      ∧ (∀ t, zeroPoint = some t → t.Wholes zs.length)
      ∧ (g.quantization (v.name.getD "")).outcome
        = .ok (Channels.quantization ⟨scales, zs, none⟩)
      ∧ ∀ metadata, (ofBytes bytes).outcome = .ok metadata →
        ∃ slot slots, metadata.outputs = slot :: slots
          ∧ slot.quantization = Channels.quantization ⟨scales, zs, none⟩ := by
  obtain ⟨m, hdecode, hgraph⟩ := h.model
  obtain ⟨more, houtput⟩ := h.output
  obtain ⟨scales, hscales, hwholes⟩ := Tensor.exists_scales h.scale_type
  obtain ⟨zs, hzs, hzeroWholes⟩ := exists_readsZeroPoint h.zeroPoint_type
  have hq := h.parameters.outcome_quantization hscales hzs
  refine ⟨scales, zs, hscales, hzs, hwholes, hzeroWholes, hq, ?_⟩
  intro metadata hmetadata
  exact exists_slot_of_output hdecode hgraph houtput hq hmetadata

/-- A scale of a half, with a byte too many. -/
def overlongHalf : Tensor where
  dataType := some 1
  name := some "s"
  rawData := some [0x00, 0x00, 0x00, 0x3f, 0x01]

/-- The slot of the output, where the scale is a half and the zero point -2. -/
def halfMetadata : Metadata where
  modelVersion := 0
  producerName := ""
  producerVersion := ""
  inputs := []
  outputs := [⟨"y", [], .float32, ⟨⟨0x3F000000⟩, -2⟩⟩]

/-- The output of the model comes from these constants. -/
theorem overlongModel_firstOutput :
    FirstOutput (scaledModel overlongHalf rawMinus).encode
      (scaledGraph overlongHalf rawMinus) scaledOutput overlongHalf
      (some rawMinus) := by
  have hdecode := decode_of_spells
    ((scaledModel overlongHalf rawMinus).encode_spells 94)
    (by decide +kernel)
  refine ⟨⟨_, hdecode, rfl⟩, ⟨[], rfl⟩, ?_, .inl rfl, fun t ht => ?_⟩
  · have hscale : (scaledGraph overlongHalf rawMinus).HasConstant "s"
        overlongHalf :=
      ⟨by decide, [], [rawMinus], rfl, rfl, by decide⟩
    have hzeroPoint : (scaledGraph overlongHalf rawMinus).HasConstant "z"
        rawMinus :=
      ⟨by decide, [overlongHalf], [], rfl, rfl, by decide⟩
    exact ⟨_, ⟨[], [], rfl, by decide, by decide⟩, .inr rfl, hscale,
      .constant hzeroPoint⟩
  · cases ht
    decide

/-- The model is loaded with the scale that its first four bytes are. -/
theorem overlongModel_load :
    (Metadata.ofBytes (scaledModel overlongHalf rawMinus).encode).outcome
      = .ok halfMetadata := by
  rw [Metadata.ofBytes_encode (by decide +kernel)]
  rfl

theorem Metadata.overlongModel_outputs_of_wholes :
    ∃ scales zs,
      FirstOutput (scaledModel overlongHalf rawMinus).encode
        (scaledGraph overlongHalf rawMinus) scaledOutput overlongHalf
        (some rawMinus)
      ∧ overlongHalf.Wholes scales.length ∧ rawMinus.Wholes zs.length
      ∧ (ofBytes (scaledModel overlongHalf rawMinus).encode).outcome
        = .ok halfMetadata
      ∧ ∃ slot slots, halfMetadata.outputs = slot :: slots
        ∧ slot.quantization = Channels.quantization ⟨scales, zs, none⟩ := by
  have hfirst := overlongModel_firstOutput
  obtain ⟨scales, zs, -, -, hscale, hzeroPoint, -, houtput⟩ :=
    outputs_of_wholes hfirst
  exact ⟨scales, zs, hfirst, hscale, hzeroPoint rawMinus rfl,
    overlongModel_load, houtput halfMetadata overlongModel_load⟩

/-- Raw data of a length that its elements do not fill is not always refused or
reported as no quantization. -/
theorem Metadata.overlongModel_reported :
    ¬ ∀ (bytes : Bytes) (g : Graph) (v : ValueInfo) (scale : Tensor)
      (zeroPoint : Option Tensor), FirstOutput bytes g v scale zeroPoint →
      (scale.Ragged ∨ ∃ t, zeroPoint = some t ∧ t.Ragged) →
      ∀ metadata, (ofBytes bytes).outcome = .ok metadata →
        ∃ slot slots, metadata.outputs = slot :: slots
          ∧ slot.quantization = .none := by
  intro hrefused
  have hragged : overlongHalf.Ragged :=
    ⟨_, 4, ⟨rfl, by decide⟩, .float32, by decide⟩
  obtain ⟨slot, slots, houtputs, hnone⟩ :=
    hrefused _ _ _ _ _ overlongModel_firstOutput (.inl hragged) _
      overlongModel_load
  cases houtputs
  cases hnone

end DetectorHeader.Onnx
