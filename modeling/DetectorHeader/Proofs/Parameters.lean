/-
The arithmetic of the parameters, and which error comes first
(`Params.ofSlots_derives`).

The demands under which parameters are derived come down to two ranks and room
for the box fields in one dimension (`demands_hold_iff`). That room is always
there in a TFLite model, as its dimensions have 32 bits.
-/
import DetectorHeader.Proofs.CrossFormat
import DetectorHeader.Proofs.Demands
import DetectorHeader.Proofs.Listed

namespace DetectorHeader

open Recorded

-- ================================================================== models

namespace Tflite

/-- Every slot of a side is that of a tensor. -/
theorem exists_tensor_of_slots {τ : Type} {read : τ → Except Error Tensor}
    {side : Side} {indices : Option (List Int32)} {tensors : Option (List τ)}
    {made : List Slot}
    (h : (slots read side indices tensors).outcome = .ok made) {i : Nat}
    {slot : Slot} (hslot : made[i]? = some slot) :
    ∃ t : Tensor, slot = t.described := by
  cases indices with
  | none => cases h
  | some indices =>
      cases tensors with
      | none => cases h
      | some tensors =>
          rw [slots_eq_mapM_pick, outcome_mapM_eq_ok_iff] at h
          have hrel := rel_getElem? h i
          rw [hslot] at hrel
          generalize indices[i]? = index? at hrel
          cases hrel with
          | some hpick =>
              obtain ⟨place, t, hplace, hread⟩ := exists_of_outcome_pick hpick
              rw [pick_of_tensorAt hplace hread, t.outcome_slot] at hpick
              exact ⟨t, (Except.ok.inj hpick).symm⟩

/-- So is every output of a model that is loaded. -/
theorem exists_tensor_of_ofBytes {bytes : Bytes} {metadata : Metadata}
    (h : (Metadata.ofBytes bytes).outcome = .ok metadata) {j : Nat}
    {output : Slot} (houtput : metadata.outputs[j]? = some output) :
    ∃ t : Tensor, output = t.described := by
  obtain ⟨g, -, -, houtputs, -⟩ := Metadata.exists_of_ofBytes h
  exact exists_tensor_of_slots houtputs houtput

/-- The dimensions of a tensor have 32 bits. -/
theorem Tensor.hasBoxFields_described (t : Tensor) :
    t.described.hasBoxFields.holds := by
  intro values hvalues
  have hmin : Int64.minValue.toInt = -2 ^ 63 := rfl
  obtain ⟨d, -, rfl⟩ := List.mem_map.mp (List.mem_of_getElem? hvalues)
  have hd := d.le_toInt
  rw [Int32.toInt_toInt64]
  omega

end Tflite

-- ================================================================ parameters

/-- Only the last demand has a fault about the box fields. -/
theorem FirstUnmet.ne_boxFields {input output : Slot} {e : Error}
    (h : FirstUnmet (demands input output) e)
    (hroom : output.hasBoxFields.holds) (values : Int64) :
    e ≠ .invalidModel (.boxFields values) := by
  rcases h.dimension_or_boxFields with ⟨name, index, rank, rfl⟩ | ⟨hno, -⟩
  · nofun
  · exact absurd hroom hno

namespace Params

/-- Parameters are derived from two slots just when both have three dimensions
and the last one of the output has room for the box fields. They are then the
dimensions 1 and 2 of the input and 1 of the output, the number of classes that
is left in dimension 2 without the box fields, and the quantization of the
output. Else the error is the first of what is wrong with the dimensions 1 and 2
of the input, those of the output and the box fields. Of the box fields nothing
is ever wrong in a TFLite model that has been loaded. -/
theorem ofSlots_derives :
    (∀ input output : Slot,
      ((∃ p, (ofSlots input output).outcome = .ok p)
        ↔ 3 ≤ input.rank ∧ 3 ≤ output.rank
          ∧ ∀ values, output.shape[2]? = some values →
            Int64.minValue.toInt + 5 ≤ values.toInt)
      ∧ (∀ p, (ofSlots input output).outcome = .ok p →
        p.TakenFrom input output)
      ∧ ∀ e, (ofSlots input output).outcome = .error e
        ↔ FirstUnmet (demands input output) e)
    ∧ ∀ (bytes : Bytes) (metadata : Tflite.Metadata),
      (Tflite.Metadata.ofBytes bytes).outcome = .ok metadata →
      ∀ (i j : Nat) (input output : Slot), metadata.inputs[i]? = some input →
        metadata.outputs[j]? = some output →
        ∀ values, (ofSlots input output).outcome
          ≠ .error (.invalidModel (.boxFields values)) := by
  constructor
  · intro input output
    have hderived := ofSlots_derived input output
    refine ⟨?_, fun p hp => ?_, fun e => hderived.error_iff⟩
    · rw [hderived.exists_ok_iff, demands_hold_iff]
    · rw [hp] at hderived
      exact hderived.of_ok
  · intro bytes metadata hload i j input output _ houtput values herror
    obtain ⟨t, rfl⟩ := Tflite.exists_tensor_of_ofBytes hload houtput
    have hunmet := (ofSlots_derived input t.described).error_iff.mp herror
    exact hunmet.ne_boxFields t.hasBoxFields_described values rfl

/-- A detector with an output dimension at the lower end of 32 bits. -/
def negativeValues : Detector where
  inputShape := [1, 3, 640, 640]
  outputShape := [1, 6300, -2147483648]
  scale := .zero
  zeroPoint := 0

/-- The slots of the detector. -/
def negativeSlots : Tflite.Metadata :=
  ⟨3, "", [negativeValues.tfliteSlot .input],
    [negativeValues.tfliteSlot .output]⟩

theorem negativeSlots_load :
    (Tflite.Metadata.ofBytes negativeValues.tflite.encode).outcome
      = .ok negativeSlots :=
  Detector.outcome_tflite_ofBytes
    ⟨by decide +kernel, by decide +kernel, by decide +kernel⟩

/-- There are parameters, with a negative number of classes. -/
theorem negativeSlots_derives :
    ∃ p, (ofSlots (negativeValues.tfliteSlot .input)
        (negativeValues.tfliteSlot .output)).outcome = .ok p
      ∧ p.TakenFrom (negativeValues.tfliteSlot .input)
        (negativeValues.tfliteSlot .output)
      ∧ p.classes.toInt = -2147483653
      ∧ (Tflite.Metadata.ofBytes negativeValues.tflite.encode).outcome
        = .ok negativeSlots
      ∧ ∀ values, (ofSlots (negativeValues.tfliteSlot .input)
          (negativeValues.tfliteSlot .output)).outcome
        ≠ .error (.invalidModel (.boxFields values)) := by
  obtain ⟨hok, htaken, -⟩ := ofSlots_derives.1
    (negativeValues.tfliteSlot .input) (negativeValues.tfliteSlot .output)
  obtain ⟨p, hp⟩ := hok.mpr ⟨by decide, by decide, fun values hvalues => by
    cases hvalues
    decide⟩
  obtain ⟨values, hvalues, hclasses⟩ := (htaken p hp).classes
  have hlast : values.toInt = -2147483648 := by
    cases hvalues
    rfl
  refine ⟨p, hp, htaken p hp, by omega, negativeSlots_load, ?_⟩
  exact ofSlots_derives.2 _ _ negativeSlots_load 0 0 _ _ rfl rfl

end Params

end DetectorHeader
