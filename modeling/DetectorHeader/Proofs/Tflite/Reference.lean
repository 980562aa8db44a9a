/-
The loader against a description of the model (`ofBytes_describes`).

`Describes m outcome` says what a model is to be loaded as, without a loader:
the slots of a side are those of the listed tensors, one for each index, and
what is wrong with a list is what is wrong with its first index that no tensor
has. All of it is about the first subgraph and the tensors that are listed, so
models that agree on these are loaded alike (`Describes.alike`).
-/
import DetectorHeader.Proofs.DataType
import DetectorHeader.Proofs.Tflite.RoundTrip
import DetectorHeader.Proofs.Tflite.Safety

namespace DetectorHeader.Tflite

open FlatBuffer Recorded

-- ============================================================= description

/-- The quantization of the tensor as a whole, where there is exactly one
scale and exactly one zero point. -/
def Tensor.wholeQuantization (t : Tensor) : Quantization :=
  match t.quantization with
  | some { scale := some [scale], zeroPoint := some [zeroPoint], .. } =>
      ⟨scale, zeroPoint⟩
  | _ => .none

/-- The slot of a tensor, with the type that is published for its code. -/
def Tensor.described (t : Tensor) : Slot where
  name := t.name.getD ""
  shape := (t.shape.getD []).map Int32.toInt64
  type := .listed DataType.tfliteTypes t.type.toInt32
  quantization := t.wholeQuantization

/-- The index is that of the tensor, or of what stands for it in the list. -/
def TensorAt {τ : Type} (tensors : List τ) (index : Int32) (t : τ) : Prop :=
  0 ≤ index ∧ tensors[index.toInt.toNat]? = some t

/-- The slot is that of the tensor that the index is of. -/
def SlotAt (tensors : List Tensor) (index : Int32) (slot : Slot) : Prop :=
  ∃ t, TensorAt tensors index t ∧ slot = t.described

/-- What is wrong with an index that is of no tensor. -/
inductive IndexFault (side : Side) (tensors : List Tensor) (index : Int32) :
    Error → Prop
  | negative (h : index < 0) :
      IndexFault side tensors index (.invalidModel .negativeIndex)
  | dangling (h : 0 ≤ index) (hend : tensors.length ≤ index.toInt.toNat) :
      IndexFault side tensors index
        (.invalidModel
          (.danglingTensor side index.toInt.toNat tensors.length))

/-- What the lists of indices and tensors are loaded as for one side. -/
inductive Lists (side : Side) :
    Option (List Int32) → Option (List Tensor) → Except Error (List Slot)
      → Prop
  | noIndices {tensors} :
      Lists side none tensors (.error (.missingField (.indexList side)))
  | noTensors {indices} :
      Lists side (some indices) none (.error (.missingField .tensors))
  | slots {indices tensors outcome}
      (h : InOrder (SlotAt tensors) (IndexFault side tensors) indices
        outcome) :
      Lists side (some indices) (some tensors) outcome

/-- The subgraph that runs. -/
def Model.first? {σ : Type} (m : Model σ) : Option σ :=
  m.subgraphs.bind List.head?

/-- What a model is loaded as: the inputs of its first subgraph, and then the
outputs. -/
inductive Describes (m : WholeModel) : Except Error Metadata → Prop
  | noSubgraph (h : m.first? = none) :
      Describes m (.error (.invalidModel .noSubgraph))
  | subgraph {g outcome} (h : m.first? = some g)
      (hlists : InTurn (Lists .input g.inputs g.tensors)
        (Lists .output g.outputs g.tensors) (fun inputs outputs => {
          version := m.version
          description := m.description.getD ""
          inputs, outputs }) outcome) : Describes m outcome

-- =================================================================== slots

theorem QuantizationTable.outcome_perTensor (name : String) (t : Tensor)
    {q : QuantizationTable} (h : t.quantization = some q) :
    (q.perTensor name).outcome = .ok t.wholeQuantization := by
  obtain ⟨scale, zeroPoint, dimension⟩ := q
  unfold perTensor Tensor.wholeQuantization
  rw [h]
  dsimp only
  split
  · rfl
  · rename_i hother
    rw [outcome_when]
    split
    · rename_i hq
      cases hq
      exact (hother _ _ rfl rfl).elim
    · rfl
  · rfl

/-- Making the slot of a tensor never fails. -/
theorem Tensor.outcome_slot (t : Tensor) :
    t.slot.outcome = .ok t.described := by
  unfold slot described
  rw [DataType.ofTfliteCode_eq]
  dsimp only
  cases h : t.quantization with
  | none =>
      unfold wholeQuantization
      rw [h]
      rfl
  | some q =>
      dsimp only
      rw [outcome_bind_of_ok (QuantizationTable.outcome_perTensor _ t h)]
      rfl

section

variable {τ : Type}

/-- The slot at one of the listed indices, with `read` to get the tensor from
what stands for it. -/
def pick (read : τ → Except Error Tensor) (side : Side) (tensors : List τ)
    (index : Int32) : Recorded Slot :=
  if index < 0 then fail (.invalidModel .negativeIndex)
  else
    match tensors[index.toInt.toNat]? with
    | none =>
        fail (.invalidModel
          (.danglingTensor side index.toInt.toNat tensors.length))
    | some t => do (← ofExcept (read t)).slot

/-- The slots of a side are picked one by one. -/
theorem slots_eq_mapM_pick (read : τ → Except Error Tensor) (side : Side)
    (indices : List Int32) (tensors : List τ) :
    slots read side (some indices) (some tensors)
      = indices.mapM (pick read side tensors) := by
  unfold slots
  dsimp only
  congr 1
  funext index
  unfold pick
  rw [List.getElem?_toArray, List.size_toArray]
  by_cases hindex : index < 0
  · exact (if_pos hindex).trans (if_pos hindex).symm
  · refine (if_neg hindex).trans (Eq.trans ?_ (if_neg hindex).symm)
    cases tensors[index.toInt.toNat]? <;> rfl

/-- At the index of a tensor that can be read its slot is picked. -/
theorem pick_of_tensorAt {read : τ → Except Error Tensor} {side : Side}
    {tensors : List τ} {index : Int32} {place : τ} {t : Tensor}
    (hplace : TensorAt tensors index place) (hread : read place = .ok t) :
    pick read side tensors index = t.slot := by
  unfold pick
  rw [if_neg (Int32.not_lt.mpr hplace.1), hplace.2]
  dsimp only
  rw [hread, ofExcept_ok, pure_bind]

/-- And a slot is picked nowhere else. -/
theorem exists_of_outcome_pick {read : τ → Except Error Tensor} {side : Side}
    {tensors : List τ} {index : Int32} {slot : Slot}
    (h : (pick read side tensors index).outcome = .ok slot) :
    ∃ place t, TensorAt tensors index place ∧ read place = .ok t := by
  unfold pick at h
  by_cases hindex : index < 0
  · rw [if_pos hindex] at h
    cases h
  · rw [if_neg hindex] at h
    cases hplace : tensors[index.toInt.toNat]? with
    | none =>
        rw [hplace] at h
        cases h
    | some place =>
        rw [hplace] at h
        obtain ⟨t, hread, -⟩ := outcome_bind_eq_ok_iff.mp h
        exact ⟨place, t, ⟨Int32.not_lt.mp hindex, hplace⟩, hread⟩

end

/-- Of tensors that are at hand the slot at an index is picked. -/
theorem outcome_pick_eq_ok_iff {side : Side} {tensors : List Tensor}
    {index : Int32} {slot : Slot} :
    (pick .ok side tensors index).outcome = .ok slot
      ↔ SlotAt tensors index slot := by
  constructor
  · intro h
    obtain ⟨t, _, ht, -⟩ := exists_of_outcome_pick h
    rw [pick_of_tensorAt ht rfl, t.outcome_slot] at h
    exact ⟨t, ht, (Except.ok.inj h).symm⟩
  · rintro ⟨t, ht, rfl⟩
    rw [pick_of_tensorAt ht rfl]
    exact t.outcome_slot

/-- Picking fails where the index is of no tensor, and says what is wrong with
it. -/
theorem outcome_pick_eq_error_iff {side : Side} {tensors : List Tensor}
    {index : Int32} {e : Error} :
    (pick .ok side tensors index).outcome = .error e
      ↔ IndexFault side tensors index e := by
  constructor
  · intro h
    by_cases hindex : index < 0
    · unfold pick at h
      rw [if_pos hindex] at h
      cases h
      exact .negative hindex
    · cases ht : tensors[index.toInt.toNat]? with
      | none =>
          unfold pick at h
          rw [if_neg hindex, ht] at h
          cases h
          exact .dangling (Int32.not_lt.mp hindex)
            (List.getElem?_eq_none_iff.mp ht)
      | some t =>
          -- the tensor is at hand, so its slot is made and nothing fails
          rw [pick_of_tensorAt ⟨Int32.not_lt.mp hindex, ht⟩ rfl,
            t.outcome_slot] at h
          cases h
  · intro h
    unfold pick
    cases h with
    | negative hindex =>
        rw [if_pos hindex]
        rfl
    | dangling hindex hend =>
        rw [if_neg (Int32.not_lt.mpr hindex),
          List.getElem?_eq_none_iff.mpr hend]
        rfl

/-- The slots of a side are loaded as their description says. -/
theorem outcome_slots_iff {side : Side} {indices : Option (List Int32)}
    {tensors : Option (List Tensor)} {outcome : Except Error (List Slot)} :
    (slots .ok side indices tensors).outcome = outcome
      ↔ Lists side indices tensors outcome := by
  cases indices with
  | none =>
      constructor
      · intro h
        rw [← h]
        exact .noIndices
      · intro h
        cases h
        rfl
  | some indices =>
      cases tensors with
      | none =>
          constructor
          · intro h
            rw [← h]
            exact .noTensors
          · intro h
            cases h
            rfl
      | some tensors =>
          rw [slots_eq_mapM_pick,
            outcome_mapM_iff (fun _ _ => outcome_pick_eq_ok_iff)
              (fun _ _ => outcome_pick_eq_error_iff)]
          constructor
          · exact .slots
          · intro h
            cases h with
            | slots h => exact h

-- ================================================================== models

/-- Without a subgraph there is nothing to load. -/
theorem outcome_ofModel_of_none {m : WholeModel} (h : m.first? = none) :
    (Metadata.ofModel m).outcome = .error (.invalidModel .noSubgraph) := by
  have hnil : m.subgraphs.getD [] = [] := by
    unfold Model.first? at h
    cases hsubgraphs : m.subgraphs with
    | none => rfl
    | some subgraphs =>
        rw [hsubgraphs] at h
        exact List.head?_eq_none_iff.mp h
  unfold Metadata.ofModel Metadata.collect
  rw [hnil]
  rfl

theorem Model.exists_of_first? {m : WholeModel} {g : Subgraph Tensor}
    (h : m.first? = some g) : ∃ others, m.subgraphs.getD [] = g :: others := by
  obtain ⟨subgraphs, hsubgraphs, hhead⟩ := Option.bind_eq_some_iff.mp h
  rw [hsubgraphs]
  exact List.head?_eq_some_iff.mp hhead

/-- Otherwise the first subgraph is loaded, its inputs before its outputs. -/
theorem outcome_ofModel_of_some {m : WholeModel} {g : Subgraph Tensor}
    (h : m.first? = some g) :
    (Metadata.ofModel m).outcome = Recorded.outcome (do
      let inputs ← slots .ok .input g.inputs g.tensors
      let outputs ← slots .ok .output g.outputs g.tensors
      return {
        version := m.version
        description := m.description.getD ""
        inputs, outputs }) := by
  obtain ⟨others, hcons⟩ := Model.exists_of_first? h
  unfold Metadata.ofModel Metadata.collect
  rw [hcons]
  exact outcome_when _ _ _

/-- A model is loaded as its description says, and as nothing else. -/
theorem outcome_ofModel_iff {m : WholeModel}
    {outcome : Except Error Metadata} :
    (Metadata.ofModel m).outcome = outcome ↔ Describes m outcome := by
  cases hfirst : m.first? with
  | none =>
      rw [outcome_ofModel_of_none hfirst]
      constructor
      · intro h
        rw [← h]
        exact .noSubgraph hfirst
      · intro h
        cases h with
        | noSubgraph _ => rfl
        | subgraph h _ => cases hfirst.symm.trans h
  | some g =>
      rw [outcome_ofModel_of_some hfirst,
        outcome_inTurn_iff outcome_slots_iff outcome_slots_iff]
      constructor
      · exact .subgraph hfirst
      · intro h
        cases h with
        | noSubgraph h => cases hfirst.symm.trans h
        | subgraph h hlists =>
            cases hfirst.symm.trans h
            exact hlists

-- ========================================================= what is looked at

/-- There are as many tensors in both lists, and the same ones at the
indices. -/
def AlikeAt (indices : List Int32) (tensors tensors' : List Tensor) : Prop :=
  tensors.length = tensors'.length ∧ ∀ index ∈ indices, 0 ≤ index →
    tensors[index.toInt.toNat]? = tensors'[index.toInt.toNat]?

/-- The subgraphs list the same tensors for inputs and outputs. -/
structure Subgraph.Alike (g g' : Subgraph Tensor) : Prop where
  inputs : g.inputs = g'.inputs
  outputs : g.outputs = g'.outputs
  tensors : Option.Rel
    (AlikeAt (g.inputs.getD [] ++ g.outputs.getD [])) g.tensors g'.tensors

/-- The models say the same of themselves, and are alike in the subgraph that
runs. -/
structure Model.Alike (m m' : WholeModel) : Prop where
  version : m.version = m'.version
  description : m.description = m'.description
  first : Option.Rel Subgraph.Alike m.first? m'.first?

/-- Tensors that are alike where an index leads have the same slot there. -/
theorem AlikeAt.slotAt {indices : List Int32}
    {tensors tensors' : List Tensor} (h : AlikeAt indices tensors tensors')
    {index : Int32} (hindex : index ∈ indices) {slot : Slot}
    (hslot : SlotAt tensors index slot) : SlotAt tensors' index slot := by
  obtain ⟨t, ⟨hle, hget⟩, hslot⟩ := hslot
  exact ⟨t, ⟨hle, (h.2 index hindex hle).symm.trans hget⟩, hslot⟩

/-- Tensors that are not listed do not matter. -/
theorem Lists.alike {side : Side} {indices : Option (List Int32)}
    {tensors tensors' : Option (List Tensor)}
    {outcome : Except Error (List Slot)}
    (h : Lists side indices tensors outcome)
    (htensors : Option.Rel (AlikeAt (indices.getD [])) tensors tensors') :
    Lists side indices tensors' outcome := by
  cases h with
  | noIndices => exact .noIndices
  | noTensors =>
      cases htensors
      exact .noTensors
  | slots h =>
      cases htensors with
      | some halike =>
          refine .slots (h.imp ?_ ?_)
          · intro index hindex slot hslot
            exact halike.slotAt hindex hslot
          · intro index _ e hfault
            cases hfault with
            | negative hneg => exact .negative hneg
            | dangling hle hend =>
                rw [halike.1] at hend ⊢
                exact .dangling hle hend

theorem AlikeAt.mono {indices indices' : List Int32}
    {tensors tensors' : List Tensor} (h : AlikeAt indices tensors tensors')
    (hsub : ∀ index ∈ indices', index ∈ indices) :
    AlikeAt indices' tensors tensors' :=
  ⟨h.1, fun index hindex => h.2 index (hsub index hindex)⟩

/-- Other subgraphs, and tensors that are not listed, do not matter. -/
theorem Describes.alike {m m' : WholeModel}
    {outcome : Except Error Metadata} (h : Describes m outcome)
    (halike : m.Alike m') : Describes m' outcome := by
  obtain ⟨hversion, hdescription, hrel⟩ := halike
  generalize hfirst : m.first? = first, hfirst' : m'.first? = first' at hrel
  cases hrel with
  | none =>
      cases h with
      | noSubgraph _ => exact .noSubgraph hfirst'
      | subgraph h _ => cases hfirst.symm.trans h
  | @some g g' hg =>
      cases h with
      | noSubgraph h => cases hfirst.symm.trans h
      | subgraph h hlists =>
          cases hfirst.symm.trans h
          refine .subgraph hfirst' ?_
          rw [← hversion, ← hdescription, ← hg.inputs, ← hg.outputs]
          refine hlists.imp (fun _ hinputs => ?_) (fun _ houtputs => ?_)
          · refine hinputs.alike (rel_imp (fun _ _ h => ?_) hg.tensors)
            exact h.mono fun _ hindex => List.mem_append_left _ hindex
          · refine houtputs.alike (rel_imp (fun _ _ h => ?_) hg.tensors)
            exact h.mono fun _ hindex => List.mem_append_right _ hindex

-- ==================================================================== bytes

/-- Where the whole model can be read, its bytes are loaded as it is. -/
theorem outcome_ofBytes_iff {bytes : Bytes} {m : WholeModel}
    (h : WholeModel.decode bytes = .ok m)
    {outcome : Except Error Metadata} :
    (Metadata.ofBytes bytes).outcome = outcome ↔ Describes m outcome := by
  rw [Metadata.ofBytes_eq h, ← outcome_ofModel_iff]
  exact Eq.congr_left (outcome_when _ _ fun _ => Metadata.ofModel m)

/-- Verified bytes hold a model if their vtables are in the first 2 GiB, so in
any case if they are no more. Where they hold one, they are loaded as the
description of that model says, and are loaded alike with all bytes whose model
is alike in the tensors that the first subgraph lists. -/
theorem ofBytes_describes {bytes : Bytes}
    (h : verify bytes.toArray = .ok ()) :
    (bytes.length ≤ 0x80000000 → NearVtables bytes.toArray)
      ∧ (NearVtables bytes.toArray → ∃ m, WholeModel.decode bytes = .ok m)
      ∧ ∀ m, WholeModel.decode bytes = .ok m →
        (∀ outcome, (Metadata.ofBytes bytes).outcome = outcome
          ↔ Describes m outcome)
        ∧ ∀ bytes' m', WholeModel.decode bytes' = .ok m' → m.Alike m' →
          (Metadata.ofBytes bytes').outcome
            = (Metadata.ofBytes bytes).outcome := by
  refine ⟨nearVtables_of_length_le, exists_decode_of_verify h, ?_⟩
  intro m hdecode
  refine ⟨fun outcome => outcome_ofBytes_iff hdecode, ?_⟩
  intro bytes' m' hdecode' halike
  rw [outcome_ofBytes_iff hdecode']
  exact ((outcome_ofBytes_iff hdecode).mp rfl).alike halike

/-- A tensor is listed twice, the other one not at all, and a second subgraph
refers to nothing. -/
def repeatedInput : WholeModel :=
  .ofParts none (some "twice") (some [
    { inputs := some [1, 1]
      outputs := some []
      tensors := some [
        { name := some "unlisted" },
        { shape := some [1, 10]
          quantization := some {
            scale := some [⟨0x3E800000⟩]
            zeroPoint := some [3] } }] },
    { inputs := some [-1] }])

/-- Neither the tensor that is not listed nor the second subgraph makes a
difference. -/
theorem repeatedInput_describes :
    verify repeatedInput.encode.toArray = .ok ()
      ∧ ∃ m, WholeModel.decode repeatedInput.encode = .ok m
        ∧ (∀ outcome, (Metadata.ofBytes repeatedInput.encode).outcome = outcome
          ↔ Describes m outcome)
        ∧ ∀ bytes' m', WholeModel.decode bytes' = .ok m' → m.Alike m' →
          (Metadata.ofBytes bytes').outcome
            = (Metadata.ofBytes repeatedInput.encode).outcome := by
  have hlimits : repeatedInput.WithinLimits :=
    ⟨by decide +kernel, by decide +kernel, by decide +kernel⟩
  have hverify := WholeModel.verify_encode hlimits
  obtain ⟨hshort, hread, hload⟩ := ofBytes_describes hverify
  obtain ⟨m, hdecode⟩ := hread (hshort (by decide +kernel))
  exact ⟨hverify, m, hdecode, hload m hdecode⟩

end DetectorHeader.Tflite
