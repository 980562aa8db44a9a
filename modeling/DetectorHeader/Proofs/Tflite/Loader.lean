/-
The loader against the whole model (`Metadata.ofBytes_eq`).

The loader reads places of subgraphs and tensors, and goes only to those that
it needs; `Metadata.ofModel` has the whole model before it. On bytes of which
the whole model can be read the two find the same: what the loader reads at a
place is what the model has there (`Stands`).
-/
import DetectorHeader.Proofs.FlatBuffer.Places
import DetectorHeader.Proofs.Recorded
import DetectorHeader.Tflite.Metadata

namespace DetectorHeader.Tflite

open FlatBuffer Recorded

-- =================================================================== places

/-- A subgraph can be read without reading its tensors: their places are found
first. -/
theorem subgraph_through {b : Buffer} {position : Nat} {g : Subgraph Tensor}
    (h : Read.subgraph Read.tensor b position = some g) :
    ∃ places, Read.subgraph .place b position
        = some { g with tensors := places }
      ∧ Option.Rel (List.Forall₂ fun place t => Read.tensor b place = some t)
          places g.tensors := by
  unfold Read.subgraph at h ⊢
  obtain ⟨t, htable, h⟩ := Option.bind_eq_some_iff.mp h
  obtain ⟨tensors, htensors, h⟩ := Option.bind_eq_some_iff.mp h
  obtain ⟨inputs, hinputs, h⟩ := Option.bind_eq_some_iff.mp h
  obtain ⟨outputs, houtputs, h⟩ := Option.bind_eq_some_iff.mp h
  obtain ⟨name, hname, h⟩ := Option.bind_eq_some_iff.mp h
  cases h
  obtain ⟨places, hplaces, hrel⟩ :=
    (Through.place b Read.tensor).vectorOf.offsetTo.field? htensors
  refine ⟨places, ?_, hrel⟩
  simp only [htable, hplaces, hinputs, houtputs, hname, Option.bind_eq_bind,
    Option.bind_some]
  rfl

/-- And a model without its subgraphs. -/
theorem root_through {b : Buffer} {m : WholeModel}
    (h : Read.root (Read.subgraph Read.tensor) b = some m) :
    ∃ places, Read.root .place b = some { m with subgraphs := places }
      ∧ Option.Rel (List.Forall₂ fun place g =>
          Read.subgraph Read.tensor b place = some g) places m.subgraphs := by
  obtain ⟨n, hoffset, h⟩ := Option.bind_eq_some_iff.mp h
  unfold Read.model at h
  obtain ⟨t, htable, h⟩ := Option.bind_eq_some_iff.mp h
  obtain ⟨version, hversion, h⟩ := Option.bind_eq_some_iff.mp h
  obtain ⟨subgraphs, hsubgraphs, h⟩ := Option.bind_eq_some_iff.mp h
  obtain ⟨description, hdescription, h⟩ := Option.bind_eq_some_iff.mp h
  cases h
  obtain ⟨places, hplaces, hrel⟩ :=
    (Through.place b (Read.subgraph Read.tensor)).vectorOf.offsetTo.field?
      hsubgraphs
  refine ⟨places, ?_, hrel⟩
  unfold Read.root FlatBuffer.Read.offsetTo Read.model
  simp only [hoffset, htable, hversion, hplaces, hdescription,
    Option.bind_eq_bind, Option.bind_some]
  rfl

-- =================================================================== slots

/-- Lists that are related item by item are related at every index. -/
theorem rel_getElem? {α β : Type} {R : α → β → Prop} {l : List α}
    {m : List β} (h : List.Forall₂ R l m) (i : Nat) :
    Option.Rel R l[i]? m[i]? := by
  induction h generalizing i with
  | nil => exact .none
  | cons hR _ ih =>
      cases i with
      | zero => exact .some hR
      | succ i => exact ih i

section

variable {σ τ : Type} {first : σ → Except Error (Subgraph τ)}
  {read : τ → Except Error Tensor}

/-- Tensors by what stands for them make the same slots as the tensors. -/
theorem slots_eq {tensors : Option (List τ)}
    {whole : Option (List Tensor)}
    (h : Option.Rel (List.Forall₂ fun place t => read place = .ok t)
      tensors whole)
    (side : Side) (indices : Option (List Int32)) :
    slots read side indices tensors = slots .ok side indices whole := by
  cases h with
  | none => cases indices <;> rfl
  | @some places ts h =>
      cases indices with
      | none => rfl
      | some indices =>
          unfold slots
          dsimp only
          congr 1
          funext index
          -- Indices are in range for both or for neither.
          have hsize : places.toArray.size = ts.toArray.size := by
            rw [List.size_toArray, List.size_toArray, h.length_eq]
          have hrel := rel_getElem? h index.toInt.toNat
          rw [← List.getElem?_toArray, ← List.getElem?_toArray] at hrel
          cases hplace : places.toArray[index.toInt.toNat]? with
          | none =>
              rw [hplace] at hrel
              cases hwhole : ts.toArray[index.toInt.toNat]? with
              | none => rw [hsize]
              | some t =>
                  rw [hwhole] at hrel
                  cases hrel
          | some place =>
              rw [hplace] at hrel
              cases hwhole : ts.toArray[index.toInt.toNat]? with
              | none =>
                  rw [hwhole] at hrel
                  cases hrel
              | some t =>
                  rw [hwhole] at hrel
                  cases hrel with
                  | some hread => simp only [hread]

/-- A subgraph and its tensors by what stands for them make the same metadata
as the subgraph with its tensors. -/
theorem collect_eq {model : Model σ} {whole : WholeModel}
    (hversion : model.version = whole.version)
    (hdescription : model.description = whole.description)
    (h : Option.Rel (List.Forall₂ fun s g => ∃ tensors,
        first s = .ok { (g : Subgraph Tensor) with tensors := tensors }
          ∧ Option.Rel (List.Forall₂ fun place t => read place = .ok t)
              tensors g.tensors)
      model.subgraphs whole.subgraphs) :
    Metadata.collect first read model = Metadata.ofModel whole := by
  obtain ⟨version, description, subgraphs⟩ := model
  obtain ⟨version, description, whole⟩ := whole
  dsimp only at hversion hdescription h
  subst hversion hdescription
  unfold Metadata.ofModel Metadata.collect
  dsimp only
  cases h with
  | none => rfl
  | some h =>
      cases h with
      | nil => rfl
      | @cons s g others others' hs hothers =>
          obtain ⟨tensors, hfirst, htensors⟩ := hs
          have hslots := slots_eq htensors
          have hseveral : (others ≠ []) = (others' ≠ []) := by
            rw [← List.length_pos_iff, ← List.length_pos_iff,
              hothers.length_eq]
          simp only [Option.getD_some, hseveral, hothers.length_eq, hfirst,
            ofExcept_ok, pure_bind, hslots]

end

-- =================================================================== loader

/-- Decoding succeeds iff the bytes pass and can be read. -/
theorem WholeModel.decode_eq_ok_iff {bytes : Bytes} {m : WholeModel} :
    WholeModel.decode bytes = .ok m
      ↔ verify bytes.toArray = .ok ()
        ∧ Read.root (Read.subgraph Read.tensor) bytes.toArray = some m := by
  unfold WholeModel.decode WholeModel.ofBuffer
  cases verify bytes.toArray with
  | error fault => simp [bind, Except.bind]
  | ok u =>
      show checked _ = _ ↔ _
      rw [and_iff_right rfl]
      cases Read.root (Read.subgraph Read.tensor) bytes.toArray with
      | none => simp [checked]
      | some n => simp [checked]

/-- Where the whole model can be read, the loader finds what is in it. -/
theorem Metadata.ofBytes_eq {bytes : Bytes} {m : WholeModel}
    (h : WholeModel.decode bytes = .ok m) :
    Metadata.ofBytes bytes = (do
      if !hasIdentifier bytes then log .noIdentifier
      Metadata.ofModel m) := by
  obtain ⟨hverify, hroot⟩ := WholeModel.decode_eq_ok_iff.mp h
  obtain ⟨places, hplaces, hrel⟩ := root_through hroot
  have hcollect : Metadata.collect
      (fun place =>
        (checked (Read.subgraph .place bytes.toArray place)).mapError
          .flatBuffer)
      (fun place => (checked (Read.tensor bytes.toArray place)).mapError
        .flatBuffer) { m with subgraphs := places }
      = Metadata.ofModel m := by
    refine collect_eq rfl rfl (rel_imp (fun _ _ hsubgraphs => ?_) hrel)
    refine hsubgraphs.imp fun place g hg => ?_
    obtain ⟨tensors, hread, htensors⟩ := subgraph_through hg
    refine ⟨tensors, by rw [hread]; rfl, rel_imp (fun _ _ hts => ?_) htensors⟩
    exact hts.imp fun place t ht => by rw [ht]; rfl
  unfold Metadata.ofBytes
  simp only [hverify, hplaces, checked, Except.mapError, ofExcept_ok,
    pure_bind]
  rw [← hcollect]
  rfl

/-- What the loader finds is told by the model in the bytes. -/
theorem Metadata.outcome_ofBytes {bytes : Bytes} {m : WholeModel}
    (h : WholeModel.decode bytes = .ok m) :
    (Metadata.ofBytes bytes).outcome = (Metadata.ofModel m).outcome := by
  rw [Metadata.ofBytes_eq h]
  exact outcome_when _ _ fun _ => Metadata.ofModel m

/-- What verification refuses, the loader refuses. -/
theorem Metadata.outcome_ofBytes_of_fault {bytes : Bytes}
    {fault : FlatBuffer.Fault} (h : verify bytes.toArray = .error fault) :
    (Metadata.ofBytes bytes).outcome = .error (.flatBuffer fault) := by
  unfold Metadata.ofBytes
  simp only [h, Except.mapError]
  split
  · rfl
  · rfl

-- =================================================================== errors

/-- What can be wrong with a model that is read: it makes no sense, or lacks a
part. -/
inductive ContentFault : Error → Prop
  | noSubgraph : ContentFault (.invalidModel .noSubgraph)
  | negativeIndex : ContentFault (.invalidModel .negativeIndex)
  | danglingTensor (side index count) :
      ContentFault (.invalidModel (.danglingTensor side index count))
  | indexList (side) : ContentFault (.missingField (.indexList side))
  | tensors : ContentFault (.missingField .tensors)

/-- The quantization of a tensor never fails. -/
theorem QuantizationTable.perTensor_failsIn (P : Error → Prop)
    (tensor : String) (q : QuantizationTable) :
    FailsIn P (q.perTensor tensor) := by
  unfold perTensor
  split
  · exact FailsIn.pure _
  · dsimp only
    split
    · exact (FailsIn.log _).bind fun _ => FailsIn.pure _
    · exact FailsIn.pure _
  · exact FailsIn.pure _

/-- Nor does the slot of a tensor, once that is read. -/
theorem Tensor.slot_failsIn (P : Error → Prop) (t : Tensor) :
    FailsIn P t.slot := by
  unfold slot
  dsimp only
  split
  · exact (QuantizationTable.perTensor_failsIn P _ _).bind
      fun _ => FailsIn.pure _
  · exact (FailsIn.pure _).bind fun _ => FailsIn.pure _

section

variable {σ τ : Type} {P : Error → Prop}
  {first : σ → Except Error (Subgraph τ)} {read : τ → Except Error Tensor}
  (hP : ∀ e, ContentFault e → P e) (hread : ∀ t, FailsIn P (ofExcept (read t)))

include hP hread

/-- The slots of a side fail with what is wrong with the lists, or as a tensor
that is read for them does. -/
theorem slots_failsIn (side : Side) (indices : Option (List Int32))
    (tensors : Option (List τ)) :
    FailsIn P (slots read side indices tensors) := by
  have htensor : ∀ t, FailsIn P (do (← ofExcept (read t)).slot) :=
    fun t => (hread t).bind fun _ => Tensor.slot_failsIn P _
  unfold slots
  split
  case h_1 => exact FailsIn.fail (hP _ (.indexList side))
  case h_2 => exact FailsIn.fail (hP _ .tensors)
  case h_3 listed all =>
    refine FailsIn.mapM fun index _ => ?_
    dsimp only
    split
    · refine (FailsIn.fail (hP _ .negativeIndex)).bind fun _ => ?_
      split
      · exact FailsIn.fail (hP _ (.danglingTensor ..))
      · exact htensor _
    · split
      · exact FailsIn.fail (hP _ (.danglingTensor ..))
      · exact htensor _

/-- And so does the loader, beside what reading the first subgraph fails
with. -/
theorem Metadata.collect_failsIn
    (hfirst : ∀ s, FailsIn P (ofExcept (first s))) (model : Model σ) :
    FailsIn P (Metadata.collect first read model) := by
  unfold Metadata.collect
  split
  · exact FailsIn.fail (hP _ .noSubgraph)
  · rename_i s others _
    have hslots : FailsIn P (do
        let g ← ofExcept (first s)
        let inputs ← slots read .input g.inputs g.tensors
        let outputs ← slots read .output g.outputs g.tensors
        return (⟨model.version, model.description.getD "", inputs, outputs⟩ :
          Metadata)) :=
      (hfirst s).bind fun _ => (slots_failsIn hP hread _ _ _).bind fun _ =>
        (slots_failsIn hP hread _ _ _).bind fun _ => FailsIn.pure _
    dsimp only
    split
    · exact (FailsIn.log _).bind fun _ => hslots
    · exact hslots

end

/-- A model that is at hand fails with what is wrong with its contents. -/
theorem Metadata.ofModel_failsIn (m : WholeModel) :
    FailsIn ContentFault (Metadata.ofModel m) :=
  collect_failsIn (fun _ h => h) (fun _ => FailsIn.pure _)
    (fun _ => FailsIn.pure _) m

/-- Bytes fail with what is wrong with the buffer, or with its contents. -/
theorem Metadata.ofBytes_failsIn {P : Error → Prop}
    (hP : ∀ e, ContentFault e → P e) (hbuffer : ∀ fault, P (.flatBuffer fault))
    (bytes : Bytes) : FailsIn P (Metadata.ofBytes bytes) := by
  have hverified : ∀ {α : Type} (x : Except FlatBuffer.Fault α),
      FailsIn P (ofExcept (x.mapError .flatBuffer)) := by
    intro α x e he
    cases x with
    | error fault =>
        cases he
        exact hbuffer fault
    | ok a => cases he
  have hload : FailsIn P (do
      let b : FlatBuffer.Buffer := bytes.toArray
      ofExcept ((verify b).mapError .flatBuffer)
      let model ← ofExcept ((checked (Read.root .place b)).mapError .flatBuffer)
      collect
        (fun place =>
          (checked (Read.subgraph .place b place)).mapError .flatBuffer)
        (fun place => (checked (Read.tensor b place)).mapError .flatBuffer)
        model) :=
    (hverified _).bind fun _ => (hverified _).bind fun _ =>
      collect_failsIn hP (fun _ => hverified _) (fun _ => hverified _) _
  unfold Metadata.ofBytes
  dsimp only
  split
  · exact (FailsIn.log _).bind fun _ => hload
  · exact hload

end DetectorHeader.Tflite
