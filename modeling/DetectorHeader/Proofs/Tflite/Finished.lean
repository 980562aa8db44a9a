/-
What has been finished as a TFLite model is told by its identifier
(`hasIdentifier_of_finished`), and what is written for a model has been
finished as one (`WholeModel.encode_finished`).
-/
import DetectorHeader.Proofs.FlatBuffer.Steps
import DetectorHeader.Tflite.Build

namespace DetectorHeader.Tflite

open FlatBuffer FlatBuffer.Build

/-- A finished buffer has the identifier of the schema behind its first offset.
-/
theorem hasIdentifier_of_finished {bytes : Bytes}
    (h : Finished identifier bytes) : hasIdentifier bytes = true := by
  have hlength : identifier.length = 4 := rfl
  obtain ⟨offset, rest, hoffset, rfl⟩ := h.exists_append hlength
  unfold hasIdentifier
  rw [List.drop_left' hoffset, List.take_left' hlength]
  exact decide_eq_true rfl

-- ===================================================================== fields

theorem size_number? {slot size : Nat} (hsize : size ∣ 8) (value : Nat) :
    ∀ f ∈ number? slot size value, f.cell.size ∣ 8 := by
  intro f hf
  unfold number? at hf
  split at hf
  · cases hf
  · obtain rfl := List.mem_singleton.mp hf
    exact hsize

theorem size_offset? (slot : Nat) (target : Option Reference) :
    ∀ f ∈ offset? slot target, f.cell.size ∣ 8 := by
  intro f hf
  cases target with
  | none => cases hf
  | some r =>
      obtain rfl := List.mem_singleton.mp hf
      exact (by decide : 4 ∣ 8)

/-- The fields that are written have one, two, four or eight bytes. -/
theorem walks_table {fields : List Field}
    (h : ∀ f ∈ fields, f.cell.size ∣ 8) : Walks (table fields) :=
  Walks.step fun _ => .table h

-- ===================================================================== tables

/-- A vector is written in one step. -/
theorem walks_int32s (items : List Int32) : Walks (Build.int32s items) :=
  Walks.step fun _ => .vector _ (by decide)

theorem walks_text (s : String) : Walks (Build.text s) :=
  Walks.step fun _ => .string _

theorem walks_vectorOf {α : Type} {f : α → FlatBuffer.Build Reference}
    (h : ∀ a, Walks (f a)) (items : List α) :
    Walks (do vectorOf (← items.mapM f)) :=
  (Walks.mapM h items).bind fun _ => Walks.step fun _ => .vectorOf _

theorem walks_quantization (q : QuantizationTable) :
    Walks (Build.quantization q) := by
  refine (Walks.optional (fun _ => Walks.step fun _ => .vector _ (by decide))
    _).bind fun scale => ?_
  refine (Walks.optional (fun _ => Walks.step fun _ => .vector _ (by decide))
    _).bind fun zeroPoint => ?_
  refine walks_table ?_
  simp only [List.forall_mem_append]
  exact ⟨⟨size_number? (by decide) _, size_offset? _ _⟩, size_offset? _ _⟩

/-- A tensor is written by steps, one for each thing that it refers to. -/
theorem walks_tensor (t : Tensor) : Walks (Build.tensor t) := by
  refine (Walks.optional walks_quantization _).bind fun quantization => ?_
  refine (Walks.optional walks_int32s _).bind fun shape => ?_
  refine (Walks.optional walks_int32s _).bind fun shapeSignature => ?_
  refine (Walks.optional walks_text _).bind fun name => ?_
  refine walks_table ?_
  simp only [List.forall_mem_append]
  exact ⟨⟨⟨⟨⟨size_offset? _ _, size_offset? _ _⟩, size_offset? _ _⟩,
    size_number? (by decide) _⟩, size_offset? _ _⟩, size_number? (by decide) _⟩

/-- And so is a subgraph, with its tensors. -/
theorem walks_subgraph (g : Subgraph Tensor) : Walks (Build.subgraph g) := by
  refine (Walks.optional (walks_vectorOf walks_tensor) _).bind
    fun tensors => ?_
  refine (Walks.optional walks_int32s _).bind fun inputs => ?_
  refine (Walks.optional walks_int32s _).bind fun outputs => ?_
  refine (Walks.optional walks_text _).bind fun name => ?_
  refine walks_table ?_
  simp only [List.forall_mem_append]
  exact ⟨⟨⟨size_offset? _ _, size_offset? _ _⟩, size_offset? _ _⟩,
    size_offset? _ _⟩

-- ===================================================================== models

/-- What is written for a model is a finished buffer: the table of the model
itself is written last. -/
theorem WholeModel.encode_finished (m : WholeModel) :
    Finished identifier m.encode := by
  have hparts : Walks (do
      let subgraphs ← m.subgraphs.mapM fun gs => do
        vectorOf (← gs.mapM Build.subgraph)
      let description ← m.description.mapM Build.text
      return (subgraphs, description)) :=
    (Walks.optional (walks_vectorOf walks_subgraph) _).bind fun _ =>
      (Walks.optional walks_text _).bind fun _ => Walks.pure _
  have hfields : ∀ parts : Option Reference × Option Reference,
      ∀ f ∈ offset? Vtable.modelDescription parts.2
        ++ offset? Vtable.modelSubgraphs parts.1
        ++ number? Vtable.modelVersion 4 m.version.toNat,
      f.cell.size ∣ 8 := by
    intro parts
    simp only [List.forall_mem_append]
    exact ⟨⟨size_offset? _ _, size_offset? _ _⟩, size_number? (by decide) _⟩
  have hfinished := finished_of_walks identifier hparts hfields
  simp only [bind_assoc, pure_bind] at hfinished
  unfold WholeModel.encode Build.model
  simp only [bind_assoc]
  exact hfinished

end DetectorHeader.Tflite
