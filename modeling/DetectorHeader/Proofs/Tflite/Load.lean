/-
The work of verifying a model, told from its value. Each kind of table has a
load for itself and what it refers to; `Proofs/FlatBuffer/Load` says how loads
add up.
-/
import DetectorHeader.Proofs.FlatBuffer.Spelling
import DetectorHeader.Text.Utf8
import DetectorHeader.Tflite.Schema

namespace DetectorHeader.Tflite

open FlatBuffer

/-- The load of a vector of 32-bit integers. -/
def int32sLoad (items : List Int32) : Load := .vector .i32 items.length

/-- The load of a text. -/
def textLoad (text : String) : Load := .string (Utf8.encode text).length

/-- The load of a quantization. -/
def QuantizationTable.load (q : QuantizationTable) : Load :=
  .table [
    (Vtable.quantizationScale,
      q.scale.map fun items => .offsetTo (.vector .f32 items.length)),
    (Vtable.quantizationZeroPoint,
      q.zeroPoint.map fun items => .offsetTo (.vector .i64 items.length)),
    (Vtable.quantizationDimension,
      (nonzero q.quantizedDimension.toUInt32.toNat).map fun _ =>
        .scalar .i32)]

/-- The load of a tensor. -/
def Tensor.load (t : Tensor) : Load :=
  .table [
    (Vtable.tensorShape,
      t.shape.map fun items => .offsetTo (int32sLoad items)),
    (Vtable.tensorType,
      (nonzero t.type.toUInt8.toNat).map fun _ => .scalar .i8),
    (Vtable.tensorBuffer, (nonzero t.buffer.toNat).map fun _ => .scalar .u32),
    (Vtable.tensorName, t.name.map fun text => .offsetTo (textLoad text)),
    (Vtable.tensorQuantization, t.quantization.map fun q => .offsetTo q.load),
    (Vtable.tensorShapeSignature,
      t.shapeSignature.map fun items => .offsetTo (int32sLoad items))]

/-- The load of a subgraph. -/
def Subgraph.load (g : Subgraph Tensor) : Load :=
  .table [
    (Vtable.subgraphTensors,
      g.tensors.map fun ts => .offsetTo (.vectorOf (ts.map Tensor.load))),
    (Vtable.subgraphInputs,
      g.inputs.map fun items => .offsetTo (int32sLoad items)),
    (Vtable.subgraphOutputs,
      g.outputs.map fun items => .offsetTo (int32sLoad items)),
    (Vtable.subgraphName, g.name.map fun text => .offsetTo (textLoad text))]

/-- The load of a model. -/
def WholeModel.load (m : WholeModel) : Load :=
  .table [
    (Vtable.modelVersion, (nonzero m.version.toNat).map fun _ => .scalar .u32),
    (Vtable.modelSubgraphs,
      m.subgraphs.map fun gs => .offsetTo (.vectorOf (gs.map Subgraph.load))),
    (Vtable.modelDescription,
      m.description.map fun text => .offsetTo (textLoad text))]

-- ==================================================================== depth

/-- A quantization is one table deep. -/
theorem QuantizationTable.depth_load_le (q : QuantizationTable) :
    q.load.depth ≤ 1 := by
  refine Load.depth_table_le (d := 0) ?_
  simp only [List.forall_mem_cons, Option.forall_mem_map]
  exact ⟨fun _ _ => Nat.le_refl 0, fun _ _ => Nat.le_refl 0,
    fun _ _ => Nat.le_refl 0, by simp⟩

theorem Tensor.depth_load_le (t : Tensor) : t.load.depth ≤ 2 := by
  refine Load.depth_table_le (d := 1) ?_
  simp only [List.forall_mem_cons, Option.forall_mem_map]
  exact ⟨fun _ _ => Nat.zero_le 1, fun _ _ => Nat.zero_le 1,
    fun _ _ => Nat.zero_le 1, fun _ _ => Nat.zero_le 1,
    fun q _ => Nat.max_le.mpr ⟨Nat.zero_le 1, q.depth_load_le⟩,
    fun _ _ => Nat.zero_le 1, by simp⟩

theorem Subgraph.depth_load_le (g : Subgraph Tensor) : g.load.depth ≤ 3 := by
  refine Load.depth_table_le (d := 2) ?_
  simp only [List.forall_mem_cons, Option.forall_mem_map]
  refine ⟨fun ts _ => ?_, fun _ _ => Nat.zero_le 2, fun _ _ => Nat.zero_le 2,
    fun _ _ => Nat.zero_le 2, by simp⟩
  refine Nat.max_le.mpr ⟨Nat.zero_le 2, Load.depth_vectorOf_le ?_⟩
  exact List.forall_mem_map.mpr fun t _ => t.depth_load_le

theorem WholeModel.depth_load_le (m : WholeModel) : m.load.depth ≤ 4 := by
  refine Load.depth_table_le (d := 3) ?_
  simp only [List.forall_mem_cons, Option.forall_mem_map]
  refine ⟨fun _ _ => Nat.zero_le 3, fun gs _ => ?_, fun _ _ => Nat.zero_le 3,
    by simp⟩
  refine Nat.max_le.mpr ⟨Nat.zero_le 3, Load.depth_vectorOf_le ?_⟩
  exact List.forall_mem_map.mpr fun g _ => g.depth_load_le

-- ==================================================================== parts

/-- The numbers of a shape are part of the load of their tensor. -/
theorem Tensor.shape_le_load {t : Tensor} {shape : List Int32}
    (h : t.shape = some shape) : 4 * shape.length ≤ t.load.bytes := by
  have hshape : (Load.offsetTo (int32sLoad shape)).bytes ≤ t.load.bytes := by
    refine Load.bytes_le_table Vtable.tensorShape ?_
    rw [h]
    exact List.mem_cons_self
  refine Nat.le_trans ?_ hshape
  show 4 * shape.length ≤ 4 + (4 + shape.length * 4)
  omega

/-- A tensor is part of the load of its subgraph. -/
theorem Subgraph.tensor_le_load {g : Subgraph Tensor} {ts : List Tensor}
    {t : Tensor} (h : g.tensors = some ts) (ht : t ∈ ts) :
    t.load.bytes ≤ g.load.bytes := by
  have htensors : (Load.offsetTo (.vectorOf (ts.map Tensor.load))).bytes
      ≤ g.load.bytes := by
    refine Load.bytes_le_table Vtable.subgraphTensors ?_
    rw [h]
    exact List.mem_cons_self
  refine Nat.le_trans ?_ htensors
  exact (Load.bytes_le_vectorOf (List.mem_map_of_mem ht)).trans
    (Nat.le_add_left _ _)

/-- And a subgraph of the load of its model. -/
theorem WholeModel.subgraph_le_load {m : WholeModel}
    {gs : List (Subgraph Tensor)} {g : Subgraph Tensor}
    (h : m.subgraphs = some gs) (hg : g ∈ gs) :
    g.load.bytes ≤ m.load.bytes := by
  have hsubgraphs : (Load.offsetTo (.vectorOf (gs.map Subgraph.load))).bytes
      ≤ m.load.bytes := by
    refine Load.bytes_le_table Vtable.modelSubgraphs ?_
    rw [h]
    exact List.mem_cons_of_mem _ List.mem_cons_self
  refine Nat.le_trans ?_ hsubgraphs
  exact (Load.bytes_le_vectorOf (List.mem_map_of_mem hg)).trans
    (Nat.le_add_left _ _)

end DetectorHeader.Tflite
