/-
A verified model is read safely (`verified_reads_fit`): all that its readers
look at is inside of the buffer, aligned, and UTF-8 where it is a text. This is
so wherever the vtables are in the first 2 GiB, so in every buffer that is no
longer; behind them a reader looks for a vtable where there is none
(`distantVtable_misread`).

Two facts meet here for each kind of table. Its verification secures its
footprint (`secures_…`), so every access fits; and the footprint covers the
reader (`covers_…`), so the reader gives a value.
-/
import DetectorHeader.Proofs.FlatBuffer.Sound
import DetectorHeader.Proofs.Tflite.Distant

namespace DetectorHeader.Tflite

open FlatBuffer

-- ====================================================== what readers look at

namespace Footprint

open FlatBuffer.Footprint

/-- A vector of 32-bit integers. -/
def int32s : FlatBuffer.Footprint := offsetTo (vector .i32)

/-- The quantization of a tensor. -/
def quantization : FlatBuffer.Footprint :=
  table [
    (Vtable.quantizationScale, offsetTo (vector .f32)),
    (Vtable.quantizationZeroPoint, offsetTo (vector .i64)),
    (Vtable.quantizationDimension, number .i32)]

/-- A tensor. -/
def tensor : FlatBuffer.Footprint :=
  table [
    (Vtable.tensorShape, int32s),
    (Vtable.tensorType, number .i8),
    (Vtable.tensorBuffer, number .u32),
    (Vtable.tensorName, offsetTo string),
    (Vtable.tensorQuantization, offsetTo quantization),
    (Vtable.tensorShapeSignature, int32s)]

/-- A subgraph and all of its tensors. -/
def subgraph : FlatBuffer.Footprint :=
  table [
    (Vtable.subgraphTensors, offsetTo (vectorOf tensor)),
    (Vtable.subgraphInputs, int32s),
    (Vtable.subgraphOutputs, int32s),
    (Vtable.subgraphName, offsetTo string)]

/-- A model and all of its subgraphs. -/
def model : FlatBuffer.Footprint :=
  table [
    (Vtable.modelVersion, number .u32),
    (Vtable.modelSubgraphs, offsetTo (vectorOf subgraph)),
    (Vtable.modelDescription, offsetTo string)]

/-- The whole model, from the offset at the start of the buffer. -/
def root (b : Buffer) : List Access := offsetTo model b 0

end Footprint

/-- The footprint of a vector covers what reading it looks at. -/
theorem covers_int32s :
    Covers Footprint.int32s (FlatBuffer.Read.offsetTo Read.int32s) :=
  (Covers.vector .i32 Read.int32).offsetTo

theorem covers_quantization :
    Covers Footprint.quantization Read.quantization := by
  refine Covers.table fun b t => ?_
  simp only [List.forall_mem_cons]
  rw [← (Covers.vector .f32
      fun n => (⟨UInt32.ofNat n⟩ : Binary32)).offsetTo.field?,
    ← (Covers.vector .i64 Read.int64).offsetTo.field?,
    ← (Covers.scalar .i32 Read.int32).fieldD]
  simp only [exists_bind_eq_some]
  simp

/-- That of a tensor covers its fields and what they lead to. -/
theorem covers_tensor : Covers Footprint.tensor Read.tensor := by
  refine Covers.table fun b t => ?_
  simp only [List.forall_mem_cons]
  rw [← Covers.field? covers_int32s,
    ← (Covers.scalar .i8 fun n => (UInt8.ofNat n).toInt8).fieldD,
    ← (Covers.scalar .u32 UInt32.ofNat).fieldD,
    ← Covers.string.offsetTo.field?,
    ← (Covers.offsetTo covers_quantization).field?,
    ← Covers.field? covers_int32s]
  simp only [exists_bind_eq_some]
  simp

/-- That of a subgraph also covers every tensor. -/
theorem covers_subgraph :
    Covers Footprint.subgraph (Read.subgraph Read.tensor) := by
  refine Covers.table fun b t => ?_
  simp only [List.forall_mem_cons]
  rw [← (Covers.vectorOf covers_tensor).offsetTo.field?,
    ← Covers.field? covers_int32s, ← Covers.field? covers_int32s,
    ← Covers.string.offsetTo.field?]
  simp only [exists_bind_eq_some]
  simp

/-- And that of a model all that is ever looked at. -/
theorem covers_model :
    Covers Footprint.model (Read.model (Read.subgraph Read.tensor)) := by
  refine Covers.table fun b t => ?_
  simp only [List.forall_mem_cons]
  rw [← (Covers.scalar .u32 UInt32.ofNat).fieldD,
    ← (Covers.vectorOf covers_subgraph).offsetTo.field?,
    ← Covers.string.offsetTo.field?]
  simp only [exists_bind_eq_some]
  simp

/-- The whole model is read just when all that is looked at for it can be. -/
theorem covers_root {b : Buffer} :
    (∃ m, Read.root (Read.subgraph Read.tensor) b = some m)
      ↔ ∀ access ∈ Footprint.root b, access.Readable b :=
  Covers.offsetTo covers_model b 0

-- ================================================= what verification secures

/-- What is looked at in a vector that has passed is in the buffer. -/
theorem secures_int32s :
    Secures (FlatBuffer.Check.offsetTo (FlatBuffer.Check.vector .i32))
      Footprint.int32s :=
  (Secures.vector .i32).offsetTo

theorem secures_quantization :
    Secures Check.quantization Footprint.quantization :=
  Secures.table
    (.cons ⟨rfl, (Secures.vector .f32).offsetTo⟩
    (.cons ⟨rfl, (Secures.vector .i64).offsetTo⟩
    (.cons ⟨rfl, Secures.scalar .i32⟩ .nil)))

/-- So is what is looked at for a tensor that has passed. -/
theorem secures_tensor : Secures Check.tensor Footprint.tensor :=
  Secures.table
    (.cons ⟨rfl, secures_int32s⟩
    (.cons ⟨rfl, Secures.scalar .i8⟩
    (.cons ⟨rfl, Secures.scalar .u32⟩
    (.cons ⟨rfl, Secures.string.offsetTo⟩
    (.cons ⟨rfl, Secures.offsetTo secures_quantization⟩
    (.cons ⟨rfl, secures_int32s⟩ .nil))))))

/-- For a subgraph too, whichever tables its offsets share. -/
theorem secures_subgraph : Secures Check.subgraph Footprint.subgraph :=
  Secures.table
    (.cons ⟨rfl, (Secures.vectorOf secures_tensor).offsetTo⟩
    (.cons ⟨rfl, secures_int32s⟩
    (.cons ⟨rfl, secures_int32s⟩
    (.cons ⟨rfl, Secures.string.offsetTo⟩ .nil))))

/-- And for a whole model. -/
theorem secures_model : Secures Check.model Footprint.model :=
  Secures.table
    (.cons ⟨rfl, Secures.scalar .u32⟩
    (.cons ⟨rfl, (Secures.vectorOf secures_subgraph).offsetTo⟩
    (.cons ⟨rfl, Secures.string.offsetTo⟩ .nil)))

-- ============================================================ verified bytes

/-- The vtables of the tables that the readers of a model come to are in the
first 2 GiB of the buffer, those that are in it at all. -/
def NearVtables (b : Buffer) : Prop := Near b (Footprint.root b)

/-- Bytes that are no more than 2 GiB have no vtables elsewhere. -/
theorem nearVtables_of_length_le {bytes : Bytes}
    (h : bytes.length ≤ 0x80000000) : NearVtables bytes.toArray :=
  near_of_size_le (by rwa [Buffer.size_ofArray, List.size_toArray])

/-- On verified bytes with near vtables every access of the whole model
fits. -/
theorem fits_of_verify {b : Buffer} (h : verify b = .ok ())
    (hnear : NearVtables b) : ∀ access ∈ Footprint.root b, access.Fits b := by
  obtain ⟨usage, hroot⟩ := verify_eq_ok_iff.mp h
  exact Secures.offsetTo secures_model b 0 _ _ hroot hnear

/-- Verified bytes with near vtables hold a model. -/
theorem exists_decode_of_verify {bytes : Bytes}
    (h : verify bytes.toArray = .ok ()) (hnear : NearVtables bytes.toArray) :
    ∃ m, WholeModel.decode bytes = .ok m := by
  obtain ⟨m, hm⟩ := covers_root.mpr fun access haccess =>
    (fits_of_verify h hnear access haccess).readable
  exact ⟨m, WholeModel.decode_eq_ok_iff.mpr ⟨h, hm⟩⟩

/-- Where the vtables of verified bytes are in the first 2 GiB, so of all that
are no more, every access of the whole model fits, the whole model is read, and
the loader meets nothing that is wrong with the bytes. -/
theorem verified_reads_fit {bytes : Bytes}
    (h : verify bytes.toArray = .ok ()) :
    (bytes.length ≤ 0x80000000 → NearVtables bytes.toArray)
      ∧ (NearVtables bytes.toArray →
        (∀ access ∈ Footprint.root bytes.toArray, access.Fits bytes.toArray)
          ∧ (∃ m, WholeModel.decode bytes = .ok m)
          ∧ ∀ fault,
            (Metadata.ofBytes bytes).outcome ≠ .error (.flatBuffer fault)) := by
  refine ⟨nearVtables_of_length_le, fun hnear => ?_⟩
  obtain ⟨m, hdecode⟩ := exists_decode_of_verify h hnear
  refine ⟨fits_of_verify h hnear, ⟨m, hdecode⟩, fun fault hfault => ?_⟩
  rw [Metadata.outcome_ofBytes hdecode] at hfault
  have hcontent := Metadata.ofModel_failsIn m _ hfault
  cases hcontent

/-- Two subgraphs that are one and the same table, with two tensors that are
one and the same too. Inputs, outputs, shape and shape signature share one
vector, all names and the description share one string, and the length of that
string is the upper half of the zero point. -/
def entangledBytes : Bytes := [
  68, 0, 0, 0,
  12, 0, 16, 0, 4, 0, 0, 0, 8, 0, 12, 0,
  14, 0, 20, 0, 4, 0, 8, 0, 12, 0, 0, 0, 16, 0,
  20, 0, 24, 0, 4, 0, 20, 0, 8, 0, 12, 0, 16, 0, 0, 0, 0, 0, 4, 0,
  18, 0, 16, 0, 0, 0, 0, 0, 4, 0, 8, 0, 0, 0, 0, 0, 12, 0,
  64, 0, 0, 0, 3, 0, 0, 0, 8, 0, 0, 0, 116, 0, 0, 0,
  2, 0, 0, 0, 8, 0, 0, 0, 4, 0, 0, 0,
  80, 0, 0, 0, 16, 0, 0, 0, 64, 0, 0, 0, 60, 0, 0, 0, 84, 0, 0, 0,
  2, 0, 0, 0, 8, 0, 0, 0, 4, 0, 0, 0,
  98, 0, 0, 0, 36, 0, 0, 0, 7, 0, 0, 0, 56, 0, 0, 0, 8, 0, 0, 0, 9, 0, 0, 0,
  102, 0, 0, 0, 24, 0, 0, 0, 28, 0, 0, 0, 1, 0, 0, 0,
  2, 0, 0, 0, 1, 0, 0, 0, 0, 0, 0, 0,
  1, 0, 0, 0, 0, 0, 128, 62,
  1, 0, 0, 0, 3, 0, 0, 0, 1, 0, 0, 0,
  116, 0]

/-- Whatever is shared, all that is looked at is in the buffer. -/
theorem entangledBytes_reads_fit :
    verify entangledBytes.toArray = .ok ()
      ∧ (∀ access ∈ Footprint.root entangledBytes.toArray,
        access.Fits entangledBytes.toArray)
      ∧ (∃ m, WholeModel.decode entangledBytes = .ok m)
      ∧ ∀ fault, (Metadata.ofBytes entangledBytes).outcome
        ≠ .error (.flatBuffer fault) := by
  have hverify : verify entangledBytes.toArray = .ok () := by decide +kernel
  obtain ⟨hshort, hreads⟩ := verified_reads_fit hverify
  exact ⟨hverify, hreads (hshort (by decide +kernel))⟩

/-- The version is looked at where the vtable that a reader finds says. -/
theorem version_mem_root {b : Buffer} {t : FlatBuffer.Read.Table}
    {offset : Nat} (hroot : b.u32 0 = t.position)
    (ht : FlatBuffer.Footprint.tableAt b t.position = t)
    (hlong : 6 ≤ t.length) (hslot : b.u16 (t.vtable + 4) = offset)
    (hoffset : offset ≠ 0) :
    .number .u32 (t.position + offset : Nat) ∈ Footprint.root b := by
  have hfield : .number .u32 (t.position + offset : Nat)
      ∈ FlatBuffer.Footprint.field t Vtable.modelVersion
        (FlatBuffer.Footprint.number .u32) b := by
    unfold FlatBuffer.Footprint.field FlatBuffer.Footprint.number
    simp only [Vtable.modelVersion, hslot, if_pos hlong, if_neg hoffset]
    exact List.mem_cons_of_mem _ (List.mem_singleton_self _)
  unfold Footprint.root FlatBuffer.Footprint.offsetTo Footprint.model
    FlatBuffer.Footprint.table
  rw [hroot, Nat.zero_add, ht]
  refine List.mem_cons_of_mem _ (List.mem_cons_of_mem _
    (List.mem_cons_of_mem _ (List.mem_flatMap.mpr
      ⟨(Vtable.modelVersion, FlatBuffer.Footprint.number .u32), ?_, hfield⟩)))
  exact List.mem_cons_self

/-- Behind the first 2 GiB that does not hold. With the vtable in the second
2 GiB a verified buffer may not be read at all; with the vtable in the third,
the version may be read at a position that is no multiple of its size. -/
theorem distantVtable_misread :
    (verify (distant []).toArray = .ok ()
        ∧ ∀ m, WholeModel.decode (distant []) ≠ .ok m)
      ∧ verify (wrapped 5 []).toArray = .ok ()
      ∧ ∃ access ∈ Footprint.root (wrapped 5 []).toArray,
        ¬ access.Aligned := by
  obtain ⟨hverify, hnone⟩ : _
      ∧ Read.root (Read.subgraph Read.tensor) (distant []).toArray = none :=
    distant_table []
  refine ⟨⟨hverify, fun m hdecode => ?_⟩, verify_wrapped 5 [], ?_⟩
  · cases hnone.symm.trans (WholeModel.decode_eq_ok_iff.mp hdecode).2
  · obtain ⟨-, -, ht⟩ := Covers.table_eq_some_iff.mp (table_wrapped 5 [])
    have hmem := version_mem_root (t := ⟨0xFFFFFFF8, 0, 0xFFF8⟩)
      (wrapped_tableAt 5 []).1.value ht.symm (by decide)
      (has_slots_wrapped 5 []).1.value (by decide)
    refine ⟨_, hmem, ?_⟩
    show ¬ ((0xFFFFFFFD : Nat) : Int) % ((4 : Nat) : Int) = 0
    decide

end DetectorHeader.Tflite
