/-
Bytes behind a model change nothing (`verified_lasts`): a model that is
verified, its contents, and the slots that the loader finds, are the same with
any further bytes behind. So of a file that has been cut off there is either
nothing to be had, or all that the whole file gives.

The tables are taken one by one, readers and checks side by side. The loader
follows, as on verified bytes it is told by the model that they hold.
-/
import DetectorHeader.Proofs.FlatBuffer.Extension
import DetectorHeader.Proofs.Tflite.Safety

namespace DetectorHeader.Tflite

open FlatBuffer Recorded

-- ================================================================== readers

theorem lasts_int32s : (FlatBuffer.Read.offsetTo Read.int32s).Lasts :=
  (Read.Lasts.vector .i32 Read.int32).offsetTo

theorem lasts_quantization : Read.quantization.Lasts := by
  intro b b' h position
  refine (Read.Lasts.table h position).bind fun t _ => ?_
  refine ((Read.Lasts.vector .f32 _).offsetTo.field? h t _).bind fun _ _ => ?_
  refine ((Read.Lasts.vector .i64 _).offsetTo.field? h t _).bind fun _ _ => ?_
  exact ((Read.Lasts.scalar .i32 _).fieldD h t _).bind
    fun _ _ => Kept.refl _

theorem lasts_tensor : Read.tensor.Lasts := by
  intro b b' h position
  refine (Read.Lasts.table h position).bind fun t _ => ?_
  refine (Read.Lasts.field? lasts_int32s h t _).bind fun _ _ => ?_
  refine ((Read.Lasts.scalar .i8 _).fieldD h t _).bind fun _ _ => ?_
  refine ((Read.Lasts.scalar .u32 _).fieldD h t _).bind fun _ _ => ?_
  refine (Read.Lasts.string.offsetTo.field? h t _).bind fun _ _ => ?_
  refine ((Read.Lasts.offsetTo lasts_quantization).field? h t _).bind
    fun _ _ => ?_
  exact (Read.Lasts.field? lasts_int32s h t _).bind fun _ _ => Kept.refl _

theorem lasts_subgraph : (Read.subgraph Read.tensor).Lasts := by
  intro b b' h position
  refine (Read.Lasts.table h position).bind fun t _ => ?_
  refine ((Read.Lasts.vectorOf lasts_tensor).offsetTo.field? h t _).bind
    fun _ _ => ?_
  refine (Read.Lasts.field? lasts_int32s h t _).bind fun _ _ => ?_
  refine (Read.Lasts.field? lasts_int32s h t _).bind fun _ _ => ?_
  exact (Read.Lasts.string.offsetTo.field? h t _).bind
    fun _ _ => Kept.refl _

theorem lasts_model : (Read.model (Read.subgraph Read.tensor)).Lasts := by
  intro b b' h position
  refine (Read.Lasts.table h position).bind fun t _ => ?_
  refine ((Read.Lasts.scalar .u32 _).fieldD h t _).bind fun _ _ => ?_
  refine ((Read.Lasts.vectorOf lasts_subgraph).offsetTo.field? h t _).bind
    fun _ _ => ?_
  exact (Read.Lasts.string.offsetTo.field? h t _).bind
    fun _ _ => Kept.refl _

-- =================================================================== checks

theorem lasts_int32s_check :
    (FlatBuffer.Check.offsetTo (FlatBuffer.Check.vector .i32)).Lasts :=
  (Check.Lasts.vector .i32).offsetTo

theorem lasts_quantization_check : Check.quantization.Lasts := by
  refine Check.Lasts.table ?_
  simp only [List.forall_mem_cons]
  exact ⟨(Check.Lasts.vector .f32).offsetTo,
    (Check.Lasts.vector .i64).offsetTo, Check.Lasts.scalar .i32, by simp⟩

theorem lasts_tensor_check : Check.tensor.Lasts := by
  refine Check.Lasts.table ?_
  simp only [List.forall_mem_cons]
  exact ⟨lasts_int32s_check, Check.Lasts.scalar .i8, Check.Lasts.scalar .u32,
    Check.Lasts.string.offsetTo, Check.Lasts.offsetTo lasts_quantization_check,
    lasts_int32s_check, by simp⟩

theorem lasts_subgraph_check : Check.subgraph.Lasts := by
  refine Check.Lasts.table ?_
  simp only [List.forall_mem_cons]
  exact ⟨(Check.Lasts.vectorOf lasts_tensor_check).offsetTo, lasts_int32s_check,
    lasts_int32s_check, Check.Lasts.string.offsetTo, by simp⟩

theorem lasts_model_check : Check.model.Lasts := by
  refine Check.Lasts.table ?_
  simp only [List.forall_mem_cons]
  exact ⟨Check.Lasts.scalar .u32,
    (Check.Lasts.vectorOf lasts_subgraph_check).offsetTo,
    Check.Lasts.string.offsetTo, by simp⟩

-- ============================================================= whole models

/-- Bytes behind a buffer that passes do not make it fail. -/
theorem verify_append {bytes tail : Bytes}
    (h : verify bytes.toArray = .ok ()) :
    verify (bytes ++ tail).toArray = .ok () := by
  obtain ⟨usage, hroot⟩ := verify_eq_ok_iff.mp h
  exact verify_eq_ok_iff.mpr ⟨usage, Check.Lasts.offsetTo lasts_model_check
    (Buffer.extends_append bytes tail) 0 _ _ hroot⟩

/-- And the same model is read from them. -/
theorem WholeModel.decode_append {bytes : Bytes} {m : WholeModel}
    (h : WholeModel.decode bytes = .ok m) (tail : Bytes) :
    WholeModel.decode (bytes ++ tail) = .ok m := by
  obtain ⟨hverify, hroot⟩ := WholeModel.decode_eq_ok_iff.mp h
  exact WholeModel.decode_eq_ok_iff.mpr ⟨verify_append hverify,
    Read.Lasts.offsetTo lasts_model (Buffer.extends_append bytes tail) 0 m
      hroot⟩

/-- The bytes of a model may be followed by any others. It passes verification
with them as without; what is read of it without them is read with them, and
the loader gives the same slots or the same error. That there is something to
read is sure where its vtables are in the first 2 GiB, so of all that is no
longer. Of the bytes that any file begins with, verification therefore refuses
what is too little; what it does not refuse loads as the whole file does. -/
theorem verified_lasts :
    (∀ bytes tail : Bytes, verify bytes.toArray = .ok () →
      verify (bytes ++ tail).toArray = .ok ()
        ∧ (∀ m, WholeModel.decode bytes = .ok m →
          WholeModel.decode (bytes ++ tail) = .ok m
            ∧ (Metadata.ofBytes (bytes ++ tail)).outcome
              = (Metadata.ofBytes bytes).outcome)
        ∧ (NearVtables bytes.toArray → ∃ m, WholeModel.decode bytes = .ok m)
        ∧ (bytes.length ≤ 0x80000000 → NearVtables bytes.toArray))
      ∧ ∀ file start : Bytes, start <+: file →
        (∃ fault, verify start.toArray = .error fault
          ∧ (Metadata.ofBytes start).outcome = .error (.flatBuffer fault))
        ∨ (NearVtables start.toArray → (Metadata.ofBytes start).outcome
          = (Metadata.ofBytes file).outcome) := by
  -- Bytes of one model are loaded alike, and a longer buffer has the same
  -- model.
  have hsame : ∀ (bytes tail : Bytes) m, WholeModel.decode bytes = .ok m →
      WholeModel.decode (bytes ++ tail) = .ok m
        ∧ (Metadata.ofBytes (bytes ++ tail)).outcome
          = (Metadata.ofBytes bytes).outcome := by
    intro bytes tail m hdecode
    have hlonger := WholeModel.decode_append hdecode tail
    refine ⟨hlonger, ?_⟩
    rw [Metadata.outcome_ofBytes hdecode, Metadata.outcome_ofBytes hlonger]
  constructor
  · intro bytes tail h
    exact ⟨verify_append h, hsame bytes tail, exists_decode_of_verify h,
      nearVtables_of_length_le⟩
  · intro file start hstart
    -- A part that fails has its fault reported; one that passes is the file
    -- without its tail.
    obtain ⟨tail, rfl⟩ := hstart
    cases hverify : verify start.toArray with
    | error fault =>
        refine .inl ⟨fault, rfl, ?_⟩
        exact Metadata.outcome_ofBytes_of_fault hverify
    | ok _ =>
        refine .inr fun hnear => ?_
        obtain ⟨m, hdecode⟩ := exists_decode_of_verify hverify hnear
        exact (hsame start tail m hdecode).2.symm

/-- A model with shared parts keeps them all when a byte follows, and of its
first 150 bytes there is nothing to be had. -/
theorem entangledBytes_lasts :
    verify (entangledBytes ++ [0xFF]).toArray = .ok ()
      ∧ (∃ m, WholeModel.decode entangledBytes = .ok m
        ∧ WholeModel.decode (entangledBytes ++ [0xFF]) = .ok m)
      ∧ (Metadata.ofBytes (entangledBytes ++ [0xFF])).outcome
        = (Metadata.ofBytes entangledBytes).outcome
      ∧ ((∃ fault, verify (entangledBytes.take 150).toArray = .error fault
          ∧ (Metadata.ofBytes (entangledBytes.take 150)).outcome
            = .error (.flatBuffer fault))
        ∨ (NearVtables (entangledBytes.take 150).toArray →
          (Metadata.ofBytes (entangledBytes.take 150)).outcome
            = (Metadata.ofBytes entangledBytes).outcome)) := by
  have hverify : verify entangledBytes.toArray = .ok () := by decide +kernel
  obtain ⟨hlonger, hsame, hreads, hnear⟩ :=
    verified_lasts.1 entangledBytes [0xFF] hverify
  obtain ⟨m, hdecode⟩ := hreads (hnear (by decide +kernel))
  obtain ⟨hdecode', houtcome⟩ := hsame m hdecode
  exact ⟨hlonger, ⟨m, hdecode, hdecode'⟩, houtcome,
    verified_lasts.2 entangledBytes _ (List.take_prefix 150 _)⟩

/-- Behind the first 2 GiB that does not hold: bytes that are verified can be
followed by others so that one version is read, or another. -/
theorem wrapped_decode_ne :
    verify (wrapped 16 []).toArray = .ok ()
      ∧ WholeModel.decode (wrapped 16 [] ++ [0, 0, 0, 0, 7, 0, 0, 0])
        = .ok { version := 7 }
      ∧ WholeModel.decode (wrapped 16 [] ++ [0, 0, 0, 0, 8, 0, 0, 0])
        = .ok { version := 8 } := by
  rw [wrapped_append, wrapped_append]
  exact ⟨verify_wrapped 16 [], decode_wrapped 7, decode_wrapped 8⟩

end DetectorHeader.Tflite
