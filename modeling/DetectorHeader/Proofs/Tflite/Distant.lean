/-
Models whose vtable is behind the first 2 GiB of the buffer.

Verification passes them, as its positions have 64 bits. Readers look for the
vtable where 32 bits lead: in front of the buffer, if the vtable is in the
second 2 GiB (`root_eq_none`), and 4 GiB before it, where anything may stand,
if it is in the third (`table_wrapped`). The buffers here consist of a root
offset, zeros, and a table without fields behind them (`spaced`); they are
much too long to be looked at byte by byte, so what is known of them comes
from the places of their parts.
-/
import DetectorHeader.Proofs.FlatBuffer.Spelling
import DetectorHeader.Proofs.Tflite.Loader

namespace DetectorHeader.Tflite

open FlatBuffer

-- ============================================================== bare tables

/-- A model passes verification if its vtable has no slots. -/
theorem verify_of_bareTable {b : Buffer} {t : FlatBuffer.Read.Table}
    (hroot : NumberAt .u32 b 0 t.position) (ht : TableAt b t)
    (hbare : t.length = 4) : verify b = .ok () := by
  have habsent : ∀ f : FlatBuffer.Check.Field, 4 ≤ f.slot →
      Passes (FlatBuffer.Check.field f b t.position t.vtable t.length) {} := by
    intro f hslot
    unfold FlatBuffer.Check.field
    rw [if_neg (by omega)]
    exact Passes.pure
  have hmodel : Passes (Check.model b t.position)
      (.tableOf t.length [{}, {}, {}]) :=
    Passes.table ht (.cons (habsent _ (by decide)) (.cons
      (habsent _ (by decide)) (.cons (habsent _ (by decide)) .nil)))
  have hpasses : Passes (Check.root b 0)
      (.offsetTo (.tableOf t.length [{}, {}, {}])) := by
    have hoffset : b.u32 0 = t.position := hroot.value
    unfold Check.root FlatBuffer.Check.offsetTo
    rw [hoffset, Nat.zero_add]
    exact (Passes.scalar hroot).bind hmodel
  rw [hbare] at hpasses
  exact verify_eq_ok_iff.mpr
    ⟨_, hpasses {} ⟨by decide, by decide, by decide⟩⟩

variable {σ : Type} {subgraph : FlatBuffer.Read σ} {b : Buffer}
  {t : FlatBuffer.Read.Table}

/-- A vtable in the second 2 GiB is looked for in front of the buffer, so no
reader gives a model. -/
theorem root_eq_none (hroot : NumberAt .u32 b 0 t.position)
    (ht : TableAt b t) (hlow : 0x80000000 ≤ t.vtable)
    (hhigh : t.vtable < 0x100000000) : Read.root subgraph b = none := by
  have hplace : FlatBuffer.Read.vtablePlace b t.position < 0 := by
    rw [FlatBuffer.Read.vtablePlace_of_offset ht.vtable, Int.bmod_eq_emod]
    split <;> omega
  have htable : FlatBuffer.Read.table b t.position = none := by
    unfold FlatBuffer.Read.table
    simp only [ht.offset.read, Option.bind_eq_bind, Option.bind_some,
      if_pos hplace]
  unfold Read.root FlatBuffer.Read.offsetTo Read.model
  simp only [hroot.read, Option.bind_eq_bind, Option.bind_some, Nat.zero_add,
    htable, Option.bind_none]

/-- Where the vtable tells a place for the version only, that is all there is
to read. -/
theorem root_of_version {offset version : Nat}
    (hroot : FlatBuffer.Read.number .u32 b 0 = some t.position)
    (htable : FlatBuffer.Read.table b t.position = some t)
    (hlong : 12 ≤ t.length)
    (hslot : FlatBuffer.Read.number .u16 b (t.vtable + 4) = some offset)
    (hoffset : offset ≠ 0)
    (hversion : FlatBuffer.Read.number .u32 b (t.position + offset)
      = some version)
    (hsubgraphs : FlatBuffer.Read.number .u16 b (t.vtable + 8) = some 0)
    (hdescription : FlatBuffer.Read.number .u16 b (t.vtable + 10) = some 0) :
    Read.root subgraph b = some { version := UInt32.ofNat version } := by
  have habsent : ∀ {α : Type} (read : FlatBuffer.Read α) (slot : Nat),
      slot + 2 ≤ 12 →
      FlatBuffer.Read.number .u16 b (t.vtable + slot) = some 0 →
      FlatBuffer.Read.field? b t slot read = some none := by
    intro α read slot hinside hzero
    unfold FlatBuffer.Read.field?
    rw [if_pos (by omega), hzero]
    rfl
  have hread : FlatBuffer.Read.fieldD b t Vtable.modelVersion
      (FlatBuffer.Read.scalar .u32 UInt32.ofNat)
      = some (UInt32.ofNat version) := by
    unfold FlatBuffer.Read.fieldD FlatBuffer.Read.field?
      FlatBuffer.Read.scalar
    simp only [Vtable.modelVersion, if_pos (show 4 + 2 ≤ t.length by omega),
      hslot, hversion, Option.bind_eq_bind, Option.bind_some, if_neg hoffset]
    rfl
  unfold Read.root FlatBuffer.Read.offsetTo Read.model
  simp only [hroot, Option.bind_eq_bind, Option.bind_some, Nat.zero_add,
    htable, hread, habsent _ Vtable.modelSubgraphs (by decide) hsubgraphs,
    habsent _ Vtable.modelDescription (by decide) hdescription]
  rfl

-- ==================================================================== spaced

/-- Bytes with a gap of zeros between them. -/
def spaced (front : Bytes) (gap : Nat) (back : Bytes) : Bytes :=
  front ++ (List.replicate gap 0 ++ back)

/-- What stands in front of the gap is found at the start. -/
theorem has_front (front : Bytes) (gap : Nat) (back : Bytes) :
    Buffer.Has (spaced front gap back).toArray 0 front :=
  Buffer.has_ofArray_iff.mpr ⟨[], _, rfl, rfl⟩

/-- What stands behind it is found where it ends. -/
theorem has_back {front : Bytes} {gap position : Nat}
    (h : front.length + gap = position) (back : Bytes) :
    Buffer.Has (spaced front gap back).toArray position back := by
  refine Buffer.has_ofArray_iff.mpr
    ⟨front ++ List.replicate gap 0, [], ?_, ?_⟩
  · rw [spaced, List.append_nil, List.append_assoc]
  · rw [List.length_append, List.length_replicate, h]

/-- More bytes behind are more bytes at the end. -/
theorem spaced_append (front : Bytes) (gap : Nat) (back tail : Bytes) :
    spaced front gap back ++ tail = spaced front gap (back ++ tail) := by
  unfold spaced
  rw [List.append_assoc, List.append_assoc]

-- ============================================================ second 2 GiB

/-- A table without fields at 2³¹, with its vtable right behind it. -/
def distant (tail : Bytes) : Bytes :=
  spaced [0, 0, 0, 0x80] 0x7FFFFFFC
    ([0xFC, 0xFF, 0xFF, 0xFF, 4, 0, 4, 0] ++ tail)

/-- Whatever stands behind, the table is verified and no model is read. -/
theorem distant_table (tail : Bytes) :
    verify (distant tail).toArray = .ok ()
      ∧ Read.root subgraph (distant tail).toArray = none := by
  have hroot : NumberAt .u32 (distant tail).toArray 0 0x80000000 :=
    (has_front [0, 0, 0, 0x80] _ _).numberAt rfl rfl
  have hback := has_back
    (rfl : ([0, 0, 0, 0x80] : Bytes).length + 0x7FFFFFFC = 0x80000000)
    ([0xFC, 0xFF, 0xFF, 0xFF] ++ ([4, 0] ++ ([4, 0] ++ tail)))
  obtain ⟨hoffset, hback⟩ := Buffer.has_append.mp hback
  obtain ⟨hlength, hback⟩ := Buffer.has_append.mp hback
  have hsize := (Buffer.has_append.mp hback).1.le_size
  have hoffset' := hoffset.numberAt (s := .i32) rfl rfl
  have ht : TableAt (distant tail).toArray ⟨0x80000000, 0x80000004, 4⟩ := {
    offset := ⟨rfl, hoffset'.inside, rfl⟩
    vtable := by
      have hu32 : Buffer.u32 (distant tail).toArray 0x80000000 = 0xFFFFFFFC :=
        hoffset'.value
      show Buffer.i32 (distant tail).toArray 0x80000000 = _
      unfold Buffer.i32
      rw [hu32]
      rfl
    length := hlength.numberAt (s := .u16) rfl rfl
    even := rfl
    inside := hsize }
  exact ⟨verify_of_bareTable hroot ht rfl,
    root_eq_none hroot ht (by decide) (by decide)⟩

-- ============================================================= third 2 GiB

/-- A table without fields at 2³² - 8, with its vtable at 2³². At the start,
where a reader looks for that, stands one with a slot for the version. -/
def wrapped (offset : UInt8) (tail : Bytes) : Bytes :=
  spaced [0xF8, 0xFF, 0xFF, 0xFF, offset, 0, 0, 0, 0, 0, 0, 0] 0xFFFFFFEC
    ([0xF8, 0xFF, 0xFF, 0xFF, 0, 0, 0, 0, 4, 0, 4, 0] ++ tail)

/-- More bytes behind such a buffer only lengthen its tail. -/
theorem wrapped_append (offset : UInt8) (tail more : Bytes) :
    wrapped offset tail ++ more = wrapped offset (tail ++ more) := by
  unfold wrapped
  rw [spaced_append, List.append_assoc]

/-- What stands in the buffer from 2³² - 8 on. -/
theorem has_wrapped (offset : UInt8) (tail : Bytes) :
    Buffer.Has (wrapped offset tail).toArray 0xFFFFFFF8
      ([0xF8, 0xFF, 0xFF, 0xFF] ++ ([0, 0, 0, 0] ++ ([4, 0, 4, 0] ++ tail))) :=
  has_back (by simp only [List.length_cons, List.length_nil]) _

/-- The table that is verified, at its place. -/
theorem wrapped_tableAt (offset : UInt8) (tail : Bytes) :
    NumberAt .u32 (wrapped offset tail).toArray 0 0xFFFFFFF8
      ∧ TableAt (wrapped offset tail).toArray
        ⟨0xFFFFFFF8, 0x100000000, 4⟩ := by
  have hfront : Buffer.Has (wrapped offset tail).toArray 0
      ([0xF8, 0xFF, 0xFF, 0xFF] ++ [offset, 0, 0, 0, 0, 0, 0, 0]) :=
    has_front _ _ _
  obtain ⟨hoffset, hback⟩ := Buffer.has_append.mp (has_wrapped offset tail)
  obtain ⟨-, hback⟩ := Buffer.has_append.mp hback
  have hvtable := (Buffer.has_append.mp hback).1
  -- The offset is -8, so the vtable is behind the table.
  have hoffset' := hoffset.numberAt (s := .i32) rfl rfl
  have hlength : Buffer.Has (wrapped offset tail).toArray 0x100000000
      ([4, 0] ++ [4, 0]) := hvtable
  refine ⟨(Buffer.has_append.mp hfront).1.numberAt rfl rfl, ?_⟩
  exact {
    offset := ⟨rfl, hoffset'.inside, rfl⟩
    vtable := by
      have hu32 : Buffer.u32 (wrapped offset tail).toArray 0xFFFFFFF8
          = 0xFFFFFFF8 := hoffset'.value
      show Buffer.i32 (wrapped offset tail).toArray 0xFFFFFFF8 = _
      unfold Buffer.i32
      rw [hu32]
      rfl
    length := (Buffer.has_append.mp hlength).1.numberAt (s := .u16) rfl rfl
    even := rfl
    inside := hvtable.le_size }

/-- The table is verified, as it has no fields. -/
theorem verify_wrapped (offset : UInt8) (tail : Bytes) :
    verify (wrapped offset tail).toArray = .ok () :=
  verify_of_bareTable (wrapped_tableAt offset tail).1
    (wrapped_tableAt offset tail).2 rfl

/-- A reader takes the table to have its vtable at the start of the buffer. -/
theorem table_wrapped (offset : UInt8) (tail : Bytes) :
    FlatBuffer.Read.table (wrapped offset tail).toArray 0xFFFFFFF8
      = some ⟨0xFFFFFFF8, 0, 0xFFF8⟩ := by
  have hlength : Buffer.Has (wrapped offset tail).toArray 0
      ([0xF8, 0xFF] ++ [0xFF, 0xFF, offset, 0, 0, 0, 0, 0, 0, 0]) :=
    has_front _ _ _
  have hnumber := (Buffer.has_append.mp hlength).1.numberAt (s := .u16) rfl rfl
  have ht := (wrapped_tableAt offset tail).2
  -- In 32 bits 2³² is 0.
  have hplace : FlatBuffer.Read.vtablePlace (wrapped offset tail).toArray
      0xFFFFFFF8 = 0 := by
    rw [FlatBuffer.Read.vtablePlace_of_offset ht.vtable]
    rfl
  unfold FlatBuffer.Read.table
  simp only [ht.offset.read, hplace, Option.bind_eq_bind, Option.bind_some,
    if_neg (Int.lt_irrefl 0), Int.toNat_zero, hnumber.read]
  rfl

/-- What stands in the slots of that. -/
theorem has_slots_wrapped (offset : UInt8) (tail : Bytes) :
    NumberAt .u16 (wrapped offset tail).toArray 4 offset.toNat
      ∧ NumberAt .u16 (wrapped offset tail).toArray 8 0
      ∧ NumberAt .u16 (wrapped offset tail).toArray 10 0 := by
  have hfront : Buffer.Has (wrapped offset tail).toArray 0
      ([0xF8, 0xFF, 0xFF, 0xFF] ++ ([offset, 0] ++ ([0, 0] ++ ([0, 0]
        ++ [0, 0])))) := has_front _ _ _
  simp only [Buffer.has_append, List.length_cons, List.length_nil,
    Nat.zero_add, Nat.reduceAdd] at hfront
  obtain ⟨-, hversion, -, hsubgraphs, hdescription⟩ := hfront
  exact ⟨hversion.numberAt rfl rfl, hsubgraphs.numberAt rfl rfl,
    hdescription.numberAt rfl rfl⟩

/-- So a reader finds a place for the version, and what stands there is all
that it reads. -/
theorem root_wrapped {offset : UInt8} {tail : Bytes} {version : Nat}
    (hoffset : offset.toNat ≠ 0)
    (hversion : FlatBuffer.Read.number .u32 (wrapped offset tail).toArray
      (0xFFFFFFF8 + offset.toNat) = some version) :
    Read.root subgraph (wrapped offset tail).toArray
      = some { version := UInt32.ofNat version } := by
  obtain ⟨hslot, hsubgraphs, hdescription⟩ := has_slots_wrapped offset tail
  exact root_of_version (t := ⟨0xFFFFFFF8, 0, 0xFFF8⟩)
    (wrapped_tableAt offset tail).1.read (table_wrapped offset tail)
    (by decide) hslot.read hoffset hversion hsubgraphs.read
    hdescription.read

/-- 16 bytes into the table is where the buffer ends and four bytes more: the
version is what stands there. -/
theorem decode_wrapped (version : UInt32) :
    WholeModel.decode (wrapped 16 ([0, 0, 0, 0]
      ++ LittleEndian.encode 4 version.toNat)) = .ok { version } := by
  have hback := has_wrapped 16
    ([0, 0, 0, 0] ++ LittleEndian.encode 4 version.toNat)
  obtain ⟨-, hback⟩ := Buffer.has_append.mp hback
  obtain ⟨-, hback⟩ := Buffer.has_append.mp hback
  obtain ⟨-, hback⟩ := Buffer.has_append.mp hback
  have hversion := numberAt_of_has (s := .u32)
    (Buffer.has_append.mp hback).2 version.toNat_lt rfl
  refine WholeModel.decode_eq_ok_iff.mpr ⟨verify_wrapped _ _, ?_⟩
  have hroot : Read.root (Read.subgraph Read.tensor) _ = some _ :=
    root_wrapped (by decide) hversion.read
  rwa [UInt32.ofNat_toNat] at hroot

end DetectorHeader.Tflite
