/-
Verification is sound: all that a reader looks at, where verification has
succeeded, can be read and is at a position that fits its type.

`Secures check footprint` says that where `check` succeeds, with whatever
usage, every access of the footprint fits. Check and footprint go the same way
through the buffer, apart from the vtables: verification finds one by the
offset that stands in its table, a reader by what 32 bits leave of that
(`Read.vtablePlace`). The two places are the same as long as the vtable is in
the first 2 GiB of the buffer (`Near`), which is all that is asked for beside
the verification; where a buffer is no longer than that, nothing is
(`near_of_size_le`).

The lemmas go along the ways in which checks and footprints are put together;
in a table each field of the footprint stands against one of the check, in
the same slot and with a check that secures it (`FieldSecured`).
-/
import DetectorHeader.Proofs.FlatBuffer.Access

namespace DetectorHeader.FlatBuffer

-- ============================================================== near vtables

/-- None of the tables that are looked at has its vtable in the buffer, but
behind the first 2 GiB of it. -/
def Near (b : Buffer) (accesses : List Access) : Prop :=
  ∀ position : Nat, .table position ∈ accesses →
    (position : Int) - b.i32 position < b.size →
    (position : Int) - b.i32 position < 0x80000000

variable {b : Buffer} {position : Nat} {accesses accesses' : List Access}

/-- A buffer of at most 2 GiB has nothing behind them. -/
theorem near_of_size_le (h : b.size ≤ 0x80000000) : Near b accesses :=
  fun _ _ hinside => by omega

/-- Fewer accesses come to fewer tables. -/
theorem Near.mono (h : Near b accesses)
    (hsub : ∀ access ∈ accesses', access ∈ accesses) : Near b accesses' :=
  fun place hplace => h place (hsub _ hplace)

theorem Near.tail {access : Access} (h : Near b (access :: accesses)) :
    Near b accesses := h.mono fun _ => List.mem_cons_of_mem access

/-- A number that stands where it should is an access that fits. -/
theorem NumberAt.fits {s : Scalar} {n : Nat} (h : NumberAt s b position n) :
    (Access.number s position).Fits b where
  readable := ⟨Int.natCast_nonneg _, by exact_mod_cast h.inside⟩
  aligned := by
    show (position : Int) % s.size = 0
    exact_mod_cast h.aligned

-- ================================================================== securing

/-- Where `check` succeeds, all that the footprint looks at fits. -/
def Secures (check : Check) (footprint : Footprint) : Prop :=
  ∀ (b : Buffer) (position : Nat) (usage usage' : Usage),
    check b position usage = .ok ((), usage') →
    Near b (footprint b position) →
    ∀ access ∈ footprint b position, access.Fits b

/-- A field of a check and one of a footprint, in the same slot, of which the
one secures the other. -/
structure FieldSecured (f : Check.Field) (g : Nat × Footprint) : Prop where
  slot : f.slot = g.1
  secures : Secures f.check g.2

namespace Secures

variable {check : Check} {footprint : Footprint}

/-- A scalar that passes is inside and aligned. -/
theorem scalar (s : Scalar) :
    Secures (Check.scalar s) (Footprint.number s) := by
  intro b position usage usage' h _
  unfold Footprint.number
  rw [List.forall_mem_singleton]
  exact (Check.scalar_eq_ok.mp h).1.fits

/-- An offset that passes fits, and so does what it leads to. -/
theorem offsetTo (h : Secures check footprint) :
    Secures (Check.offsetTo check) (Footprint.offsetTo footprint) := by
  intro b position usage usage' hcheck hnear
  obtain ⟨between, hoffset, htarget⟩ := Check.offsetTo_eq_ok.mp hcheck
  unfold Footprint.offsetTo at hnear ⊢
  rw [List.forall_mem_cons]
  exact ⟨(Check.scalar_eq_ok.mp hoffset).1.fits,
    h b _ _ _ htarget hnear.tail⟩

/-- The elements of a vector fit when the count does and each of them does. -/
theorem elements {size : Nat} (hcount : NumberAt .u32 b position
      (b.u32 position))
    (hnear : Near b (Footprint.elements size footprint b position))
    (h : ∀ i < b.u32 position,
      Near b (footprint b (position + 4 + i * size)) →
      ∀ access ∈ footprint b (position + 4 + i * size), access.Fits b) :
    ∀ access ∈ Footprint.elements size footprint b position,
      access.Fits b := by
  unfold Footprint.elements at hnear ⊢
  rw [List.forall_mem_cons]
  refine ⟨hcount.fits, fun access haccess => ?_⟩
  obtain ⟨i, hi, haccess⟩ := List.mem_flatMap.mp haccess
  refine h i (List.mem_range.mp hi) (hnear.tail.mono fun _ hmem => ?_)
    access haccess
  exact List.mem_flatMap.mpr ⟨i, hi, hmem⟩

/-- A vector of scalars that passes fits with all its elements. -/
theorem vector (s : Scalar) :
    Secures (Check.vector s) (Footprint.vector s) := by
  intro b position usage usage' hcheck hnear
  obtain ⟨hcount, haligned, hinside, -, -⟩ := Check.vector_eq_ok.mp hcheck
  refine elements hcount hnear fun i hi _ => ?_
  have hle : (i + 1) * s.size ≤ b.u32 position * s.size :=
    Nat.mul_le_mul_right _ hi
  rw [Nat.succ_mul] at hle
  have hstands : NumberAt s b (position + 4 + i * s.size)
      (b.unsigned (position + 4 + i * s.size) s.size) := by
    refine ⟨?_, by omega, rfl⟩
    rw [Nat.add_mul_mod_self_right]
    exact haligned
  unfold Footprint.number
  rw [List.forall_mem_singleton]
  exact hstands.fits

/-- And so does a vector of offsets. -/
theorem vectorOf (h : Secures check footprint) :
    Secures (Check.vectorOf check) (Footprint.vectorOf footprint) := by
  intro b position usage usage' hcheck hnear
  obtain ⟨⟨between, hvector⟩, helements⟩ := Check.vectorOf_eq_ok hcheck
  refine elements (Check.vector_eq_ok.mp hvector).1 hnear fun i hi => ?_
  obtain ⟨before, after, hcheck⟩ := helements i hi
  exact h.offsetTo b _ _ _ hcheck

/-- A string that passes is UTF-8. -/
theorem string : Secures Check.string Footprint.string := by
  intro b position usage usage' hcheck _
  obtain ⟨hvector, hfault, -⟩ := Check.string_eq_ok.mp hcheck
  obtain ⟨hcount, -, hinside, -, -⟩ := Check.vector_eq_ok.mp hvector
  obtain ⟨text, htext⟩ := Buffer.decode_of_textFault? hfault
  rw [show Scalar.u8.size = 1 from rfl, Nat.mul_one] at hinside
  unfold Footprint.string
  rw [List.forall_mem_cons, List.forall_mem_singleton]
  exact ⟨hcount.fits, ⟨hinside, text, Utf8.decode_eq_ok_iff.mp htext⟩, trivial⟩

-- =================================================================== tables

/-- A field that passes fits, as the check finds it where its reader does. -/
theorem field {f : Check.Field} {g : Nat × Footprint} (h : FieldSecured f g)
    {t : Read.Table}
    (hcheck : ∃ before after, Check.field f b t.position t.vtable t.length
      before = .ok ((), after))
    (hnear : Near b (Footprint.field t g.1 g.2 b)) :
    ∀ access ∈ Footprint.field t g.1 g.2 b, access.Fits b := by
  obtain ⟨before, after, hcheck⟩ := hcheck
  unfold Footprint.field at hnear ⊢
  rw [← h.slot] at hnear ⊢
  by_cases hslot : f.slot + 2 ≤ t.length
  · obtain ⟨hnumber, hcontent⟩ := Check.field_eq_ok hcheck (by omega)
    rw [if_pos hslot] at hnear ⊢
    rw [List.forall_mem_cons]
    refine ⟨hnumber.fits, ?_⟩
    by_cases hzero : b.u16 (t.vtable + f.slot) = 0
    · rw [if_pos hzero]
      exact List.forall_mem_nil _
    · obtain ⟨between, hcontent⟩ := hcontent hzero
      rw [if_neg hzero] at hnear ⊢
      exact h.secures b _ _ _ hcontent hnear.tail
  · rw [if_neg hslot]
    exact List.forall_mem_nil _

/-- What a reader takes to be the table is the table that was verified. -/
theorem tableAt_eq {t : Read.Table} (ht : TableAt b t)
    (hnear : Near b [.table t.position]) :
    Read.vtablePlace b t.position = t.vtable
      ∧ Footprint.tableAt b t.position = t := by
  have hinside : t.vtable + 2 ≤ b.size := ht.length.inside
  have hvtable : (t.position : Int) - b.i32 t.position = t.vtable := by
    rw [ht.vtable]
    omega
  have hbelow := hnear t.position (List.mem_singleton.mpr rfl)
  rw [hvtable] at hbelow
  have hplace := Read.vtablePlace_of_near (by omega) ht.vtable
  have hlength : b.u16 t.vtable = t.length := ht.length.value
  refine ⟨hplace, ?_⟩
  unfold Footprint.tableAt
  rw [hplace, Int.toNat_natCast]
  dsimp only
  rw [hlength]

/-- A table that passes fits with all its fields, if its vtable is near: the
check and the readers then look for it in one place. -/
theorem table {fields : List Check.Field}
    {footprints : List (Nat × Footprint)}
    (h : List.Forall₂ FieldSecured fields footprints) :
    Secures (Check.table fields) (Footprint.table footprints) := by
  intro b position usage usage' hcheck hnear
  obtain ⟨t, rfl, ht, hfields⟩ := Check.table_eq_ok hcheck
  unfold Footprint.table at hnear ⊢
  obtain ⟨hplace, htable⟩ := tableAt_eq ht (hnear.mono fun _ hmem => by
    rw [List.mem_singleton.mp hmem]
    exact List.mem_cons_self)
  rw [List.forall_mem_cons, List.forall_mem_cons]
  refine ⟨⟨ht.offset.inside, ht.offset.aligned⟩, ?_, fun access haccess => ?_⟩
  · rw [hplace]
    exact ht.length.fits
  rw [htable] at hnear haccess
  obtain ⟨g, hg, haccess⟩ := List.mem_flatMap.mp haccess
  -- The field of the check that stands against this one of the footprint.
  obtain ⟨i, hi, rfl⟩ := List.getElem_of_mem hg
  have hi' : i < fields.length := by rwa [h.length_eq]
  refine field (h.get hi' hi) (hfields _ (List.getElem_mem hi')) ?_ _ haccess
  exact hnear.tail.tail.mono fun _ hmem =>
    List.mem_flatMap.mpr ⟨_, hg, hmem⟩

end Secures

end DetectorHeader.FlatBuffer
