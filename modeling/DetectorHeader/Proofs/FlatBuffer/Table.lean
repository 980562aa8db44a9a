/-
Tables in a buffer. `TableAt b t` says that there is a table at `t.position`
whose vtable stands where `t` says, and `FieldAt b t slot place` that this
vtable tells `place` for a slot, or none.

These two are all that verifying and reading know of a table: reading one
gives `t`, as long as its vtable is in the first 2 GiB (`table_of_tableAt`),
and reading a field is reading what is at its place (`field?_of_fieldAt`).
-/
import DetectorHeader.Proofs.FlatBuffer.Buffer

namespace DetectorHeader.FlatBuffer

/-- There is a table at `t.position`, with its vtable as `t` says. -/
structure TableAt (b : Buffer) (t : Read.Table) : Prop where
  offset : NumberAt .i32 b t.position (b.u32 t.position)
  vtable : b.i32 t.position = (t.position : Int) - (t.vtable : Int)
  length : NumberAt .u16 b t.vtable t.length
  even : t.length % 2 = 0
  inside : t.vtable + t.length ≤ b.size

/-- The vtable of a table tells `place` for the field in a slot. -/
def FieldAt (b : Buffer) (t : Read.Table) (slot : Nat) :
    (place : Option Nat) → Prop
  | none => t.length ≤ slot ∨ NumberAt .u16 b (t.vtable + slot) 0
  | some place => slot + 2 ≤ t.length ∧ ∃ n, n ≠ 0
      ∧ NumberAt .u16 b (t.vtable + slot) n
      ∧ place = t.position + n

namespace Read

variable {α : Type} {b : Buffer} {position : Nat} {t : Table} {slot : Nat}

/-- The 32 bits in which the place of a vtable is computed leave the residue
between -2³¹ and 2³¹. -/
theorem vtablePlace_eq_bmod (b : Buffer) (position : Nat) :
    vtablePlace b position
      = ((position : Int) - b.i32 position).bmod (2 ^ 32) := by
  unfold vtablePlace Buffer.i32
  rw [BitVec.toInt_sub, BitVec.toInt_ofNat' position, Int.bmod_sub_bmod]

/-- A vtable is looked for at the residue of its place. -/
theorem vtablePlace_of_offset {place : Nat}
    (h : b.i32 position = (position : Int) - (place : Int)) :
    vtablePlace b position = (place : Int).bmod (2 ^ 32) := by
  rw [vtablePlace_eq_bmod, h, Int.sub_sub_self]

/-- Below 2³¹ it is looked for where it is. -/
theorem vtablePlace_of_near {place : Nat} (hnear : place < 0x80000000)
    (h : b.i32 position = (position : Int) - (place : Int)) :
    vtablePlace b position = place := by
  rw [vtablePlace_of_offset h]
  exact Int.bmod_eq_of_le_mul_two (by push_cast; omega) (by push_cast; omega)

/-- A table is read as the vtable says, if that is near enough. -/
theorem table_of_tableAt (h : TableAt b t) (hnear : t.vtable < 0x80000000) :
    table b t.position = some t := by
  have hplace := vtablePlace_of_near hnear h.vtable
  unfold table
  simp only [h.offset.read, hplace, Option.bind_eq_bind, Option.bind_some,
    Int.toNat_natCast, h.length.read,
    if_neg (Int.not_lt.mpr (Int.natCast_nonneg _))]

/-- A field is read at the place that the vtable tells for it. -/
theorem field?_of_fieldAt {place : Option Nat} {read : Read α}
    (h : FieldAt b t slot place) :
    field? b t slot read
      = match place with
        | none => some none
        | some position => some <$> read b position := by
  unfold field?
  cases place with
  | none =>
      split
      case isFalse => rfl
      case isTrue hslot =>
        rcases h with h | h
        · omega
        · simp [h.read]
  | some position =>
      obtain ⟨hslot, n, hn, hnumber, rfl⟩ := h
      simp [if_pos hslot, hnumber.read, hn]

end Read

end DetectorHeader.FlatBuffer
