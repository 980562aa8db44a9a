/-
The work that verification does, told from the data instead of from a run.

Verification fails for two kinds of reasons: the bytes, and the limits on the
work that they cause. A `Load` is the work that verifying something takes,
whatever has been verified before, and loads add up along the data: a vector
of offsets takes the loads of all that they lead to, a table those of its
fields and a vtable that is as long as its last field in use needs it
(`vtableLength`). So the load of a whole buffer is found without verifying
it, and `Fits` says when the limits leave room for it.
-/
import DetectorHeader.FlatBuffer.Verify
import Mathlib

namespace DetectorHeader.FlatBuffer

/-- The work that verifying something takes. -/
structure Load where
  /-- Bytes looked at. -/
  bytes : Nat := 0
  /-- Tables looked at. -/
  tables : Nat := 0
  /-- Tables inside of one another. -/
  depth : Nat := 0
  deriving DecidableEq

namespace Load

/-- The load of one thing after another. -/
def add (l m : Load) : Load :=
  ⟨l.bytes + m.bytes, l.tables + m.tables, max l.depth m.depth⟩

instance : Add Load := ⟨add⟩

/-- The load of things one after another. -/
def total (loads : List Load) : Load := loads.foldr add {}

/-- The load of a scalar. -/
def scalar (s : Scalar) : Load := { bytes := s.size }

/-- The load of an offset and of what it leads to. -/
def offsetTo (target : Load) : Load := scalar .u32 + target

/-- The load of a vector of scalars. -/
def vector (s : Scalar) (count : Nat) : Load :=
  { bytes := 4 + count * s.size }

/-- The load of a vector of offsets and of what they lead to. Verification
looks at the offsets twice: as a vector, and each on its way to its target. -/
def vectorOf (targets : List Load) : Load :=
  vector .u32 targets.length + total (targets.map offsetTo)

/-- The load of a string of the given number of bytes. -/
def string (length : Nat) : Load := vector .u8 length

/-- The load of a field in a slot of a table whose vtable has `length`
bytes, by the load of what it holds if it is there. -/
def field (length slot : Nat) (content : Option Load) : Load :=
  if slot < length then scalar .u16 + content.getD {} else {}

/-- The length of a vtable that has places for the given slots. -/
def vtableLength (slots : List Nat) : Nat :=
  slots.foldl (fun n slot => max n (slot + 2)) 4

/-- The load of a table whose vtable has `length` bytes, by the loads of its
fields. -/
def tableOf (length : Nat) (fields : List Load) : Load :=
  let content := total fields
  { bytes := 6 + length + content.bytes
    tables := 1 + content.tables
    depth := 1 + content.depth }

/-- The load of a table, by its slots and the loads of what they hold. -/
def table (slots : List (Nat × Option Load)) : Load :=
  let length := vtableLength ((slots.filter (·.2.isSome)).map (·.1))
  tableOf length (slots.map fun s => field length s.1 s.2)

-- ============================================================== the limits

/-- The limits leave room for the load after the usage so far. -/
structure Fits (load : Load) (usage : Usage) : Prop where
  bytes : usage.apparentSize + load.bytes ≤ maxApparentSize
  tables : usage.tables + load.tables ≤ maxTables
  depth : usage.depth + load.depth ≤ maxDepth

end Load

/-- The usage after a load. -/
def Usage.after (usage : Usage) (load : Load) : Usage :=
  { usage with
    apparentSize := usage.apparentSize + load.bytes
    tables := usage.tables + load.tables }

/-- Two loads one after the other are one. -/
theorem Usage.after_add (usage : Usage) (l m : Load) :
    usage.after (l + m) = (usage.after l).after m := by
  unfold Usage.after
  show Usage.mk (_ + (l.bytes + m.bytes)) (_ + (l.tables + m.tables)) _ = _
  rw [← Nat.add_assoc, ← Nat.add_assoc]

namespace Load

variable {l m : Load} {usage : Usage}

/-- What fits as a whole fits in part. -/
theorem Fits.left (h : (l + m).Fits usage) : l.Fits usage := by
  obtain ⟨hb, ht, hd⟩ := h
  replace hb : usage.apparentSize + (l.bytes + m.bytes) ≤ _ := hb
  replace ht : usage.tables + (l.tables + m.tables) ≤ _ := ht
  replace hd : usage.depth + max l.depth m.depth ≤ _ := hd
  exact ⟨by omega, by omega, by omega⟩

/-- And then the rest fits as well. -/
theorem Fits.right (h : (l + m).Fits usage) : m.Fits (usage.after l) := by
  obtain ⟨hb, ht, hd⟩ := h
  replace hb : usage.apparentSize + (l.bytes + m.bytes) ≤ _ := hb
  replace ht : usage.tables + (l.tables + m.tables) ≤ _ := ht
  replace hd : usage.depth + max l.depth m.depth ≤ _ := hd
  refine ⟨?_, ?_, ?_⟩
  · show usage.apparentSize + l.bytes + m.bytes ≤ _
    omega
  · show usage.tables + l.tables + m.tables ≤ _
    omega
  · show usage.depth + m.depth ≤ _
    omega

/-- A vtable is as long as its last slot makes it. -/
theorem vtableLength_le_iff {slots : List Nat} {n : Nat} :
    vtableLength slots ≤ n ↔ 4 ≤ n ∧ ∀ slot ∈ slots, slot + 2 ≤ n := by
  suffices h : ∀ start, slots.foldl (fun n slot => max n (slot + 2)) start ≤ n
      ↔ start ≤ n ∧ ∀ slot ∈ slots, slot + 2 ≤ n from h 4
  induction slots with
  | nil => simp
  | cons slot slots ih =>
      intro start
      rw [List.foldl_cons, ih, List.forall_mem_cons, Nat.max_le, and_assoc]

/-- The order of the slots does not matter, nor does it if one is named
twice. -/
theorem vtableLength_congr {slots slots' : List Nat}
    (h : ∀ slot, slot ∈ slots ↔ slot ∈ slots') :
    vtableLength slots = vtableLength slots' := by
  have hle : ∀ n, vtableLength slots ≤ n ↔ vtableLength slots' ≤ n := by
    intro n
    rw [vtableLength_le_iff, vtableLength_le_iff]
    simp only [h]
  exact Nat.le_antisymm ((hle _).mpr (Nat.le_refl _))
    ((hle _).mp (Nat.le_refl _))

/-- Nor does it matter what the slots hold, but only which ones hold
something. -/
theorem vtableLength_of_perm {α β : Type} {slots : List (Nat × Option α)}
    {slots' : List (Nat × Option β)}
    (h : (slots.map fun s => (s.1, s.2.isSome)).Perm
      (slots'.map fun s => (s.1, s.2.isSome))) :
    vtableLength ((slots.filter (·.2.isSome)).map (·.1))
      = vtableLength ((slots'.filter (·.2.isSome)).map (·.1)) := by
  have hpresent : ∀ {γ : Type} (slots : List (Nat × Option γ)),
      (slots.filter (·.2.isSome)).map (·.1)
        = ((slots.map fun s => (s.1, s.2.isSome)).filter (·.2)).map
            (·.1) := by
    intro γ slots
    rw [List.filter_map, List.map_map]
    rfl
  rw [hpresent, hpresent slots']
  exact vtableLength_congr fun slot => ((h.filter _).map _).mem_iff

/-- Tables that follow one another are no deeper than the deepest of them. -/
theorem depth_total_le {loads : List Load} {d : Nat}
    (h : ∀ l ∈ loads, l.depth ≤ d) : (total loads).depth ≤ d := by
  induction loads with
  | nil => exact Nat.zero_le d
  | cons l loads ih =>
      obtain ⟨hl, hloads⟩ := List.forall_mem_cons.mp h
      exact Nat.max_le.mpr ⟨hl, ih hloads⟩

/-- Vectors and offsets add no depth. -/
theorem depth_vectorOf_le {loads : List Load} {d : Nat}
    (h : ∀ l ∈ loads, l.depth ≤ d) : (vectorOf loads).depth ≤ d := by
  refine Nat.max_le.mpr ⟨Nat.zero_le d, depth_total_le fun l hl => ?_⟩
  obtain ⟨l, hmem, rfl⟩ := List.mem_map.mp hl
  exact Nat.max_le.mpr ⟨Nat.zero_le d, h l hmem⟩

/-- A table is one deeper than what it holds. -/
theorem depth_table_le {slots : List (Nat × Option Load)} {d : Nat}
    (h : ∀ s ∈ slots, ∀ l ∈ s.2, l.depth ≤ d) :
    (table slots).depth ≤ 1 + d := by
  refine Nat.add_le_add_left (depth_total_le fun l hl => ?_) 1
  obtain ⟨s, hs, rfl⟩ := List.mem_map.mp hl
  unfold field
  split
  case isFalse => exact Nat.zero_le d
  case isTrue =>
    refine Nat.max_le.mpr ⟨Nat.zero_le d, ?_⟩
    cases hcontent : s.2 with
    | none => exact Nat.zero_le d
    | some l => exact h s hs l hcontent

-- ================================================================ the parts

/-- A part of a load is no more than the whole. -/
theorem bytes_le_total {loads : List Load} (h : l ∈ loads) :
    l.bytes ≤ (total loads).bytes := by
  induction h with
  | head loads => exact Nat.le_add_right _ _
  | tail m _ ih => exact Nat.le_trans ih (Nat.le_add_left _ _)

theorem bytes_le_vectorOf {loads : List Load} (h : l ∈ loads) :
    l.bytes ≤ (vectorOf loads).bytes := by
  have htotal := bytes_le_total (List.mem_map_of_mem (f := offsetTo) h)
  have hoffset : l.bytes ≤ (offsetTo l).bytes := Nat.le_add_left _ _
  exact (hoffset.trans htotal).trans (Nat.le_add_left _ _)

/-- A slot that holds something is inside of the vtable. -/
theorem bytes_le_table {slots : List (Nat × Option Load)} (slot : Nat)
    (h : (slot, some l) ∈ slots) : l.bytes ≤ (table slots).bytes := by
  have hslot : slot ∈ (slots.filter (·.2.isSome)).map (·.1) :=
    List.mem_map.mpr ⟨_, List.mem_filter.mpr ⟨h, rfl⟩, rfl⟩
  have hlength := (vtableLength_le_iff.mp (Nat.le_refl _)).2 slot hslot
  have hfield : l.bytes ≤ (field (vtableLength
      ((slots.filter (·.2.isSome)).map (·.1))) slot (some l)).bytes := by
    unfold field
    rw [if_pos (by omega)]
    exact Nat.le_add_left _ _
  have htotal := bytes_le_total (List.mem_map_of_mem
    (f := fun s : Nat × Option Load => field (vtableLength
      ((slots.filter (·.2.isSome)).map (·.1))) s.1 s.2) h)
  exact (hfield.trans htotal).trans (Nat.le_add_left _ _)

end Load

end DetectorHeader.FlatBuffer
