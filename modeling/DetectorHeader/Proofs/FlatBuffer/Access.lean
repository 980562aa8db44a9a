/-
What reading looks at. A `Footprint` lists the accesses of a reader: the
numbers that it reads, with their positions, the tables that it comes to, and
the ranges that it takes to be texts. It is put together as the reader is, and
goes where the reader goes: on to what an offset leads to, along a vector,
through the fields of a table.

`Covers footprint read` ties the two: `read` gives a value just when every
access of the footprint is inside of the buffer, and its texts are UTF-8. So
to know that a read gives a value is to know where it has looked. That numbers
are aligned is no part of this, as no reader looks at it; it is part of what
an access has to be to fit (`Access.Fits`).
-/
import DetectorHeader.Proofs.FlatBuffer.Spelling

namespace DetectorHeader.FlatBuffer

/-- Something that a reader looks at. The position of a vtable is found by
subtracting, so positions may turn out negative. -/
inductive Access
  | number (s : Scalar) (position : Int)
  /-- The bytes of a string. -/
  | text (first length : Nat)
  /-- A table, by the offset to its vtable. -/
  | table (position : Nat)
  deriving DecidableEq

namespace Access

/-- The bytes looked at are inside of the buffer, and UTF-8 if they are to be
a text. -/
def Readable (b : Buffer) : Access → Prop
  | number s position => 0 ≤ position ∧ position + s.size ≤ b.size
  | text first length =>
      first + length ≤ b.size
        ∧ ∃ text, b.slice first length = Utf8.encode text
  | table position => position + 4 ≤ b.size

/-- A number is at a multiple of its size. -/
def Aligned : Access → Prop
  | number s position => position % s.size = 0
  | text .. => True
  | table position => position % 4 = 0

/-- What is looked at can be read, and is at a position that fits its type. -/
structure Fits (b : Buffer) (access : Access) : Prop where
  readable : access.Readable b
  aligned : access.Aligned

end Access

/-- The accesses of a reader at a position. -/
def Footprint := Buffer → (position : Nat) → List Access

namespace Footprint

/-- A number. -/
def number (s : Scalar) : Footprint := fun _ position => [.number s position]

/-- An offset, and what it leads to. -/
def offsetTo (target : Footprint) : Footprint := fun b position =>
  .number .u32 position :: target b (position + b.u32 position)

/-- The count of a vector, and its elements of `size` bytes. -/
def elements (size : Nat) (element : Footprint) : Footprint :=
  fun b position =>
    .number .u32 position
      :: (List.range (b.u32 position)).flatMap fun i =>
        element b (position + 4 + i * size)

/-- A vector of numbers. -/
def vector (s : Scalar) : Footprint := elements s.size (number s)

/-- A vector of offsets, and what they lead to. -/
def vectorOf (target : Footprint) : Footprint := elements 4 (offsetTo target)

/-- A string: its length and its text. -/
def string : Footprint := fun b position =>
  [.number .u32 position, .text (position + 4) (b.u32 position)]

/-- A field of a table: its place in the vtable, if that is long enough, and
what is there, if the vtable tells a place. -/
def field (t : Read.Table) (slot : Nat) (content : Footprint) (b : Buffer) :
    List Access :=
  if slot + 2 ≤ t.length then
    .number .u16 (t.vtable + slot : Nat)
      :: if b.u16 (t.vtable + slot) = 0 then []
        else content b (t.position + b.u16 (t.vtable + slot))
  else []

/-- The table that a reader takes to be at a position, be there one or not. -/
def tableAt (b : Buffer) (position : Nat) : Read.Table :=
  let vtable := (Read.vtablePlace b position).toNat
  ⟨position, vtable, b.u16 vtable⟩

/-- A table: the offset to its vtable, the length of that, and the fields. -/
def table (fields : List (Nat × Footprint)) : Footprint := fun b position =>
  .table position
    :: .number .u16 (Read.vtablePlace b position)
    :: fields.flatMap fun f => field (tableAt b position) f.1 f.2 b

end Footprint

/-- The reader gives a value just when all that it looks at can be read. -/
def Covers {α : Type} (footprint : Footprint) (read : Read α) : Prop :=
  ∀ b position, (∃ a, read b position = some a)
    ↔ ∀ access ∈ footprint b position, access.Readable b

/-- A step of a read and the rest give a value when both do. -/
theorem exists_bind_eq_some {α β : Type} {x : Option α}
    {f : α → Option β} :
    (∃ c, (x >>= f) = some c) ↔ ∃ a, x = some a ∧ ∃ c, f a = some c := by
  constructor
  · rintro ⟨c, h⟩
    obtain ⟨a, hx, hf⟩ := Option.bind_eq_some_iff.mp h
    exact ⟨a, hx, c, hf⟩
  · rintro ⟨a, hx, c, hf⟩
    exact ⟨c, Option.bind_eq_some_iff.mpr ⟨a, hx, hf⟩⟩

/-- A list of reads gives values when each of them does. -/
theorem exists_mapM_eq_some {α β : Type} {f : α → Option β}
    {items : List α} :
    (∃ values, items.mapM f = some values)
      ↔ ∀ a ∈ items, ∃ b, f a = some b := by
  induction items with
  | nil => simp
  | cons a items ih =>
      rw [List.forall_mem_cons, ← ih, List.mapM_cons, exists_bind_eq_some]
      simp only [exists_bind_eq_some]
      constructor
      · rintro ⟨c, hc, values, hvalues, -⟩
        exact ⟨⟨c, hc⟩, values, hvalues⟩
      · rintro ⟨⟨c, hc⟩, values, hvalues⟩
        exact ⟨c, hc, values, hvalues, _, rfl⟩

namespace Covers

variable {α β : Type} {footprint : Footprint} {read : Read α} {b : Buffer}
  {position : Nat}

/-- A number inside of the buffer is read. -/
theorem readable_number_iff {s : Scalar} :
    (Access.number s position).Readable b
      ↔ Read.number s b position = some (b.unsigned position s.size) := by
  rw [Read.number_eq_some_iff]
  unfold Access.Readable
  constructor
  · rintro ⟨-, hinside⟩
    exact ⟨by exact_mod_cast hinside, rfl⟩
  · rintro ⟨hinside, -⟩
    exact ⟨Int.natCast_nonneg _, by exact_mod_cast hinside⟩

/-- What is read is what the bytes say. -/
theorem number_eq_some {s : Scalar} {n : Nat}
    (h : Read.number s b position = some n) :
    (Access.number s position).Readable b
      ∧ b.unsigned position s.size = n := by
  have hn := (Read.number_eq_some_iff.mp h).2
  exact ⟨readable_number_iff.mpr (by rw [h, hn]), hn⟩

/-- Reading a number and going on with it. -/
theorem number_bind {s : Scalar} {f : Nat → Option α} :
    (∃ a, (Read.number s b position >>= f) = some a)
      ↔ (Access.number s position).Readable b
        ∧ ∃ a, f (b.unsigned position s.size) = some a := by
  constructor
  · rintro ⟨a, h⟩
    obtain ⟨n, hnumber, hrest⟩ := Option.bind_eq_some_iff.mp h
    obtain ⟨hreadable, rfl⟩ := number_eq_some hnumber
    exact ⟨hreadable, a, hrest⟩
  · rintro ⟨hreadable, a, hrest⟩
    exact ⟨a, Option.bind_eq_some_iff.mpr
      ⟨_, readable_number_iff.mp hreadable, hrest⟩⟩

/-- A scalar is read just when its bytes are there. -/
theorem scalar (s : Scalar) (ofNat : Nat → α) :
    Covers (Footprint.number s) (Read.scalar s ofNat) := by
  intro b position
  unfold Footprint.number Read.scalar
  simp only [List.forall_mem_singleton, readable_number_iff,
    Option.map_eq_some_iff]
  constructor
  · rintro ⟨a, n, hnumber, -⟩
    exact readable_number_iff.mp (number_eq_some hnumber).1
  · exact fun hnumber => ⟨_, _, hnumber, rfl⟩

/-- What an offset leads to is read just when the offset and that can be. -/
theorem offsetTo (h : Covers footprint read) :
    Covers (Footprint.offsetTo footprint) (Read.offsetTo read) := by
  intro b position
  unfold Footprint.offsetTo Read.offsetTo
  rw [number_bind, List.forall_mem_cons]
  exact and_congr_right fun _ => h b _

/-- Elements are read just when each of them can be. -/
theorem elements {size : Nat} (h : Covers footprint read) :
    Covers (Footprint.elements size footprint) (Read.elements size read) := by
  intro b position
  unfold Footprint.elements Read.elements
  rw [number_bind, List.forall_mem_cons]
  refine and_congr_right fun _ => ?_
  rw [exists_mapM_eq_some]
  simp only [List.mem_flatMap, forall_exists_index, and_imp]
  constructor
  · intro hread access i hi haccess
    exact (h b _).mp (hread i hi) access haccess
  · intro hreadable i hi
    exact (h b _).mpr fun access haccess => hreadable access i hi haccess

/-- A vector of scalars is read just when its length and its elements can be. -/
theorem vector (s : Scalar) (ofNat : Nat → α) :
    Covers (Footprint.vector s) (Read.vector s ofNat) :=
  (Covers.scalar s ofNat).elements

/-- And so is a vector of offsets, with all that these lead to. -/
theorem vectorOf (h : Covers footprint read) :
    Covers (Footprint.vectorOf footprint) (Read.vectorOf read) :=
  h.offsetTo.elements

theorem string : Covers Footprint.string Read.string := by
  intro b position
  unfold Footprint.string Read.string
  rw [number_bind, List.forall_mem_cons, List.forall_mem_singleton]
  refine and_congr_right fun _ => ?_
  show (∃ text, (if b.size < position + 4 + b.u32 position then none
    else (Utf8.decode (b.slice (position + 4) (b.u32 position))).toOption)
      = some text) ↔ _ ≤ _ ∧ _
  by_cases hinside : b.size < position + 4 + b.u32 position
  · rw [if_pos hinside]
    constructor
    · rintro ⟨text, h⟩
      cases h
    · rintro ⟨hle, -⟩
      omega
  · rw [if_neg hinside]
    rw [and_iff_right (Nat.not_lt.mp hinside)]
    refine exists_congr fun text => ?_
    rw [← Utf8.decode_eq_ok_iff]
    cases Utf8.decode (b.slice (position + 4) (b.u32 position)) with
    | error fault => simp [Except.toOption]
    | ok text => simp [Except.toOption]

-- =================================================================== tables

/-- A table is read when the offset to its vtable and the length of that can
be. -/
theorem table_eq_some_iff {t : Read.Table} :
    Read.table b position = some t
      ↔ (Access.table position).Readable b
        ∧ (Access.number .u16 (Read.vtablePlace b position)).Readable b
        ∧ t = Footprint.tableAt b position := by
  unfold Read.table
  simp only [Option.bind_eq_bind, Option.bind_eq_some_iff]
  constructor
  · rintro ⟨n, hoffset, h⟩
    split at h
    case isTrue => cases h
    case isFalse hvtable =>
      obtain ⟨length, hlength, ht⟩ := Option.bind_eq_some_iff.mp h
      obtain rfl := Option.some.inj ht
      obtain ⟨hreadable, hu16⟩ := number_eq_some hlength
      rw [Int.toNat_of_nonneg (Int.not_lt.mp hvtable)] at hreadable
      refine ⟨(Read.number_eq_some_iff.mp hoffset).1, hreadable, ?_⟩
      rw [← hu16]
      rfl
  · rintro ⟨hoffset, hlength, rfl⟩
    have hvtable := hlength.1
    rw [← Int.toNat_of_nonneg hvtable] at hlength
    refine ⟨_, Read.number_eq_some_iff.mpr ⟨hoffset, rfl⟩, ?_⟩
    rw [if_neg (Int.not_lt.mpr hvtable), readable_number_iff.mp hlength]
    rfl

/-- A field is read just when its slot can be, and what is there if it is not
empty. -/
theorem field? {t : Read.Table} {slot : Nat} (h : Covers footprint read) :
    (∃ a, Read.field? b t slot read = some a)
      ↔ ∀ access ∈ Footprint.field t slot footprint b, access.Readable b := by
  unfold Footprint.field Read.field?
  by_cases hslot : slot + 2 ≤ t.length
  · rw [if_pos hslot, if_pos hslot, number_bind, List.forall_mem_cons]
    refine and_congr_right fun _ => ?_
    show (∃ a, (if b.u16 (t.vtable + slot) = 0 then some none
      else some <$> read b (t.position + b.u16 (t.vtable + slot))) = some a)
        ↔ _
    by_cases hzero : b.u16 (t.vtable + slot) = 0
    · rw [if_pos hzero, if_pos hzero]
      simp
    · rw [if_neg hzero, if_neg hzero, ← h]
      simp
  · rw [if_neg hslot, if_neg hslot]
    simp

/-- And so is a field that has a default. -/
theorem fieldD [Inhabited α] {t : Read.Table} {slot : Nat}
    (h : Covers footprint read) :
    (∃ a, Read.fieldD b t slot read = some a)
      ↔ ∀ access ∈ Footprint.field t slot footprint b, access.Readable b := by
  rw [← h.field?]
  unfold Read.fieldD
  simp

/-- A table is covered if its fields are. -/
theorem table {fields : List (Nat × Footprint)}
    {rest : Buffer → Read.Table → Option α}
    (h : ∀ b t, (∃ a, rest b t = some a)
      ↔ ∀ f ∈ fields, ∀ access ∈ Footprint.field t f.1 f.2 b,
          access.Readable b) :
    Covers (Footprint.table fields) fun b position =>
      Read.table b position >>= rest b := by
  intro b position
  unfold Footprint.table
  rw [exists_bind_eq_some, List.forall_mem_cons, List.forall_mem_cons]
  simp only [table_eq_some_iff, and_assoc, exists_and_left, exists_eq_left, h,
    List.mem_flatMap, forall_exists_index, and_imp]
  refine and_congr_right fun _ => and_congr_right fun _ => ?_
  constructor
  · exact fun hreadable access f hf haccess => hreadable f hf access haccess
  · exact fun hreadable f hf access haccess => hreadable access f hf haccess

end Covers

end DetectorHeader.FlatBuffer
