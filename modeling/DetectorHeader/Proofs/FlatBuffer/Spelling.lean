/-
Data in a buffer, as verification and reading both find it.

`Passes v load` says that the bytes give the verification `v` no reason to
fail: it succeeds wherever the limits leave room for `load`, and then has
used exactly that. `Spells check read b position value load` joins it to the
other side: what stands at `position` passes `check`, and `read` gives
`value` for it. The lemmas say how a value is spelled by the spellings of its
parts, one for each way in which checks and readers are put together.

Nothing here knows how a buffer comes about. What a spelling comes down to
are numbers that can be read at their places (`VectorAt`, `FieldAt`), and
that is what a construction has to provide.
-/
import DetectorHeader.Proofs.FlatBuffer.Verify

namespace DetectorHeader.FlatBuffer

/-- Reading elements one after another succeeds when each of them does. -/
theorem mapM_eq_some_iff {α β : Type} {f : α → Option β} :
    ∀ {items : List α} {values : List β},
      items.mapM f = some values
        ↔ List.Forall₂ (fun a b => f a = some b) items values := by
  intro items
  induction items with
  | nil =>
      intro values
      rw [List.mapM_nil, List.forall₂_nil_left_iff]
      exact ⟨fun h => (Option.some.inj h).symm, fun h => congrArg some h.symm⟩
  | cons a items ih =>
      intro values
      rw [List.mapM_cons, List.forall₂_cons_left_iff]
      constructor
      · intro h
        obtain ⟨b, hb, h⟩ := Option.bind_eq_some_iff.mp h
        obtain ⟨rest, hrest, h⟩ := Option.bind_eq_some_iff.mp h
        exact ⟨b, rest, hb, ih.mp hrest, (Option.some.inj h).symm⟩
      · rintro ⟨b, rest, hb, hrest, rfl⟩
        rw [hb, ih.mpr hrest]
        rfl

-- =============================================================== passing

/-- Verification succeeds wherever the limits leave room for `load`, and then
has used that. -/
def Passes (v : Verify Unit) (load : Load) : Prop :=
  ∀ usage, load.Fits usage → v usage = .ok ((), usage.after load)

namespace Passes

open Verify

variable {v w : Verify Unit} {l m : Load} {b : Buffer} {position : Nat}

theorem pure : Passes (pure ()) {} := fun _ _ => rfl

/-- Checks that pass for their loads pass together for both. -/
theorem bind (hv : Passes v l) (hw : Passes w m) :
    Passes (v >>= fun _ => w) (l + m) := by
  intro usage hfits
  rw [bind_eq_ok, Usage.after_add]
  exact ⟨(), usage.after l, hv usage hfits.left, hw _ hfits.right⟩

/-- Where a fault would be noted makes no difference. -/
theorem behind (hv : Passes v l) (step : Step) :
    Passes (Verify.behind step v) l := by
  intro usage hfits
  rw [behind_eq_ok]
  exact hv usage hfits

/-- A number that is there passes as a scalar. -/
theorem scalar {s : Scalar} {n : Nat}
    (h : NumberAt s b position n) :
    Passes (Check.scalar s b position) (Load.scalar s) := by
  intro usage hfits
  rw [Check.scalar_eq_ok, h.value]
  exact ⟨h, hfits.bytes, rfl⟩

/-- Elements that pass one by one pass together. -/
theorem elements {check : Nat → Verify Unit} {size : Nat} :
    ∀ {loads : List Load} {start index : Nat},
      (∀ i (hi : i < loads.length),
        Passes (check (start + i * size)) loads[i]) →
      Passes (Verify.elements check start size index loads.length)
        (Load.total loads) := by
  intro loads
  induction loads with
  | nil =>
      intro start index _
      exact Passes.pure
  | cons l loads ih =>
      intro start index h
      have hfirst : Passes (check start) l := by
        have := h 0 (Nat.zero_lt_succ _)
        rwa [Nat.zero_mul, Nat.add_zero] at this
      refine (hfirst.behind _).bind (ih fun i hi => ?_)
      have := h (i + 1) (Nat.succ_lt_succ hi)
      rwa [Nat.succ_mul, Nat.add_comm (i * size), ← Nat.add_assoc] at this

end Passes

-- ============================================================= spellings

/-- What stands at a position spells `value`: `check` passes there, at the
given load, and `read` gives the value. -/
structure Spells {α : Type} (check : Check) (read : Read α) (b : Buffer)
    (position : Nat) (value : α) (load : Load) : Prop where
  passes : Passes (check b position) load
  read : read b position = some value

/-- At a position stands a vector of the given numbers. -/
structure VectorAt (s : Scalar) (b : Buffer) (position : Nat)
    (items : List Nat) : Prop where
  count : NumberAt .u32 b position items.length
  aligned : (position + 4) % s.size = 0
  inside : position + 4 + items.length * s.size ≤ b.size
  item : ∀ i (hi : i < items.length),
    NumberAt s b (position + 4 + i * s.size) items[i]

namespace Spells

variable {α : Type} {check : Check} {read : Read α} {b : Buffer}
  {position : Nat} {load : Load}

/-- A number that is there spells the value that it stands for. -/
theorem scalar {s : Scalar} {n : Nat} (ofNat : Nat → α)
    (h : NumberAt s b position n) :
    Spells (Check.scalar s) (Read.scalar s ofNat) b position (ofNat n)
      (.scalar s) where
  passes := Passes.scalar h
  read := by
    unfold Read.scalar
    rw [h.read]
    rfl

/-- An offset spells what it leads to. -/
theorem offsetTo {n : Nat} {value : α}
    (hoffset : NumberAt .u32 b position n)
    (h : Spells check read b (position + n) value load) :
    Spells (Check.offsetTo check) (Read.offsetTo read) b position value
      (.offsetTo load) where
  passes := by
    have hn : b.u32 position = n := hoffset.value
    unfold Check.offsetTo
    rw [hn]
    exact (Passes.scalar hoffset).bind h.passes
  read := by
    unfold Read.offsetTo
    simp only [hoffset.read, Option.bind_eq_bind, Option.bind_some, h.read]

/-- Numbers behind their count spell a vector. -/
theorem vector {s : Scalar} {items : List Nat} (ofNat : Nat → α)
    (h : VectorAt s b position items) :
    Spells (Check.vector s) (Read.vector s ofNat) b position
      (items.map ofNat) (.vector s items.length) where
  passes := by
    intro usage hfits
    have hn : b.u32 position = items.length := h.count.value
    rw [Check.vector_eq_ok, hn]
    exact ⟨h.count, h.aligned, h.inside, hfits.bytes, rfl⟩
  read := by
    unfold Read.vector Read.elements
    simp only [h.count.read, Option.bind_eq_bind, Option.bind_some]
    rw [mapM_eq_some_iff, List.forall₂_iff_get]
    refine ⟨by simp, fun i hi hi' => ?_⟩
    rw [List.length_map] at hi'
    simp only [List.get_eq_getElem, List.getElem_range, List.getElem_map]
    exact (Spells.scalar ofNat (h.item i hi')).read

/-- Offsets behind their count spell what they lead to. -/
theorem vectorOf {values : List α} {loadOf : α → Load}
    (hcount : NumberAt .u32 b position values.length)
    (hinside : position + 4 + values.length * 4 ≤ b.size)
    (h : ∀ i (hi : i < values.length),
      Spells (Check.offsetTo check) (Read.offsetTo read) b
        (position + 4 + i * 4) values[i] (.offsetTo (loadOf values[i]))) :
    Spells (Check.vectorOf check) (Read.vectorOf read) b position values
      (.vectorOf (values.map loadOf)) where
  passes := by
    have hn : b.u32 position = values.length := hcount.value
    -- The vector is checked as one of numbers, and then its elements as
    -- offsets.
    have hvector : Passes (Check.vector .u32 b position)
        (.vector .u32 (values.map loadOf).length) := by
      intro usage hfits
      rw [List.length_map] at hfits ⊢
      rw [Check.vector_eq_ok, hn]
      refine ⟨hcount, ?_, hinside, hfits.bytes, rfl⟩
      have := hcount.aligned
      simp only [Scalar.size] at this ⊢
      omega
    have helements : Passes
        (Verify.elements (Check.offsetTo check b) (position + 4) 4 0
          ((values.map loadOf).map Load.offsetTo).length)
        (Load.total ((values.map loadOf).map Load.offsetTo)) := by
      apply Passes.elements
      intro i hi
      rw [List.length_map, List.length_map] at hi
      rw [List.getElem_map, List.getElem_map]
      exact (h i hi).passes
    rw [List.length_map, List.length_map] at helements
    unfold Check.vectorOf
    rw [hn]
    exact hvector.bind helements
  read := by
    unfold Read.vectorOf Read.elements
    simp only [hcount.read, Option.bind_eq_bind, Option.bind_some]
    rw [mapM_eq_some_iff, List.forall₂_iff_get]
    refine ⟨by simp, fun i hi hi' => ?_⟩
    simp only [List.get_eq_getElem, List.getElem_range]
    exact (h i hi').read

/-- UTF-8 behind its length and before a zero spells a text. -/
theorem string {text : String}
    (hcount : NumberAt .u32 b position (Utf8.encode text).length)
    (htext : b.Has (position + 4) (Utf8.encode text))
    (hzero : b.get? (position + 4 + (Utf8.encode text).length) = some 0) :
    Spells Check.string Read.string b position text
      (.string (Utf8.encode text).length) where
  passes := by
    intro usage hfits
    have hn : b.u32 position = (Utf8.encode text).length := hcount.value
    rw [Check.string_eq_ok, Check.vector_eq_ok, hn]
    refine ⟨⟨hcount, Nat.mod_one _, ?_, hfits.bytes, rfl⟩,
      Buffer.textFault?_of_has htext, hzero⟩
    rw [show Scalar.u8.size = 1 from rfl, Nat.mul_one]
    exact htext.le_size
  read := by
    unfold Read.string
    simp only [hcount.read, Option.bind_eq_bind, Option.bind_some, htext.slice,
      if_neg (Nat.not_lt.mpr htext.le_size), Utf8.decode_encode]
    rfl

end Spells

-- ================================================================= tables

/-- A slot of a table spells an optional value: it leads to a place where the
value is spelled, or nowhere if there is none. -/
def SlotSpells {α : Type} (check : Check) (read : Read α) (b : Buffer)
    (t : Read.Table) (slot : Nat) (value : Option α) (loadOf : α → Load) :
    Prop :=
  ∃ place, FieldAt b t slot place
    ∧ Option.Rel (fun position a => Spells check read b position a (loadOf a))
        place value

/-- The number in a field, if it is there: zeros are left out. -/
def nonzero (n : Nat) : Option Nat := if n = 0 then none else some n

namespace SlotSpells

variable {α : Type} {check : Check} {read : Read α} {b : Buffer}
  {t : Read.Table} {slot : Nat} {value : Option α} {loadOf : α → Load}

/-- A slot that spells a value is read as that value. -/
theorem read_eq (h : SlotSpells check read b t slot value loadOf) :
    Read.field? b t slot read = some value := by
  obtain ⟨place, hfield, hrel⟩ := h
  rw [Read.field?_of_fieldAt hfield]
  cases hrel with
  | none => rfl
  | some hspells =>
      show some <$> read b _ = _
      rw [hspells.read]
      rfl

/-- A field that holds a number is read as that number, be it there or left
out as a zero. -/
theorem readD_eq [Inhabited α] {s : Scalar} {n : Nat} (ofNat : Nat → α)
    {loadOf : Nat → Load}
    (h : SlotSpells (Check.scalar s) (Read.number s) b t slot (nonzero n)
      loadOf)
    (hzero : ofNat 0 = default) :
    Read.fieldD b t slot (Read.scalar s ofNat) = some (ofNat n) := by
  obtain ⟨place, hfield, hrel⟩ := h
  unfold Read.fieldD
  rw [Read.field?_of_fieldAt hfield]
  unfold nonzero at hrel
  split at hrel
  case isTrue hn =>
    cases hrel
    rw [hn, hzero]
    rfl
  case isFalse =>
    cases hrel with
    | some hspells =>
        show (fun x : Option α => x.getD default)
          <$> some <$> Read.scalar s ofNat b _ = _
        rw [Read.scalar, hspells.read]
        rfl

/-- And it passes, for the load of the field. -/
theorem passes (h : SlotSpells check read b t slot value loadOf)
    (name : String) :
    Passes (Check.field ⟨name, slot, check⟩ b t.position t.vtable t.length)
      (Load.field t.length slot (value.map loadOf)) := by
  obtain ⟨place, hfield, hrel⟩ := h
  unfold Check.field Load.field
  cases hrel with
  | none =>
      split
      case isFalse => exact Passes.pure
      case isTrue hslot =>
        rcases hfield with hfield | hfield
        · exact absurd hslot (Nat.not_lt.mpr hfield)
        · have hn : b.u16 (t.vtable + slot) = 0 :=
            hfield.value
          simp only [hn]
          exact (Passes.scalar hfield).bind Passes.pure
  | some hspells =>
      obtain ⟨hslot, n, hne, hnumber, rfl⟩ := hfield
      have hn : b.u16 (t.vtable + slot) = n := hnumber.value
      have hlt : slot < t.length := by omega
      simp only [hn, if_pos hne, if_pos hlt]
      exact (Passes.scalar hnumber).bind (hspells.passes.behind _)

end SlotSpells

namespace Passes

open Verify

variable {b : Buffer} {t : Read.Table}

/-- Fields that pass one by one pass together. -/
theorem forM {fields : List Check.Field} {loads : List Load}
    {check : Check.Field → Verify Unit}
    (h : List.Forall₂ (fun f l => Passes (check f) l) fields loads) :
    Passes (fields.forM check) (Load.total loads) := by
  induction h with
  | nil => exact Passes.pure
  | cons hf _ ih => exact hf.bind ih

/-- What is inside of a table is one deeper; behind the table the depth is
again what it was before. -/
theorem nested {v : Verify Unit} {l : Load} (hv : Passes v l) :
    Passes (do enter; v; leave)
      { l with tables := 1 + l.tables, depth := 1 + l.depth } := by
  intro usage ⟨hbytes, htables, hdepth⟩
  replace htables : usage.tables + (1 + l.tables) ≤ maxTables := htables
  replace hdepth : usage.depth + (1 + l.depth) ≤ maxDepth := hdepth
  -- The usage to start with inside of the table. Leaving takes back the depth,
  -- and never the number of tables.
  let inside : Usage :=
    { usage with depth := usage.depth + 1, tables := usage.tables + 1 }
  have henter : enter usage = .ok ((), inside) := by
    have htables' : ¬ maxTables < usage.tables + 1 := by omega
    have hdepth' : ¬ maxDepth < usage.depth + 1 := by omega
    unfold enter
    rw [bind_eq_ok]
    refine ⟨usage, usage, rfl, ?_⟩
    rw [bind_eq_ok]
    refine ⟨(), inside, rfl, ?_⟩
    simp only [if_neg htables', if_neg hdepth']
    rfl
  have hinside : v inside = .ok ((), inside.after l) := by
    refine hv inside ⟨hbytes, ?_, ?_⟩
    · show usage.tables + 1 + l.tables ≤ _
      omega
    · show usage.depth + 1 + l.depth ≤ _
      omega
  rw [bind_eq_ok]
  refine ⟨(), inside, henter, ?_⟩
  rw [bind_eq_ok]
  refine ⟨(), _, hinside, ?_⟩
  show Except.ok ((), Usage.mk _ (usage.tables + 1 + l.tables)
    (usage.depth + 1 - 1)) = Except.ok ((), Usage.mk _ (_ + (1 + _)) _)
  rw [Nat.add_assoc, Nat.add_sub_cancel]
  rfl

/-- A table passes when its fields do. -/
theorem table {fields : List Check.Field} {loads : List Load}
    (ht : TableAt b t)
    (h : List.Forall₂ (fun f l =>
      Passes (Check.field f b t.position t.vtable t.length) l) fields loads) :
    Passes (Check.table fields b t.position)
      (Load.tableOf t.length loads) := by
  have hvtable : (t.position : Int) - b.i32 t.position = t.vtable := by
    rw [ht.vtable]
    omega
  obtain ⟨heven, hbelow, hlength⟩ := ht.length
  replace heven : t.vtable % 2 = 0 := heven
  replace hbelow : t.vtable + 2 ≤ b.size := hbelow
  replace hlength : b.u16 t.vtable = t.length := hlength
  have haligned : Passes (aligned .u16 (t.vtable + t.length)) {} := by
    intro usage _
    refine aligned_eq_ok.mpr ⟨?_, rfl⟩
    have := ht.even
    show (t.vtable + t.length) % 2 = 0
    omega
  have hrange : Passes (range b t.vtable t.length)
      { bytes := t.length } := by
    intro usage hfits
    exact range_eq_ok.mpr ⟨ht.inside, hfits.bytes, rfl⟩
  have hpasses := (Passes.scalar ht.offset).bind ((Passes.scalar ht.length).bind
    (haligned.bind (hrange.bind (Passes.forM h).nested)))
  -- The parts have been loaded in the order in which they are checked.
  have hload : Load.scalar .i32 + (Load.scalar .u16 + (({} : Load)
        + ({ bytes := t.length } + { Load.total loads with
          tables := 1 + (Load.total loads).tables
          depth := 1 + (Load.total loads).depth })))
      = Load.tableOf t.length loads := by
    show Load.mk (4 + (2 + (0 + (_ + _)))) (0 + (0 + (0 + (0 + _))))
      (max 0 (max 0 (max 0 (max 0 _)))) = Load.mk _ _ _
    simp only [Nat.zero_add, Nat.zero_max, Load.mk.injEq, and_self, and_true]
    omega
  rw [← hload]
  intro usage hfits
  obtain ⟨⟨⟩, between, hfirst, hrest⟩ := bind_eq_ok.mp (hpasses usage hfits)
  unfold Check.table
  rw [bind_eq_ok]
  refine ⟨(), between, hfirst, ?_⟩
  rw [hvtable, Int.toNat_natCast]
  refine unless_eq_ok.mpr ⟨by omega, ?_⟩
  simp only [hlength]
  exact hrest

end Passes

end DetectorHeader.FlatBuffer
