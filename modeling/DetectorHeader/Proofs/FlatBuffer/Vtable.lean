/-
What writing a table leaves in the buffer: a table (`TableAt`) whose slots
lead to what its fields hold, and those without a field nowhere
(`table_writes`).

A table refers to its vtable by a signed offset. The vtable is in front of
the table if it was written with it, and behind it if an equal one was there
before; which of the two it is makes no difference here, as the builder knows
where each of its vtables is stored (`Builder.Sound`).
-/
import DetectorHeader.Proofs.FlatBuffer.Build

namespace DetectorHeader.FlatBuffer

open Build

-- ================================================================== fields

/-- What a field holds stands at a position. -/
def CellAt : Cell → Buffer → Nat → Prop
  | .number size value, B, position =>
      B.Has position (LittleEndian.encode size value) ∧ position % size = 0
  | .offset target, B, position => Builder.LeadsTo target B position

/-- The field can be written: its number is of a size that numbers have, or
what it refers to has been written. -/
def Cell.Ready (b : Builder) : Cell → Prop
  | .number size _ => ∃ k ≤ 3, size = 2 ^ k
  | .offset target => target ≤ b.used

/-- A target that is written stays so. -/
theorem Cell.Ready.grow {b b' : Builder} {c : Cell} (h : Ready b c)
    (hg : b.Grows b') : Ready b' c := by
  cases c with
  | number size value => exact h
  | offset target => exact Nat.le_trans h hg.used_le

/-- The fields for a list of slots with what they hold, if anything. -/
def fieldsOf (cells : List (Nat × Option Cell)) : List Field :=
  cells.flatMap fun c => (c.2.map (Build.Field.mk c.1)).toList

/-- An offset that may be absent is a cell that may be. -/
theorem offset?_eq (slot : Nat) (target : Option Reference) :
    offset? slot target = fieldsOf [(slot, target.map .offset)] := by
  cases target <;> rfl

/-- A number that is written only if it is not the default is one as well. -/
theorem number?_eq (slot size value : Nat) :
    number? slot size value
      = fieldsOf [(slot, (nonzero value).map (.number size))] := by
  unfold number? nonzero
  split <;> rfl

/-- The fields of two lists of cells are those of one list. -/
theorem fieldsOf_append (cells cells' : List (Nat × Option Cell)) :
    fieldsOf cells ++ fieldsOf cells' = fieldsOf (cells ++ cells') :=
  List.flatMap_append.symm

/-- The fields are the cells that are present. -/
theorem mem_fieldsOf {cells : List (Nat × Option Cell)} {f : Field} :
    f ∈ fieldsOf cells ↔ (f.slot, some f.cell) ∈ cells := by
  unfold fieldsOf
  rw [List.mem_flatMap]
  constructor
  · rintro ⟨⟨slot, cell⟩, hc, hf⟩
    obtain ⟨c, rfl, rfl⟩ := Option.map_eq_some_iff.mp (Option.mem_toList.mp hf)
    exact hc
  · exact fun h => ⟨_, h, List.mem_singleton_self _⟩

/-- The slots that hold something. -/
theorem slots_fieldsOf (cells : List (Nat × Option Cell)) :
    (fieldsOf cells).map (·.slot)
      = (cells.filter (·.2.isSome)).map (·.1) := by
  induction cells with
  | nil => rfl
  | cons c cells ih =>
      obtain ⟨slot, cell⟩ := c
      unfold fieldsOf at ih ⊢
      rw [List.flatMap_cons, List.map_append, ih]
      cases cell <;> rfl

/-- There are no more fields than cells. -/
theorem length_fieldsOf_le (cells : List (Nat × Option Cell)) :
    (fieldsOf cells).length ≤ cells.length := by
  rw [← List.length_map (f := (·.slot)), slots_fieldsOf, List.length_map]
  exact List.length_filter_le _ _

/-- What the field in a slot holds, if there is a field. -/
def cellAt (fields : List Field) (slot : Nat) : Option Cell :=
  (fields.find? (·.slot = slot)).map (·.cell)

/-- A slot that no field has has no cell. -/
theorem cellAt_eq_none {fields : List Field} {slot : Nat}
    (h : ∀ f ∈ fields, f.slot ≠ slot) : cellAt fields slot = none := by
  unfold cellAt
  rw [List.find?_eq_none.mpr fun f hf => by simpa using h f hf]
  rfl

/-- With one cell for a slot it is the one that is found. -/
theorem cellAt_fieldsOf {cells : List (Nat × Option Cell)}
    (h : (cells.map (·.1)).Nodup) {slot : Nat} {cell : Option Cell}
    (hc : (slot, cell) ∈ cells) : cellAt (fieldsOf cells) slot = cell := by
  cases cell with
  | none =>
      refine cellAt_eq_none fun f hf heq => ?_
      have hf' := mem_fieldsOf.mp hf
      rw [heq] at hf'
      cases List.inj_on_of_nodup_map h hc hf' rfl
  | some c =>
      unfold cellAt
      have hmem : ⟨slot, c⟩ ∈ fieldsOf cells := mem_fieldsOf.mpr hc
      obtain ⟨f, hfind⟩ := Option.isSome_iff_exists.mp
        (List.find?_isSome (p := fun f : Field => decide (f.slot = slot))
          |>.mpr ⟨_, hmem, decide_eq_true rfl⟩)
      have hf := mem_fieldsOf.mp (List.mem_of_find?_eq_some hfind)
      have hslot := List.find?_some hfind
      rw [of_decide_eq_true hslot] at hf
      cases List.inj_on_of_nodup_map h hc hf rfl
      rw [hfind]
      rfl

/-- Each field takes its size and at most as much padding. -/
theorem cell_writes {b : Builder} {c : Cell} (hc : Cell.Ready b c) :
    b.Writes c.push fun r b' =>
      b.used < r ∧ b'.used ≤ b.used + 15 ∧ b'.Stored r (CellAt c) := by
  cases c with
  | number size value =>
      obtain ⟨k, hk, rfl⟩ := hc
      refine (Builder.push_writes value ⟨k, rfl⟩).imp fun r b' _ hpush => ?_
      obtain ⟨rfl, -, -, hused, hstored⟩ := hpush
      have hlt := Builder.padding_lt b.used (2 ^ k) (Nat.two_pow_pos k)
      have hpos := Nat.two_pow_pos k
      have hle : 2 ^ k ≤ 2 ^ 3 := Nat.pow_le_pow_right (by decide) hk
      exact ⟨by omega, by omega, hstored⟩
  | offset target =>
      refine (Builder.pushOffset_writes hc).imp fun r b' _ hpush => ?_
      obtain ⟨rfl, -, -, hused, hstored⟩ := hpush
      have hlt := Builder.padding_lt b.used 4 (by decide : 0 < 4)
      exact ⟨by omega, by omega, hstored⟩

/-- A field and where it has been written. -/
def Placed (start : Nat) (b : Builder) (f : Field) (p : Nat × Nat) :
    Prop :=
  p.1 = f.slot ∧ start < p.2 ∧ b.Stored p.2 (CellAt f.cell)

/-- Fields keep their slots when they are placed. -/
theorem slots_of_placed {start : Nat} {b : Builder} {fields : List Field}
    {placed : List (Nat × Nat)}
    (h : List.Forall₂ (Placed start b) fields placed) :
    placed.map (·.1) = fields.map (·.slot) := by
  induction h with
  | nil => rfl
  | cons hp _ ih => rw [List.map_cons, List.map_cons, ih, hp.1]

/-- Fields are placed one after the other, in no more than 15 bytes each. -/
theorem fields_writes :
    ∀ {fields : List Field} {b : Builder},
      (∀ f ∈ fields, Cell.Ready b f.cell) →
      b.Writes (fields.mapM fun f => do return (f.slot, ← f.cell.push))
        fun placed b' =>
          b'.used ≤ b.used + 15 * fields.length
            ∧ List.Forall₂ (Placed b.used b') fields placed := by
  intro fields
  induction fields with
  | nil =>
      intro b _
      rw [List.mapM_nil]
      exact Builder.Writes.pure ⟨Nat.le_refl _, .nil⟩
  | cons f fields ih =>
      intro b hready
      rw [List.mapM_cons]
      have hfirst : b.Writes (do return (f.slot, ← f.cell.push)) fun p b' =>
          b'.used ≤ b.used + 15 ∧ Placed b.used b' f p := by
        refine (cell_writes (hready f List.mem_cons_self)).bind
          fun r b1 _ hcell => ?_
        obtain ⟨hlt, hused, hstored⟩ := hcell
        exact Builder.Writes.pure ⟨hused, rfl, hlt, hstored⟩
      refine hfirst.bind fun p b1 hgrow1 hp => ?_
      obtain ⟨hused1, hslot, hlt, hstored⟩ := hp
      -- What comes in front of the first field does not move it.
      refine (ih fun g hg => (hready g (List.mem_cons_of_mem _ hg)).grow
        hgrow1).bind fun placed b2 hgrow2 hrest => ?_
      obtain ⟨hused2, hplaced⟩ := hrest
      have hle := hgrow1.used_le
      refine Builder.Writes.pure ⟨?_, ?_⟩
      · rw [List.length_cons]
        omega
      · refine .cons ⟨hslot, hlt, hstored.grow hgrow2⟩ (hplaced.imp ?_)
        rintro g q ⟨hq, hlt', hstored'⟩
        exact ⟨hq, Nat.lt_of_le_of_lt hle hlt', hstored'⟩

/-- The place of a slot's field is that of the first field in the slot. -/
theorem lookup_rel {R : Field → Nat × Nat → Prop}
    (hR : ∀ f p, R f p → p.1 = f.slot) {fields : List Field}
    {placed : List (Nat × Nat)} (h : List.Forall₂ R fields placed)
    (slot : Nat) :
    Option.Rel (fun c r => ∃ f, f.cell = c ∧ R f (f.slot, r))
      (cellAt fields slot) (placed.lookup slot) := by
  induction h with
  | nil => exact .none
  | @cons f p fields placed hfp _ ih =>
      obtain ⟨s, r⟩ := p
      obtain rfl : s = f.slot := hR _ _ hfp
      unfold cellAt
      rw [List.find?_cons, List.lookup_cons]
      by_cases hs : f.slot = slot
      · rw [decide_eq_true hs, beq_iff_eq.mpr hs.symm]
        exact .some ⟨f, rfl, hfp⟩
      · rw [decide_eq_false hs, beq_eq_false_iff_ne.mpr (Ne.symm hs)]
        exact ih

-- ================================================================= vtables

variable {placed : List (Nat × Nat)} {table start : Nat}

/-- A vtable has an even number of bytes. -/
theorem vtableLength_even (h : ∀ p ∈ placed, p.1 % 2 = 0) :
    Load.vtableLength (placed.map (·.1)) % 2 = 0 := by
  unfold Load.vtableLength
  rw [List.foldl_map]
  suffices hfold : ∀ n, n % 2 = 0 →
      placed.foldl (fun n p => max n (p.1 + 2)) n % 2 = 0 from hfold 4 rfl
  induction placed with
  | nil => exact fun n hn => hn
  | cons p placed ih =>
      obtain ⟨hp, hplaced⟩ := List.forall_mem_cons.mp h
      intro n hn
      refine ih hplaced _ ?_
      show max n (p.1 + 2) % 2 = 0
      omega

/-- And that number has 16 bits. -/
theorem vtableLength_lt (h : ∀ p ∈ placed, p.1 < 0xFFFE) :
    Load.vtableLength (placed.map (·.1)) < 0x10000 := by
  refine Nat.lt_succ_of_le (Load.vtableLength_le_iff.mpr ⟨by decide, ?_⟩)
  intro slot hs
  obtain ⟨p, hp, rfl⟩ := List.mem_map.mp hs
  have := h p hp
  omega

/-- The parts of a vtable: its length, that of its table, and the entries. -/
theorem vtable_eq :
    vtable placed table start
      = LittleEndian.encode 2 (Load.vtableLength (placed.map (·.1)))
        ++ (LittleEndian.encode 2 (table - start)
        ++ (List.range ((Load.vtableLength (placed.map (·.1)) - 4) / 2)).flatMap
          fun i => LittleEndian.encode 2
            (((placed.lookup (4 + 2 * i)).map (table - ·)).getD 0)) := by
  unfold vtable Load.vtableLength
  rw [List.foldl_map, List.append_assoc]
  congr 3
  funext i
  dsimp only
  cases placed.lookup (4 + 2 * i) <;> rfl

/-- A vtable is as long as it says. -/
theorem length_vtable (h : ∀ p ∈ placed, p.1 % 2 = 0) :
    (vtable placed table start).length
      = Load.vtableLength (placed.map (·.1)) := by
  have heven := vtableLength_even h
  have hmin := (Load.vtableLength_le_iff.mp (Nat.le_refl
    (Load.vtableLength (placed.map (·.1))))).1
  rw [vtable_eq, List.length_append, List.length_append, List.length_flatMap]
  simp only [LittleEndian.length_encode, List.map_const', List.sum_replicate,
    List.length_range, smul_eq_mul]
  omega

/-- A vtable that stands in a buffer tells its length, and for a slot inside
of it the distance of the field from the table, or zero. -/
theorem has_vtable {B : Buffer} {position : Nat}
    (h : B.Has position (vtable placed table start)) :
    B.Has position
        (LittleEndian.encode 2 (Load.vtableLength (placed.map (·.1))))
      ∧ ∀ slot, 4 ≤ slot → slot % 2 = 0 →
        slot + 2 ≤ Load.vtableLength (placed.map (·.1)) →
        B.Has (position + slot) (LittleEndian.encode 2
          (((placed.lookup slot).map (table - ·)).getD 0)) := by
  rw [vtable_eq] at h
  obtain ⟨hlength, hrest⟩ := Buffer.has_append.mp h
  obtain ⟨-, hentries⟩ := Buffer.has_append.mp hrest
  refine ⟨hlength, fun slot hmin heven hmax => ?_⟩
  simp only [LittleEndian.length_encode] at hentries
  have hi : (slot - 4) / 2 < (List.range
      ((Load.vtableLength (placed.map (·.1)) - 4) / 2)).length := by
    rw [List.length_range]
    omega
  have hentry := hentries.piece (fun _ => LittleEndian.length_encode _ _)
    ((slot - 4) / 2) hi
  rw [List.getElem_range] at hentry
  rwa [show position + 2 + 2 + (slot - 4) / 2 * 2 = position + slot by omega,
    show 4 + 2 * ((slot - 4) / 2) = slot by omega] at hentry

/-- A signed offset is read back if it fits into 32 bits. -/
theorem i32_of_has {B : Buffer} {position : Nat} {offset : Int}
    (h : B.Has position
      (LittleEndian.encode 4 (offset % 0x100000000).toNat))
    (hmin : -0x80000000 ≤ offset) (hmax : offset < 0x80000000) :
    B.i32 position = offset := by
  have hlt : (offset % 0x100000000).toNat < 256 ^ 4 := by
    have := Int.emod_lt_of_pos offset (by decide : (0 : Int) < 0x100000000)
    omega
  have hu : B.u32 position = (offset % 0x100000000).toNat :=
    Buffer.unsigned_of_has h hlt
  unfold Buffer.i32
  rw [hu, BitVec.toInt_ofNat', Int.toNat_of_nonneg
    (Int.emod_nonneg _ (by decide))]
  show (offset % ((2 ^ 32 : Nat) : Int)).bmod (2 ^ 32) = offset
  rw [Int.emod_bmod]
  exact Int.bmod_eq_of_le (by omega) (by omega)

-- ================================================================== tables

/-- At the position stands the offset to a vtable of the given bytes. -/
structure RefersTo (vtable : Bytes) (B : Buffer) (position place : Nat) :
    Prop where
  inside : position + 4 ≤ B.size
  aligned : position % 4 = 0
  offset : B.i32 position = (position : Int) - (place : Int)
  has : B.Has place vtable
  even : place % 2 = 0

/-- A vtable that is remembered is where it was written. -/
theorem remember_writes {b : Builder} {vtable : Bytes} {r : Nat}
    (h : b.Stored r fun B position =>
      B.Has position vtable ∧ position % 2 = 0) :
    b.Writes (modify fun b => { b with vtables := (vtable, r) :: b.vtables })
      fun _ b' => b'.used = b.used := by
  intro hb
  have hgrow : b.Grows { b with vtables := (vtable, r) :: b.vtables } :=
    ⟨List.suffix_rfl, Nat.dvd_refl _⟩
  refine ⟨(), _, rfl, ⟨hb.alignment, ?_⟩, hgrow, rfl⟩
  refine List.forall_mem_cons.mpr ⟨h.grow hgrow, fun v hv => ?_⟩
  exact (hb.vtables v hv).grow hgrow

/-- The offset to a vtable is written behind it or in front of it. -/
theorem pushVtableOffset_writes {b : Builder} {here known : Nat}
    (hhere : here = b.used + 4) (hdvd : 4 ∣ b.used)
    (halign : 4 ∣ b.alignment) :
    b.Writes (pushVtableOffset here known) fun _ b' =>
      b'.used = here ∧ ∀ b'' : Builder, b'.Grows b'' → known ≤ b''.used →
        b''.Stored here fun B position =>
          position + 4 ≤ B.size ∧ position % 4 = 0
            ∧ B.i32 position = (position : Int) - ((B.size - known : Nat) : Int)
    := by
  refine (Builder.prepend_writes _).imp fun _ b1 hgrow1 hprepend => ?_
  obtain ⟨hused1, hstored1⟩ := hprepend
  rw [LittleEndian.length_encode, ← hhere] at hused1
  refine ⟨hused1, fun b2 hgrow2 hknown => ?_⟩
  have hdvd1 : 4 ∣ b1.used := by
    rw [hused1, hhere]
    exact Nat.dvd_add hdvd (Nat.dvd_refl 4)
  have hstored2 := (hstored1 4 halign hdvd1).grow hgrow2
  rw [hused1] at hstored2
  refine ⟨hstored2.1, fun whole hwhole => ?_⟩
  obtain ⟨hhas, haligned⟩ := hstored2.2 whole hwhole
  obtain ⟨hused2, hshort⟩ := hwhole.bounds
  have hle := hstored2.1
  rw [Buffer.size_ofArray, List.size_toArray]
  have hinside := hhas.le_size
  rw [LittleEndian.length_encode, Buffer.size_ofArray, List.size_toArray]
    at hinside
  refine ⟨hinside, haligned, ?_⟩
  -- Buffers are short, so the distance has 32 bits, whichever way it goes.
  rw [i32_of_has hhas (by omega) (by omega)]
  omega

/-- With its offset and its vtable in the buffer a table refers to the latter,
wherever that is. -/
theorem stored_refersTo {b : Builder} {vtable : Bytes} {here known : Nat}
    (hoffset : b.Stored here fun B position =>
      position + 4 ≤ B.size ∧ position % 4 = 0
        ∧ B.i32 position = (position : Int) - ((B.size - known : Nat) : Int))
    (hvtable : b.Stored known fun B position =>
      B.Has position vtable ∧ position % 2 = 0) :
    b.Stored here fun B position =>
      ∃ place, RefersTo vtable B position place := by
  refine ⟨hoffset.1, fun whole hwhole => ?_⟩
  obtain ⟨hinside, haligned, hi32⟩ := hoffset.2 whole hwhole
  obtain ⟨hhas, heven⟩ := hvtable.2 whole hwhole
  exact ⟨_, hinside, haligned, hi32, hhas, heven⟩

section

variable {b : Builder} {vtable : Bytes} {here : Nat}
  (hhere : here = b.used + 4) (hdvd : 4 ∣ b.used) (halign : 4 ∣ b.alignment)

include hhere hdvd halign

/-- A table can refer to a vtable that is there already. -/
theorem sharedVtable_writes {known : Nat}
    (hknown : b.Stored known fun B position =>
      B.Has position vtable ∧ position % 2 = 0) :
    b.Writes
      (do
        pushVtableOffset here known
        return here)
      fun r b' => r = here ∧ b'.Stored here fun B position =>
        ∃ place, RefersTo vtable B position place := by
  refine (pushVtableOffset_writes hhere hdvd halign).bind
    fun _ b1 hgrow1 hpush => ?_
  have hknown1 := hknown.grow hgrow1
  have hoffset := hpush.2 b1 (.refl b1) hknown1.1
  exact Builder.Writes.pure ⟨rfl, stored_refersTo hoffset hknown1⟩

/-- A vtable of its own stands in front of the table, and is remembered. -/
theorem newVtable_writes (heven : vtable.length % 2 = 0) :
    b.Writes
      (do
        pushVtableOffset here (here + vtable.length)
        prepend vtable
        modify fun b => {
          b with vtables := (vtable, here + vtable.length) :: b.vtables }
        return here)
      fun r b' => r = here ∧ b'.Stored here fun B position =>
        ∃ place, RefersTo vtable B position place := by
  refine (pushVtableOffset_writes hhere hdvd halign).bind
    fun _ b1 hgrow1 hpush => ?_
  obtain ⟨hused1, hoffset1⟩ := hpush
  refine (Builder.prepend_writes vtable).bind fun _ b2 hgrow2 hprepend => ?_
  obtain ⟨hused2, hstored2⟩ := hprepend
  have hdvd2 : 2 ∣ b2.used := by omega
  have halign1 : 2 ∣ b1.alignment := Nat.dvd_trans
    (Nat.dvd_trans (by decide) halign) hgrow1.alignment
  have hvtable2 := hstored2 2 halign1 hdvd2
  rw [hused2, hused1] at hvtable2
  refine (remember_writes hvtable2).bind fun _ b3 hgrow3 _ => ?_
  have hvtable3 := hvtable2.grow hgrow3
  have hoffset := hoffset1 b3 (hgrow2.trans hgrow3) hvtable3.1
  exact Builder.Writes.pure ⟨rfl, stored_refersTo hoffset hvtable3⟩

/-- The vtable of a table is one that was there before, or one of its own. -/
theorem vtable_writes (heven : vtable.length % 2 = 0) :
    b.Writes
      (do
        match (← get).vtables.lookup vtable with
        | some known => pushVtableOffset here known
        | none =>
            let there := here + vtable.length
            pushVtableOffset here there
            prepend vtable
            modify fun b => { b with vtables := (vtable, there) :: b.vtables }
        return here)
      fun r b' => r = here ∧ b'.Stored here fun B position =>
        ∃ place, RefersTo vtable B position place := by
  intro hb
  refine Builder.get_writes.bind (fun _ b _ hc => ?_) hb
  obtain ⟨rfl, rfl⟩ := hc
  cases hknown : b.vtables.lookup vtable with
  | some known =>
      obtain ⟨front, rest, hsplit, -⟩ := List.lookup_eq_some_iff.mp hknown
      have hmem : (vtable, known) ∈ b.vtables := by
        rw [hsplit]
        exact List.mem_append_right _ List.mem_cons_self
      exact sharedVtable_writes hhere hdvd halign (hb.vtables _ hmem)
  | none => exact newVtable_writes hhere hdvd halign heven

end

section

variable {B : Buffer} {position place here : Nat}
  (h : RefersTo (vtable placed here start) B position place)
  (heven : ∀ p ∈ placed, p.1 % 2 = 0)

include h heven

/-- The table that the vtable belongs to. -/
theorem RefersTo.tableAt
    (hlt : Load.vtableLength (placed.map (·.1)) < 0x10000) :
    TableAt B
      ⟨position, place, Load.vtableLength (placed.map (·.1))⟩ where
  offset := ⟨h.aligned, h.inside, rfl⟩
  vtable := h.offset
  length := numberAt_of_has (s := .u16) (has_vtable h.has).1 hlt h.even
  even := vtableLength_even heven
  inside := by
    have hle := h.has.le_size
    rwa [length_vtable heven] at hle

/-- The field that the vtable tells the place of. -/
theorem RefersTo.fieldAt {slot : Nat} (hmin : 4 ≤ slot)
    (hslot : slot % 2 = 0)
    (hplaced : ∀ r, placed.lookup slot = some r →
      r < here ∧ here - r < 0x10000) :
    FieldAt B ⟨position, place, Load.vtableLength (placed.map (·.1))⟩ slot
      ((placed.lookup slot).map fun r => position + (here - r)) := by
  have hlength := vtableLength_even heven
  have hentry := (has_vtable h.has).2 slot hmin hslot
  have haligned : (place + slot) % 2 = 0 := by
    have := h.even
    omega
  cases hlookup : placed.lookup slot with
  | none =>
      rw [hlookup] at hentry
      -- A slot that holds nothing is zero, or behind the end of the vtable.
      by_cases hin : slot + 2 ≤ Load.vtableLength (placed.map (·.1))
      · exact .inr (numberAt_of_has (s := .u16) (hentry hin) (by decide)
          haligned)
      · left
        show Load.vtableLength (placed.map (·.1)) ≤ slot
        omega
  | some r =>
      obtain ⟨front, rest, hsplit, -⟩ := List.lookup_eq_some_iff.mp hlookup
      have hmem : slot ∈ placed.map (·.1) := by
        rw [hsplit]
        simp
      have hin := (Load.vtableLength_le_iff.mp (Nat.le_refl _)).2 slot hmem
      obtain ⟨hr, hdistance⟩ := hplaced r hlookup
      rw [hlookup] at hentry
      refine ⟨hin, here - r, by omega, ?_, rfl⟩
      exact numberAt_of_has (s := .u16) (hentry hin) hdistance haligned

end

/-- The vtable of a table leads to what a slot holds, or nowhere if it holds
nothing. -/
def SlotAt (B : Buffer) (t : Read.Table) (slot : Nat) (cell : Option Cell) :
    Prop :=
  ∃ place, FieldAt B t slot place
    ∧ Option.Rel (fun position c => CellAt c B position) place cell

/-- Slots that a vtable can have, and few enough for 16 bits to tell all
distances in the table and its vtable. -/
structure SlotsFit (slots : List Nat) : Prop where
  nodup : slots.Nodup
  slot : ∀ slot ∈ slots, 4 ≤ slot ∧ slot % 2 = 0 ∧ slot < 0xFFFE
  few : slots.length ≤ 0x1000

/-- The slots of the fields that were written are among those of the cells. -/
theorem SlotsFit.written {cells : List (Nat × Option Cell)}
    (hslots : SlotsFit (cells.map (·.1)))
    (hmap : placed.map (·.1) = (cells.filter (·.2.isSome)).map (·.1)) :
    ∀ p ∈ placed, 4 ≤ p.1 ∧ p.1 % 2 = 0 ∧ p.1 < 0xFFFE := by
  intro p hp
  apply hslots.slot
  have hmem := List.mem_map_of_mem (f := (·.1)) hp
  rw [hmap] at hmem
  exact (List.filter_sublist.map _).subset hmem

/-- Each slot of a table holds what was written for it, `start` being where
the first field was written and `b` the builder after the last. -/
theorem RefersTo.slotAt {cells : List (Nat × Option Cell)} {b : Builder}
    {whole : Bytes} {here place : Nat}
    (h : RefersTo (vtable placed here start) whole.toArray
      (whole.length - here) place)
    (hslots : SlotsFit (cells.map (·.1)))
    (hplaced : List.Forall₂ (Placed start b) (fieldsOf cells) placed)
    (heven : ∀ p ∈ placed, p.1 % 2 = 0) (hwhole : b.CompletedBy whole)
    (hinside : here ≤ whole.length) (hused : b.used < here)
    (hnear : here ≤ start + 0xFFFF) :
    ∀ c ∈ cells, SlotAt whole.toArray ⟨whole.length - here, place,
      Load.vtableLength (placed.map (·.1))⟩ c.1 c.2 := by
  intro (slot, cell) hc
  have hrel := lookup_rel (fun f p hp => hp.1) hplaced slot
  rw [cellAt_fieldsOf hslots.nodup hc] at hrel
  obtain ⟨hmin, hmod, -⟩ := hslots.slot slot (List.mem_map_of_mem hc)
  refine ⟨_, h.fieldAt heven hmin hmod fun r hr => ?_, ?_⟩
  · rw [hr] at hrel
    cases hrel with
    | some hf =>
        obtain ⟨f, -, -, hfirst, hcell⟩ := hf
        have hle := hcell.1
        dsimp only at hfirst hle
        omega
  · show Option.Rel _ ((placed.lookup slot).map _) cell
    generalize placed.lookup slot = reference at hrel
    cases hrel with
    | none => exact .none
    | @some cell r hf =>
        obtain ⟨f, rfl, -, -, hcell⟩ := hf
        have hle := hcell.1
        have hstands := hcell.2 whole hwhole
        dsimp only at hle hstands
        -- The vtable counts from the table on, but places are counted from the
        -- end.
        have hplace : whole.length - here + (here - r) = whole.length - r := by
          omega
        rw [← hplace] at hstands
        exact .some hstands

/-- A table that is written has all of its cells in their slots, and no others.
-/
theorem table_writes {b : Builder} {cells : List (Nat × Option Cell)}
    (hslots : SlotsFit (cells.map (·.1)))
    (hready : ∀ c ∈ cells, ∀ cell ∈ c.2, Cell.Ready b cell) :
    b.Writes (Build.table (fieldsOf cells)) fun r b' => 4 ∣ b'.alignment
      ∧ b'.Stored r fun B position => ∃ t : Read.Table, t.position = position
        ∧ t.length = Load.vtableLength ((cells.filter (·.2.isSome)).map (·.1))
        ∧ TableAt B t ∧ ∀ c ∈ cells, SlotAt B t c.1 c.2 := by
  have hready' : ∀ f ∈ fieldsOf cells, Cell.Ready b f.cell :=
    fun f hf => hready _ (mem_fieldsOf.mp hf) _ rfl
  -- The steps of `Build.table`: the fields, the padding, and the table's offset
  -- with a vtable that is new or known.
  refine Builder.used_writes.bind fun start b0 _ hb0 => ?_
  obtain ⟨hstart, rfl⟩ := hb0
  refine (fields_writes hready').bind fun placed b1 hgrow1 hfields => ?_
  obtain ⟨hused1, hplaced⟩ := hfields
  refine (Builder.align_writes 4 Builder.four_eq_pow).bind
    fun _ b2 hgrow2 halign => ?_
  obtain ⟨hdvd2, halign2, hused2⟩ := halign
  refine Builder.used_writes.bind fun _ b3 _ hb2 => ?_
  obtain ⟨rfl, rfl⟩ := hb2
  have hmap : placed.map (·.1) = (cells.filter (·.2.isSome)).map (·.1) := by
    rw [← slots_fieldsOf]
    exact slots_of_placed hplaced
  have hslot := hslots.written hmap
  have heven : ∀ p ∈ placed, p.1 % 2 = 0 := fun p hp => (hslot p hp).2.1
  have hlt := vtableLength_lt fun p hp => (hslot p hp).2.2
  have hvtable : (vtable placed (b3.used + 4) start).length % 2 = 0 := by
    rw [length_vtable heven]
    exact vtableLength_even heven
  refine (vtable_writes rfl ((Nat.dvd_add_left (Nat.dvd_refl 4)).mp hdvd2)
    halign2 hvtable).imp fun r b4 hgrow4 hrefers => ?_
  obtain ⟨rfl, hstored⟩ := hrefers
  refine ⟨Nat.dvd_trans halign2 hgrow4.alignment, hstored.1,
    fun whole hwhole => ?_⟩
  obtain ⟨place, hrefers⟩ := hstored.2 whole hwhole
  refine ⟨_, rfl, congrArg Load.vtableLength hmap,
    hrefers.tableAt heven hlt, ?_⟩
  -- The fields and the padding leave all distances within 16 bits.
  have hpad := Builder.padding_lt b1.used 4 (by decide : 0 < 4)
  have hfew : (fieldsOf cells).length ≤ 0x1000 := Nat.le_trans
    (length_fieldsOf_le cells) (by simpa using hslots.few)
  have hhere := hstored.1
  have hinside := hwhole.used_le
  subst hstart
  exact hrefers.slotAt hslots hplaced heven
    (hwhole.shrink (hgrow2.trans hgrow4)) (by omega) (by omega) (by omega)

end DetectorHeader.FlatBuffer
