/-
What is written is spelled: the steps of a construction, each with the value
that verification and reading find where it ends (`Builder.Wrote`).

The lemmas are those of `Spells`, met from the other side. What a field is to
hold is told before the table is written (`Builder.Holds`), so that the proof
about a kind of table only has to name its slots.
-/
import DetectorHeader.Proofs.FlatBuffer.Vtable

namespace DetectorHeader.FlatBuffer

open Build

-- =================================================================== values

/-- At reference `r` stands what spells `value`. -/
def Builder.Wrote {α : Type} (check : Check) (read : Read α)
    (loadOf : α → Load) (value : α) (r : Nat) (b : Builder) : Prop :=
  b.Stored r fun B position =>
    Spells check read B position value (loadOf value)

section

variable {α : Type} {check : Check} {read : Read α} {loadOf : α → Load}

/-- A vector of numbers is written so that it is checked and read as these. -/
theorem numbers_writes {s : Scalar} {ofNat : Nat → α} {toNat : α → Nat}
    (hinv : ∀ a, ofNat (toNat a) = a) (hlt : ∀ a, toNat a < 256 ^ s.size)
    (items : List α) (b : Builder) :
    b.Writes (vector s.size (items.map toNat))
      (Builder.Wrote (Check.vector s) (Read.vector s ofNat)
        (fun items => .vector s items.length) items) := by
  refine (Builder.vector_writes (s := s) fun n hn => ?_).imp
    fun r b' _ hstored => ?_
  · obtain ⟨a, -, rfl⟩ := List.mem_map.mp hn
    exact hlt a
  · refine ⟨hstored.1, fun whole hwhole => ?_⟩
    have h := Spells.vector ofNat (hstored.2 whole hwhole)
    have hid : (ofNat ∘ toNat) = id := funext hinv
    rwa [List.map_map, hid, List.map_id, List.length_map] at h

/-- A text is written so that it is read as this text. -/
theorem text_writes (text : String) (b : Builder) :
    b.Writes (string (Utf8.encode text))
      (Builder.Wrote Check.string Read.string
        (fun text => .string (Utf8.encode text).length) text) := by
  refine (Builder.string_writes (Utf8.encode text)).imp
    fun r b' _ hstored => ?_
  refine ⟨hstored.1, fun whole hwhole => ?_⟩
  obtain ⟨hcount, htext, hzero⟩ := hstored.2 whole hwhole
  exact Spells.string hcount htext hzero

/-- What can be written one by one can be written as a list. -/
theorem list_writes {write : α → Build Reference}
    (h : ∀ a (b : Builder), b.Writes (write a)
      (Builder.Wrote check read loadOf a))
    (items : List α) (b : Builder) :
    b.Writes (do vectorOf (← items.mapM write))
      (Builder.Wrote (Check.vectorOf check) (Read.vectorOf read)
        (fun items => .vectorOf (items.map loadOf)) items) := by
  refine (Builder.Writes.list h).bind fun targets b1 _ hitems => ?_
  have hle : ∀ t ∈ targets, t ≤ b1.used := by
    intro t ht
    obtain ⟨i, hi, rfl⟩ := List.getElem_of_mem ht
    have hi' : i < items.length := by rwa [hitems.length_eq]
    exact (hitems.get hi' hi).1
  refine (Builder.vectorOf_writes hle).imp fun r b2 hgrow hstored => ?_
  refine ⟨hstored.1, fun whole hwhole => ?_⟩
  obtain ⟨hcount, hinside, hitem⟩ := hstored.2 whole hwhole
  rw [← hitems.length_eq] at hcount hinside
  refine Spells.vectorOf hcount hinside fun i hi => ?_
  have hi' : i < targets.length := by rwa [← hitems.length_eq]
  obtain ⟨n, hnumber, htarget⟩ := hitem i hi'
  refine Spells.offsetTo hnumber ?_
  rw [htarget, Buffer.size_ofArray, List.size_toArray]
  exact ((hitems.get hi hi').grow hgrow).2 whole hwhole

end

-- ==================================================================== slots

/-- What a field is to hold is what spells an optional value: a table that
has it in a slot spells the value there. -/
structure Builder.Holds {α : Type} (b : Builder) (check : Check)
    (read : Read α) (loadOf : α → Load) (value : Option α)
    (cell : Option Cell) : Prop where
  present : cell.isSome = value.isSome
  ready : ∀ c ∈ cell, Cell.Ready b c
  spells : ∀ {whole : Bytes} {t : Read.Table} {slot : Nat},
    b.CompletedBy whole → SlotAt whole.toArray t slot cell →
    SlotSpells check read whole.toArray t slot value loadOf

section

variable {α : Type} {check : Check} {read : Read α} {loadOf : α → Load}
  {b b' : Builder} {t : Read.Table} {value : Option α}

/-- A cell holds what it holds when more is written. -/
theorem Builder.Holds.grow {cell : Option Cell}
    (h : b.Holds check read loadOf value cell) (hg : b.Grows b') :
    b'.Holds check read loadOf value cell where
  present := h.present
  ready c hc := (h.ready c hc).grow hg
  spells hwhole := h.spells (hwhole.shrink hg)

/-- The field refers to what was written for the value. -/
theorem optional_writes {write : α → Build Reference}
    (h : ∀ a (b : Builder), b.Writes (write a)
      (Builder.Wrote check read loadOf a)) :
    b.Writes (value.mapM write) fun target b' =>
      b'.Holds (Check.offsetTo check) (Read.offsetTo read)
        (fun a => .offsetTo (loadOf a)) value (target.map .offset) := by
  refine (Builder.Writes.optional h).imp fun target b' _ htarget => ?_
  cases htarget with
  | none =>
      refine ⟨rfl, fun _ hc => (nomatch hc), fun {_ _ _} _ hslot => ?_⟩
      obtain ⟨place, hfield, hcell⟩ := hslot
      cases hcell
      exact ⟨_, hfield, .none⟩
  | @some a r hstored =>
      refine ⟨rfl, fun c hc => ?_, fun {whole _ _} hwhole hslot => ?_⟩
      · cases hc
        exact hstored.1
      · obtain ⟨place, hfield, hcell⟩ := hslot
        cases hcell with
        | some hleads =>
            obtain ⟨n, hnumber, htarget⟩ := hleads
            refine ⟨_, hfield, .some (Spells.offsetTo hnumber ?_)⟩
            rw [htarget, Buffer.size_ofArray, List.size_toArray]
            exact hstored.2 whole hwhole

/-- The field holds the number, or is left out if that is zero. -/
theorem number_holds {s : Scalar} {size n : Nat} (hs : s.size = size)
    (hn : n < 256 ^ s.size) :
    b.Holds (Check.scalar s) (Read.number s) (fun _ => .scalar s) (nonzero n)
      ((nonzero n).map (.number size)) := by
  subst hs
  refine ⟨Option.isSome_map, fun c hc => ?_, fun {_ _ _} _ hslot => ?_⟩
  · obtain ⟨m, -, rfl⟩ := Option.map_eq_some_iff.mp hc
    cases s with
    | u8 | i8 => exact ⟨0, by decide⟩
    | u16 => exact ⟨1, by decide⟩
    | u32 | i32 | f32 => exact ⟨2, by decide⟩
    | i64 => exact ⟨3, by decide⟩
  · obtain ⟨place, hfield, hcell⟩ := hslot
    refine ⟨place, hfield, ?_⟩
    by_cases hzero : n = 0
    · have hnone : nonzero n = none := if_pos hzero
      rw [hnone] at hcell ⊢
      cases hcell
      exact .none
    · have hsome : nonzero n = some n := if_neg hzero
      rw [hsome] at hcell ⊢
      cases hcell with
      | some hnumber =>
          have hstands := numberAt_of_has hnumber.1 hn hnumber.2
          exact .some ⟨Passes.scalar hstands, hstands.read⟩

-- =================================================================== tables

/-- The load of a table, by the length of its vtable: whatever the order in
which the fields were written, the last slot in use is the same. -/
theorem Load.table_eq {cells : List (Nat × Option Cell)}
    {contents : List (Nat × Option Load)}
    (h : (cells.map fun c => (c.1, c.2.isSome)).Perm
      (contents.map fun c => (c.1, c.2.isSome)))
    (ht : t.length
      = Load.vtableLength ((cells.filter (·.2.isSome)).map (·.1))) :
    Load.tableOf t.length
        (contents.map fun c => Load.field t.length c.1 c.2)
      = Load.table contents := by
  have hlength : t.length
      = Load.vtableLength ((contents.filter (·.2.isSome)).map (·.1)) :=
    ht.trans (Load.vtableLength_of_perm h)
  unfold Load.table
  rw [← hlength]

section

variable {a : α} {cells : List (Nat × Option Cell)}
  {contents : List (Nat × Option Load)} {fields : List Check.Field}
  (hslots : SlotsFit (cells.map (·.1)))
  (hready : ∀ c ∈ cells, ∀ cell ∈ c.2, Cell.Ready b cell)
  (hload : loadOf a = .table contents)
  (hpresent : (cells.map fun c => (c.1, c.2.isSome)).Perm
    (contents.map fun c => (c.1, c.2.isSome)))
  (h : ∀ (whole : Bytes) (t : Read.Table), b.CompletedBy whole →
    (∀ slot cell, (slot, cell) ∈ cells → SlotAt whole.toArray t slot cell) →
    Read.table whole.toArray t.position = some t →
    List.Forall₂ (fun f c =>
        Passes (Check.field f whole.toArray t.position t.vtable t.length)
          (.field t.length c.1 c.2)) fields contents
      ∧ read whole.toArray t.position = some a)

include hslots hready hload hpresent h

/-- A table is spelled where it is written, if its fields are checked and read
as what its slots hold. -/
theorem table_writes_aligned :
    b.Writes (Build.table (fieldsOf cells)) fun r b' => 4 ∣ b'.alignment
      ∧ b'.Wrote (Check.table fields) read loadOf a r := by
  refine (table_writes hslots hready).imp fun r b' hgrow htable => ?_
  obtain ⟨halign, hstored⟩ := htable
  refine ⟨halign, hstored.1, fun whole hwhole => ?_⟩
  obtain ⟨t, hposition, hlength, htable, hcells⟩ := hstored.2 whole hwhole
  -- The vtable is in the buffer, which is short enough to find it in.
  have hinside : t.vtable + 2 ≤ whole.length := by
    have hlength := htable.length.inside
    rwa [Buffer.size_ofArray, List.size_toArray] at hlength
  have hnear : t.vtable < 0x80000000 := by
    have hshort := hwhole.bounds.2
    omega
  obtain ⟨hpasses, hread⟩ := h whole t (hwhole.shrink hgrow)
    (fun _ _ hc => hcells _ hc) (Read.table_of_tableAt htable hnear)
  rw [← hposition, hload, ← Load.table_eq hpresent hlength]
  refine ⟨Passes.table htable ?_, hread⟩
  rw [List.forall₂_map_right_iff]
  exact hpasses

/-- The table of a value is written so that it is read as this value. -/
theorem table_writes_value :
    b.Writes (Build.table (fieldsOf cells))
      (Builder.Wrote (Check.table fields) read loadOf a) :=
  (table_writes_aligned hslots hready hload hpresent h).imp
    fun _ _ _ hwrote => hwrote.2

end

end

-- =================================================================== finish

/-- The buffer that a construction is finished with completes it: the offset
at its start leads to the root, and the identifier stands behind. -/
theorem finish_writes {b : Builder} {identifier : Bytes} {root : Nat}
    (hroot : root ≤ b.used) (hfour : 4 ∣ b.alignment)
    (hlength : identifier.length = 4) :
    b.Writes (finish identifier root) fun _ b' =>
      b'.alignment ∣ b'.used
        ∧ b'.Stored b'.used (Builder.LeadsTo root)
        ∧ b'.Stored (b'.used - 4) fun B position =>
          B.Has position identifier := by
  -- This is shown for the alignment before the last steps, which they do not
  -- raise.
  have hwrites : b.Writes (finish identifier root) fun _ b' =>
      b.alignment ∣ b'.used
        ∧ b'.Stored b'.used (Builder.LeadsTo root)
        ∧ b'.Stored (b'.used - 4) fun B position =>
          B.Has position identifier := by
    intro hb
    refine Builder.get_writes.bind (fun c b0 _ hc => ?_) hb
    obtain ⟨rfl, rfl⟩ := hc
    refine (Builder.align_writes _ hb.alignment).bind
      fun _ b1 hgrow1 halign => ?_
    obtain ⟨hdvd1, -, -⟩ := halign
    refine (Builder.prepend_writes identifier).bind
      fun _ b2 hgrow2 hprepend => ?_
    obtain ⟨hused2, hstored2⟩ := hprepend
    have hidentifier := hstored2 1 (Nat.one_dvd _) (Nat.one_dvd _)
    have hroot2 := Nat.le_trans hroot (hgrow1.trans hgrow2).used_le
    refine (Builder.pushOffset_writes hroot2).bind fun r b3 hgrow3 hpush => ?_
    obtain ⟨rfl, -, -, hused3, hstored3⟩ := hpush
    have hdvd4 : 4 ∣ b2.used + 4 := by
      have := Nat.dvd_trans hfour hdvd1
      omega
    rw [Builder.padding_eq_zero hdvd4] at hused3
    refine Builder.Writes.pure ⟨?_, hstored3, ?_⟩
    · rwa [show b3.used = b1.used + (4 + identifier.length) by omega]
    · rw [show b3.used - 4 = b2.used by omega]
      refine ⟨(hidentifier.grow hgrow3).1, fun whole hwhole => ?_⟩
      exact ((hidentifier.grow hgrow3).2 whole hwhole).1
  intro hb
  obtain ⟨a, b', hrun, hb', hgrow, hdvd, hrest⟩ := hwrites hb
  refine ⟨a, b', hrun, hb', hgrow, ?_, hrest⟩
  -- No step asks for a greater alignment than there was before.
  have halign : b'.alignment = max (max (max b.alignment b.alignment) 4) 4 :=
    (congrArg (·.2.alignment) hrun).symm
  obtain ⟨k, hk⟩ := hb.alignment
  have hle := Nat.le_of_dvd (hk ▸ Nat.two_pow_pos k) hfour
  rwa [halign, Nat.max_self, Nat.max_eq_left hle, Nat.max_eq_left hle]

end DetectorHeader.FlatBuffer
