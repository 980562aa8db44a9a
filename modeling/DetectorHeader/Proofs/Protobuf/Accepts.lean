/-
What the readers of fields and messages accept.

Where only acceptance matters, the values are left out: `Accepts reader L`
says that the reader parses some relation, of which `L` are the bytes. The
reader that skips a field takes what the grammar allows for a field that is
not declared (`skip_parses`); the readers of the kinds of declared fields take
their payloads, for any message and any schema that declares the field so; and
a table of readers that accepts the payloads of its schema reads exactly the
runs of records (`decode_accepts`).
-/
import DetectorHeader.Proofs.Protobuf.Parses

namespace DetectorHeader.Protobuf

-- ======================================================= undeclared fields

/-- The key of a record that is not declared does not end a group. -/
theorem Undeclared.ne_endGroup {budget : Nat} {k : Key} {x : Bytes}
    (h : Undeclared budget k x) : k.wire ≠ .endGroup := by
  intro hend
  cases h with
  | number hnumber =>
      cases hend
      exact hnumber
  | delimited _ => cases hend
  | group _ => cases hend

section

variable {budget field : Nat} {skip : Key → Reader Unit}

/-- What is skipped is the rest of a group, up to the tag that ends it. -/
theorem skipGroup_sound
    (h : ∀ k, Parses (skip k) fun x _ => Undeclared budget k x)
    {input rest : Input}
    (hrun : Reader.skipGroup skip field input = .ok ((), rest)) :
    ∃ x, input.bytes = x ++ rest.bytes ∧ GroupRest budget field x := by
  fun_induction Reader.skipGroup skip field input with
  | case1 input fault hkey => cases hrun
  | case2 input k mid hkey hend hfield =>
      cases hrun
      obtain ⟨x, hx, hkey⟩ := (key_parses _ _ _).mp hkey
      refine ⟨x, hx, .close ?_⟩
      rw [← hfield, ← hend]
      exact hkey
  | case3 input k mid hkey hend hfield => cases hrun
  | case4 input k mid hkey hopen fault hskip => cases hrun
  | case5 input k mid hkey hopen _ mid' hskip hprogress ih =>
      obtain ⟨x, hx, hkey⟩ := (key_parses _ _ _).mp hkey
      obtain ⟨y, hy, hpayload⟩ := (h k _ _ _).mp hskip
      obtain ⟨z, hz, hrest⟩ := ih hrun
      refine ⟨x ++ (y ++ z), ?_, .record hkey hpayload hrest⟩
      rw [hx, hy, hz, List.append_assoc, List.append_assoc]
  | case6 input k mid hkey hopen _ mid' hskip hprogress => cases hrun

/-- The recursion is on the records of the group; the key of each is what
makes the loop go on. -/
theorem skipGroup_complete
    (h : ∀ k, Parses (skip k) fun x _ => Undeclared budget k x) :
    ∀ {x : Bytes}, GroupRest budget field x → ∀ rest,
      Reader.skipGroup skip field (.ofBytes (x ++ rest))
        = .ok ((), .ofBytes rest)
  | x, .close hkey, rest => by
      unfold Reader.skipGroup
      rw [key_parses.takes hkey rest]
      dsimp only
      rw [if_pos rfl, if_pos rfl]
  | _, @GroupRest.record _ _ x k y z hkey hpayload hrest, rest => by
      have hkeyread := key_parses.takes hkey (y ++ (z ++ rest))
      have hskip := (h k).takes (a := ()) hpayload (z ++ rest)
      have hprogress : (Input.ofBytes (z ++ rest)).left
          < (Input.ofBytes (x ++ (y ++ (z ++ rest)))).left := by
        have hpos := List.length_pos_iff.mpr hkey.ne_nil
        show (z ++ rest).length < (x ++ (y ++ (z ++ rest))).length
        simp only [List.length_append]
        omega
      unfold Reader.skipGroup
      rw [List.append_assoc, List.append_assoc, hkeyread]
      dsimp only
      rw [if_neg hpayload.ne_endGroup, hskip]
      dsimp only
      rw [dif_pos hprogress]
      exact skipGroup_complete h hrest rest

theorem skipGroup_parses
    (h : ∀ k, Parses (skip k) fun x _ => Undeclared budget k x) :
    Parses (Reader.skipGroup skip field) fun x _ =>
      GroupRest budget field x := by
  intro input a rest
  constructor
  · exact skipGroup_sound h
  · intro hgiven
    obtain ⟨x, hx, hgroup⟩ := hgiven
    rw [input.eq_ofBytes, hx, rest.eq_ofBytes]
    exact skipGroup_complete h hgroup rest.bytes

end

/-- A record is not declared if it is a number, a sized payload or a group,
and there is budget left. -/
theorem undeclared_succ_iff {budget : Nat} {k : Key} {x : Bytes} :
    Undeclared (budget + 1) k x ↔ Number k.wire x
      ∨ (k.wire = .delimited ∧ ∃ payload, Sized payload x)
      ∨ (k.wire = .startGroup ∧ GroupRest budget k.field x) := by
  constructor
  · intro h
    cases h with
    | number h => exact .inl h
    | delimited h => exact .inr (.inl ⟨rfl, _, h⟩)
    | group h => exact .inr (.inr ⟨rfl, h⟩)
  · obtain ⟨field, wire⟩ := k
    intro hgiven
    rcases hgiven with h | ⟨hwire, payload, h⟩ | ⟨hwire, h⟩
    · exact .number h
    · cases hwire
      exact .delimited h
    · cases hwire
      exact .group h

/-- A field that is not declared is skipped exactly where the grammar has
it. -/
theorem skip_parses (budget : Nat) (k : Key) :
    Parses (Reader.skip budget k) fun x _ => Undeclared budget k x := by
  induction budget generalizing k with
  | zero =>
      refine (Parses.fail _).congr fun x _ => iff_of_false id ?_
      intro h
      cases h
  | succ budget ih =>
      obtain ⟨field, wire⟩ := k
      cases wire with
      | varint =>
          refine (varint_parses.map fun _ => ()).congr fun x _ => ?_
          simp [undeclared_succ_iff, Number]
      | fixed64 =>
          refine ((take_parses 8).map fun _ => ()).congr fun x _ => ?_
          simp [undeclared_succ_iff, Number]
      | fixed32 =>
          refine ((take_parses 4).map fun _ => ()).congr fun x _ => ?_
          simp [undeclared_succ_iff, Number]
      | delimited =>
          refine (blob_parses.map fun _ => ()).congr fun x _ => ?_
          simp [undeclared_succ_iff, Number]
      | startGroup =>
          refine (skipGroup_parses ih).congr fun x _ => ?_
          simp [undeclared_succ_iff, Number]
      | endGroup =>
          refine (Parses.fail _).congr fun x _ => ?_
          simp [undeclared_succ_iff, Number]

-- =============================================================== accepting

/-- The reader takes exactly the bytes in `L`, whatever comes behind them. -/
def Accepts {α : Type} (reader : Reader α) (L : Bytes → Prop) : Prop :=
  ∃ G, Parses reader G ∧ ∀ x, L x ↔ ∃ a, G x a

/-- There is a list of partners if everything in the list has one. -/
theorem exists_forall₂_iff {α β : Type} {R : α → β → Prop} {xs : List α} :
    (∃ ys, List.Forall₂ R xs ys) ↔ ∀ x ∈ xs, ∃ y, R x y := by
  induction xs with
  | nil => simp
  | cons x xs ih =>
      rw [List.forall_mem_cons, ← ih]
      constructor
      · intro h
        rcases h with ⟨_, hx | ⟨hx, hxs⟩⟩
        exact ⟨⟨_, hx⟩, _, hxs⟩
      · intro h
        obtain ⟨⟨y, hx⟩, ys, hxs⟩ := h
        exact ⟨y :: ys, .cons hx hxs⟩

namespace Accepts

variable {α β : Type} {reader : Reader α} {L L' : Bytes → Prop}

theorem congr (h : Accepts reader L) (hL : ∀ x, L' x ↔ L x) :
    Accepts reader L' := by
  obtain ⟨G, hparses, hG⟩ := h
  exact ⟨G, hparses, fun x => (hL x).trans (hG x)⟩

theorem map (h : Accepts reader L) (f : α → β) :
    Accepts (do return f (← reader)) L := by
  obtain ⟨G, hparses, hG⟩ := h
  refine ⟨_, hparses.map f, fun x => (hG x).trans ?_⟩
  constructor
  · intro hgiven
    obtain ⟨a, ha⟩ := hgiven
    exact ⟨f a, a, ha, rfl⟩
  · intro hgiven
    obtain ⟨_, a, ha, rfl⟩ := hgiven
    exact ⟨a, ha⟩

theorem within (h : Accepts reader L) (name : FieldName) :
    Accepts (Reader.within name reader) L := by
  obtain ⟨G, hparses, hG⟩ := h
  exact ⟨G, hparses.within name, hG⟩

theorem fail (d : Defect) (hL : ∀ x, ¬ L x) :
    Accepts (Reader.fail d : Reader α) L :=
  ⟨_, Parses.fail d, fun x => iff_of_false (hL x) fun ⟨_, h⟩ => h⟩

theorem bind {f : α → Reader β} {G : Bytes → α → Prop}
    {H : α → Bytes → Prop} (h : Parses reader G)
    (hf : ∀ a, Accepts (f a) (H a)) :
    Accepts (reader >>= f) fun x =>
      ∃ y z a, x = y ++ z ∧ G y a ∧ H a z := by
  choose K hK hiff using hf
  refine ⟨_, h.bind hK, fun x => ?_⟩
  constructor
  · intro hgiven
    obtain ⟨y, z, a, rfl, hy, hz⟩ := hgiven
    obtain ⟨b, hb⟩ := (hiff a z).mp hz
    exact ⟨b, y, z, a, rfl, hy, hb⟩
  · intro hgiven
    obtain ⟨b, y, z, a, rfl, hy, hb⟩ := hgiven
    exact ⟨y, z, a, rfl, hy, (hiff a z).mpr ⟨b, hb⟩⟩

/-- A payload is read iff its wire type is the one that is expected. -/
theorem expecting (h : Accepts reader L) (wire : WireType) (k : Key) :
    Accepts (Reader.expecting wire reader k)
      fun x => k.wire = wire ∧ L x := by
  unfold Reader.expecting
  by_cases hwire : k.wire = wire
  · rw [if_pos hwire]
    exact h.congr fun x => and_iff_right hwire
  · rw [if_neg hwire]
    exact Accepts.fail _ fun x hx => hwire hx.1

/-- Behind a length any number of pieces is accepted that make it up. -/
theorem delimited (h : Accepts reader L) (hne : ∀ x, L x → x ≠ []) :
    Accepts (Reader.delimited reader) fun x =>
      ∃ pieces : List Bytes, (∀ y ∈ pieces, L y)
        ∧ Sized pieces.flatten x := by
  obtain ⟨G, hparses, hG⟩ := h
  refine ⟨_, delimited_parses hparses fun x a hx => hne x ((hG x).mpr ⟨a, hx⟩),
    fun x => ?_⟩
  simp only [hG, ← exists_forall₂_iff]
  constructor
  · intro hgiven
    obtain ⟨pieces, ⟨items, hitems⟩, hsized⟩ := hgiven
    exact ⟨items, pieces, hitems, hsized⟩
  · intro hgiven
    obtain ⟨items, pieces, hitems, hsized⟩ := hgiven
    exact ⟨pieces, ⟨items, hitems⟩, hsized⟩

end Accepts

-- ================================================================= numbers

theorem int64_accepts : Accepts Reader.int64 (Number .varint) :=
  Accepts.map ⟨_, varint_parses, fun _ => Iff.rfl⟩ _

theorem uint64_accepts : Accepts Reader.uint64 (Number .varint) :=
  Accepts.map ⟨_, varint_parses, fun _ => Iff.rfl⟩ _

theorem int32_accepts : Accepts Reader.int32 (Number .varint) :=
  Accepts.map ⟨_, varint_parses, fun _ => Iff.rfl⟩ _

theorem binary32_accepts : Accepts Reader.binary32 (Number .fixed32) :=
  Accepts.map ⟨_, take_parses 4, by simp [Number]⟩ _

theorem binary64_accepts : Accepts Reader.binary64 (Number .fixed64) :=
  Accepts.map ⟨_, take_parses 8, by simp [Number]⟩ _

-- ========================================================= declared fields

section

variable {T : Type} {schema : Schema T} {budget : Nat} {t : T} {k : Key}

/-- What a payload can be, by the declaration of its field. -/
theorem payload_iff {x : Bytes} :
    Payload schema budget t k x ↔
      match schema t k.field with
      | none => Undeclared budget k x
      | some .varint => k.wire = .varint ∧ Number .varint x
      | some .text =>
          k.wire = .delimited ∧ ∃ text, Sized (Utf8.encode text) x
      | some .bytes => k.wire = .delimited ∧ ∃ payload, Sized payload x
      | some (.numbers wire) => (k.wire = wire ∧ Number wire x)
          ∨ k.wire = .delimited ∧ ∃ elements : List Bytes,
            (∀ y ∈ elements, Number wire y) ∧ Sized elements.flatten x
      | some (.message type) => k.wire = .delimited
          ∧ ∃ below, budget = below + 1
            ∧ ∃ payload, Records schema below type payload
              ∧ Sized payload x := by
  constructor
  · intro h
    cases h with
    | varint hfield h =>
        rw [hfield]
        exact ⟨rfl, h⟩
    | text hfield h | bytes hfield h =>
        rw [hfield]
        exact ⟨rfl, _, h⟩
    | element hfield h =>
        rw [hfield]
        exact .inl ⟨rfl, h⟩
    | packed hfield helements h =>
        rw [hfield]
        exact .inr ⟨rfl, _, helements, h⟩
    | message hfield hrecords h =>
        rw [hfield]
        exact ⟨rfl, _, rfl, _, hrecords, h⟩
    | undeclared hfield h =>
        rw [hfield]
        exact h
  · -- the wire type is a variable of its own, for each kind of field to fix
    obtain ⟨field, wire⟩ := k
    cases hfield : schema t field with
    | none => exact .undeclared hfield
    | some kind =>
        cases kind with
        | varint =>
            intro hgiven
            obtain ⟨rfl, h⟩ := hgiven
            exact .varint hfield h
        | text =>
            intro hgiven
            obtain ⟨rfl, text, h⟩ := hgiven
            exact .text hfield h
        | bytes =>
            intro hgiven
            obtain ⟨rfl, payload, h⟩ := hgiven
            exact .bytes hfield h
        | numbers wire =>
            intro hgiven
            rcases hgiven with ⟨rfl, h⟩ | ⟨rfl, elements, helements, h⟩
            · exact .element hfield h
            · exact .packed hfield helements h
        | message type =>
            intro hgiven
            obtain ⟨rfl, below, rfl, payload, hrecords, h⟩ := hgiven
            exact .message hfield hrecords h

/-- The key of a record of a message does not end a group. -/
theorem Payload.ne_endGroup {x : Bytes} (h : Payload schema budget t k x) :
    k.wire ≠ .endGroup := by
  intro hend
  cases h with
  | element _ hnumber =>
      cases hend
      exact hnumber
  | undeclared _ h => exact h.ne_endGroup hend
  | varint _ _ | text _ _ | bytes _ _ | packed _ _ _ | message _ _ _ =>
      cases hend

/-! Fields by the kinds of their declarations. What is made of the value is
up to the message. -/

variable {α β : Type} {name : FieldName}

/-- A field of a single number accepts varints only. -/
theorem varintField_accepts {payload : Reader α} {mk : α → β}
    (hfield : schema t k.field = some .varint)
    (h : Accepts payload (Number .varint)) :
    Accepts (Reader.within name do
        return mk (← Reader.expecting .varint payload k))
      (Payload schema budget t k) := by
  refine (((h.expecting .varint k).map mk).within name).congr fun x => ?_
  rw [payload_iff, hfield]

theorem textField_accepts {mk : String → β}
    (hfield : schema t k.field = some .text) :
    Accepts (Reader.within name do
        return mk (← Reader.expecting .delimited Reader.text k))
      (Payload schema budget t k) := by
  have h : Accepts Reader.text _ := ⟨_, text_parses, fun _ => Iff.rfl⟩
  refine (((h.expecting .delimited k).map mk).within name).congr fun x => ?_
  rw [payload_iff, hfield]

theorem bytesField_accepts {mk : Bytes → β}
    (hfield : schema t k.field = some .bytes) :
    Accepts (Reader.within name do
        return mk (← Reader.expecting .delimited Reader.blob k))
      (Payload schema budget t k) := by
  have h : Accepts Reader.blob _ := ⟨_, blob_parses, fun _ => Iff.rfl⟩
  refine (((h.expecting .delimited k).map mk).within name).congr fun x => ?_
  rw [payload_iff, hfield]

/-- The elements of a repeated number come alone or packed. -/
theorem elements_accepts {wire : WireType} {element : Reader α}
    (h : Accepts element (Number wire)) :
    Accepts (Reader.elements wire element k) fun x =>
      (k.wire = wire ∧ Number wire x)
        ∨ k.wire = .delimited ∧ ∃ elements : List Bytes,
          (∀ y ∈ elements, Number wire y) ∧ Sized elements.flatten x := by
  unfold Reader.elements
  by_cases hpacked : k.wire = .delimited
  · rw [if_pos hpacked]
    refine (h.delimited fun x => Number.ne_nil).congr fun x => ?_
    constructor
    · intro hgiven
      rcases hgiven with ⟨rfl, hnumber⟩ | ⟨-, helements⟩
      · rw [hpacked] at hnumber
        exact hnumber.elim
      · exact helements
    · exact fun helements => .inr ⟨hpacked, helements⟩
  · rw [if_neg hpacked]
    refine ((h.map fun a => [a]).expecting wire k).congr fun x => ?_
    exact or_iff_left fun hx => hpacked hx.1

/-- A repeated field accepts single numbers and packed runs. -/
theorem numbersField_accepts {wire : WireType} {element : Reader α}
    {mk : List α → β} (hfield : schema t k.field = some (.numbers wire))
    (h : Accepts element (Number wire)) :
    Accepts (Reader.within name do
        return mk (← Reader.elements wire element k))
      (Payload schema budget t k) := by
  refine (((elements_accepts h).map mk).within name).congr fun x => ?_
  rw [payload_iff, hfield]

/-- A field that is not declared accepts whatever can be skipped. -/
theorem undeclaredField_accepts {b : β}
    (hfield : schema t k.field = none) :
    Accepts (do
        Reader.skip budget k
        return b)
      (Payload schema budget t k) := by
  have h : Accepts (Reader.skip budget k) (Undeclared budget k) :=
    ⟨_, skip_parses budget k, fun x => ⟨fun h => ⟨(), h⟩, fun ⟨_, h⟩ => h⟩⟩
  refine (h.map fun _ => b).congr fun x => ?_
  rw [payload_iff, hfield]

-- ================================================================ messages

/-- The bytes are a complete record of a message of the given type. -/
def OneRecord (schema : Schema T) (budget : Nat) (t : T) (x : Bytes) :
    Prop :=
  ∃ y z k, x = y ++ z ∧ KeyOf y k ∧ Payload schema budget t k z

theorem OneRecord.ne_nil {x : Bytes} (h : OneRecord schema budget t x) :
    x ≠ [] := by
  obtain ⟨y, z, k, rfl, hkey, -⟩ := h
  exact List.append_ne_nil_of_left_ne_nil hkey.ne_nil z

theorem Records.exists_pieces :
    ∀ {x : Bytes}, Records schema budget t x → ∃ pieces : List Bytes,
      (∀ y ∈ pieces, OneRecord schema budget t y) ∧ x = pieces.flatten
  | _, .nil => ⟨[], by simp⟩
  | _, .cons hkey hpayload hrest => by
      obtain ⟨pieces, hpieces, rfl⟩ := hrest.exists_pieces
      refine ⟨_ :: pieces, List.forall_mem_cons.mpr
        ⟨⟨_, _, _, rfl, hkey, hpayload⟩, hpieces⟩, ?_⟩
      rw [List.flatten_cons, List.append_assoc]

/-- A run of records is cut into them. -/
theorem records_iff_pieces {x : Bytes} :
    Records schema budget t x ↔ ∃ pieces : List Bytes,
      (∀ y ∈ pieces, OneRecord schema budget t y) ∧ x = pieces.flatten := by
  constructor
  · exact Records.exists_pieces
  · intro h
    obtain ⟨pieces, hpieces, rfl⟩ := h
    induction pieces with
    | nil => exact .nil
    | cons piece pieces ih =>
        obtain ⟨⟨x, y, k, rfl, hkey, hpayload⟩, hrest⟩ :=
          List.forall_mem_cons.mp hpieces
        rw [List.flatten_cons, List.append_assoc]
        exact .cons hkey hpayload (ih hrest)

/-- A record is accepted iff its key and its payload are. -/
theorem record_accepts {M : Type} {field : Nat → Key → Reader M}
    (h : ∀ k, Accepts (field budget k) (Payload schema budget t k)) :
    Accepts (Reader.record field budget) (OneRecord schema budget t) :=
  Accepts.bind key_parses h

variable {M : Type} [Message M] {field : Nat → Key → Reader M}

/-- A field that holds a message accepts the records of that message. -/
theorem submessageField_accepts {type : T} {mk : M → β}
    (hfield : schema t k.field = some (.message type))
    (h : ∀ budget k, Accepts (field budget k) (Payload schema budget type k)) :
    Accepts (Reader.within name do
        return mk (← Reader.submessage field budget k))
      (Payload schema budget t k) := by
  have hmessage : Accepts (do
      if budget = 0 then Reader.fail .recursionLimit
      assemble <$> Reader.delimited (Reader.record field (budget - 1)))
      fun x => ∃ below, budget = below + 1 ∧ ∃ payload,
        Records schema below type payload ∧ Sized payload x := by
    cases budget with
    | zero => exact Accepts.fail _ (by simp)
    | succ below =>
        have hrecords := (record_accepts (h below)).delimited
          fun x => OneRecord.ne_nil
        refine (hrecords.map assemble).congr fun x => ?_
        simp only [records_iff_pieces]
        constructor
        · intro hgiven
          obtain ⟨_, hbelow, _, ⟨pieces, hpieces, rfl⟩, hsized⟩ := hgiven
          cases hbelow
          exact ⟨pieces, hpieces, hsized⟩
        · intro hgiven
          obtain ⟨pieces, hpieces, hsized⟩ := hgiven
          exact ⟨below, rfl, _, ⟨pieces, hpieces, rfl⟩, hsized⟩
  refine (((hmessage.expecting .delimited k).map mk).within name).congr
    fun x => ?_
  rw [payload_iff, hfield]

/-- A message is read from exactly the runs of its records. -/
theorem decode_accepts
    (h : ∀ budget k, Accepts (field budget k) (Payload schema budget t k))
    (bytes : Bytes) :
    (∃ m, decode field bytes = .ok m)
      ↔ Records schema recursionBudget t bytes := by
  obtain ⟨G, hparses, hG⟩ := record_accepts (h recursionBudget)
  have hne : ∀ x a, G x a → x ≠ [] := fun x a hx =>
    OneRecord.ne_nil ((hG x).mpr ⟨a, hx⟩)
  simp only [records_iff_pieces, hG, ← exists_forall₂_iff,
    decode_eq_ok_iff_of_parses hparses hne]
  constructor
  · intro hgiven
    obtain ⟨m, pieces, parts, hpieces, hbytes, -⟩ := hgiven
    exact ⟨pieces, ⟨parts, hpieces⟩, hbytes⟩
  · intro hgiven
    obtain ⟨pieces, ⟨parts, hpieces⟩, hbytes⟩ := hgiven
    exact ⟨_, pieces, parts, hpieces, hbytes, rfl⟩

end

end DetectorHeader.Protobuf
