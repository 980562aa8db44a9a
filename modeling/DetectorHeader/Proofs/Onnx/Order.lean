/-
The order of the records of a message does not matter, nor do records of
fields that its type does not declare (`MessageType.decode_rearranged`), at
any depth.

The places of `Protobuf.Rearranged` are the fields, except that value and name
of a dimension, of which the later counts, have one place. For each type the
part of a message that belongs to a place is written down, and every row of its
table gives to the part of its own place alone.
-/
import DetectorHeader.Proofs.Onnx.Types
import DetectorHeader.Proofs.Protobuf.Order

namespace DetectorHeader.Onnx

open Protobuf

/-- Where the records of a field belong. Those of the two fields of a
dimension exclude each other, and belong together. -/
def place : MessageType → Nat → Nat
  | .dimension, 2 => 1
  | _, n => n

-- ==================================================================== parts

/-- What is kept of one place has nothing of another one. -/
theorem ite_ite_of_ne {α : Type} {p q n : Nat} (h : p ≠ q) (a b : α) :
    (if q = n then (if p = n then a else b) else b) = b := by
  split
  · rw [if_neg fun hp => h (hp.trans (‹q = n›).symm)]
  · rfl

instance : Parted Dimension where
  only p d := { extent := if p = 1 then d.extent else none }
  only_empty _ := by simp only [Message.empty, ite_self]
  only_merge _ a b := by
    simp only [Message.merge, apply_ite₂ latest, latest_none]
  only_only _ h := by simp only [Message.empty, ite_ite_of_ne h]
  eq_of_only a b h := by
    have h1 := congrArg Dimension.extent (h 1)
    cases a
    cases b
    simp_all

instance : Parted Shape where
  only p s := { dims := if p = 1 then s.dims else [] }
  only_empty _ := by simp only [Message.empty, ite_self]
  only_merge _ a b := by
    simp only [Message.merge, apply_ite₂ (· ++ ·), List.append_nil]
  only_only _ h := by simp only [Message.empty, ite_ite_of_ne h]
  eq_of_only a b h := by
    have h1 := congrArg Shape.dims (h 1)
    cases a
    cases b
    simp_all

instance : Parted TensorType where
  only p t :=
    { elementType := if p = 1 then t.elementType else none
      shape := if p = 2 then t.shape else none }
  only_empty _ := by simp only [Message.empty, ite_self]
  only_merge _ a b := by
    simp only [Message.merge, apply_ite₂ latest, latest_none,
      apply_ite₂ joined, joined_none]
  only_only _ h := by simp only [Message.empty, ite_ite_of_ne h]
  eq_of_only a b h := by
    have h1 := congrArg TensorType.elementType (h 1)
    have h2 := congrArg TensorType.shape (h 2)
    cases a
    cases b
    simp_all

instance : Parted ValueType where
  only p t := { tensor := if p = 1 then t.tensor else none }
  only_empty _ := by simp only [Message.empty, ite_self]
  only_merge _ a b := by
    simp only [Message.merge, apply_ite₂ joined, joined_none]
  only_only _ h := by simp only [Message.empty, ite_ite_of_ne h]
  eq_of_only a b h := by
    have h1 := congrArg ValueType.tensor (h 1)
    cases a
    cases b
    simp_all

instance : Parted ValueInfo where
  only p v :=
    { name := if p = 1 then v.name else none
      type := if p = 2 then v.type else none }
  only_empty _ := by simp only [Message.empty, ite_self]
  only_merge _ a b := by
    simp only [Message.merge, apply_ite₂ latest, latest_none,
      apply_ite₂ joined, joined_none]
  only_only _ h := by simp only [Message.empty, ite_ite_of_ne h]
  eq_of_only a b h := by
    have h1 := congrArg ValueInfo.name (h 1)
    have h2 := congrArg ValueInfo.type (h 2)
    cases a
    cases b
    simp_all

instance : Parted Tensor where
  only p t :=
    { dims := if p = 1 then t.dims else []
      dataType := if p = 2 then t.dataType else none
      floatData := if p = 4 then t.floatData else []
      int32Data := if p = 5 then t.int32Data else []
      int64Data := if p = 7 then t.int64Data else []
      name := if p = 8 then t.name else none
      rawData := if p = 9 then t.rawData else none
      doubleData := if p = 10 then t.doubleData else []
      uint64Data := if p = 11 then t.uint64Data else [] }
  only_empty _ := by simp only [Message.empty, ite_self]
  only_merge _ a b := by
    simp only [Message.merge, apply_ite₂ latest, latest_none,
      apply_ite₂ (· ++ ·), List.append_nil]
  only_only _ h := by simp only [Message.empty, ite_ite_of_ne h]
  eq_of_only a b h := by
    have h1 := congrArg Tensor.dims (h 1)
    have h2 := congrArg Tensor.dataType (h 2)
    have h4 := congrArg Tensor.floatData (h 4)
    have h5 := congrArg Tensor.int32Data (h 5)
    have h7 := congrArg Tensor.int64Data (h 7)
    have h8 := congrArg Tensor.name (h 8)
    have h9 := congrArg Tensor.rawData (h 9)
    have h10 := congrArg Tensor.doubleData (h 10)
    have h11 := congrArg Tensor.uint64Data (h 11)
    cases a
    cases b
    simp_all

instance : Parted Node where
  only p n :=
    { input := if p = 1 then n.input else []
      output := if p = 2 then n.output else []
      name := if p = 3 then n.name else none
      opType := if p = 4 then n.opType else none
      domain := if p = 7 then n.domain else none }
  only_empty _ := by simp only [Message.empty, ite_self]
  only_merge _ a b := by
    simp only [Message.merge, apply_ite₂ latest, latest_none,
      apply_ite₂ (· ++ ·), List.append_nil]
  only_only _ h := by simp only [Message.empty, ite_ite_of_ne h]
  eq_of_only a b h := by
    have h1 := congrArg Node.input (h 1)
    have h2 := congrArg Node.output (h 2)
    have h3 := congrArg Node.name (h 3)
    have h4 := congrArg Node.opType (h 4)
    have h7 := congrArg Node.domain (h 7)
    cases a
    cases b
    simp_all

instance : Parted Graph where
  only p g :=
    { node := if p = 1 then g.node else []
      name := if p = 2 then g.name else none
      initializer := if p = 5 then g.initializer else []
      input := if p = 11 then g.input else []
      output := if p = 12 then g.output else []
      valueInfo := if p = 13 then g.valueInfo else [] }
  only_empty _ := by simp only [Message.empty, ite_self]
  only_merge _ a b := by
    simp only [Message.merge, apply_ite₂ latest, latest_none,
      apply_ite₂ (· ++ ·), List.append_nil]
  only_only _ h := by simp only [Message.empty, ite_ite_of_ne h]
  eq_of_only a b h := by
    have h1 := congrArg Graph.node (h 1)
    have h2 := congrArg Graph.name (h 2)
    have h5 := congrArg Graph.initializer (h 5)
    have h11 := congrArg Graph.input (h 11)
    have h12 := congrArg Graph.output (h 12)
    have h13 := congrArg Graph.valueInfo (h 13)
    cases a
    cases b
    simp_all

instance : Parted Model where
  only p m :=
    { irVersion := if p = 1 then m.irVersion else none
      producerName := if p = 2 then m.producerName else none
      producerVersion := if p = 3 then m.producerVersion else none
      modelVersion := if p = 5 then m.modelVersion else none
      graph := if p = 7 then m.graph else none }
  only_empty _ := by simp only [Message.empty, ite_self]
  only_merge _ a b := by
    simp only [Message.merge, apply_ite₂ latest, latest_none,
      apply_ite₂ joined, joined_none]
  only_only _ h := by simp only [Message.empty, ite_ite_of_ne h]
  eq_of_only a b h := by
    have h1 := congrArg Model.irVersion (h 1)
    have h2 := congrArg Model.producerName (h 2)
    have h3 := congrArg Model.producerVersion (h 3)
    have h5 := congrArg Model.modelVersion (h 5)
    have h7 := congrArg Model.graph (h 7)
    cases a
    cases b
    simp_all

instance : (t : MessageType) → Parted t.Value
  | .model => inferInstanceAs (Parted Model)
  | .graph => inferInstanceAs (Parted Graph)
  | .node => inferInstanceAs (Parted Node)
  | .tensor => inferInstanceAs (Parted Tensor)
  | .valueInfo => inferInstanceAs (Parted ValueInfo)
  | .valueType => inferInstanceAs (Parted ValueType)
  | .tensorType => inferInstanceAs (Parted TensorType)
  | .shape => inferInstanceAs (Parted Shape)
  | .dimension => inferInstanceAs (Parted Dimension)

-- ================================================================== tables

/-- A record of the field gives what belongs to its place. -/
abbrev MessageType.LiesIn (t : MessageType) (n : Nat) (a : t.Value) : Prop :=
  Protobuf.LiesIn declared place t n a

section

variable {budget : Nat} {x : Bytes}

/-- A field of a dimension gives something in its place, which is one for both.
-/
theorem Dimension.field_liesIn : ∀ {k a},
    Taken (Dimension.field budget k) x a →
      MessageType.LiesIn .dimension k.field a
  | ⟨1, _⟩, _, h | ⟨2, _⟩, _, h => only_of_taken h fun _ => rfl
  | ⟨0, _⟩, _, h | ⟨_ + 3, _⟩, _, h => eq_empty_of_skipped h

/-- A field of a shape gives something in its own place. -/
theorem Shape.field_liesIn : ∀ {k a},
    Taken (Shape.field budget k) x a → MessageType.LiesIn .shape k.field a
  | ⟨1, _⟩, _, h => only_of_taken h fun _ => rfl
  | ⟨0, _⟩, _, h | ⟨_ + 2, _⟩, _, h => eq_empty_of_skipped h

theorem TensorType.field_liesIn : ∀ {k a},
    Taken (TensorType.field budget k) x a →
      MessageType.LiesIn .tensorType k.field a
  | ⟨1, _⟩, _, h | ⟨2, _⟩, _, h => only_of_taken h fun _ => rfl
  | ⟨0, _⟩, _, h | ⟨_ + 3, _⟩, _, h => eq_empty_of_skipped h

theorem ValueType.field_liesIn : ∀ {k a},
    Taken (ValueType.field budget k) x a →
      MessageType.LiesIn .valueType k.field a
  | ⟨1, _⟩, _, h => only_of_taken h fun _ => rfl
  | ⟨0, _⟩, _, h | ⟨_ + 2, _⟩, _, h => eq_empty_of_skipped h

theorem ValueInfo.field_liesIn : ∀ {k a},
    Taken (ValueInfo.field budget k) x a →
      MessageType.LiesIn .valueInfo k.field a
  | ⟨1, _⟩, _, h | ⟨2, _⟩, _, h => only_of_taken h fun _ => rfl
  | ⟨0, _⟩, _, h | ⟨_ + 3, _⟩, _, h => eq_empty_of_skipped h

theorem Tensor.field_liesIn : ∀ {k a},
    Taken (Tensor.field budget k) x a → MessageType.LiesIn .tensor k.field a
  | ⟨1, _⟩, _, h | ⟨2, _⟩, _, h | ⟨4, _⟩, _, h | ⟨5, _⟩, _, h | ⟨7, _⟩, _, h
  | ⟨8, _⟩, _, h | ⟨9, _⟩, _, h | ⟨10, _⟩, _, h | ⟨11, _⟩, _, h =>
      only_of_taken h fun _ => rfl
  | ⟨0, _⟩, _, h | ⟨3, _⟩, _, h | ⟨6, _⟩, _, h | ⟨_ + 12, _⟩, _, h =>
      eq_empty_of_skipped h

theorem Node.field_liesIn : ∀ {k a},
    Taken (Node.field budget k) x a → MessageType.LiesIn .node k.field a
  | ⟨1, _⟩, _, h | ⟨2, _⟩, _, h | ⟨3, _⟩, _, h | ⟨4, _⟩, _, h
  | ⟨7, _⟩, _, h => only_of_taken h fun _ => rfl
  | ⟨0, _⟩, _, h | ⟨5, _⟩, _, h | ⟨6, _⟩, _, h | ⟨_ + 8, _⟩, _, h =>
      eq_empty_of_skipped h

theorem Graph.field_liesIn : ∀ {k a},
    Taken (Graph.field budget k) x a → MessageType.LiesIn .graph k.field a
  | ⟨1, _⟩, _, h | ⟨2, _⟩, _, h | ⟨5, _⟩, _, h | ⟨11, _⟩, _, h
  | ⟨12, _⟩, _, h | ⟨13, _⟩, _, h => only_of_taken h fun _ => rfl
  | ⟨0, _⟩, _, h | ⟨3, _⟩, _, h | ⟨4, _⟩, _, h | ⟨6, _⟩, _, h | ⟨7, _⟩, _, h
  | ⟨8, _⟩, _, h | ⟨9, _⟩, _, h | ⟨10, _⟩, _, h | ⟨_ + 14, _⟩, _, h =>
      eq_empty_of_skipped h

theorem Model.field_liesIn : ∀ {k a},
    Taken (Model.field budget k) x a → MessageType.LiesIn .model k.field a
  | ⟨1, _⟩, _, h | ⟨2, _⟩, _, h | ⟨3, _⟩, _, h | ⟨5, _⟩, _, h
  | ⟨7, _⟩, _, h => only_of_taken h fun _ => rfl
  | ⟨0, _⟩, _, h | ⟨4, _⟩, _, h | ⟨6, _⟩, _, h | ⟨_ + 8, _⟩, _, h =>
      eq_empty_of_skipped h

end

namespace MessageType

/-- Every field of every message gives something in its place only. -/
theorem field_liesIn (t : MessageType) {budget : Nat} {k : Key} {x : Bytes}
    {a : t.Value} (h : Taken (t.field budget k) x a) : t.LiesIn k.field a := by
  cases t with
  | model => exact Model.field_liesIn h
  | graph => exact Graph.field_liesIn h
  | node => exact Node.field_liesIn h
  | tensor => exact Tensor.field_liesIn h
  | valueInfo => exact ValueInfo.field_liesIn h
  | valueType => exact ValueType.field_liesIn h
  | tensorType => exact TensorType.field_liesIn h
  | shape => exact Shape.field_liesIn h
  | dimension => exact Dimension.field_liesIn h

/-- The fields that hold a message are read by the table of its type. -/
theorem field_message {t type : MessageType} {n : Nat}
    (h : declared t n = some (.message type)) :
    ∃ name, ∃ mk : type.Value → t.Value, ∀ budget,
      t.field budget ⟨n, .delimited⟩ = Reader.within name do
        return mk (← Reader.submessage type.field budget ⟨n, .delimited⟩) := by
  unfold declared at h
  split at h
  all_goals cases h
  all_goals exact ⟨_, _, fun _ => rfl⟩

/-- The tables of fields and places belong together. -/
theorem tables : Tables declared place field where
  accepts := field_accepts
  liesIn := field_liesIn _
  message := field_message

-- ==================================================================== order

/-- Records that are read on their own are read together, and rearranging
them, at any depth, does not change the message. -/
theorem decode_rearranged (t : MessageType) {x x' : Bytes}
    (h : Rearranged declared place recursionBudget t x x') :
    ∃ m, t.decode x = .ok m ∧ t.decode x' = .ok m := by
  obtain ⟨m, hm, hm'⟩ := tables.rearranged_assembled recursionBudget t x x' h
  have haccepts := t.field_accepts recursionBudget
  exact ⟨m, (decode_eq_ok_iff haccepts).mpr hm,
    (decode_eq_ok_iff haccepts).mpr hm'⟩

end MessageType

-- ================================================================ an example

/-- A number below 128 is spelled by one byte. -/
theorem varint_byte {b : UInt8} (h : b < 0x80) : Varint [b] b.toNat :=
  varintIn_succ_iff.mpr ⟨b, .inl ⟨rfl, h, by omega, rfl⟩⟩

/-- And so is a key with a small number. -/
theorem keyOf_byte {b : UInt8} {k : Key} (h : b < 0x80) (hfield : 0 < k.field)
    (hb : b.toNat = k.field * 8 + k.wire.code) : KeyOf [b] k := by
  have hnat : b.toNat < 128 := UInt8.lt_iff_toNat_lt.mp h
  exact ⟨b.toNat, varint_byte h, by omega, hfield, hb⟩

/-- And so is a short length. -/
theorem sized_short {b : UInt8} {payload : Bytes} (h : b < 0x80)
    (hlength : b.toNat = payload.length) : Sized payload (b :: payload) :=
  ⟨[b], hlength ▸ varint_byte h, rfl⟩

/-- The name of a value. -/
def nameRecord : Record := ⟨⟨1, .delimited⟩, [0x0a, 0x01, 0x78]⟩

/-- The tensor type in the type of a value, with its element type. -/
def tensorRecord : Record := ⟨⟨1, .delimited⟩, [0x0a, 0x02, 0x08, 0x01]⟩

/-- An empty group, of a field that a type does not have. -/
def groupRecord : Record := ⟨⟨9, .startGroup⟩, [0x4b, 0x4c]⟩

/-- The type of a value, where such a group comes first. -/
def groupedTypeRecord : Record :=
  ⟨⟨2, .delimited⟩,
    [0x12] ++ (0x06 :: written [groupRecord, tensorRecord])⟩

/-- The same type without the group. -/
def typeRecord : Record :=
  ⟨⟨2, .delimited⟩, [0x12] ++ (0x04 :: written [tensorRecord])⟩

/-- The first record is one of the message. -/
theorem tensorRecord_isOf (budget : Nat) :
    tensorRecord.IsOf declared (budget + 1) .valueType := by
  have hkey : KeyOf [0x08] ⟨1, .varint⟩ :=
    keyOf_byte (by decide) (by decide) rfl
  have hone : Number .varint [0x01] := ⟨1, varint_byte (by decide)⟩
  have hrecords : Records declared budget .tensorType
      ([0x08] ++ ([0x01] ++ [])) := .cons hkey (.varint rfl hone) .nil
  exact ⟨[0x0a], _, rfl, keyOf_byte (by decide) (by decide) rfl,
    .message rfl hrecords (sized_short (by decide) rfl)⟩

/-- The second one is of no field that is declared. -/
theorem groupRecord_isOf (budget : Nat) :
    groupRecord.IsOf declared (budget + 1) .valueType := by
  have hstart : KeyOf [0x4b] ⟨9, .startGroup⟩ :=
    keyOf_byte (by decide) (by decide) rfl
  have hend : KeyOf [0x4c] ⟨9, .endGroup⟩ :=
    keyOf_byte (by decide) (by decide) rfl
  exact ⟨[0x4b], [0x4c], rfl, hstart, .undeclared rfl (.group (.close hend))⟩

theorem typeRecords_isOf (budget : Nat) :
    ∀ r ∈ [groupRecord, tensorRecord],
      r.IsOf declared (budget + 1) .valueType := by
  intro r hr
  rcases List.mem_pair.mp hr with rfl | rfl
  · exact groupRecord_isOf budget
  · exact tensorRecord_isOf budget

/-- The group in the type is dropped, and the name comes last. -/
theorem valueInfo_rearranged (budget : Nat) :
    Rearranged declared place (budget + 2) .valueInfo
      (written [nameRecord, groupedTypeRecord])
      (written [typeRecord, nameRecord]) := by
  have hkey : KeyOf [0x12] ⟨2, .delimited⟩ :=
    keyOf_byte (by decide) (by decide) rfl
  have hgrouped : Sized (written [groupRecord, tensorRecord])
      (0x06 :: written [groupRecord, tensorRecord]) :=
    sized_short (by decide) rfl
  have hinside : Rearranged declared place (budget + 1) .valueType
      (written [groupRecord, tensorRecord]) (written [tensorRecord]) :=
    ⟨_, [tensorRecord], _, typeRecords_isOf budget, rfl,
      .cons (.same _) .nil, .refl _, fun _ => rfl, rfl⟩
  have halike : Alike declared (Rearranged declared place (budget + 1))
      .valueInfo groupedTypeRecord typeRecord :=
    .within rfl hkey hkey hgrouped (sized_short (by decide) rfl) hinside
  refine ⟨[nameRecord, groupedTypeRecord], [nameRecord, typeRecord],
    [typeRecord, nameRecord], ?_, rfl, .cons (.same _) (.cons halike .nil),
    .swap _ _ _, fun p => ?_, rfl⟩
  · intro r hr
    rcases List.mem_pair.mp hr with rfl | rfl
    · have htext : Sized (Utf8.encode "x") [0x01, 0x78] :=
        sized_short (by decide) rfl
      exact ⟨[0x0a], _, rfl, keyOf_byte (by decide) (by decide) rfl,
        .text rfl htext⟩
    · exact ⟨[0x12], _, rfl, hkey,
        .message rfl (records_written _ (typeRecords_isOf budget)) hgrouped⟩
  · by_cases hname : place .valueInfo nameRecord.key.field = p
    · subst hname
      rfl
    · simp only [ofPlace, List.filter_cons, hname, decide_false,
        Bool.false_eq_true, if_false]

/-- Fields change places, and a group that nothing declares is left out, one
message further down. -/
theorem valueInfo_decode_rearranged :
    Rearranged declared place recursionBudget .valueInfo
        (written [nameRecord, groupedTypeRecord])
        (written [typeRecord, nameRecord])
      ∧ ∃ m,
        MessageType.decode .valueInfo (written [nameRecord, groupedTypeRecord])
            = .ok m
          ∧ MessageType.decode .valueInfo (written [typeRecord, nameRecord])
            = .ok m :=
  ⟨valueInfo_rearranged 98,
    MessageType.decode_rearranged .valueInfo (valueInfo_rearranged 98)⟩

end DetectorHeader.Onnx
