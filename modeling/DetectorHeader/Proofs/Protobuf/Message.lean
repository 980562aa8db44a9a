/-
Messages and the bytes that spell them. `Spells field budget x m` says that
`x` is a run of records whose contributions are assembled to `m`; `field` is
the table of the message. Runs one after the other spell the merge of what
they spell (`Spells.append`), as merging is associative and an empty message
changes nothing (`LawfulMessage`), so a message is spelled by the spellings of
its fields, one at a time.

The lemmas for fields ask what the table has for a field number; for a given
table and number that is so by definition.
-/
import DetectorHeader.Protobuf.Record
import DetectorHeader.Proofs.Protobuf.Takes

namespace DetectorHeader.Protobuf

open Message

-- ================================================================== keys

/-- The numbers that fields can have. -/
def FieldNumber (n : Nat) : Prop := 0 < n ∧ n < 0x20000000

instance (n : Nat) : Decidable (FieldNumber n) :=
  inferInstanceAs (Decidable (0 < n ∧ n < 0x20000000))

theorem WireType.code_lt (wire : WireType) : wire.code < 8 := by
  cases wire <;> decide

theorem key_takes {n : Nat} (hn : FieldNumber n) (wire : WireType) :
    Takes Reader.key (Writer.key n wire) ⟨n, wire⟩ := by
  obtain ⟨hmin, hmax⟩ := hn
  have hcode := wire.code_lt
  have hvalue : n * 8 + wire.code < 0x10000000000000000 := by omega
  have hsmall : ¬ 0x100000000 ≤ n * 8 + wire.code := by omega
  have hwire : (n * 8 + wire.code) % 8 = wire.code := by omega
  have hfield : (n * 8 + wire.code) / 8 = n := by omega
  unfold Reader.key Writer.key
  rw [← List.append_nil (Writer.varint _)]
  refine (varint_takes hvalue).bind ?_
  rw [if_neg hsmall]
  simp only [hwire, WireType.ofCode?_code, hfield, if_neg (Nat.ne_of_gt hmin)]
  exact Takes.pure _

-- ============================================================== messages

variable {M : Type} [Message M]

/-- The bytes are a run of records, from which the message is assembled. -/
def Spells (field : Nat → Key → Reader M) (budget : Nat) (x : Bytes)
    (m : M) : Prop :=
  ∃ pieces parts, Pieces (Reader.record field budget) pieces parts
    ∧ x = pieces.flatten ∧ m = assemble parts

/-- Bytes that spell a message are read as that message. -/
theorem decode_of_spells {field : Nat → Key → Reader M} {x : Bytes} {m : M}
    (h : Spells field recursionBudget x m) (hshort : Short x) :
    decode field x = .ok m := by
  obtain ⟨pieces, parts, hpieces, rfl, rfl⟩ := h
  have hrun := repeatTo_pieces hpieces hshort [] []
  rw [List.append_nil, List.append_nil] at hrun
  unfold decode
  rw [show (0 : Nat) = ([] : Bytes).length from rfl, hrun]
  dsimp only
  rw [List.reverse_reverse]

/-- The empty message is spelled by no bytes at all. -/
theorem Spells.empty {field : Nat → Key → Reader M} {budget : Nat} :
    Spells field budget [] (Message.empty : M) :=
  ⟨[], [], .nil, rfl, rfl⟩

/-- An optional field that is absent is spelled by nothing. -/
theorem Spells.optional {α : Type} {field : Nat → Key → Reader M}
    {budget : Nat} {record : α → Bytes} (mk : Option α → M)
    (hnone : mk none = Message.empty)
    (h : ∀ a, Spells field budget (record a) (mk (some a)))
    (value : Option α) :
    Spells field budget (Writer.optional record value) (mk value) := by
  cases value with
  | none =>
      rw [hnone]
      exact Spells.empty
  | some a => exact h a

-- ================================================================ merging

/-- Messages are merged in any grouping, and an empty one changes nothing. -/
class LawfulMessage (M : Type) [Message M] : Prop where
  merge_assoc : ∀ a b c : M, merge (merge a b) c = merge a (merge b c)
  empty_merge : ∀ a : M, merge empty a = a
  merge_empty : ∀ a : M, merge a empty = a

open LawfulMessage

variable [LawfulMessage M]

/-- Parts can be assembled in groups. -/
theorem assemble_append (parts parts' : List M) :
    assemble (parts ++ parts')
      = merge (assemble parts) (assemble parts') := by
  induction parts with
  | nil => exact (empty_merge _).symm
  | cons a parts ih =>
      show merge a (assemble (parts ++ parts')) = _
      rw [ih, ← merge_assoc]
      rfl

theorem assemble_singleton (a : M) : assemble [a] = a := merge_empty a

namespace Spells

variable {α : Type} {field : Nat → Key → Reader M} {budget n : Nat}
  {x y : Bytes} {m m' : M}

/-- What two runs of records spell is merged. -/
theorem append (hx : Spells field budget x m)
    (hy : Spells field budget y m') :
    Spells field budget (x ++ y) (merge m m') := by
  obtain ⟨pieces, parts, hpieces, rfl, rfl⟩ := hx
  obtain ⟨pieces', parts', hpieces', rfl, rfl⟩ := hy
  exact ⟨pieces ++ pieces', parts ++ parts',
    List.rel_append hpieces hpieces', List.flatten_append.symm,
    (assemble_append _ _).symm⟩

/-- One record, by its key and what the table takes for its payload. -/
theorem record {wire : WireType} (hn : FieldNumber n)
    (h : Takes (field budget ⟨n, wire⟩) x m) :
    Spells field budget (Writer.key n wire ++ x) m := by
  refine ⟨[Writer.key n wire ++ x], [m], .cons ⟨?_, ?_⟩ .nil, ?_,
    (assemble_singleton m).symm⟩
  · exact List.append_ne_nil_of_left_ne_nil (varint_ne_nil _) _
  · exact (key_takes hn wire).bind h
  · rw [List.flatten_singleton]

/-- A repeated field is spelled item by item. -/
theorem repeated {record : α → Bytes} (mk : List α → M)
    (hnil : mk [] = Message.empty)
    (hcons : ∀ a items, merge (mk [a]) (mk items) = mk (a :: items))
    (h : ∀ a, Spells field budget (record a) (mk [a])) (items : List α) :
    Spells field budget (Writer.repeated record items) (mk items) := by
  induction items with
  | nil =>
      rw [hnil]
      exact Spells.empty
  | cons a items ih =>
      rw [← hcons]
      exact (h a).append ih

end Spells

-- ================================================================ fields

/-! Fields by the ways in which they are written. `mk` makes the message that
has only the field. -/

section

variable (field : Nat → Key → Reader M) (budget n : Nat) {name : FieldName}

/-- A record of the wire type that the table has for its field. -/
theorem record_spells {α : Type} {wire : WireType} {payload : Reader α}
    {x : Bytes} {a : α} (mk : α → M) (hn : FieldNumber n)
    (hfield : field budget ⟨n, wire⟩ = Reader.within name do
      return mk (← Reader.expecting wire payload ⟨n, wire⟩))
    (h : Takes payload x a) :
    Spells field budget (Writer.key n wire ++ x) (mk a) := by
  refine Spells.record hn ?_
  rw [hfield, Reader.expecting, if_pos rfl]
  exact h.map.within name

/-- An optional number in a varint. -/
theorem optionalVarint_spells {α : Type} {write : α → Bytes}
    {payload : Reader α} (h : ∀ a, Takes payload (write a) a)
    (mk : Option α → M) (hn : FieldNumber n)
    (hfield : field budget ⟨n, .varint⟩ = Reader.within name do
      return mk (some (← Reader.expecting .varint payload ⟨n, .varint⟩)))
    (hnone : mk none = Message.empty) (value : Option α) :
    Spells field budget
      (Writer.optional (fun a => Writer.varintRecord n (write a)) value)
      (mk value) :=
  Spells.optional mk hnone (fun a => record_spells field budget n
    (fun a => mk (some a)) hn hfield (h a)) value

theorem text_spells (mk : String → M) (hn : FieldNumber n)
    (hfield : field budget ⟨n, .delimited⟩ = Reader.within name do
      return mk (← Reader.expecting .delimited Reader.text ⟨n, .delimited⟩))
    (text : String) :
    Spells field budget (Writer.textRecord n text) (mk text) := by
  unfold Writer.textRecord Writer.blobRecord
  rw [List.append_assoc]
  exact record_spells field budget n mk hn hfield (text_takes text)

theorem optionalText_spells (mk : Option String → M) (hn : FieldNumber n)
    (hfield : field budget ⟨n, .delimited⟩ = Reader.within name do
      return mk (some
        (← Reader.expecting .delimited Reader.text ⟨n, .delimited⟩)))
    (hnone : mk none = Message.empty) (value : Option String) :
    Spells field budget (Writer.optional (Writer.textRecord n) value)
      (mk value) :=
  Spells.optional mk hnone
    (text_spells field budget n (fun text => mk (some text)) hn hfield) value

/-- An optional byte string. -/
theorem optionalBlob_spells (mk : Option Bytes → M) (hn : FieldNumber n)
    (hfield : field budget ⟨n, .delimited⟩ = Reader.within name do
      return mk (some
        (← Reader.expecting .delimited Reader.blob ⟨n, .delimited⟩)))
    (hnone : mk none = Message.empty) (value : Option Bytes) :
    Spells field budget (Writer.optional (Writer.blobRecord n) value)
      (mk value) := by
  refine Spells.optional mk hnone (fun x => ?_) value
  unfold Writer.blobRecord
  rw [List.append_assoc]
  exact record_spells field budget n (fun x => mk (some x)) hn hfield
    (blob_takes x)

/-- A message within the message. -/
theorem submessage_spells {N : Type} [Message N]
    {fieldOf : Nat → Key → Reader N} {x : Bytes} {inner : N} (mk : N → M)
    (hn : FieldNumber n)
    (hfield : field (budget + 1) ⟨n, .delimited⟩ = Reader.within name do
      return mk (← Reader.submessage fieldOf (budget + 1) ⟨n, .delimited⟩))
    (h : Spells fieldOf budget x inner) :
    Spells field (budget + 1) (Writer.blobRecord n x) (mk inner) := by
  obtain ⟨pieces, parts, hpieces, rfl, rfl⟩ := h
  unfold Writer.blobRecord
  rw [List.append_assoc]
  refine record_spells field (budget + 1) n mk hn hfield ?_
  rw [if_neg (Nat.succ_ne_zero budget), Nat.add_sub_cancel]
  exact (delimited_takes hpieces).map

theorem optionalSubmessage_spells {N : Type} [Message N]
    {fieldOf : Nat → Key → Reader N} {encode : N → Bytes}
    (h : ∀ a, Spells fieldOf budget (encode a) a) (mk : Option N → M)
    (hn : FieldNumber n)
    (hfield : field (budget + 1) ⟨n, .delimited⟩ = Reader.within name do
      return mk (some
        (← Reader.submessage fieldOf (budget + 1) ⟨n, .delimited⟩)))
    (hnone : mk none = Message.empty) (value : Option N) :
    Spells field (budget + 1)
      (Writer.optional (fun a => Writer.blobRecord n (encode a)) value)
      (mk value) :=
  Spells.optional mk hnone (fun a => submessage_spells field budget n
    (fun a => mk (some a)) hn hfield (h a)) value

theorem repeatedSubmessage_spells {N : Type} [Message N]
    {fieldOf : Nat → Key → Reader N} {encode : N → Bytes}
    (h : ∀ a, Spells fieldOf budget (encode a) a) (mk : List N → M)
    (hn : FieldNumber n)
    (hfield : field (budget + 1) ⟨n, .delimited⟩ = Reader.within name do
      return mk [← Reader.submessage fieldOf (budget + 1) ⟨n, .delimited⟩])
    (hnil : mk [] = Message.empty)
    (hcons : ∀ a items, merge (mk [a]) (mk items) = mk (a :: items))
    (items : List N) :
    Spells field (budget + 1)
      (Writer.repeated (fun a => Writer.blobRecord n (encode a)) items)
      (mk items) :=
  Spells.repeated mk hnil hcons (fun a => submessage_spells field budget n
    (fun a => mk [a]) hn hfield (h a)) items

theorem repeatedText_spells (mk : List String → M) (hn : FieldNumber n)
    (hfield : field budget ⟨n, .delimited⟩ = Reader.within name do
      return mk [← Reader.expecting .delimited Reader.text ⟨n, .delimited⟩])
    (hnil : mk [] = Message.empty)
    (hcons : ∀ a items, merge (mk [a]) (mk items) = mk (a :: items))
    (items : List String) :
    Spells field budget (Writer.repeated (Writer.textRecord n) items)
      (mk items) :=
  Spells.repeated mk hnil hcons
    (text_spells field budget n (fun text => mk [text]) hn hfield) items

/-- A repeated number in varints, each in a record of its own. -/
theorem repeatedVarint_spells {α : Type} {write : α → Bytes}
    {payload : Reader α} (h : ∀ a, Takes payload (write a) a)
    (mk : List α → M) (hn : FieldNumber n)
    (hfield : field budget ⟨n, .varint⟩ = Reader.within name do
      return mk (← Reader.elements .varint payload ⟨n, .varint⟩))
    (hnil : mk [] = Message.empty)
    (hcons : ∀ a items, merge (mk [a]) (mk items) = mk (a :: items))
    (items : List α) :
    Spells field budget
      (Writer.repeated (fun a => Writer.varintRecord n (write a)) items)
      (mk items) := by
  refine Spells.repeated mk hnil hcons (fun a => ?_) items
  refine Spells.record hn ?_
  rw [hfield, Reader.elements, if_neg (by simp), Reader.expecting,
    if_pos rfl]
  exact ((h a).map (f := fun a => [a])).map.within name

/-- A repeated number, all elements in one record. -/
theorem packed_spells {α : Type} {element : α → Bytes} {wire : WireType}
    {payload : Reader α}
    (h : ∀ a, Takes payload (element a) a) (hne : ∀ a, element a ≠ [])
    (mk : List α → M) (hn : FieldNumber n)
    (hfield : field budget ⟨n, .delimited⟩ = Reader.within name do
      return mk (← Reader.elements wire payload ⟨n, .delimited⟩))
    (hnil : mk [] = Message.empty) (items : List α) :
    Spells field budget (Writer.packed n element items) (mk items) := by
  unfold Writer.packed
  cases items with
  | nil =>
      rw [hnil]
      exact Spells.empty
  | cons a items =>
      have hpieces : Pieces payload ((a :: items).map element)
          (a :: items) := by
        unfold Pieces
        rw [List.forall₂_map_left_iff, List.forall₂_same]
        exact fun a _ => ⟨hne a, h a⟩
      rw [List.isEmpty_cons, if_neg Bool.false_ne_true, Writer.blobRecord,
        List.append_assoc, List.flatMap_def]
      refine Spells.record hn ?_
      rw [hfield, Reader.elements, if_pos rfl]
      exact (delimited_takes hpieces).map.within name

end

end DetectorHeader.Protobuf
