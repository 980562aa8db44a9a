/-
The order of records, and records that are not declared.

`Rearranged` relates the bytes of a message to others with the same meaning:
the records that its type does not declare are dropped, messages within are
rearranged in turn, and the rest is put into any order that keeps that of
records of one place. The place of a record is its field, but for fields that
exclude each other, which share one.

A message is known by its parts (`Parted`), one for each place, and what a
record gives lies in the part of its own place. So a part of the message is
assembled from the records of one place, and these are the same, in the same
order, on both sides (`assemble_eq_of_places`). The induction is on how deeply
messages may be nested, over all types at once (`rearranged_assembled`).
-/
import DetectorHeader.Proofs.Protobuf.Assembly

namespace DetectorHeader.Protobuf

-- ================================================================== records

/-- A record of a message: its key, and all of its bytes. -/
structure Record where
  key : Key
  bytes : Bytes

/-- The bytes of records, one after the other. -/
def written (records : List Record) : Bytes := records.flatMap Record.bytes

section

variable {T : Type} (schema : Schema T) (place : T → Nat → Nat)

/-- The bytes are a complete record with this key, as a message of the given
type may have it. -/
def Record.IsOf (budget : Nat) (t : T) (r : Record) : Prop :=
  ∃ y z, r.bytes = y ++ z ∧ KeyOf y r.key ∧ Payload schema budget t r.key z

/-- The bytes of records of a message are those of a message. -/
theorem records_written {budget : Nat} {t : T} {records : List Record}
    (h : ∀ r ∈ records, r.IsOf schema budget t) :
    Records schema budget t (written records) := by
  induction records with
  | nil => exact .nil
  | cons r records ih =>
      obtain ⟨⟨y, z, hbytes, hkey, hpayload⟩, hrest⟩ :=
        List.forall_mem_cons.mp h
      unfold written
      rw [List.flatMap_cons, hbytes, List.append_assoc]
      exact .cons hkey hpayload (ih hrest)

/-- The type has a declaration for the field of the record. -/
def Record.isDeclared (t : T) (r : Record) : Bool :=
  (schema t r.key.field).isSome

/-- The records of one place, in order. -/
def ofPlace (t : T) (p : Nat) (records : List Record) : List Record :=
  records.filter fun r => place t r.key.field = p

/-- Two records that are the same, or both hold a message, one `inside` the
other. Neither keys nor lengths need be spelled alike. -/
inductive Alike (inside : T → Bytes → Bytes → Prop) (t : T) :
    Record → Record → Prop
  | same (r : Record) : Alike inside t r r
  | within {n : Nat} {type : T} {x x' payload payload' y y' : Bytes}
      (hfield : schema t n = some (.message type))
      (hkey : KeyOf x ⟨n, .delimited⟩) (hkey' : KeyOf x' ⟨n, .delimited⟩)
      (hsized : Sized payload y) (hsized' : Sized payload' y')
      (h : inside type payload payload') :
      Alike inside t ⟨⟨n, .delimited⟩, x ++ y⟩ ⟨⟨n, .delimited⟩, x' ++ y'⟩

/-- The records of `x` that are not declared are dropped, what is in the
others may be changed by `inside`, and these are put into an order that keeps
the one within each place. -/
def RearrangedBy (inside : T → Bytes → Bytes → Prop) (budget : Nat) (t : T)
    (x x' : Bytes) : Prop :=
  ∃ records kept records' : List Record,
    (∀ r ∈ records, r.IsOf schema budget t) ∧ x = written records
      ∧ List.Forall₂ (Alike schema inside t)
          (records.filter (·.isDeclared schema t)) kept
      ∧ records'.Perm kept
      ∧ (∀ p, ofPlace place t p records' = ofPlace place t p kept)
      ∧ x' = written records'

/-- The bytes are rearranged, and so may be the messages in them, as deep as
they are nested. -/
def Rearranged : (budget : Nat) → T → Bytes → Bytes → Prop
  | 0 => RearrangedBy schema place (fun _ _ _ => False) 0
  | budget + 1 =>
      RearrangedBy schema place (Rearranged budget) (budget + 1)

end

-- ==================================================================== parts

/-- Messages that are known by their parts: `only p m` has of `m` what
belongs to the place `p`. -/
class Parted (M : Type) [Message M] where
  only : Nat → M → M
  only_empty : ∀ p, only p Message.empty = Message.empty
  only_merge : ∀ p a b,
    only p (Message.merge a b) = Message.merge (only p a) (only p b)
  /-- Parts do not overlap. -/
  only_only : ∀ {p q} a, p ≠ q → only q (only p a) = Message.empty
  eq_of_only : ∀ a b, (∀ p, only p a = only p b) → a = b

open Parted

section

variable {M α : Type} [Message M] [LawfulMessage M] {f : α → M}

omit [LawfulMessage M] in
/-- One place of a message is assembled from that place of its parts. -/
theorem only_assemble [Parted M] (p : Nat) (parts : List M) :
    only p (assemble parts) = assemble (parts.map (only p)) := by
  induction parts with
  | nil => exact only_empty p
  | cons a parts ih =>
      show only p (Message.merge a (assemble parts)) = _
      rw [only_merge, ih]
      rfl

/-- What gives nothing can be left out. -/
theorem assemble_filter {l : List α} {p : α → Bool}
    (h : ∀ a ∈ l, p a = false → f a = Message.empty) :
    assemble (l.map f) = assemble ((l.filter p).map f) := by
  induction l with
  | nil => rfl
  | cons a l ih =>
      obtain ⟨ha, hl⟩ := List.forall_mem_cons.mp h
      rw [List.map_cons, List.filter_cons]
      show Message.merge (f a) (assemble (l.map f)) = _
      rw [ih hl]
      cases hp : p a with
      | true => rfl
      | false =>
          rw [ha hp, LawfulMessage.empty_merge]
          rfl

/-- Where everything gives to its own place alone, only the order within each
place counts. -/
theorem assemble_eq_of_places [Parted M] {l l' : List α} {at' : α → Nat}
    (hpart : ∀ a ∈ l ++ l', only (at' a) (f a) = f a)
    (h : ∀ p, l.filter (fun a => at' a = p) = l'.filter fun a => at' a = p) :
    assemble (l.map f) = assemble (l'.map f) := by
  refine eq_of_only _ _ fun p => ?_
  have hside : ∀ side : List α, (∀ a ∈ side, a ∈ l ++ l') →
      only p (assemble (side.map f))
        = assemble ((side.filter fun a => at' a = p).map
            fun a => only p (f a)) := by
    intro side hside
    rw [only_assemble, List.map_map]
    refine assemble_filter fun a ha hp => ?_
    show only p (f a) = _
    rw [← hpart a (hside a ha)]
    exact only_only _ (of_decide_eq_false hp)
  rw [hside l fun a ha => List.mem_append_left l' ha,
    hside l' fun a ha => List.mem_append_right l ha, h p]

end

-- ============================================================ contributions

section

variable {M : Type} {field : Nat → Key → Reader M} {budget : Nat}
  {r : Record} {a : M}

/-- What a record, which has its key in front, gives to the message. -/
def Record.Gives (field : Nat → Key → Reader M) (budget : Nat) (r : Record)
    (a : M) : Prop :=
  ∃ y z, r.bytes = y ++ z ∧ KeyOf y r.key ∧ Taken (field budget r.key) z a

theorem Record.Gives.taken (h : r.Gives field budget a) :
    Taken (Reader.record field budget) r.bytes a := by
  obtain ⟨y, z, hbytes, hkey, htaken⟩ := h
  unfold Taken Reader.record
  rw [hbytes, bind_of_eq_ok (key_parses.takes hkey z)]
  exact htaken

variable [Message M]

/-- What the record gives, or nothing if it cannot be read. -/
def Record.value (field : Nat → Key → Reader M) (budget : Nat) (r : Record) :
    M :=
  match Reader.record field budget (.ofBytes r.bytes) with
  | .ok (a, _) => a
  | .error _ => Message.empty

theorem Record.Gives.value_eq (h : r.Gives field budget a) :
    r.value field budget = a := by
  unfold Record.value
  rw [show Reader.record field budget (.ofBytes r.bytes) = _ from h.taken]

/-- Records that can be read are assembled to a message. -/
theorem assembled_written {records : List Record}
    (h : ∀ r ∈ records, ∃ a, r.Gives field budget a) :
    Assembled field budget (written records)
      (assemble (records.map (Record.value field budget))) := by
  refine ⟨records.map Record.bytes, _, ?_, List.flatMap_def, rfl⟩
  rw [List.forall₂_map_left_iff, List.forall₂_map_right_iff,
    List.forall₂_same]
  intro r hr
  obtain ⟨a, ha⟩ := h r hr
  rw [ha.value_eq]
  exact ha.taken

variable [LawfulMessage M] {b : M}

/-- Records behind others are merged behind what these give. -/
theorem assembled_append {x y : Bytes} (hx : Assembled field budget x a)
    (hy : Assembled field budget y b) :
    Assembled field budget (x ++ y) (Message.merge a b) := by
  obtain ⟨pieces, parts, hpieces, rfl, rfl⟩ := hx
  obtain ⟨pieces', parts', hpieces', rfl, rfl⟩ := hy
  exact ⟨pieces ++ pieces', parts ++ parts',
    List.rel_append hpieces hpieces', List.flatten_append.symm,
    (assemble_append parts parts').symm⟩

theorem assembled_cons {records : List Record} (hr : r.Gives field budget a)
    (hrest : Assembled field budget (written records) b) :
    Assembled field budget (written (r :: records)) (Message.merge a b) := by
  have hfirst : Assembled field budget r.bytes a :=
    ⟨[r.bytes], [a], .cons hr.taken .nil, List.flatten_singleton.symm,
      (assemble_singleton a).symm⟩
  exact assembled_append hfirst hrest

end

-- =================================================================== tables

variable {T : Type} {Value : T → Type} [∀ t, Message (Value t)]
  [∀ t, Parted (Value t)]

/-- What a record of a field can give: nothing, if the field is not declared,
or else what belongs to its place. -/
def LiesIn (schema : Schema T) (place : T → Nat → Nat) (t : T) (n : Nat)
    (a : Value t) : Prop :=
  match schema t n with
  | none => a = Message.empty
  | some _ => only (place t n) a = a

/-- The tables of a family of message types, as far as the meaning of their
records goes: they follow the declarations, a record gives to its own place,
and a message within is read by the table of its type. -/
structure Tables (schema : Schema T) (place : T → Nat → Nat)
    (field : (t : T) → Nat → Key → Reader (Value t)) : Prop where
  accepts : ∀ t budget k,
    Accepts (field t budget k) (Payload schema budget t k)
  liesIn : ∀ {t budget k x a}, Taken (field t budget k) x a →
    LiesIn schema place t k.field a
  message : ∀ {t n type}, schema t n = some (.message type) →
    ∃ name, ∃ mk : Value type → Value t, ∀ budget,
      field t budget ⟨n, .delimited⟩ = Reader.within name do
        return mk (← Reader.submessage (field type) budget ⟨n, .delimited⟩)

/-! The rows of a table. -/

section

variable {M α : Type} [Message M] [Parted M] {x : Bytes} {a : M} {p : Nat}

/-- A row that makes a message out of one value. -/
theorem only_of_taken {f : α → M} {reader : Reader α} {name : FieldName}
    (h : Taken (Reader.within name do return f (← reader)) x a)
    (hf : ∀ v, only p (f v) = f v) : only p a = a := by
  obtain ⟨v, rfl, -⟩ := taken_within_iff.mp h
  exact hf v

omit [Parted M] in
/-- The row for all fields that are not declared. -/
theorem eq_empty_of_skipped {budget : Nat} {k : Key}
    (h : Taken (do
      Reader.skip budget k
      return (Message.empty : M)) x a) : a = Message.empty := by
  obtain ⟨_, rest, -, hreturn⟩ := bind_eq_ok_iff.mp h
  cases hreturn
  rfl

end

namespace Tables

variable {schema : Schema T} {place : T → Nat → Nat}
  {field : (t : T) → Nat → Key → Reader (Value t)} {budget : Nat} {t : T}
  {inside : T → Bytes → Bytes → Prop}

/-- A record that the grammar allows is one that can be read on its own. -/
theorem isOf_iff_gives (h : Tables schema place field) {r : Record} :
    r.IsOf schema budget t ↔ ∃ a, r.Gives (field t) budget a := by
  obtain ⟨-, hiff⟩ := (h.accepts t budget r.key).parses
  constructor
  · rintro ⟨y, z, hbytes, hkey, hpayload⟩
    obtain ⟨a, ha⟩ := (hiff z).mp hpayload
    exact ⟨a, y, z, hbytes, hkey, ha⟩
  · rintro ⟨a, y, z, hbytes, hkey, htaken⟩
    exact ⟨y, z, hbytes, hkey, (hiff z).mpr ⟨a, htaken⟩⟩

/-- Records that are alike give the same, if this holds of the messages in
them. -/
theorem gives_of_alike (h : Tables schema place field)
    (hinside : ∀ type x x', inside type x x' → ∃ below m,
      budget = below + 1 ∧ Assembled (field type) below x m
        ∧ Assembled (field type) below x' m)
    {r r' : Record} (hr : ∃ a, r.Gives (field t) budget a)
    (halike : Alike schema inside t r r') :
    ∃ a, r.Gives (field t) budget a ∧ r'.Gives (field t) budget a := by
  cases halike with
  | same =>
      obtain ⟨a, ha⟩ := hr
      exact ⟨a, ha, ha⟩
  | @within n type x x' _ _ y y' hfield hkey hkey' hsized hsized' hrearranged =>
      obtain ⟨below, m, rfl, hm, hm'⟩ := hinside _ _ _ hrearranged
      obtain ⟨name, mk, htable⟩ := h.message hfield
      have hgives : ∀ {x y payload}, KeyOf x ⟨n, .delimited⟩ →
          Sized payload y → Assembled (field type) below payload m →
          Record.Gives (field t) (below + 1) ⟨⟨n, .delimited⟩, x ++ y⟩
            (mk m) := by
        intro x y payload hkey hsized hm
        refine ⟨x, y, rfl, hkey, ?_⟩
        rw [htable]
        exact taken_within_iff.mpr
          ⟨m, rfl, submessage_taken (h.accepts type below) hsized hm⟩
      exact ⟨mk m, hgives hkey hsized hm, hgives hkey' hsized' hm'⟩

/-- Records that are alike one by one give the same one by one. -/
theorem values_of_alike (h : Tables schema place field)
    (hinside : ∀ type x x', inside type x x' → ∃ below m,
      budget = below + 1 ∧ Assembled (field type) below x m
        ∧ Assembled (field type) below x' m)
    {records kept : List Record}
    (hgives : ∀ r ∈ records, ∃ a, r.Gives (field t) budget a)
    (halike : List.Forall₂ (Alike schema inside t) records kept) :
    records.map (Record.value (field t) budget)
        = kept.map (Record.value (field t) budget)
      ∧ ∀ r ∈ kept, ∃ a, r.Gives (field t) budget a := by
  induction halike with
  | nil => exact ⟨rfl, hgives⟩
  | @cons r r' records kept hr _ ih =>
      obtain ⟨hfirst, hrest⟩ := List.forall_mem_cons.mp hgives
      obtain ⟨a, ha, ha'⟩ := h.gives_of_alike hinside hfirst hr
      obtain ⟨hvalues, hkept⟩ := ih hrest
      refine ⟨?_, List.forall_mem_cons.mpr ⟨⟨a, ha'⟩, hkept⟩⟩
      rw [List.map_cons, List.map_cons, ha.value_eq, ha'.value_eq, hvalues]

/-- A record gives something in the place of its field only. -/
theorem value_liesIn (h : Tables schema place field) {r : Record}
    (hr : ∃ a, r.Gives (field t) budget a) :
    LiesIn schema place t r.key.field (r.value (field t) budget) := by
  obtain ⟨a, ha⟩ := hr
  rw [ha.value_eq]
  obtain ⟨y, z, -, -, htaken⟩ := ha
  exact h.liesIn htaken

/-- One that is not declared gives nothing. -/
theorem value_of_undeclared (h : Tables schema place field) {r : Record}
    (hr : ∃ a, r.Gives (field t) budget a)
    (hundeclared : r.isDeclared schema t = false) :
    r.value (field t) budget = Message.empty := by
  have hliesIn := h.value_liesIn hr
  have hnone : schema t r.key.field = none :=
    Option.not_isSome_iff_eq_none.mp (ne_true_of_eq_false hundeclared)
  unfold LiesIn at hliesIn
  rwa [hnone] at hliesIn

theorem only_value (h : Tables schema place field) {r : Record}
    (hr : ∃ a, r.Gives (field t) budget a) :
    only (place t r.key.field) (r.value (field t) budget)
      = r.value (field t) budget := by
  have hliesIn := h.value_liesIn hr
  unfold LiesIn at hliesIn
  split at hliesIn
  case h_1 => rw [hliesIn, only_empty]
  case h_2 => exact hliesIn

variable [∀ t, LawfulMessage (Value t)]

/-- Both sides of a rearrangement are assembled to one message, if this holds
of the messages within. -/
theorem rearrangedBy_assembled (h : Tables schema place field)
    (hinside : ∀ type x x', inside type x x' → ∃ below m,
      budget = below + 1 ∧ Assembled (field type) below x m
        ∧ Assembled (field type) below x' m)
    {x x' : Bytes}
    (hrearranged : RearrangedBy schema place inside budget t x x') :
    ∃ m, Assembled (field t) budget x m ∧ Assembled (field t) budget x' m := by
  obtain ⟨records, kept, records', hrecords, rfl, hkept, hperm, horder, rfl⟩ :=
    hrearranged
  have hgives : ∀ r ∈ records, ∃ a, r.Gives (field t) budget a :=
    fun r hr => h.isOf_iff_gives.mp (hrecords r hr)
  obtain ⟨hvalues, hkeptGives⟩ := h.values_of_alike hinside
    (fun r hr => hgives r (List.mem_of_mem_filter hr)) hkept
  have hgives' : ∀ r ∈ records', ∃ a, r.Gives (field t) budget a :=
    fun r hr => hkeptGives r (hperm.mem_iff.mp hr)
  have hpart : ∀ r ∈ kept ++ records', only (place t r.key.field)
      (r.value (field t) budget) = r.value (field t) budget := by
    intro r hr
    rcases List.mem_append.mp hr with hr | hr
    · exact h.only_value (hkeptGives r hr)
    · exact h.only_value (hgives' r hr)
  -- Every record gives something in its own place only, so it is enough that
  -- the order within each place is kept.
  have hvalue := calc
    assemble (records.map (Record.value (field t) budget))
      = assemble ((records.filter (·.isDeclared schema t)).map
          (Record.value (field t) budget)) :=
        assemble_filter fun r hr => h.value_of_undeclared (hgives r hr)
    _ = assemble (kept.map (Record.value (field t) budget)) := by rw [hvalues]
    _ = assemble (records'.map (Record.value (field t) budget)) :=
        assemble_eq_of_places hpart fun p => (horder p).symm
  refine ⟨_, assembled_written hgives, ?_⟩
  rw [hvalue]
  exact assembled_written hgives'

/-- Rearranged bytes are read as the same message. The induction is on how
deeply messages may be nested, for all types at once. -/
theorem rearranged_assembled (h : Tables schema place field) :
    ∀ budget t x x', Rearranged schema place budget t x x' →
      ∃ m, Assembled (field t) budget x m
        ∧ Assembled (field t) budget x' m := by
  intro budget
  induction budget with
  | zero =>
      intro t x x' hrearranged
      exact h.rearrangedBy_assembled (fun _ _ _ hno => hno.elim) hrearranged
  | succ below ih =>
      intro t x x' hrearranged
      refine h.rearrangedBy_assembled (fun type x x' hinside => ?_) hrearranged
      obtain ⟨m, hm, hm'⟩ := ih type x x' hinside
      exact ⟨below, m, rfl, hm, hm'⟩

end Tables

end DetectorHeader.Protobuf
