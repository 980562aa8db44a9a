/-
The grammar of messages, said without a reader.

A message is a run of records (`Records`), each a key and a payload. What a
payload can be is up to the field's declaration in the schema of the message
(`Payload`), or, for a field without one, to its wire type alone
(`Undeclared`). Payloads with a length in front are cut out before anything in
them is looked at, so a record that runs past the end of the message around it
has no place here.

The budget counts how much deeper messages and groups may be nested. A message
within a message and the contents of a group have one less, and a record that
is not declared, a group or not, can only stand where some is left.
-/
import DetectorHeader.Protobuf.Record

namespace DetectorHeader.Protobuf

-- ================================================================= numbers

/-- The number that bytes spell with seven bits each, the least significant
first. -/
def base128 : Bytes → Nat
  | [] => 0
  | b :: bs => b.toNat % 128 + 128 * base128 bs

/-- The bytes spell a number: every byte but the last has its high bit set,
there are at most `room`, and the one that fills the room has a single bit. -/
def VarintIn (room : Nat) (x : Bytes) (n : Nat) : Prop :=
  ∃ init last, x = init ++ [last] ∧ (∀ b ∈ init, 0x80 ≤ b) ∧ last < 0x80
    ∧ x.length ≤ room ∧ (x.length = room → last ≤ 1) ∧ n = base128 x

/-- The bytes are a varint, of at most ten bytes, for the number. -/
abbrev Varint : Bytes → Nat → Prop := VarintIn 10

/-- The bytes are a key: a varint of 32 bits, with the field number above the
three bits for the wire type. -/
def KeyOf (x : Bytes) (k : Key) : Prop :=
  ∃ n, Varint x n ∧ n < 0x100000000 ∧ 0 < k.field
    ∧ n = k.field * 8 + k.wire.code

theorem VarintIn.ne_nil {room : Nat} {x : Bytes} {n : Nat}
    (h : VarintIn room x n) : x ≠ [] := by
  obtain ⟨init, last, rfl, -⟩ := h
  exact List.append_ne_nil_of_right_ne_nil init (List.cons_ne_nil last [])

theorem KeyOf.ne_nil {x : Bytes} {k : Key} (h : KeyOf x k) : x ≠ [] := by
  obtain ⟨n, hvarint, -⟩ := h
  exact hvarint.ne_nil

/-- The bytes are a payload with its length in front. -/
def Sized (payload x : Bytes) : Prop :=
  ∃ length, Varint length payload.length ∧ x = length ++ payload

/-- The bytes are one number of the given wire type. -/
def Number : WireType → Bytes → Prop
  | .varint, x => ∃ n, Varint x n
  | .fixed32, x => x.length = 4
  | .fixed64, x => x.length = 8
  | .delimited, _ | .startGroup, _ | .endGroup, _ => False

theorem Number.ne_nil {wire : WireType} {x : Bytes} (h : Number wire x) :
    x ≠ [] := by
  intro hnil
  subst hnil
  cases wire with
  | varint =>
      obtain ⟨n, hn⟩ := h
      exact hn.ne_nil rfl
  | fixed32 | fixed64 | delimited | startGroup | endGroup => cases h

-- ======================================================= undeclared fields

mutual

/-- The payload of a record of a field that is not declared. -/
inductive Undeclared : (budget : Nat) → Key → Bytes → Prop
  | number {budget field wire x} (h : Number wire x) :
      Undeclared (budget + 1) ⟨field, wire⟩ x
  | delimited {budget field x payload} (h : Sized payload x) :
      Undeclared (budget + 1) ⟨field, .delimited⟩ x
  | group {budget field x} (h : GroupRest budget field x) :
      Undeclared (budget + 1) ⟨field, .startGroup⟩ x

/-- What follows the key that starts a group: records of any field numbers,
and the key that ends the group, with the group's own. -/
inductive GroupRest : (budget field : Nat) → Bytes → Prop
  | close {budget field x} (h : KeyOf x ⟨field, .endGroup⟩) :
      GroupRest budget field x
  | record {budget field x k y z} (hkey : KeyOf x k)
      (hpayload : Undeclared budget k y) (hrest : GroupRest budget field z) :
      GroupRest budget field (x ++ (y ++ z))

end

-- ========================================================= declared fields

/-- The kinds of fields, over the message types `T`. -/
inductive FieldKind (T : Type)
  /-- A number in a varint. -/
  | varint
  | text
  | bytes
  /-- A repeated number, each of the wire type given. -/
  | numbers (wire : WireType)
  | message (type : T)
  deriving DecidableEq

/-- The declarations of the fields of message types, by field number. -/
abbrev Schema (T : Type) := T → Nat → Option (FieldKind T)

mutual

/-- The payload of a record of a message of the given type. -/
inductive Payload {T : Type} (schema : Schema T) :
    (budget : Nat) → T → Key → Bytes → Prop
  | varint {budget t field x} (hfield : schema t field = some .varint)
      (h : Number .varint x) : Payload schema budget t ⟨field, .varint⟩ x
  | text {budget t field x} {text : String}
      (hfield : schema t field = some .text)
      (h : Sized (Utf8.encode text) x) :
      Payload schema budget t ⟨field, .delimited⟩ x
  | bytes {budget t field x payload} (hfield : schema t field = some .bytes)
      (h : Sized payload x) : Payload schema budget t ⟨field, .delimited⟩ x
  /-- One element of a repeated number. -/
  | element {budget t field wire x}
      (hfield : schema t field = some (.numbers wire)) (h : Number wire x) :
      Payload schema budget t ⟨field, wire⟩ x
  /-- Any number of elements, packed. -/
  | packed {budget t field wire x} {elements : List Bytes}
      (hfield : schema t field = some (.numbers wire))
      (helements : ∀ y ∈ elements, Number wire y)
      (h : Sized elements.flatten x) :
      Payload schema budget t ⟨field, .delimited⟩ x
  | message {budget t field type x payload}
      (hfield : schema t field = some (.message type))
      (hrecords : Records schema budget type payload)
      (h : Sized payload x) :
      Payload schema (budget + 1) t ⟨field, .delimited⟩ x
  | undeclared {budget t k x} (hfield : schema t k.field = none)
      (h : Undeclared budget k x) : Payload schema budget t k x

/-- The bytes are a run of complete records of a message of the given type. -/
inductive Records {T : Type} (schema : Schema T) :
    (budget : Nat) → T → Bytes → Prop
  | nil {budget t} : Records schema budget t []
  | cons {budget t x k y z} (hkey : KeyOf x k)
      (hpayload : Payload schema budget t k y)
      (hrest : Records schema budget t z) :
      Records schema budget t (x ++ (y ++ z))

end

end DetectorHeader.Protobuf
