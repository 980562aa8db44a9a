/-
Records: a message is a run of them, each a key, which is a field number and
a wire type, and a payload. What a record contributes to a message is a
message itself, with that one field set, and a message is its records'
contributions merged in order (`assemble`). So the bytes of two messages
written one after the other are read as the merge of the two.
-/
import DetectorHeader.Protobuf.Reader

namespace DetectorHeader.Protobuf

-- ============================================================== merging

/-- Messages: there is one with nothing set, and two can be merged, the
fields of the second after or over those of the first. -/
class Message (M : Type) where
  empty : M
  merge : M → M → M

/-- The merge of messages, in order. -/
def assemble {M : Type} [Message M] (parts : List M) : M :=
  parts.foldr Message.merge Message.empty

-- ================================================================= keys

/-- What stands before the payload of a record. -/
structure Key where
  field : Nat
  wire : WireType
  deriving DecidableEq

namespace Reader

/-- A key: a varint of 32 bits, the wire type in the lower three. -/
def key : Reader Key := do
  let value ← varint
  if 0x100000000 ≤ value then fail (.keyValue value)
  match WireType.ofCode? (value % 8) with
  | none => fail (.wireTypeCode (value % 8))
  | some wire =>
      if value / 8 = 0 then fail .fieldNumber
      pure ⟨value / 8, wire⟩

-- ======================================================= unknown fields

/-- The records of a group up to the end of the group, with `skip` to skip
one of them after its key. -/
def skipGroup (skip : Key → Reader Unit) (field : Nat) : Reader Unit :=
  fun input =>
    match key input with
    | .error fault => .error fault
    | .ok (k, rest) =>
      if k.wire = .endGroup then
        if k.field = field then .ok ((), rest) else fail .endOfGroup rest
      else
        match skip k rest with
        | .error fault => .error fault
        | .ok (_, rest) =>
          if _progress : rest.left < input.left then skipGroup skip field rest
          else fail .endOfGroup rest
termination_by input => input.left

/-- Skips the payload of a field that is not known. `budget` is how much
deeper groups may be nested. -/
def skip : (budget : Nat) → Key → Reader Unit
  | 0, _ => fail .recursionLimit
  | budget + 1, k =>
      match k.wire with
      | .varint => do let _ ← varint
      | .fixed64 => do let _ ← take 8
      | .fixed32 => do let _ ← take 4
      | .delimited => do let _ ← blob
      | .startGroup => skipGroup (skip budget) k.field
      | .endGroup => fail .endOfGroup

-- ========================================================= known fields

/-- The payload of a record, if it has the wire type that it should have. -/
def expecting {α : Type} (wire : WireType) (payload : Reader α) (k : Key) :
    Reader α :=
  if k.wire = wire then payload else fail (.wireType k.wire wire)

/-- The elements in one record of a repeated number: one of them, or a
length and any number of them. -/
def elements {α : Type} (wire : WireType) (element : Reader α) (k : Key) :
    Reader (List α) :=
  if k.wire = .delimited then delimited element
  else expecting wire (do return [← element]) k

/-- A record of a message: its key, and `field` for what follows. -/
def record {M : Type} (field : Nat → Key → Reader M) (budget : Nat) :
    Reader M := do
  field budget (← key)

/-- A message as the payload of a record. `budget` is how much deeper
messages and groups may be nested. -/
def submessage {M : Type} [Message M] (field : Nat → Key → Reader M)
    (budget : Nat) : Key → Reader M :=
  expecting .delimited do
    if budget = 0 then fail .recursionLimit
    assemble <$> delimited (record field (budget - 1))

end Reader

/-- How deeply messages and groups may be nested. -/
def recursionBudget : Nat := 100

/-- Reads a whole byte string as a message. -/
def decode {M : Type} [Message M] (field : Nat → Key → Reader M)
    (bytes : Bytes) : Except Fault M :=
  match Reader.repeatTo (Reader.record field recursionBudget) 0 []
      (.ofBytes bytes) with
  | .error fault => .error fault
  | .ok (parts, _) => .ok (assemble parts.reverse)

end DetectorHeader.Protobuf
