/-
Building a flat buffer, from its end to its front: what is referred to is
written first, and what refers to it in front of it. A reference is a distance
from the end of the buffer, which later writing does not change.

Everything is padded to its alignment, again counted from the end, and
`finish` pads the whole to the greatest alignment that was asked for; from
then on a distance from the end that is a multiple of an alignment is a
position that is one.
-/
import DetectorHeader.Bytes

namespace DetectorHeader.FlatBuffer

/-- A buffer under construction. -/
structure Builder where
  /-- What has been written; new bytes go in front. -/
  bytes : Bytes := []
  used : Nat := 0
  used_eq : used = bytes.length := by rfl
  /-- The greatest alignment asked for. -/
  alignment : Nat := 1
  /-- The vtables in the buffer, with their references. -/
  vtables : List (Bytes × Nat) := []

/-- A step of the construction. -/
abbrev Build := StateM Builder

/-- The distance of something from the end of the buffer. -/
abbrev Reference := Nat

namespace Build

/-- How many bytes have been written. -/
def used : Build Nat := do return (← get).used

/-- Writes bytes in front. -/
def prepend (bytes : Bytes) : Build Unit :=
  modify fun b => {
    b with
    bytes := bytes ++ b.bytes
    used := bytes.length + b.used
    used_eq := by simp [b.used_eq] }

/-- Zeros to put in front of `used` bytes so that with `ahead` more of them
the buffer is a multiple of `alignment` long. -/
def padding (used ahead alignment : Nat) : Nat :=
  (alignment - (used + ahead) % alignment) % alignment

/-- Pads so that after `ahead` more bytes the buffer is a multiple of
`alignment` long. -/
def align (ahead alignment : Nat) : Build Unit := do
  modify fun b => { b with alignment := max b.alignment alignment }
  prepend (List.replicate (padding (← used) ahead alignment) 0)

/-- Writes a number of `size` bytes at a multiple of its size. -/
def push (size value : Nat) : Build Reference := do
  align size size
  prepend (LittleEndian.encode size value)
  used

/-- Writes an offset to what is at `target`. -/
def pushOffset (target : Reference) : Build Reference := do
  align 4 4
  push 4 ((← used) + 4 - target)

-- ============================================================== vectors

/-- Writes a vector of numbers of `size` bytes. -/
def vector (size : Nat) (items : List Nat) : Build Reference := do
  align (items.length * size) (max size 4)
  prepend (items.flatMap (LittleEndian.encode size))
  push 4 items.length

/-- Writes a vector of offsets. -/
def vectorOf (targets : List Reference) : Build Reference := do
  align (targets.length * 4) 4
  targets.reverse.forM fun target => do
    let _ ← pushOffset target
  push 4 targets.length

/-- Writes a string, given in UTF-8, with a zero behind it. -/
def string (text : Bytes) : Build Reference := do
  align (text.length + 1) 4
  prepend (text ++ [0])
  push 4 text.length

-- =============================================================== tables

/-- What a field of a table holds. -/
inductive Cell
  | number (size value : Nat)
  | offset (target : Reference)

/-- A field of a table, in its slot. -/
structure Field where
  slot : Nat
  cell : Cell

/-- The field with a number, left out if it is 0. -/
def number? (slot size value : Nat) : List Field :=
  if value = 0 then [] else [⟨slot, .number size value⟩]

/-- The field with an offset, if there is something to refer to. -/
def offset? (slot : Nat) (target : Option Reference) : List Field :=
  match target with
  | none => []
  | some r => [⟨slot, .offset r⟩]

/-- Writes a field. -/
def Cell.push : Cell → Build Reference
  | number size value => Build.push size value
  | offset target => pushOffset target

/-- The vtable of a table at `table`, whose first field was written after
`start` bytes: its own length, that of the table, and for each slot up to the
last one in use the distance of the field from the table, or 0. -/
def vtable (fields : List (Nat × Reference)) (table start : Nat) : Bytes :=
  let length := fields.foldl (fun n f => max n (f.1 + 2)) 4
  let entry (i : Nat) : Nat :=
    match fields.lookup (4 + 2 * i) with
    | none => 0
    | some field => table - field
  LittleEndian.encode 2 length ++ LittleEndian.encode 2 (table - start)
    ++ (List.range ((length - 4) / 2)).flatMap fun i =>
      LittleEndian.encode 2 (entry i)

/-- Writes the offset by which a table at `table` refers to its vtable. The
vtable is behind the table or in front of it, so the offset is signed. -/
def pushVtableOffset (table vtable : Reference) : Build Unit :=
  prepend (LittleEndian.encode 4
    (((vtable : Int) - table) % 0x100000000).toNat)

/-- Writes a table with the given fields, the first one first. A vtable that
is in the buffer already is not written again. -/
def table (fields : List Field) : Build Reference := do
  let start ← used
  let placed ← fields.mapM fun f => do return (f.slot, ← f.cell.push)
  align 4 4
  let here := (← used) + 4
  let bytes := vtable placed here start
  match (← get).vtables.lookup bytes with
  | some known => pushVtableOffset here known
  | none =>
      let there := here + bytes.length
      pushVtableOffset here there
      prepend bytes
      modify fun b => { b with vtables := (bytes, there) :: b.vtables }
  return here

/-- Finishes the buffer: the offset to the root and the identifier in
front. -/
def finish (identifier : Bytes) (root : Reference) : Build Unit := do
  align (4 + identifier.length) (← get).alignment
  prepend identifier
  let _ ← pushOffset root

/-- The buffer that a construction ends with. -/
def bytes {α : Type} (build : Build α) : Bytes := (build.run {}).2.bytes

end Build

end DetectorHeader.FlatBuffer
