/-
What can be wrong with a protobuf message: the defect itself, and the fields
that were being read when it was met.
-/
namespace DetectorHeader.Protobuf

/-- How the payload of a record is laid out. -/
inductive WireType
  | varint | fixed64 | delimited | startGroup | endGroup | fixed32
  deriving DecidableEq

namespace WireType

/-- The wire type with the given number; 6 and 7 are not in use. -/
def ofCode? : Nat → Option WireType
  | 0 => some varint
  | 1 => some fixed64
  | 2 => some delimited
  | 3 => some startGroup
  | 4 => some endGroup
  | 5 => some fixed32
  | _ => none

/-- The number of a wire type, as a key holds it. -/
def code : WireType → Nat
  | varint => 0
  | fixed64 => 1
  | delimited => 2
  | startGroup => 3
  | endGroup => 4
  | fixed32 => 5

/-- The name of a wire type in a message to the user. -/
def name : WireType → String
  | varint => "Varint"
  | fixed64 => "SixtyFourBit"
  | delimited => "LengthDelimited"
  | startGroup => "StartGroup"
  | endGroup => "EndGroup"
  | fixed32 => "ThirtyTwoBit"

/-- A wire type is read back from its code. -/
theorem ofCode?_code (w : WireType) : ofCode? w.code = some w := by
  cases w <;> rfl

end WireType

/-- Why bytes are not a message. -/
inductive Defect
  /-- A varint that is cut off, too long or above 2⁶⁴ - 1. -/
  | varint
  /-- A key above 2³² - 1. -/
  | keyValue (key : Nat)
  /-- A wire type that is not in use. -/
  | wireTypeCode (code : Nat)
  /-- A record of field number 0. -/
  | fieldNumber
  /-- A known field in a form it does not come in. -/
  | wireType (actual expected : WireType)
  /-- A payload that is longer than what is left of the input. -/
  | underflow
  /-- A text that is not UTF-8. -/
  | text
  /-- A length that ends inside a record or an element. -/
  | overrun
  /-- The end of a group that is not open. -/
  | endOfGroup
  /-- Messages or groups nested too deeply. -/
  | recursionLimit
  deriving DecidableEq

/-- The defect in words. -/
def Defect.message : Defect → String
  | varint => "invalid varint"
  | keyValue key => s!"invalid key value: {key}"
  | wireTypeCode code => s!"invalid wire type value: {code}"
  | fieldNumber => "invalid tag value: 0"
  | wireType actual expected =>
      s!"invalid wire type: {actual.name} (expected {expected.name})"
  | underflow => "buffer underflow"
  | text => "invalid string value: data is not UTF-8 encoded"
  | overrun => "delimited length exceeded"
  | endOfGroup => "unexpected end group tag"
  | recursionLimit => "recursion limit reached"

/-- A field of a message, by the two names that it has in messages to the
user. -/
structure FieldName where
  message : String
  field : String
  deriving DecidableEq

/-- A defect and the known fields around it, the innermost first. -/
structure Fault where
  defect : Defect
  path : List FieldName
  deriving DecidableEq

/-- The fault, met while reading `field`. -/
def Fault.within (field : FieldName) (fault : Fault) : Fault :=
  { fault with path := fault.path ++ [field] }

/-- The fault in words. -/
def Fault.message (fault : Fault) : String :=
  let places := fault.path.map fun f => s!"{f.message}.{f.field}: "
  "failed to decode Protobuf message: " ++ String.join places
    ++ fault.defect.message

end DetectorHeader.Protobuf
