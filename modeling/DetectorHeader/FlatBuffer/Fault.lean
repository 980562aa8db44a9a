/-
What can be wrong with a flat buffer: the defect, and the fields and vector
elements that lead to it.
-/
import DetectorHeader.Text.Utf8

namespace DetectorHeader.FlatBuffer

/-- The scalars that occur in buffers. -/
inductive Scalar
  | u8 | u16 | u32 | i8 | i32 | i64 | f32
  deriving DecidableEq

namespace Scalar

/-- The bytes of a scalar. Its positions are multiples of this. -/
def size : Scalar → Nat
  | u8 => 1
  | u16 => 2
  | u32 => 4
  | i8 => 1
  | i32 => 4
  | i64 => 8
  | f32 => 4

/-- The name of a scalar in a message to the user. -/
def name : Scalar → String
  | u8 => "u8"
  | u16 => "u16"
  | u32 => "u32"
  | i8 => "i8"
  | i32 => "i32"
  | i64 => "i64"
  | f32 => "f32"

/-- No scalar is without a byte. -/
theorem size_pos (s : Scalar) : 0 < s.size := by cases s <;> decide

end Scalar

/-- Why a buffer is refused. -/
inductive Defect
  /-- Bytes from `first` up to `last` are needed, and the buffer ends before. -/
  | range (first last : Nat)
  /-- A scalar at a position that is no multiple of its size. -/
  | unaligned (scalar : Scalar) (position : Nat)
  /-- The offset at `position` leads out of the buffer. -/
  | signedOffset (position : Nat) (offset : Int)
  /-- The string from `first` up to `last` is not UTF-8. -/
  | text (first last : Nat) (fault : Utf8.Fault)
  /-- The string from `first` up to `last` is not followed by a zero. -/
  | terminator (first last : Nat)
  /-- Tables nested too deeply. -/
  | depth
  /-- More tables than are allowed. -/
  | tables
  /-- More bytes looked at, over and over, than are allowed. -/
  | apparentSize
  /-- A read of what verification did not look at. -/
  | unchecked
  deriving DecidableEq

namespace Defect

/-- Whether the message says how the defect was reached. Limits on the buffer
as a whole are not met at a place. -/
def hasPlace : Defect → Bool
  | depth | tables | apparentSize | unchecked => false
  | _ => true

/-- The defect in words. -/
def message : Defect → String
  | range first last => s!"Range [{first}, {last}) is out of bounds."
  | unaligned scalar position =>
      s!"Type \x60{scalar.name}\x60 at position {position} is unaligned."
  | signedOffset position offset =>
      s!"Signed offset at position {position} has value {offset} "
        ++ "which points out of bounds."
  | text first last fault =>
      s!"Utf8 error for string in {first}..{last}: {fault.message}"
  | terminator first last =>
      s!"String in range [{first}, {last}) is missing its null terminator."
  | depth => "Nested table depth limit reached."
  | tables => "Too many tables."
  | apparentSize => "Apparent size too large."
  | unchecked => "Unverified data was read."

end Defect

/-- A step on the way from the root table to a defect. -/
inductive Step
  | field (name : String) (position : Nat)
  | element (index position : Nat)
  deriving DecidableEq

/-- The step in words, on a line of its own. -/
def Step.line : Step → String
  | field name position =>
      s!"\twhile verifying table field \x60{name}\x60 at position {position}\n"
  | element index position =>
      s!"\twhile verifying vector element {index} at position {position}\n"

/-- A defect and the way to it, the last step first. -/
structure Fault where
  defect : Defect
  trace : List Step
  deriving DecidableEq

/-- The fault, met behind `step`. -/
def Fault.behind (step : Step) (fault : Fault) : Fault :=
  if fault.defect.hasPlace then { fault with trace := fault.trace ++ [step] }
  else fault

/-- The fault in words. -/
def Fault.message (fault : Fault) : String :=
  fault.defect.message ++ "\n"
    ++ (if fault.defect.hasPlace then
          String.join (fault.trace.map Step.line) ++ "\n"
        else "")

end DetectorHeader.FlatBuffer
