/-
Element types of tensors. The two model formats number them differently;
`ofTfliteCode` and `ofOnnxCode` are the two tables, and a number that a table
does not list is kept as it is.
-/
namespace DetectorHeader

/-- The type of a tensor's elements. -/
inductive DataType
  | float32 | float16 | bfloat16 | float64
  | int4 | int8 | int16 | int32 | int64
  | uint8 | uint16 | uint32 | uint64
  | bool | string | complex64 | complex128
  | unknown (code : Int32)
  deriving DecidableEq

namespace DataType

/-- The type with the given number in a TFLite model. -/
def ofTfliteCode (code : Int8) : DataType :=
  match code.toInt with
  | 0 => float32
  | 1 => float16
  | 2 => int32
  | 3 => uint8
  | 4 => int64
  | 5 => string
  | 6 => bool
  | 7 => int16
  | 8 => complex64
  | 9 => int8
  | 10 => float64
  | 11 => complex128
  | 12 => uint64
  | 15 => uint32
  | 16 => uint16
  | 17 => int4
  | 18 => bfloat16
  | _ => unknown code.toInt32

/-- The type with the given number in an ONNX model. -/
def ofOnnxCode (code : Int32) : DataType :=
  match code.toInt with
  | 1 => float32
  | 2 => uint8
  | 3 => int8
  | 4 => uint16
  | 5 => int16
  | 6 => int32
  | 7 => int64
  | 8 => string
  | 9 => bool
  | 10 => float16
  | 11 => float64
  | 12 => uint32
  | 13 => uint64
  | 14 => complex64
  | 15 => complex128
  | 16 => bfloat16
  | 22 => int4
  | _ => unknown code

/-- The name of the type. -/
def name : DataType → String
  | float32 => "float32"
  | float16 => "float16"
  | bfloat16 => "bfloat16"
  | float64 => "float64"
  | int4 => "int4"
  | int8 => "int8"
  | int16 => "int16"
  | int32 => "int32"
  | int64 => "int64"
  | uint8 => "uint8"
  | uint16 => "uint16"
  | uint32 => "uint32"
  | uint64 => "uint64"
  | bool => "bool"
  | string => "string"
  | complex64 => "complex64"
  | complex128 => "complex128"
  | unknown code => s!"unknown({code.toInt})"

/-- The bytes of one element. Four-bit elements share bytes and texts have no
fixed size, so they have none. -/
def byteSize? : DataType → Option Nat
  | float32 | int32 | uint32 => some 4
  | float64 | int64 | uint64 => some 8
  | float16 | bfloat16 | int16 | uint16 => some 2
  | int8 | uint8 | bool => some 1
  | complex64 => some 8
  | complex128 => some 16
  | int4 | string | unknown _ => none

/-- Floating-point types. -/
def isFloat : DataType → Bool
  | float16 | float32 | float64 | bfloat16 => true
  | _ => false

/-- Integer types of either sign. -/
def isInteger : DataType → Bool
  | int4 | int8 | int16 | int32 | int64
  | uint8 | uint16 | uint32 | uint64 => true
  | _ => false

end DataType

end DetectorHeader
