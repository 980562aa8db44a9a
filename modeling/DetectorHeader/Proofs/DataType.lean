/-
The codes of element types, as the two formats publish them. What a loader
reports for a code is told from these tables and not from the functions that
the program looks codes up with; that they agree is `ofTfliteCode_eq` and
`ofOnnxCode_eq`.
-/
import DetectorHeader.DataType
import Mathlib

namespace DetectorHeader.DataType

/-- The element types of a TFLite model. Resources (13) and variants (14) are
no elements of tensors that are read here. -/
def tfliteTypes : List (Int × DataType) := [
  (0, float32), (1, float16), (2, int32), (3, uint8), (4, int64), (5, string),
  (6, bool), (7, int16), (8, complex64), (9, int8), (10, float64),
  (11, complex128), (12, uint64), (15, uint32), (16, uint16), (17, int4),
  (18, bfloat16)]

/-- The element types of an ONNX model. Of those with fewer than eight bits
only the signed integers of four are read here. -/
def onnxTypes : List (Int × DataType) := [
  (1, float32), (2, uint8), (3, int8), (4, uint16), (5, int16), (6, int32),
  (7, int64), (8, string), (9, bool), (10, float16), (11, float64),
  (12, uint32), (13, uint64), (14, complex64), (15, complex128),
  (16, bfloat16), (22, int4)]

/-- The type that is listed with a code. One that is not listed stays what it
is. -/
def listed (types : List (Int × DataType)) (code : Int32) : DataType :=
  (types.lookup code.toInt).getD (unknown code)

/-- A code that is in no entry of the table is not listed. -/
theorem listed_of_forall_ne {types : List (Int × DataType)} {code : Int32}
    (h : ∀ entry ∈ types, entry.1 ≠ code.toInt) :
    listed types code = unknown code := by
  have hnone : types.lookup code.toInt = none := by
    rw [List.lookup_eq_none_iff]
    intro entry hentry
    exact bne_iff_ne.mpr (h entry hentry).symm
  unfold listed
  rw [hnone, Option.getD_none]

/-- The program's table of TFLite codes is the published one. -/
theorem ofTfliteCode_eq (code : Int8) :
    ofTfliteCode code = listed tfliteTypes code.toInt32 := by
  have hcode : code.toInt32.toInt = code.toInt := Int8.toInt_toInt32 code
  unfold ofTfliteCode
  split
  case h_18 =>
    refine (listed_of_forall_ne ?_).symm
    rw [hcode]
    simp only [tfliteTypes, List.forall_mem_cons]
    grind
  all_goals
    rename_i hliteral
    unfold listed
    rw [hcode, hliteral]
    rfl

/-- The program's table of ONNX codes is the published one. -/
theorem ofOnnxCode_eq (code : Int32) :
    ofOnnxCode code = listed onnxTypes code := by
  unfold ofOnnxCode
  split
  case h_18 =>
    refine (listed_of_forall_ne ?_).symm
    simp only [onnxTypes, List.forall_mem_cons]
    grind
  all_goals
    rename_i hliteral
    unfold listed
    rw [hliteral]
    rfl

end DetectorHeader.DataType
