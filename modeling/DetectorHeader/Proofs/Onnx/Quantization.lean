/-
The quantization that a graph value gets from the operation it comes from.

Raw data holds the numbers that were written into it, one after the other
(`rawNumbers_flatMap`), and a value that a quantizing or dequantizing
operation gives has the numbers in its two constants
(`Graph.outcome_quantization`).
-/
import DetectorHeader.Onnx.Metadata
import DetectorHeader.Proofs.Recorded

namespace DetectorHeader.Onnx

open Recorded

-- ================================================================ raw data

/-- Pieces of one size are cut apart again, whatever is behind them. -/
theorem runs_flatten {size : Nat} {pieces : List Bytes}
    (h : ∀ piece ∈ pieces, piece.length = size) (rest : Bytes) :
    runs size pieces.length (pieces.flatten ++ rest) = pieces := by
  induction pieces with
  | nil => rfl
  | cons piece pieces ih =>
      obtain ⟨hpiece, hpieces⟩ := List.forall_mem_cons.mp h
      rw [List.flatten_cons, List.append_assoc, List.length_cons, runs,
        List.take_left' hpiece, List.drop_left' hpiece, ih hpieces]

/-- Raw data is read as the numbers that were written, as far as they fit. What
is too short for a number does not count. -/
theorem rawNumbers_flatMap {size : Nat} (numbers : List Nat) {rest : Bytes}
    (hrest : rest.length < size) :
    rawNumbers size (numbers.flatMap (LittleEndian.encode size) ++ rest)
      = numbers.map (· % Nat.pow 256 size) := by
  have hpieces : ∀ piece ∈ numbers.map (LittleEndian.encode size),
      piece.length = size := by
    intro piece hmem
    obtain ⟨n, -, rfl⟩ := List.mem_map.mp hmem
    exact LittleEndian.length_encode size n
  have hcount : (numbers.length * size + rest.length) / size
      = numbers.length := by
    rw [Nat.mul_comm, Nat.mul_add_div (Nat.zero_lt_of_lt hrest),
      Nat.div_eq_of_lt hrest, Nat.add_zero]
  have hruns := runs_flatten hpieces rest
  rw [List.length_map, ← List.flatMap_def] at hruns
  unfold rawNumbers
  rw [List.length_append, LittleEndian.length_flatMap_encode, hcount, hruns,
    List.map_map]
  exact List.map_congr_left fun n _ => LittleEndian.decode_encode size n

/-- Raw data of one number. -/
theorem rawNumbers_encode {size n : Nat} (hsize : 0 < size)
    (hn : n < Nat.pow 256 size) :
    rawNumbers size (LittleEndian.encode size n) = [n] := by
  have h := rawNumbers_flatMap [n] (show ([] : Bytes).length < size from hsize)
  rw [List.flatMap_singleton, List.append_nil, List.map_singleton,
    Nat.mod_eq_of_lt hn] at h
  exact h

/-- The bits of a signed number, read as one, are the number. -/
theorem signed_toUInt8 (i : Int8) : signed 8 i.toUInt8.toNat = i.toInt64 := by
  unfold signed
  rw [← UInt8.toNat_toBitVec, BitVec.ofNat_toNat, BitVec.setWidth_eq]
  exact Int64.ofInt_int8ToInt i

-- =============================================================== constants

/-- The tensor has raw data. If that is empty it is as good as none. -/
def Tensor.HasRaw (t : Tensor) (raw : Bytes) : Prop :=
  t.rawData = some raw ∧ raw ≠ []

/-- Raw data are there unless they are empty. -/
theorem Tensor.raw?_eq_some_iff {t : Tensor} {raw : Bytes} :
    t.raw? = some raw ↔ t.HasRaw raw := by
  unfold raw? HasRaw
  rw [Option.filter_eq_some_iff, decide_eq_true_iff]

/-- A scale in raw data has its bits there. -/
theorem Tensor.scales_of_raw {t : Tensor} {scale : Binary32}
    (htype : t.type = .float32)
    (hraw : t.rawData = some (LittleEndian.encode 4 scale.bits.toNat)) :
    t.scales = .ok [scale] := by
  unfold scales
  rw [htype, raw?_eq_some_iff.mpr ⟨hraw, List.cons_ne_nil _ _⟩]
  show Except.ok ((rawNumbers 4 _).map _) = _
  rw [rawNumbers_encode (by decide) scale.bits.toNat_lt, List.map_singleton,
    UInt32.ofNat_toNat]

/-- A zero point in raw data of one byte has its sign there. -/
theorem Tensor.zeroPoints_of_raw {t : Tensor} {zeroPoint : Int8}
    (htype : t.type = .int8)
    (hraw : t.rawData = some (LittleEndian.encode 1 zeroPoint.toUInt8.toNat)) :
    t.zeroPoints = .ok [zeroPoint.toInt64] := by
  unfold zeroPoints
  rw [htype, raw?_eq_some_iff.mpr ⟨hraw, List.cons_ne_nil _ _⟩]
  show Except.ok ((rawNumbers 1 _).map _) = _
  rw [rawNumbers_encode (by decide) zeroPoint.toUInt8.toNat_lt,
    List.map_singleton, signed_toUInt8]

-- ============================================================== operations

/-- A constant is a parameter. -/
theorem Graph.parameter_of_constant {g : Graph} {name : String} {t : Tensor}
    (h : g.constant? name = some t) (operation : String)
    (parameter : Parameter) (output : String) :
    g.parameter operation parameter name output = .ok t := by
  unfold Graph.parameter
  rw [h]

/-- The name of an input of an operation, empty if there is no such input. -/
def Node.inputName (node : Node) (index : Nat) : String :=
  node.input[index]?.getD ""

/-- The operation is one of the two that have a scale and a zero point. -/
def Node.Quantizes (node : Node) : Prop :=
  node.opType = some "QuantizeLinear" ∨ node.opType = some "DequantizeLinear"

instance (node : Node) : Decidable node.Quantizes :=
  inferInstanceAs (Decidable (_ ∨ _))

/-- The constant for the zero point of an operation, if it has one. -/
def Graph.zeroPoint? (g : Graph) (node : Node) (output : String) :
    Except Error (Option Tensor) :=
  if node.inputName 2 = "" then .ok none
  else
    some <$> g.parameter (node.opType.getD "") .zeroPoint (node.inputName 2)
      output

/-- The quantization that scales and zero points make. -/
def ofElements (name : String) (scales : List Binary32)
    (zeroPoints : List Int64) : Recorded Quantization :=
  match scales, zeroPoints with
  | [scale], [zeroPoint] => pure ⟨scale, zeroPoint⟩
  | _, _ => ⟨[.event (.perChannel name scales.length none)], .ok .none⟩

/-- The test of the program for the two operations. -/
theorem Node.quantizes_iff {node : Node} :
    node.Quantizes ↔ ¬ (node.opType.getD "" ≠ "QuantizeLinear"
      && node.opType.getD "" ≠ "DequantizeLinear") = true := by
  unfold Quantizes
  cases node.opType <;> simp [imp_iff_not_or]

/-- Another operation has no quantization. -/
theorem Graph.quantization_of_other {g : Graph} {name : String} {node : Node}
    (hnode : g.producer? name = some node) (h : ¬ node.Quantizes) :
    g.quantization name = pure .none := by
  rw [Node.quantizes_iff, not_not] at h
  unfold quantization
  rw [hnode]
  dsimp only
  rw [if_pos h]

/-- The constants are looked up before either of them is read. -/
theorem Graph.quantization_of_quantizes {g : Graph} {name : String}
    {node : Node} (hnode : g.producer? name = some node)
    (h : node.Quantizes) :
    g.quantization name = (do
      let scale ← ofExcept
        (g.parameter (node.opType.getD "") .scale (node.inputName 1) name)
      let zeroPoint ← ofExcept (g.zeroPoint? node name)
      let scales ← ofExcept scale.scales
      let zeroPoints ← ofExcept (zeroPoint.elim (.ok [0]) Tensor.zeroPoints)
      ofElements name scales zeroPoints) := by
  unfold quantization
  rw [hnode]
  dsimp only
  rw [if_neg (Node.quantizes_iff.mp h)]
  congr 1
  funext scale
  congr 1
  · unfold zeroPoint? Node.inputName
    congr 1
    split
    · rename_i hname
      rw [if_pos hname]
    · rename_i hname
      rw [if_neg hname]
  · funext zeroPoint
    congr 1
    funext scales
    congr 1
    cases zeroPoint <;> rfl

/-- A value that a quantizing or dequantizing operation gives has the scale
and the zero point that the operation's constants hold, one of each. -/
theorem Graph.outcome_quantization {g : Graph} {node : Node}
    {name value scaleName zeroName : String} {scale zeroPoint : Tensor}
    {a : Binary32} {z : Int64} (hproducer : g.producer? name = some node)
    (htype : node.opType = some "QuantizeLinear"
      ∨ node.opType = some "DequantizeLinear")
    (hinput : node.input = [value, scaleName, zeroName])
    (hzeroName : zeroName ≠ "")
    (hscale : g.constant? scaleName = some scale)
    (hzeroPoint : g.constant? zeroName = some zeroPoint)
    (ha : scale.scales = .ok [a]) (hz : zeroPoint.zeroPoints = .ok [z]) :
    (g.quantization name).outcome = .ok ⟨a, z⟩ := by
  have hscaleInput : node.inputName 1 = scaleName := by
    unfold Node.inputName
    rw [hinput]
    rfl
  have hzeroInput : node.inputName 2 = zeroName := by
    unfold Node.inputName
    rw [hinput]
    rfl
  have hzero : g.zeroPoint? node name = .ok (some zeroPoint) := by
    unfold zeroPoint?
    rw [hzeroInput, if_neg hzeroName, parameter_of_constant hzeroPoint]
    rfl
  rw [quantization_of_quantizes hproducer htype, hscaleInput,
    parameter_of_constant hscale, ofExcept_ok, pure_bind, hzero, ofExcept_ok,
    pure_bind, ha, ofExcept_ok, pure_bind, Option.elim_some, hz, ofExcept_ok,
    pure_bind]
  rfl

end DetectorHeader.Onnx
