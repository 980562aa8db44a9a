/-
The numbers in a constant, described without a reader
(`Tensor.scales_eq_iff`, `Tensor.zeroPoints_eq_iff`).

Raw data is numbers of one size, one after the other, and at the end perhaps
fewer bytes than a number has (`HoldsNumbers`). What they stand for depends on
the element type: bits of a floating-point number, or an integer that has the
size of the type added if it is negative (`Represents`). Without raw data the
numbers are in one of the lists, also by the type. A type of the wrong kind is
reported before one that is not read.
-/
import DetectorHeader.Proofs.Onnx.Quantization

namespace DetectorHeader.Onnx

-- ================================================================= raw data

/-- The bytes are those of the numbers, least significant first in `size` bytes
each, and then less than a number. -/
def HoldsNumbers (size : Nat) (raw : Bytes) (numbers : List Nat) : Prop :=
  (∀ n ∈ numbers, n < 256 ^ size)
    ∧ ∃ rest : Bytes, rest.length < size
      ∧ raw = numbers.flatMap (LittleEndian.encode size) ++ rest

/-- Runs that are cut off, put together again with what is behind them. -/
theorem flatten_runs (size count : Nat) (bytes : Bytes) :
    (runs size count bytes).flatten ++ bytes.drop (count * size) = bytes := by
  induction count generalizing bytes with
  | zero => simp [runs]
  | succ count ih =>
      have hrest := ih (bytes.drop size)
      rw [List.drop_drop, Nat.add_comm size, ← Nat.succ_mul] at hrest
      rw [runs, List.flatten_cons, List.append_assoc, hrest,
        List.take_append_drop]

/-- Each piece is as long as an element. -/
theorem length_of_mem_runs {size count : Nat} {bytes piece : Bytes}
    (hlong : count * size ≤ bytes.length)
    (h : piece ∈ runs size count bytes) : piece.length = size := by
  induction count generalizing bytes with
  | zero => cases h
  | succ count ih =>
      rw [Nat.succ_mul] at hlong
      rcases List.mem_cons.mp h with rfl | h
      · rw [List.length_take]
        omega
      · refine ih ?_ h
        rw [List.length_drop]
        omega

/-- Raw data hold the numbers that are read from them. -/
theorem holdsNumbers_rawNumbers {size : Nat} (hsize : 0 < size) (raw : Bytes) :
    HoldsNumbers size raw (rawNumbers size raw) := by
  have hpieces : ∀ piece ∈ runs size (raw.length / size) raw,
      piece.length = size :=
    fun _ => length_of_mem_runs (Nat.div_mul_le_self _ _)
  constructor
  · intro n hn
    obtain ⟨piece, hpiece, rfl⟩ := List.mem_map.mp hn
    have hlt := LittleEndian.decode_lt piece
    rwa [hpieces piece hpiece] at hlt
  · refine ⟨raw.drop (raw.length / size * size), ?_, ?_⟩
    · rw [List.length_drop]
      have hmod := Nat.mod_lt raw.length hsize
      have hdivision := Nat.div_add_mod' raw.length size
      omega
    · have hencoded : (rawNumbers size raw).flatMap (LittleEndian.encode size)
          = (runs size (raw.length / size) raw).flatten := by
        rw [rawNumbers, List.flatMap_map, List.flatMap_def]
        congr 1
        rw [List.map_congr_left (g := id), List.map_id]
        intro piece hpiece
        have hencode := LittleEndian.encode_decode piece
        rwa [hpieces piece hpiece] at hencode
      rw [hencoded, flatten_runs]

/-- Raw data is read as the numbers that it holds. -/
theorem rawNumbers_eq_iff {size : Nat} (hsize : 0 < size) {raw : Bytes}
    {numbers : List Nat} :
    rawNumbers size raw = numbers ↔ HoldsNumbers size raw numbers := by
  constructor
  · rintro rfl
    exact holdsNumbers_rawNumbers hsize raw
  · rintro ⟨hlt, rest, hrest, rfl⟩
    rw [rawNumbers_flatMap numbers hrest]
    exact (List.map_congr_left fun n hn => Nat.mod_eq_of_lt (hlt n hn)).trans
      (List.map_id _)

-- ================================================================= elements

/-- The tensor has no raw data, so that its elements are in a list. -/
def Tensor.NoRaw (t : Tensor) : Prop := ∀ raw, ¬ t.HasRaw raw

/-- Raw data that are empty are none. -/
theorem Tensor.raw?_eq_none_iff {t : Tensor} : t.raw? = none ↔ t.NoRaw := by
  rw [Option.eq_none_iff_forall_ne_some]
  exact forall_congr' fun raw => not_congr raw?_eq_some_iff

-- =================================================================== scales

/-- Raw data holds the bits of some numbers. -/
theorem exists_holdsNumbers {α : Type} {size : Nat} (hsize : 0 < size)
    (bits : α → Nat) (ofBits : Nat → α)
    (hbits : ∀ n < 256 ^ size, bits (ofBits n) = n) (raw : Bytes) :
    ∃ values : List α, HoldsNumbers size raw (values.map bits) := by
  have hraw := holdsNumbers_rawNumbers hsize raw
  refine ⟨(rawNumbers size raw).map ofBits, ?_⟩
  rw [List.map_map, List.map_congr_left (g := id), List.map_id]
  · exact hraw
  · exact fun n hn => hbits n (hraw.1 n hn)

/-- Four types are floating. -/
theorem isFloat_iff {type : DataType} :
    type.isFloat = true ↔ type = .float32 ∨ type = .float64
      ∨ type = .float16 ∨ type = .bfloat16 := by
  cases type <;> simp [DataType.isFloat]

namespace Tensor

/-- What comes of reading the elements as scales. -/
inductive ReadsScales (t : Tensor) : Except Error (List Binary32) → Prop
  | notFloat (htype : t.type.isFloat = false) :
      ReadsScales t
        (.error (.invalidModel (.scaleType (t.name.getD "") t.type)))
  | unread (htype : t.type = .float16 ∨ t.type = .bfloat16) :
      ReadsScales t (.error (.unsupported (.elementType .scale t.type)))
  | rawSingle {raw scales} (htype : t.type = .float32) (hraw : t.HasRaw raw)
      (h : HoldsNumbers 4 raw (scales.map (·.bits.toNat))) :
      ReadsScales t (.ok scales)
  | rawDouble {raw} {doubles : List Binary64} (htype : t.type = .float64)
      (hraw : t.HasRaw raw)
      (h : HoldsNumbers 8 raw (doubles.map (·.bits.toNat))) :
      ReadsScales t (.ok (doubles.map .ofBinary64))
  | single (htype : t.type = .float32) (hraw : t.NoRaw) :
      ReadsScales t (.ok t.floatData)
  | double (htype : t.type = .float64) (hraw : t.NoRaw) :
      ReadsScales t (.ok (t.doubleData.map .ofBinary64))

/-- Scales are read as the description says. -/
theorem ReadsScales.scales_eq {t : Tensor}
    {outcome : Except Error (List Binary32)} (h : t.ReadsScales outcome) :
    t.scales = outcome := by
  unfold scales
  cases h with
  | notFloat htype => rw [htype]; rfl
  | unread htype =>
      rcases htype with htype | htype
      · rw [htype]; rfl
      · rw [htype]; rfl
  | rawSingle htype hraw h =>
      rw [htype, raw?_eq_some_iff.mpr hraw]
      refine congrArg Except.ok ?_
      rw [(rawNumbers_eq_iff (by decide)).mpr h, List.map_map]
      refine (List.map_congr_left fun a _ => ?_).trans (List.map_id _)
      exact congrArg Binary32.mk UInt32.ofNat_toNat
  | rawDouble htype hraw h =>
      rw [htype, raw?_eq_some_iff.mpr hraw]
      refine congrArg Except.ok ?_
      rw [(rawNumbers_eq_iff (by decide)).mpr h, List.map_map]
      refine List.map_congr_left fun a _ => ?_
      exact congrArg (Binary32.ofBinary64 ⟨·⟩) UInt64.ofNat_toNat
  | single htype hraw => rw [htype, raw?_eq_none_iff.mpr hraw]; rfl
  | double htype hraw => rw [htype, raw?_eq_none_iff.mpr hraw]; rfl

/-- The description says something of every tensor. -/
theorem exists_readsScales (t : Tensor) :
    ∃ outcome, t.ReadsScales outcome := by
  by_cases hfloat : t.type.isFloat = true
  · by_cases hraw : t.NoRaw
    · rcases isFloat_iff.mp hfloat with htype | htype | htype
      · exact ⟨_, .single htype hraw⟩
      · exact ⟨_, .double htype hraw⟩
      · exact ⟨_, .unread htype⟩
    · obtain ⟨raw, hraw⟩ := not_forall_not.mp hraw
      rcases isFloat_iff.mp hfloat with htype | htype | htype
      · obtain ⟨scales, h⟩ := exists_holdsNumbers (by decide : 0 < 4)
          (fun a : Binary32 => a.bits.toNat) (fun n => ⟨.ofNat n⟩)
          (fun _ => UInt32.toNat_ofNat_of_lt') raw
        exact ⟨_, .rawSingle htype hraw h⟩
      · obtain ⟨doubles, h⟩ := exists_holdsNumbers (by decide : 0 < 8)
          (fun a : Binary64 => a.bits.toNat) (fun n => ⟨.ofNat n⟩)
          (fun _ => UInt64.toNat_ofNat_of_lt') raw
        exact ⟨_, .rawDouble htype hraw h⟩
      · exact ⟨_, .unread htype⟩
  · exact ⟨_, .notFloat (Bool.eq_false_iff.mpr hfloat)⟩

/-- The elements of a constant are read as scales as its type says. -/
theorem scales_eq_iff {t : Tensor} {outcome : Except Error (List Binary32)} :
    t.scales = outcome ↔ t.ReadsScales outcome := by
  constructor
  · rintro rfl
    obtain ⟨outcome, h⟩ := exists_readsScales t
    rwa [h.scales_eq]
  · exact ReadsScales.scales_eq

end Tensor

-- ============================================================== zero points

/-- The integer types that are read from raw data: how many bytes an element
has, and the least integer of the type. -/
inductive RawInteger : DataType → (size : Nat) → (least : Int) → Prop
  | int8 : RawInteger .int8 1 (-0x80)
  | uint8 : RawInteger .uint8 1 0
  | int16 : RawInteger .int16 2 (-0x8000)
  | uint16 : RawInteger .uint16 2 0
  | int32 : RawInteger .int32 4 (-0x80000000)

/-- Integers by where they are read from if there is raw data. -/
theorem rawInteger_or_of_isInteger {type : DataType}
    (h : type.isInteger = true) :
    (∃ size least, RawInteger type size least)
      ∨ type ∈ [.int4, .int64, .uint32, .uint64] := by
  cases type
  case int8 => exact .inl ⟨_, _, .int8⟩
  case uint8 => exact .inl ⟨_, _, .uint8⟩
  case int16 => exact .inl ⟨_, _, .int16⟩
  case uint16 => exact .inl ⟨_, _, .uint16⟩
  case int32 => exact .inl ⟨_, _, .int32⟩
  all_goals simp_all [DataType.isInteger]

/-- Integers by the list that they are read from if there is none. -/
theorem list_of_isInteger {type : DataType} (h : type.isInteger = true) :
    type ∈ [.int4, .int8, .int16, .int32, .uint8, .uint16]
      ∨ type = .int64 ∨ type = .uint32 ∨ type = .uint64 := by
  cases type <;> simp_all [DataType.isInteger]

/-- The number in `size` bytes stands for the integer of the type that begins
at `least`: it is what is left of it after division by the number of integers
that the type has. -/
structure Represents (size : Nat) (least : Int) (n : Nat) (z : Int64) :
    Prop where
  lower : least ≤ z.toInt
  upper : z.toInt < least + 256 ^ size
  residue : (n : Int) = z.toInt % 256 ^ size

/-- A number is represented by one integer of its type. -/
theorem Represents.unique {size n : Nat} {least : Int} {z z' : Int64}
    (h : Represents size least n z) (h' : Represents size least n z') :
    z = z' := by
  -- integers of the type lie closer together than those of one residue
  have hresidue := h.residue.symm.trans h'.residue
  have hdivides : (256 : Int) ^ size ∣ z.toInt - z'.toInt :=
    Int.dvd_of_emod_eq_zero (Int.emod_eq_emod_iff_emod_sub_eq_zero.mp hresidue)
  have hless : |z.toInt - z'.toInt| < 256 ^ size := by
    have hlower := h.lower
    have hupper := h.upper
    have hlower' := h'.lower
    have hupper' := h'.upper
    apply abs_lt.mpr
    constructor
    · omega
    · omega
  exact Int64.toInt_inj.mp
    (Int.sub_eq_zero.mp (Int.eq_zero_of_abs_lt_dvd hdivides hless))

/-- What up to four bytes can hold is far from the ends of 64 bits. -/
theorem pow_size_le {size : Nat} (hsize : size ≤ 4) :
    (256 : Nat) ^ size ≤ 0x100000000 :=
  Nat.pow_le_pow_right (by decide) hsize

/-- Without a sign it is represented by itself. -/
theorem represents_ofNat {size n : Nat} (hsize : size ≤ 4)
    (hn : n < 256 ^ size) : Represents size 0 n (.ofNat n) := by
  have hword := pow_size_le hsize
  have htoInt : (Int64.ofNat n).toInt = n :=
    Int64.toInt_ofNat_of_lt (by omega)
  have hnonneg := Int.natCast_nonneg n
  have hupper : (n : Int) < 256 ^ size := by exact_mod_cast hn
  constructor
  · rwa [htoInt]
  · rwa [htoInt, Int.zero_add]
  · rw [htoInt, Int.emod_eq_of_lt hnonneg hupper]

/-- With a sign it is represented by its residue around zero. -/
theorem represents_signed {size n : Nat} (hpos : 0 < size) (hsize : size ≤ 4)
    (hn : n < 256 ^ size) :
    Represents size (-(256 ^ size / 2)) n (signed (8 * size) n) := by
  have hword := pow_size_le hsize
  have heven : 2 ∣ (256 : Nat) ^ size := Dvd.dvd.pow (by decide) hpos.ne'
  have hbits : (2 : Nat) ^ (8 * size) = 256 ^ size := by rw [Nat.pow_mul]
  -- the sign bit tells in which half of the type the balanced residue is
  have hlower := Int.le_bmod (x := n) (m := 256 ^ size) (by positivity)
  have hupper := Int.bmod_lt (x := n) (m := 256 ^ size) (by positivity)
  have hresidue := Int.bmod_emod (x := n) (m := 256 ^ size)
  have htoInt : (signed (8 * size) n).toInt = (n : Int).bmod (256 ^ size) := by
    unfold signed
    rw [BitVec.toInt_ofNat', hbits]
    apply Int64.toInt_ofInt_of_le
    · omega
    · omega
  push_cast at hlower hupper hresidue
  constructor
  · rwa [htoInt]
  · rw [htoInt]
    omega
  · have hfits : (n : Int) < 256 ^ size := by exact_mod_cast hn
    rw [htoInt, hresidue, Int.emod_eq_of_lt (Int.natCast_nonneg n) hfits]

section
variable {size : Nat} {least : Int} {read : Nat → Int64}

/-- Raw data holds numbers of some integers. -/
theorem exists_represents (hsize : 0 < size)
    (hread : ∀ n < 256 ^ size, Represents size least n (read n))
    (raw : Bytes) :
    ∃ numbers, HoldsNumbers size raw numbers
      ∧ List.Forall₂ (Represents size least) numbers
        ((rawNumbers size raw).map read) := by
  have hraw := holdsNumbers_rawNumbers hsize raw
  refine ⟨_, hraw, List.forall₂_map_right_iff.mpr ?_⟩
  exact List.forall₂_same.mpr fun n hn => hread n (hraw.1 n hn)

/-- Raw data is read as the integers that its numbers represent. -/
theorem map_rawNumbers_eq (hsize : 0 < size)
    (hread : ∀ n < 256 ^ size, Represents size least n (read n))
    {raw : Bytes} {numbers : List Nat} {zs : List Int64}
    (hraw : HoldsNumbers size raw numbers)
    (h : List.Forall₂ (Represents size least) numbers zs) :
    (rawNumbers size raw).map read = zs := by
  rw [(rawNumbers_eq_iff hsize).mpr hraw]
  have hmem := (List.forall₂_and_left _ _).mpr ⟨hraw.1, h⟩
  have hequal : List.Forall₂ (fun n z => read n = z) numbers zs :=
    hmem.imp fun n z h => (hread n h.1).unique h.2
  exact List.forall₂_eq_eq_eq ▸ List.forall₂_map_left_iff.mpr hequal

end

/-- Integers are told apart by their values. -/
theorem map_toInt_inj {zs zs' : List Int64} :
    zs.map Int64.toInt = zs'.map Int64.toInt ↔ zs = zs' :=
  List.map_inj_right fun _ _ => Int64.toInt_inj.mp

/-- A number with a sign bit to spare is itself as a signed one. -/
theorem Tensor.narrow_of_lt {n : UInt64} (h : n.toNat < 0x8000000000000000) :
    narrow n = .ok n.toInt64 ∧ n.toInt64.toInt = n.toNat := by
  constructor
  · exact if_neg (Nat.not_le.mpr h)
  · have hword : 2 * n.toBitVec.toNat < 2 ^ 64 := by
      rw [UInt64.toNat_toBitVec]
      omega
    exact BitVec.toInt_eq_toNat_of_lt hword

/-- One number that is too large spoils them all. -/
theorem Tensor.mapM_narrow_of_mem {ns : List UInt64} {n : UInt64}
    (hmem : n ∈ ns) (h : 0x8000000000000000 ≤ n.toNat) :
    ns.mapM narrow = .error (.invalidModel .numberTooLarge) := by
  induction ns with
  | nil => cases hmem
  | cons first ns ih =>
      rw [List.mapM_cons]
      by_cases hfirst : 0x8000000000000000 ≤ first.toNat
      · rw [show narrow first = _ from if_pos hfirst]
        rfl
      · rcases List.mem_cons.mp hmem with rfl | hmem
        · exact absurd h hfirst
        · rw [(narrow_of_lt (Nat.lt_of_not_le hfirst)).1, ih hmem]
          rfl

/-- Numbers that are not too large are all kept. -/
theorem Tensor.mapM_narrow_of_lt {ns : List UInt64}
    (h : ∀ n ∈ ns, n.toNat < 0x8000000000000000) :
    ∃ zs, ns.mapM narrow = .ok zs
      ∧ zs.map Int64.toInt = ns.map fun n => (n.toNat : Int) := by
  induction ns with
  | nil => exact ⟨[], rfl, rfl⟩
  | cons first ns ih =>
      obtain ⟨hfirst, hrest⟩ := List.forall_mem_cons.mp h
      obtain ⟨zs, hzs, hsame⟩ := ih hrest
      obtain ⟨hnarrow, htoInt⟩ := narrow_of_lt hfirst
      refine ⟨first.toInt64 :: zs, ?_, ?_⟩
      · rw [List.mapM_cons, hnarrow, hzs]
        rfl
      · rw [List.map_cons, List.map_cons, htoInt, hsame]

/-- A list of integers that fit is narrowed to the same integers. -/
theorem Tensor.mapM_narrow_of_map_eq {ns : List UInt64} {zs : List Int64}
    (h : zs.map Int64.toInt = ns.map fun n => (n.toNat : Int)) :
    ns.mapM narrow = .ok zs := by
  have hlt : ∀ n ∈ ns, n.toNat < 0x8000000000000000 := by
    intro n hn
    have hmem : (n.toNat : Int) ∈ zs.map Int64.toInt :=
      h ▸ List.mem_map_of_mem hn
    obtain ⟨z, -, hz⟩ := List.mem_map.mp hmem
    have hupper := z.toInt_lt
    omega
  obtain ⟨zs', hzs', hsame⟩ := mapM_narrow_of_lt hlt
  rw [hzs', map_toInt_inj.mp (hsame.trans h.symm)]

namespace Tensor

/-- What comes of reading the elements as zero points. -/
inductive ReadsZeroPoints (t : Tensor) : Except Error (List Int64) → Prop
  | notInteger (htype : t.type.isInteger = false) :
      ReadsZeroPoints t
        (.error (.invalidModel (.zeroPointType (t.name.getD "") t.type)))
  | raw {size least raw numbers zs} (htype : RawInteger t.type size least)
      (hraw : t.HasRaw raw) (hnumbers : HoldsNumbers size raw numbers)
      (h : List.Forall₂ (Represents size least) numbers zs) :
      ReadsZeroPoints t (.ok zs)
  | unread {raw} (htype : t.type ∈ [.int4, .int64, .uint32, .uint64])
      (hraw : t.HasRaw raw) :
      ReadsZeroPoints t
        (.error (.unsupported (.elementType .zeroPoint t.type)))
  | long (htype : t.type = .int64) (hraw : t.NoRaw) :
      ReadsZeroPoints t (.ok t.int64Data)
  | unsigned {zs} (htype : t.type = .uint32 ∨ t.type = .uint64)
      (hraw : t.NoRaw)
      (h : zs.map Int64.toInt = t.uint64Data.map fun n => (n.toNat : Int)) :
      ReadsZeroPoints t (.ok zs)
  | tooLarge {n} (htype : t.type = .uint32 ∨ t.type = .uint64)
      (hraw : t.NoRaw) (hmem : n ∈ t.uint64Data)
      (h : 0x8000000000000000 ≤ n.toNat) :
      ReadsZeroPoints t (.error (.invalidModel .numberTooLarge))
  | short {zs}
      (htype : t.type ∈
        [.int4, .int8, .int16, .int32, .uint8, .uint16])
      (hraw : t.NoRaw)
      (h : zs.map Int64.toInt = t.int32Data.map Int32.toInt) :
      ReadsZeroPoints t (.ok zs)

/-- Integers in raw data are read number by number, by their type. -/
theorem zeroPoints_of_hasRaw {t : Tensor} {raw : Bytes} {size : Nat}
    {least : Int} (hraw : t.HasRaw raw)
    (htype : RawInteger t.type size least) :
    ∃ read, t.zeroPoints = .ok ((rawNumbers size raw).map read) ∧ 0 < size
      ∧ ∀ n < 256 ^ size, Represents size least n (read n) := by
  unfold zeroPoints
  rw [raw?_eq_some_iff.mpr hraw]
  generalize t.type = type at htype
  cases htype with
  | int8 =>
      refine ⟨signed 8, rfl, by decide, fun n hn => ?_⟩
      exact represents_signed (by decide) (by decide) hn
  | uint8 =>
      refine ⟨.ofNat, rfl, by decide, fun n hn => ?_⟩
      exact represents_ofNat (by decide) hn
  | int16 =>
      refine ⟨signed 16, rfl, by decide, fun n hn => ?_⟩
      exact represents_signed (by decide) (by decide) hn
  | uint16 =>
      refine ⟨.ofNat, rfl, by decide, fun n hn => ?_⟩
      exact represents_ofNat (by decide) hn
  | int32 =>
      refine ⟨signed 32, rfl, by decide, fun n hn => ?_⟩
      exact represents_signed (by decide) (by decide) hn

/-- The types that have neither a list of their own nor share the one for
unsigned numbers. -/
theorem zeroPoints_of_noRaw {t : Tensor} (hraw : t.NoRaw)
    (htype : t.type ∈ [.int4, .int8, .int16, .int32, .uint8, .uint16]) :
    t.zeroPoints = .ok (t.int32Data.map Int32.toInt64) := by
  unfold zeroPoints
  rw [raw?_eq_none_iff.mpr hraw]
  generalize t.type = type at htype
  fin_cases htype <;> rfl

/-- Unsigned zero points are in a list of their own. -/
theorem zeroPoints_of_unsigned {t : Tensor} (hraw : t.NoRaw)
    (htype : t.type = .uint32 ∨ t.type = .uint64) :
    t.zeroPoints = t.uint64Data.mapM narrow := by
  unfold zeroPoints
  rw [raw?_eq_none_iff.mpr hraw]
  rcases htype with htype | htype
  · rw [htype]; rfl
  · rw [htype]; rfl

/-- Some types are not read from raw data. -/
theorem zeroPoints_of_unread {t : Tensor} {raw : Bytes} (hraw : t.HasRaw raw)
    (htype : t.type ∈ [.int4, .int64, .uint32, .uint64]) :
    t.zeroPoints = .error (.unsupported (.elementType .zeroPoint t.type)) := by
  unfold zeroPoints
  rw [raw?_eq_some_iff.mpr hraw]
  generalize t.type = type at htype
  fin_cases htype <;> rfl

/-- Zero points are read as the description says. -/
theorem ReadsZeroPoints.zeroPoints_eq {t : Tensor}
    {outcome : Except Error (List Int64)} (h : t.ReadsZeroPoints outcome) :
    t.zeroPoints = outcome := by
  cases h with
  | notInteger htype =>
      unfold zeroPoints
      rw [htype]
      rfl
  | raw htype hraw hnumbers h =>
      obtain ⟨read, heq, hsize, hread⟩ := zeroPoints_of_hasRaw hraw htype
      rw [heq, map_rawNumbers_eq hsize hread hnumbers h]
  | unread htype hraw => exact zeroPoints_of_unread hraw htype
  | long htype hraw =>
      unfold zeroPoints
      rw [htype, raw?_eq_none_iff.mpr hraw]
      rfl
  | unsigned htype hraw h =>
      rw [zeroPoints_of_unsigned hraw htype, mapM_narrow_of_map_eq h]
  | tooLarge htype hraw hmem h =>
      rw [zeroPoints_of_unsigned hraw htype, mapM_narrow_of_mem hmem h]
  | short htype hraw h =>
      rw [zeroPoints_of_noRaw hraw htype]
      refine congrArg Except.ok (map_toInt_inj.mp ?_)
      rw [h, List.map_map]
      exact List.map_congr_left fun i _ => Int32.toInt_toInt64 i

/-- The description says something of every tensor. -/
theorem exists_readsZeroPoints (t : Tensor) :
    ∃ outcome, t.ReadsZeroPoints outcome := by
  by_cases hinteger : t.type.isInteger = true
  · by_cases hraw : t.NoRaw
    · rcases list_of_isInteger hinteger with htype | htype | htype
      · refine ⟨.ok (t.int32Data.map Int32.toInt64), .short htype hraw ?_⟩
        rw [List.map_map]
        exact List.map_congr_left fun i _ => Int32.toInt_toInt64 i
      · exact ⟨_, .long htype hraw⟩
      · by_cases hlt : ∀ n ∈ t.uint64Data, n.toNat < 0x8000000000000000
        · obtain ⟨zs, -, hsame⟩ := mapM_narrow_of_lt hlt
          exact ⟨_, .unsigned htype hraw hsame⟩
        · simp only [not_forall, not_lt] at hlt
          obtain ⟨n, hmem, hle⟩ := hlt
          exact ⟨_, .tooLarge htype hraw hmem hle⟩
    · obtain ⟨raw, hraw⟩ := not_forall_not.mp hraw
      rcases rawInteger_or_of_isInteger hinteger with ⟨_, _, h⟩ | htype
      · obtain ⟨read, -, hsize, hread⟩ := zeroPoints_of_hasRaw hraw h
        obtain ⟨numbers, hnumbers, hall⟩ :=
          exists_represents hsize hread raw
        exact ⟨_, .raw h hraw hnumbers hall⟩
      · exact ⟨_, .unread htype hraw⟩
  · exact ⟨_, .notInteger (Bool.eq_false_iff.mpr hinteger)⟩

/-- The elements of a constant are read as zero points as its type says. -/
theorem zeroPoints_eq_iff {t : Tensor} {outcome : Except Error (List Int64)} :
    t.zeroPoints = outcome ↔ t.ReadsZeroPoints outcome := by
  constructor
  · rintro rfl
    obtain ⟨outcome, h⟩ := exists_readsZeroPoints t
    rwa [h.zeroPoints_eq]
  · exact ReadsZeroPoints.zeroPoints_eq

end Tensor

end DetectorHeader.Onnx
