/-
Byte strings and the numbers they spell. Both model formats store their
numbers with the least significant byte first, in 1, 2, 4 or 8 bytes;
`LittleEndian.encode` and `LittleEndian.decode` are that rule and its
inverse at any width, over `Nat`, so that each fixed-width type needs only
its own cast.
-/
namespace DetectorHeader

/-- A byte string: the contents of a file, or a part of them. -/
abbrev Bytes := List UInt8

namespace LittleEndian

/-- `n` in `width` bytes, least significant first; what does not fit is
dropped. -/
def encode : (width n : Nat) → Bytes
  | 0, _ => []
  | width + 1, n => UInt8.ofNat n :: encode width (n / 256)

/-- The number a byte string spells, least significant byte first. -/
def decode : Bytes → Nat
  | [] => 0
  | b :: bs => b.toNat + 256 * decode bs

@[simp] theorem length_encode (width n : Nat) :
    (encode width n).length = width := by
  induction width generalizing n with
  | zero => rfl
  | succ width ih => simp [encode, ih]

/-- Numbers of one width take up that width each. -/
theorem length_flatMap_encode (width : Nat) (numbers : List Nat) :
    (numbers.flatMap (encode width)).length = numbers.length * width := by
  induction numbers with
  | nil => simp
  | cons n numbers ih => simp [ih, Nat.succ_mul, Nat.add_comm]

/-- Reading back what was written gives the number modulo the width. -/
theorem decode_encode (width n : Nat) :
    decode (encode width n) = n % Nat.pow 256 width := by
  induction width generalizing n with
  | zero => simp [encode, decode, Nat.mod_one]
  | succ width ih =>
      simp only [encode, decode, ih, UInt8.toNat_ofNat', Nat.reducePow,
        Nat.pow_eq]
      rw [Nat.pow_succ, Nat.mul_comm (256 ^ width), Nat.mod_mul]

/-- Writing what was read gives the same bytes. -/
theorem encode_decode (bs : Bytes) : encode bs.length (decode bs) = bs := by
  induction bs with
  | nil => rfl
  | cons b bs ih =>
      have hb : b.toNat < 256 := b.toNat_lt
      have hlow : UInt8.ofNat (b.toNat + 256 * decode bs) = b := by
        apply UInt8.toNat_inj.mp
        rw [UInt8.toNat_ofNat']
        omega
      have hhigh : (b.toNat + 256 * decode bs) / 256 = decode bs := by
        omega
      simp only [decode, List.length_cons, encode, hlow, hhigh, ih]

/-- As many bytes tell a number apart from all greater ones. -/
theorem decode_lt (bs : Bytes) : decode bs < Nat.pow 256 bs.length := by
  induction bs with
  | nil => simp [decode]
  | cons b bs ih =>
      have hb : b.toNat < 256 := b.toNat_lt
      simp only [decode, List.length_cons, Nat.pow_eq, Nat.pow_succ] at *
      omega

end LittleEndian

end DetectorHeader
