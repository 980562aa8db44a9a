/-
UTF-8. `encode` spells a text in bytes, `decode` reads a byte string back or
says where it stops being UTF-8 and why: either the bytes there cannot stand
(`Defect.invalid`, with how many of them are beyond saving), or the string
ends inside a character that is valid so far (`Defect.incomplete`).

`decode` accepts the shortest spelling of each Unicode scalar value and
nothing else, so overlong spellings, surrogates and values above U+10FFFF
are refused at their first byte.
-/
import DetectorHeader.Bytes

namespace DetectorHeader.Utf8

/-- Why a byte string stops being UTF-8. -/
inductive Defect
  /-- The bytes cannot stand; `length` of them, the longest valid beginning
  of a character, have to be given up before reading can go on. -/
  | invalid (length : Nat)
  /-- The string ends inside a character. -/
  | incomplete
  deriving DecidableEq

/-- Where a byte string stops being UTF-8. -/
structure Fault where
  /-- How many bytes before the fault are valid. -/
  validUpTo : Nat
  defect : Defect
  deriving DecidableEq

/-- The fault in words. -/
def Fault.message (fault : Fault) : String :=
  match fault.defect with
  | .invalid length =>
      s!"invalid utf-8 sequence of {length} bytes from index {fault.validUpTo}"
  | .incomplete =>
      s!"incomplete utf-8 byte sequence from index {fault.validUpTo}"

/-- The bytes of a text. -/
def encode (text : String) : Bytes :=
  text.toList.flatMap String.utf8EncodeChar

-- ============================================================== reading

/-- A byte that continues a character. -/
def isTail (b : UInt8) : Bool := 0x80 ≤ b && b ≤ 0xBF

/-- The six bits that a continuing byte carries. -/
def tailBits (b : UInt8) : Nat := b.toNat % 64

/-- The second bytes that may follow the first byte of a three-byte
character: they exclude overlong spellings and surrogates. -/
def isSecondOfThree (a b : UInt8) : Bool :=
  if a = 0xE0 then 0xA0 ≤ b && b ≤ 0xBF
  else if a = 0xED then 0x80 ≤ b && b ≤ 0x9F
  else isTail b

/-- The second bytes that may follow the first byte of a four-byte
character: they exclude overlong spellings and values above U+10FFFF. -/
def isSecondOfFour (a b : UInt8) : Bool :=
  if a = 0xF0 then 0x90 ≤ b && b ≤ 0xBF
  else if a = 0xF4 then 0x80 ≤ b && b ≤ 0x8F
  else isTail b

/-- Reads characters up to the end of the string. `at` counts the bytes read
before, `done` holds their characters, last first. -/
def decodeFrom (start : Nat) (done : List Char) :
    Bytes → Except Fault (List Char)
  | [] => .ok done.reverse
  | a :: bs =>
    if a < 0x80 then
      decodeFrom (start + 1) (Char.ofNat a.toNat :: done) bs
    else if 0xC2 ≤ a && a ≤ 0xDF then
      match bs with
      | [] => .error ⟨start, .incomplete⟩
      | b :: bs =>
        if isTail b then
          let c := Char.ofNat ((a.toNat - 0xC0) * 64 + tailBits b)
          decodeFrom (start + 2) (c :: done) bs
        else .error ⟨start, .invalid 1⟩
    else if 0xE0 ≤ a && a ≤ 0xEF then
      match bs with
      | [] => .error ⟨start, .incomplete⟩
      | b :: bs =>
        if isSecondOfThree a b then
          match bs with
          | [] => .error ⟨start, .incomplete⟩
          | c :: bs =>
            if isTail c then
              let x := Char.ofNat
                ((a.toNat - 0xE0) * 4096 + tailBits b * 64 + tailBits c)
              decodeFrom (start + 3) (x :: done) bs
            else .error ⟨start, .invalid 2⟩
        else .error ⟨start, .invalid 1⟩
    else if 0xF0 ≤ a && a ≤ 0xF4 then
      match bs with
      | [] => .error ⟨start, .incomplete⟩
      | b :: bs =>
        if isSecondOfFour a b then
          match bs with
          | [] => .error ⟨start, .incomplete⟩
          | c :: bs =>
            if isTail c then
              match bs with
              | [] => .error ⟨start, .incomplete⟩
              | d :: bs =>
                if isTail d then
                  let x := Char.ofNat ((a.toNat - 0xF0) * 262144
                    + tailBits b * 4096 + tailBits c * 64 + tailBits d)
                  decodeFrom (start + 4) (x :: done) bs
                else .error ⟨start, .invalid 3⟩
            else .error ⟨start, .invalid 2⟩
        else .error ⟨start, .invalid 1⟩
    else .error ⟨start, .invalid 1⟩

/-- The text that a byte string spells. -/
def decode (bytes : Bytes) : Except Fault String :=
  String.ofList <$> decodeFrom 0 [] bytes

end DetectorHeader.Utf8
