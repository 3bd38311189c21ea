import Mathlib.Data.List.Basic

/-!
# Byte-level text checks

Two library decoders that the client and the Nitro wire format run over raw bytes:
`hex::decode`, which turns a policy's runtime-hash string into the bytes compared with the
certificate extension, and the UTF-8 validation behind `std::str::from_utf8` and
`String::from_utf8`. A Rust string is held here as its UTF-8 bytes, as Rust holds it.
The client's `print_hex` is the encoder that `hex::decode` inverts.
-/

namespace Veracruz.Bytes

/-- `hex::FromHexError`. -/
inductive FromHexError
  | invalidHexCharacter (c : Char) (index : Nat)
  | oddLength
  deriving DecidableEq, Repr

/-- The hex crate's `val`: the value of one hex digit, or the error naming the offending
character and its index in the input. -/
def hexVal (c : UInt8) (idx : Nat) : Except FromHexError Nat :=
  let n := c.toNat
  if 65 ≤ n ∧ n ≤ 70 then .ok (n - 55)
  else if 97 ≤ n ∧ n ≤ 102 then .ok (n - 87)
  else if 48 ≤ n ∧ n ≤ 57 then .ok (n - 48)
  else .error (.invalidHexCharacter (Char.ofNat n) idx)

/-- The chunk loop of `hex::decode`: pair `i` holds the digits at `2 * i` and `2 * i + 1`,
and the first bad digit, in input order, is the error. -/
def decodePairs : Nat → List UInt8 → Except FromHexError (List UInt8)
  | i, hi :: lo :: rest => do
    let h ← hexVal hi (2 * i)
    let l ← hexVal lo (2 * i + 1)
    let r ← decodePairs (i + 1) rest
    pure (UInt8.ofNat (h * 16 + l) :: r)
  | _, _ => .ok []

/-- `hex::decode`: an odd-length input is refused before any digit is read. -/
def hexDecode (s : List UInt8) : Except FromHexError (List UInt8) :=
  if s.length % 2 ≠ 0 then .error .oddLength else decodePairs 0 s

/-- The lower-case hex digit of a value below `16`, as `{:x}` prints it. -/
def hexDigit (d : Nat) : UInt8 :=
  if d < 10 then UInt8.ofNat (48 + d) else UInt8.ofNat (87 + d)

/-- The client's `print_hex`: each byte as two lower-case hex digits, `{:02x}`. -/
def printHex : List UInt8 → List UInt8
  | [] => []
  | b :: bs => hexDigit (b.toNat / 16) :: hexDigit (b.toNat % 16) :: printHex bs

theorem hexVal_hexDigit {d : Nat} (hd : d < 16) (i : Nat) : hexVal (hexDigit d) i = .ok d := by
  have hdigit : (hexDigit d).toNat = if d < 10 then 48 + d else 87 + d := by
    unfold hexDigit
    split <;> exact UInt8.toNat_ofNat_of_lt (by simp only [UInt8.size]; omega)
  simp only [hexVal, hdigit]
  split_ifs <;> first | omega | exact congrArg Except.ok (by omega)

theorem length_printHex (bs : List UInt8) : (printHex bs).length = 2 * bs.length := by
  induction bs with
  | nil => rfl
  | cons b bs ih => simp only [printHex, List.length_cons, ih]; omega

theorem decodePairs_printHex (i : Nat) (bs : List UInt8) :
    decodePairs i (printHex bs) = .ok bs := by
  induction bs generalizing i with
  | nil => rfl
  | cons b bs ih =>
    have hb : b.toNat < 256 := b.toNat_lt_size
    have hbyte : UInt8.ofNat (b.toNat / 16 * 16 + b.toNat % 16) = b :=
      UInt8.toNat.inj ((UInt8.toNat_ofNat_of_lt (by simp only [UInt8.size]; omega)).trans
        (by omega))
    simp only [printHex, decodePairs, hexVal_hexDigit (by omega : b.toNat / 16 < 16),
      hexVal_hexDigit (Nat.mod_lt _ (by omega) : b.toNat % 16 < 16), ih]
    show Except.ok (UInt8.ofNat (b.toNat / 16 * 16 + b.toNat % 16) :: bs) = _
    rw [hbyte]

/-- Whatever `print_hex` prints, `hex::decode` reads back: it is a hex encoding of the bytes in
the form a policy's runtime hash takes. -/
theorem hexDecode_printHex (bs : List UInt8) : hexDecode (printHex bs) = .ok bs := by
  rw [hexDecode, if_neg (by rw [length_printHex]; omega), decodePairs_printHex]

-- ════════════════════════════════════════════════════════════════════════
-- UTF-8
-- ════════════════════════════════════════════════════════════════════════

/-- `core::str::Utf8Error`: the length of the valid prefix, and the length of the invalid
sequence after it (`none` when the input ends inside a sequence). -/
structure Utf8Error where
  validUpTo : Nat
  errorLen : Option Nat
  deriving DecidableEq, Repr

/-- A continuation byte, `0x80 ..= 0xBF`. -/
def isCont (b : UInt8) : Bool :=
  0x80 ≤ b.toNat && b.toNat ≤ 0xBF

/-- The second byte of a three-byte sequence, which also excludes overlong encodings and
the surrogates. -/
def secondOfThree (b₀ b₁ : Nat) : Bool :=
  (b₀ == 0xE0 && 0xA0 ≤ b₁ && b₁ ≤ 0xBF) ||
    (0xE1 ≤ b₀ && b₀ ≤ 0xEC && 0x80 ≤ b₁ && b₁ ≤ 0xBF) ||
    (b₀ == 0xED && 0x80 ≤ b₁ && b₁ ≤ 0x9F) ||
    (0xEE ≤ b₀ && b₀ ≤ 0xEF && 0x80 ≤ b₁ && b₁ ≤ 0xBF)

/-- The second byte of a four-byte sequence, which also excludes overlong encodings and
code points past `U+10FFFF`. -/
def secondOfFour (b₀ b₁ : Nat) : Bool :=
  (b₀ == 0xF0 && 0x90 ≤ b₁ && b₁ ≤ 0xBF) ||
    (0xF1 ≤ b₀ && b₀ ≤ 0xF3 && 0x80 ≤ b₁ && b₁ ≤ 0xBF) ||
    (b₀ == 0xF4 && 0x80 ≤ b₁ && b₁ ≤ 0x8F)

/-- `run_utf8_validation` from `core::str`, one sequence at a time from offset `i`: the first
byte fixes the sequence's width, and the error reports the offset of the sequence and how
many of its bytes were read before it failed. -/
def validateUtf8 (i : Nat) : List UInt8 → Except Utf8Error Unit
  | [] => .ok ()
  | b₀ :: rest =>
    let n := b₀.toNat
    let fail (len : Option Nat) : Except Utf8Error Unit := .error ⟨i, len⟩
    if n < 0x80 then validateUtf8 (i + 1) rest
    else if 0xC2 ≤ n ∧ n ≤ 0xDF then
      match rest with
      | [] => fail none
      | b₁ :: rest =>
        if isCont b₁ then validateUtf8 (i + 2) rest else fail (some 1)
    else if 0xE0 ≤ n ∧ n ≤ 0xEF then
      match rest with
      | [] => fail none
      | b₁ :: rest =>
        if !secondOfThree n b₁.toNat then fail (some 1) else
        match rest with
        | [] => fail none
        | b₂ :: rest => if isCont b₂ then validateUtf8 (i + 3) rest else fail (some 2)
    else if 0xF0 ≤ n ∧ n ≤ 0xF4 then
      match rest with
      | [] => fail none
      | b₁ :: rest =>
        if !secondOfFour n b₁.toNat then fail (some 1) else
        match rest with
        | [] => fail none
        | b₂ :: rest =>
          if !isCont b₂ then fail (some 2) else
          match rest with
          | [] => fail none
          | b₃ :: rest => if isCont b₃ then validateUtf8 (i + 4) rest else fail (some 3)
    else fail (some 1)

/-- `std::str::from_utf8`: the same bytes, read as a string slice, when they are valid. -/
def fromUtf8 (bs : List UInt8) : Except Utf8Error (List UInt8) :=
  (validateUtf8 0 bs).map fun _ => bs

/-- Whether the bytes are well-formed UTF-8, the invariant of a Rust `String`. -/
def Utf8Valid (bs : List UInt8) : Prop :=
  (validateUtf8 0 bs).toBool = true

instance (bs : List UInt8) : Decidable (Utf8Valid bs) :=
  inferInstanceAs (Decidable ((validateUtf8 0 bs).toBool = true))

theorem utf8Valid_iff_fromUtf8 {bs : List UInt8} : Utf8Valid bs ↔ fromUtf8 bs = .ok bs := by
  unfold fromUtf8 Utf8Valid
  cases validateUtf8 0 bs <;> simp [Except.map, Except.toBool]

theorem fromUtf8_eq_ok_iff {bs s : List UInt8} :
    fromUtf8 bs = .ok s ↔ Utf8Valid bs ∧ s = bs := by
  unfold fromUtf8 Utf8Valid
  cases validateUtf8 0 bs <;> simp [Except.map, Except.toBool, eq_comm]

end Veracruz.Bytes
