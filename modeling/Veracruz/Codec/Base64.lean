import Veracruz.Codec.Text

/-!
# Base64

`base64::encode` and `base64::decode` with the crate's standard configuration, which the
relay uses for every TLS record it carries: the standard alphabet, `=` padding on encoding,
and a decoder that takes the final group with or without its padding but refuses a final
symbol whose unused low bits are not zero.

## Main results

- `decode_encode` — decoding inverts encoding on every byte string.
- `encode_isToken` — a non-empty encoding is a single whitespace-free token.
-/

namespace Veracruz.Base64

open Veracruz.Text

/-- The standard alphabet: `A`–`Z`, `a`–`z`, `0`–`9`, `+`, `/`. -/
def symbol (i : Nat) : Char :=
  if i < 26 then Char.ofNat (65 + i) else if i < 52 then Char.ofNat (71 + i)
  else if i < 62 then Char.ofNat (i - 4) else if i = 62 then '+' else '/'

/-- The six-bit value of an alphabet symbol; `none` for anything else, padding included. -/
def symbolValue (c : Char) : Option Nat :=
  let n := c.toNat
  if 65 ≤ n ∧ n ≤ 90 then some (n - 65) else if 97 ≤ n ∧ n ≤ 122 then some (n - 71)
  else if 48 ≤ n ∧ n ≤ 57 then some (n + 4) else if n = 43 then some 62
  else if n = 47 then some 63 else none

/-- `base64::encode`: each three bytes become four symbols; a final one or two bytes are
padded with `=` to a full group. -/
def encode : List UInt8 → List Char
  | [] => []
  | [a] => [symbol (a.toNat / 4), symbol (a.toNat % 4 * 16), '=', '=']
  | [a, b] =>
    [symbol (a.toNat / 4), symbol (a.toNat % 4 * 16 + b.toNat / 16),
      symbol (b.toNat % 16 * 4), '=']
  | a :: b :: c :: rest =>
    symbol (a.toNat / 4) :: symbol (a.toNat % 4 * 16 + b.toNat / 16) ::
      symbol (b.toNat % 16 * 4 + c.toNat / 64) :: symbol (c.toNat % 64) :: encode rest

/-- A final group of two symbols carries one byte; the low four bits of the second symbol
must be zero. -/
def decodeOne (a b : Char) : Option (List UInt8) := do
  let va ← symbolValue a
  let vb ← symbolValue b
  if vb % 16 = 0 then some [UInt8.ofNat (va * 4 + vb / 16)] else none

/-- A final group of three symbols carries two bytes; the low two bits of the third symbol
must be zero. -/
def decodeTwo (a b c : Char) : Option (List UInt8) := do
  let va ← symbolValue a
  let vb ← symbolValue b
  let vc ← symbolValue c
  if vc % 4 = 0 then some [UInt8.ofNat (va * 4 + vb / 16), UInt8.ofNat (vb % 16 * 16 + vc / 4)]
  else none

/-- A full group of four symbols carries three bytes. -/
def decodeThree (a b c d : Char) : Option (List UInt8) := do
  let va ← symbolValue a
  let vb ← symbolValue b
  let vc ← symbolValue c
  let vd ← symbolValue d
  some [UInt8.ofNat (va * 4 + vb / 16), UInt8.ofNat (vb % 16 * 16 + vc / 4),
    UInt8.ofNat (vc % 4 * 64 + vd)]

/-- The last group of the input, padded or not. -/
def decodeFinal : List Char → Option (List UInt8)
  | [a, b] => decodeOne a b
  | [a, b, c] => if c = '=' then decodeOne a b else decodeTwo a b c
  | [a, b, c, d] =>
    if d = '=' then (if c = '=' then decodeOne a b else decodeTwo a b c)
    else decodeThree a b c d
  | _ => none

/-- `base64::decode`: full groups while more input follows them, then the final group. -/
def decode : List Char → Option (List UInt8)
  | [] => some []
  | a :: b :: c :: d :: rest =>
    match rest with
    | [] => decodeFinal [a, b, c, d]
    | _ :: _ => do
      let q ← decodeThree a b c d
      let r ← decode rest
      some (q ++ r)
  | final => decodeFinal final

theorem symbolValue_symbol_of_lt : ∀ i, i < 64 → symbolValue (symbol i) = some i := by
  decide

theorem symbol_ne_pad : ∀ i, i < 64 → symbol i ≠ '=' := by
  decide

theorem isWhitespace_symbol : ∀ i, i < 64 → isWhitespace (symbol i) = false := by
  decide

/-- A byte is rebuilt from any expression of its value. -/
theorem ofNat_eq_of_toNat (b : UInt8) {n : Nat} (h : n = b.toNat) : UInt8.ofNat n = b := by
  subst h
  exact UInt8.toNat.inj (UInt8.toNat_ofNat_of_lt b.toNat_lt_size)

section Groups

variable (a b c : UInt8)

theorem decodeOne_encode :
    decodeOne (symbol (a.toNat / 4)) (symbol (a.toNat % 4 * 16)) = some [a] := by
  have ha : a.toNat < 256 := a.toNat_lt_size
  simp only [decodeOne, symbolValue_symbol_of_lt _ (by omega : a.toNat / 4 < 64),
    symbolValue_symbol_of_lt _ (by omega : a.toNat % 4 * 16 < 64)]
  simp only [Option.bind_eq_bind, Option.some_bind]
  rw [if_pos (by omega), ofNat_eq_of_toNat a (by omega)]

theorem decodeTwo_encode :
    decodeTwo (symbol (a.toNat / 4)) (symbol (a.toNat % 4 * 16 + b.toNat / 16))
      (symbol (b.toNat % 16 * 4)) = some [a, b] := by
  have ha : a.toNat < 256 := a.toNat_lt_size
  have hb : b.toNat < 256 := b.toNat_lt_size
  simp only [decodeTwo, symbolValue_symbol_of_lt _ (by omega : a.toNat / 4 < 64),
    symbolValue_symbol_of_lt _ (by omega : a.toNat % 4 * 16 + b.toNat / 16 < 64),
    symbolValue_symbol_of_lt _ (by omega : b.toNat % 16 * 4 < 64)]
  simp only [Option.bind_eq_bind, Option.some_bind]
  rw [if_pos (by omega), ofNat_eq_of_toNat a (by omega), ofNat_eq_of_toNat b (by omega)]

theorem decodeThree_encode :
    decodeThree (symbol (a.toNat / 4)) (symbol (a.toNat % 4 * 16 + b.toNat / 16))
      (symbol (b.toNat % 16 * 4 + c.toNat / 64)) (symbol (c.toNat % 64)) = some [a, b, c] := by
  have ha : a.toNat < 256 := a.toNat_lt_size
  have hb : b.toNat < 256 := b.toNat_lt_size
  have hc : c.toNat < 256 := c.toNat_lt_size
  simp only [decodeThree, symbolValue_symbol_of_lt _ (by omega : a.toNat / 4 < 64),
    symbolValue_symbol_of_lt _ (by omega : a.toNat % 4 * 16 + b.toNat / 16 < 64),
    symbolValue_symbol_of_lt _ (by omega : b.toNat % 16 * 4 + c.toNat / 64 < 64),
    symbolValue_symbol_of_lt _ (by omega : c.toNat % 64 < 64)]
  simp only [Option.bind_eq_bind, Option.some_bind]
  rw [ofNat_eq_of_toNat a (by omega), ofNat_eq_of_toNat b (by omega),
    ofNat_eq_of_toNat c (by omega)]

end Groups

theorem encode_eq_nil_iff {bs : List UInt8} : encode bs = [] ↔ bs = [] := by
  match bs with
  | [] | [_] | [_, _] | _ :: _ :: _ :: _ => simp [encode]

/-- Decoding inverts encoding on every byte string. -/
theorem decode_encode (bs : List UInt8) : decode (encode bs) = some bs := by
  induction bs using encode.induct with
  | case1 => simp [encode, decode]
  | case2 a => simp [encode, decode, decodeFinal, decodeOne_encode]
  | case3 a b =>
    have hb : b.toNat < 256 := b.toNat_lt_size
    simp [encode, decode, decodeFinal, decodeTwo_encode,
      symbol_ne_pad (b.toNat % 16 * 4) (by omega)]
  | case4 a b c rest ih =>
    have hc : c.toNat < 256 := c.toNat_lt_size
    cases h : encode rest with
    | nil =>
      rw [encode_eq_nil_iff.mp h]
      simp [encode, decode, decodeFinal, decodeThree_encode,
        symbol_ne_pad (c.toNat % 64) (by omega)]
    | cons x xs =>
      rw [encode, h, decode, decodeThree_encode]
      simp [← h, ih]

/-- Every symbol of an encoding is an alphabet symbol or padding. -/
theorem mem_encode {bs : List UInt8} {c : Char} (hc : c ∈ encode bs) :
    c = '=' ∨ ∃ i < 64, c = symbol i := by
  induction bs using encode.induct with
  | case1 => simp [encode] at hc
  | case2 a =>
    have ha : a.toNat < 256 := a.toNat_lt_size
    simp only [encode, List.mem_cons, List.mem_singleton, List.not_mem_nil, or_false] at hc
    rcases hc with rfl | rfl | rfl | rfl <;> first | exact .inl rfl | exact .inr ⟨_, by omega, rfl⟩
  | case3 a b =>
    have ha : a.toNat < 256 := a.toNat_lt_size
    have hb : b.toNat < 256 := b.toNat_lt_size
    simp only [encode, List.mem_cons, List.mem_singleton, List.not_mem_nil, or_false] at hc
    rcases hc with rfl | rfl | rfl | rfl <;> first | exact .inl rfl | exact .inr ⟨_, by omega, rfl⟩
  | case4 a b c' rest ih =>
    have ha : a.toNat < 256 := a.toNat_lt_size
    have hb : b.toNat < 256 := b.toNat_lt_size
    have hc' : c'.toNat < 256 := c'.toNat_lt_size
    simp only [encode, List.mem_cons] at hc
    rcases hc with rfl | rfl | rfl | rfl | hc
    all_goals first | exact ih hc | exact .inr ⟨_, by omega, rfl⟩

/-- A non-empty encoding is one token: the alphabet and the padding hold no whitespace. -/
theorem encode_isToken {bs : List UInt8} (hbs : bs ≠ []) : IsToken (encode bs) := by
  refine ⟨fun h => hbs (encode_eq_nil_iff.mp h), fun c hc => ?_⟩
  rcases mem_encode hc with rfl | ⟨i, hi, rfl⟩
  · rfl
  · exact isWhitespace_symbol i hi

end Veracruz.Base64
