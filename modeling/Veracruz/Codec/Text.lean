import Mathlib.Data.Nat.Digits

/-!
# Text primitives of the relay frame

The two pieces of Rust's string library that `InsecureConnection::write` leans on to read
a relay response body: `str::split_whitespace` and `str::parse::<u32>`, together with the
decimal formatting `format!("{:}", id)` that produces the session id on the way out.

A Rust `&str` is modelled by its list of characters; every function here is structurally
recursive, so the model evaluates by `decide`.

## Main results

- `splitWhitespace_token_cons` — a token followed by a separator is split off whole.
- `parseU32_u32Display` — the decimal display of a `u32` parses back to it.
-/

namespace Veracruz.Text

/-- `char::is_whitespace`: the characters with the Unicode `White_Space` property. -/
def isWhitespace (c : Char) : Bool :=
  let n := c.toNat
  (9 ≤ n && n ≤ 13) || n == 32 || n == 0x85 || n == 0xA0 || n == 0x1680 ||
    (0x2000 ≤ n && n ≤ 0x200A) || n == 0x2028 || n == 0x2029 || n == 0x202F ||
    n == 0x205F || n == 0x3000

/-- `str::split_whitespace`, which Rust defines as `split(char::is_whitespace)` with the
empty pieces filtered out. -/
def splitWhitespace (s : List Char) : List (List Char) :=
  (s.splitOnP isWhitespace).filter (fun t => !t.isEmpty)

/-- A token: a non-empty text with no whitespace in it. -/
def IsToken (t : List Char) : Prop :=
  t ≠ [] ∧ ∀ c ∈ t, isWhitespace c = false

@[simp] theorem splitWhitespace_nil : splitWhitespace [] = [] := rfl

/-- A separator in front of the text produces only an empty piece, which is dropped. -/
theorem splitWhitespace_sep_cons {sep : Char} (hsep : isWhitespace sep = true)
    (rest : List Char) : splitWhitespace (sep :: rest) = splitWhitespace rest := by
  simp [splitWhitespace, hsep]

theorem splitWhitespace_token_cons {t : List Char} (ht : IsToken t) {sep : Char}
    (hsep : isWhitespace sep = true) (rest : List Char) :
    splitWhitespace (t ++ sep :: rest) = t :: splitWhitespace rest := by
  have hnot : ∀ c ∈ t, ¬isWhitespace c := fun c hc => by simp [ht.2 c hc]
  rw [splitWhitespace, List.splitOnP_first isWhitespace t hnot sep hsep rest]
  simp [splitWhitespace, List.isEmpty_iff, ht.1]

theorem splitWhitespace_token {t : List Char} (ht : IsToken t) : splitWhitespace t = [t] := by
  have hnot : ∀ c ∈ t, ¬isWhitespace c := fun c hc => by simp [ht.2 c hc]
  simp [splitWhitespace, List.splitOnP_eq_single _ _ hnot, List.isEmpty_iff, ht.1]

/-- A token followed by nothing, or by a separator, is split off whole. -/
theorem splitWhitespace_token_append {t : List Char} (ht : IsToken t) {rest : List Char}
    (hrest : ∀ c ∈ rest.head?, isWhitespace c = true) :
    splitWhitespace (t ++ rest) = t :: splitWhitespace rest := by
  cases rest with
  | nil => simpa using splitWhitespace_token ht
  | cons sep rest =>
    rw [splitWhitespace_token_cons ht (hrest sep rfl), splitWhitespace_sep_cons (hrest sep rfl)]

-- ════════════════════════════════════════════════════════════════════════
-- Decimal `u32`
-- ════════════════════════════════════════════════════════════════════════

/-- `format!("{:}", n)` for a `u32`: its decimal digits, most significant first. -/
def u32Display (n : UInt32) : List Char :=
  Nat.toDigits 10 n.toNat

/-- `char::to_digit(10)`. -/
def digitValue (c : Char) : Option Nat :=
  if 48 ≤ c.toNat ∧ c.toNat ≤ 57 then some (c.toNat - 48) else none

/-- The digit loop of `u32::from_str_radix`: `checked_mul` by the radix, then `checked_add`
of the digit, failing on a non-digit or on overflow past `u32::MAX`. The sum bound implies
the product bound, so one comparison covers both checks. -/
def accumulateDigits : Nat → List Char → Option Nat
  | acc, [] => some acc
  | acc, c :: cs =>
    match digitValue c with
    | none => none
    | some d => if acc * 10 + d < 2 ^ 32 then accumulateDigits (acc * 10 + d) cs else none

/-- `str::parse::<u32>`: an optional leading `+`, then at least one decimal digit, with the
value at most `u32::MAX`. -/
def parseU32 (s : List Char) : Option UInt32 :=
  let digits := match s with
    | '+' :: ds => ds
    | ds => ds
  if digits = [] then none else (accumulateDigits 0 digits).map UInt32.ofNat

theorem digitValue_digitChar : ∀ d, d < 10 → digitValue (Nat.digitChar d) = some d := by
  decide

theorem isWhitespace_digitChar : ∀ d, d < 10 → isWhitespace (Nat.digitChar d) = false := by
  decide

/-- Every character the formatter emits is a decimal digit. -/
theorem toDigitsCore_digits (f n : Nat) {ds : List Char}
    (hds : ∀ c ∈ ds, ∃ d < 10, c = Nat.digitChar d) :
    ∀ c ∈ Nat.toDigitsCore 10 f n ds, ∃ d < 10, c = Nat.digitChar d := by
  induction f generalizing n ds with
  | zero => exact hds
  | succ f ih =>
    have hcons : ∀ c ∈ Nat.digitChar (n % 10) :: ds, ∃ d < 10, c = Nat.digitChar d := by
      simpa using ⟨⟨n % 10, Nat.mod_lt _ (by omega), rfl⟩, hds⟩
    simp only [Nat.toDigitsCore]
    split
    · exact hcons
    · exact ih _ hcons

/-- Reading the digits back: with enough fuel, the digit loop recovers the formatted value
and continues with the text that followed it. -/
theorem accumulateDigits_toDigitsCore {f n : Nat} (hf : n < f) (hn : n < 2 ^ 32)
    (ds : List Char) :
    accumulateDigits 0 (Nat.toDigitsCore 10 f n ds) = accumulateDigits n ds := by
  induction f generalizing n ds with
  | zero => omega
  | succ f ih =>
    have hd := digitValue_digitChar (n % 10) (Nat.mod_lt _ (by omega))
    simp only [Nat.toDigitsCore]
    split
    · rw [Nat.mod_eq_of_lt (by omega : n < 10)] at hd ⊢
      simp only [accumulateDigits, hd]
      rw [if_pos (by omega), Nat.zero_mul, Nat.zero_add]
    · rw [ih (by omega) (by omega)]
      simp only [accumulateDigits, hd]
      rw [if_pos (by omega), show n / 10 * 10 + n % 10 = n by omega]

theorem toDigitsCore_ne_nil (f n : Nat) {ds : List Char} (hds : ds ≠ []) :
    Nat.toDigitsCore 10 f n ds ≠ [] := by
  induction f generalizing n ds with
  | zero => exact hds
  | succ f ih =>
    simp only [Nat.toDigitsCore]
    split
    · simp
    · exact ih _ (by simp)

theorem u32Display_digits (n : UInt32) : ∀ c ∈ u32Display n, ∃ d < 10, c = Nat.digitChar d :=
  toDigitsCore_digits _ _ (by simp)

theorem u32Display_isToken (n : UInt32) : IsToken (u32Display n) := by
  refine ⟨?_, fun c hc => ?_⟩
  · simp only [u32Display, Nat.toDigits, Nat.toDigitsCore]
    split
    · simp
    · exact toDigitsCore_ne_nil _ _ (by simp)
  · obtain ⟨d, hd, rfl⟩ := u32Display_digits n c hc
    exact isWhitespace_digitChar d hd

/-- The decimal display of every `u32` parses back to it. -/
theorem parseU32_u32Display (n : UInt32) : parseU32 (u32Display n) = some n := by
  obtain ⟨hne, -⟩ := u32Display_isToken n
  have hacc : accumulateDigits 0 (u32Display n) = some n.toNat := by
    rw [u32Display, Nat.toDigits, accumulateDigits_toDigitsCore (by omega) n.toNat_lt_size]
    rfl
  obtain ⟨c, cs, hcs⟩ := List.exists_cons_of_ne_nil hne
  have hplus : ∀ d, d < 10 → Nat.digitChar d ≠ '+' := by decide
  have hc : c ≠ '+' := by
    obtain ⟨d, hd, rfl⟩ := u32Display_digits n c (by simp [hcs])
    exact hplus d hd
  simp only [parseU32, hne, if_false]
  rw [hcs] at hacc ⊢
  simp [hc, hacc, -Nat.reducePow]
  exact UInt32.toNat.inj (UInt32.toNat_ofNat_of_lt n.toNat_lt_size)

end Veracruz.Text
