import Mathlib.Algebra.Group.Nat.Basic
import Veracruz.Codec.Bytes

/-!
# bincode's default wire format

`send_message` and `receive_message` of `io-utils` call `bincode::serialize` and
`bincode::deserialize`. In bincode 1.x these use fixed-width little-endian integers, write
the length of a sequence or a string as a `u64`, the variant index of an enum as a `u32`, and
allow trailing bytes. A deserializer reads its value from the front of the input and leaves
the rest; `deserialize` drops what is left.

Each reader is paired with the writer it inverts: `Inverts read write` says that `read`
succeeds on exactly the byte strings that start with `write` of the value it returns. One
such statement gives both the round trip and the canonicity of the format, and it composes
field by field.

## Main results

- `inverts_readFixed` — the integers, read with `read_exact`.
- `Inverts.elements`, `Inverts.vec` — sequences, whatever their element type.
- `inverts_deserializeString` — strings: the bytes of a `u64`-prefixed UTF-8 buffer.
- `Truncates.bind`, `Truncates.vec`, `truncates_deserializeString` — on every proper prefix
  of an encoding the reader fails with `UnexpectedEof`.
- `NoCustom.vec`, `noCustom_deserializeString` — the field readers never raise serde's
  `Custom` error.
-/

namespace Veracruz.Bincode

open Veracruz.Bytes

/-- The errors of bincode and serde that these deserializers raise. -/
inductive ErrorKind
  /-- `Io(UnexpectedEof)`: the input ends inside a value. -/
  | unexpectedEof
  /-- `InvalidUtf8Encoding`: the bytes of a string are not UTF-8. -/
  | invalidUtf8Encoding (e : Utf8Error)
  /-- `Custom`: a message from serde's generated code. -/
  | custom (msg : String)
  deriving DecidableEq, Repr

/-- A deserializer: it reads a value from the front of the input and leaves the rest. -/
abbrev Reader (α : Type) := StateT (List UInt8) (Except ErrorKind) α

/-- A Rust `Vec`: a list whose length fits the `u64` bincode writes in front of it. -/
structure RustVec (α : Type) where
  toList : List α
  length_lt : toList.length < UInt64.size
  deriving DecidableEq

/-- A Rust `String`: a byte vector that is UTF-8. -/
structure RustString where
  bytes : RustVec UInt8
  valid : Utf8Valid bytes.toList
  deriving DecidableEq

-- ════════════════════════════════════════════════════════════════════════
-- Little-endian integers
-- ════════════════════════════════════════════════════════════════════════

/-- The `w` little-endian bytes of `n`, as `byteorder` writes a `w`-byte integer. -/
def leBytes : Nat → Nat → List UInt8
  | 0, _ => []
  | w + 1, n => UInt8.ofNat n :: leBytes w (n / 256)

/-- The number that little-endian bytes stand for. -/
def leValue : List UInt8 → Nat
  | [] => 0
  | b :: bs => b.toNat + 256 * leValue bs

@[simp] theorem length_leBytes (w n : Nat) : (leBytes w n).length = w := by
  induction w generalizing n with
  | zero => rfl
  | succ w ih => simp [leBytes, ih]

theorem toNat_ofNat_byte (n : Nat) : (UInt8.ofNat n).toNat = n % 256 :=
  BitVec.toNat_ofNat n 8

theorem leValue_lt (bs : List UInt8) : leValue bs < 256 ^ bs.length := by
  induction bs with
  | nil => simp [leValue]
  | cons b bs ih =>
    have hb : b.toNat < 256 := b.toNat_lt_size
    rw [leValue, List.length_cons, Nat.pow_succ']
    omega

theorem leValue_leBytes (w n : Nat) : leValue (leBytes w n) = n % 256 ^ w := by
  induction w generalizing n with
  | zero => simp [leBytes, leValue, Nat.mod_one]
  | succ w ih => rw [leBytes, leValue, ih, toNat_ofNat_byte, Nat.pow_succ', Nat.mod_mul]

theorem leBytes_leValue (bs : List UInt8) : leBytes bs.length (leValue bs) = bs := by
  induction bs with
  | nil => rfl
  | cons b bs ih =>
    have hb : b.toNat < 256 := b.toNat_lt_size
    have hdiv : (b.toNat + 256 * leValue bs) / 256 = leValue bs := by omega
    have hmod : UInt8.ofNat (b.toNat + 256 * leValue bs) = b :=
      UInt8.toNat.inj (by rw [toNat_ofNat_byte]; omega)
    rw [List.length_cons, leBytes, leValue, hdiv, hmod, ih]

-- ════════════════════════════════════════════════════════════════════════
-- Readers
-- ════════════════════════════════════════════════════════════════════════

section Reader

variable {α β : Type} {bs rest : List UInt8}

theorem bind_eq_ok_iff (x : Reader α) (f : α → Reader β) {b : β} :
    (x >>= f) bs = .ok (b, rest) ↔ ∃ a r, x bs = .ok (a, r) ∧ f a r = .ok (b, rest) := by
  show (x bs >>= fun p => f p.1 p.2) = _ ↔ _
  rcases x bs with e | ⟨a, r⟩
  · simp [bind, Except.bind]
  · exact ⟨fun h => ⟨a, r, rfl, h⟩, fun ⟨_, _, h, hf⟩ => by cases h; exact hf⟩

theorem pure_eq_ok_iff (a b : α) : (pure a : Reader α) bs = .ok (b, rest) ↔ a = b ∧ bs = rest := by
  show Except.ok (a, bs) = _ ↔ _
  simp

theorem map_eq_ok_iff (f : α → β) (x : Reader α) {b : β} :
    (f <$> x) bs = .ok (b, rest) ↔ ∃ a, x bs = .ok (a, rest) ∧ f a = b := by
  show (x bs >>= fun p => pure (f p.1, p.2)) = _ ↔ _
  rcases x bs with e | ⟨a, r⟩
  · simp [bind, Except.bind]
  · simp only [bind, Except.bind, pure, Except.pure, Except.ok.injEq, Prod.mk.injEq]
    exact ⟨fun ⟨hb, hr⟩ => ⟨a, ⟨rfl, hr⟩, hb⟩, fun ⟨_, ⟨ha, hr⟩, hb⟩ => ⟨ha ▸ hb, hr⟩⟩

theorem throw_ne_ok (e : ErrorKind) (p : α × List UInt8) : (throw e : Reader α) bs ≠ .ok p :=
  nofun

end Reader

/-- `read` inverts `write` exactly: it succeeds on a byte string precisely when the string
starts with the encoding of the value it returns. -/
def Inverts {α : Type} (read : Reader α) (write : α → List UInt8) : Prop :=
  ∀ bs a rest, read bs = .ok (a, rest) ↔ bs = write a ++ rest

section Inverts

variable {α β γ : Type} {read : Reader α} {write : α → List UInt8}

/-- The round trip: a reader reads back what its writer wrote, and leaves what follows. -/
theorem Inverts.read_append (h : Inverts read write) (a : α) (rest : List UInt8) :
    read (write a ++ rest) = .ok (a, rest) :=
  (h _ _ _).mpr rfl

/-- A reader that inverts an injective writer: no two values share an encoding. -/
theorem Inverts.injective (h : Inverts read write) : Function.Injective write := by
  intro a b hab
  have ha := h.read_append a []
  rw [hab, h.read_append b []] at ha
  simpa using ha.symm

/-- Two fields read in turn and combined by `f`. -/
theorem Inverts.bind_pair {read' : Reader β} {write' : β → List UInt8} (h : Inverts read write)
    (h' : Inverts read' write') (f : α → β → γ) (bs : List UInt8) (c : γ) (rest : List UInt8) :
    (do let a ← read; let b ← read'; pure (f a b)) bs = .ok (c, rest) ↔
      ∃ a b, f a b = c ∧ bs = write a ++ write' b ++ rest := by
  simp only [bind_eq_ok_iff, pure_eq_ok_iff, h _, h' _, List.append_assoc]
  constructor
  · rintro ⟨a, _, rfl, b, _, rfl, rfl, rfl⟩
    exact ⟨a, b, rfl, rfl⟩
  · rintro ⟨a, b, rfl, rfl⟩
    exact ⟨a, _, rfl, b, _, rfl, rfl, rfl⟩

/-- One field, wrapped by `f`. -/
theorem Inverts.map (h : Inverts read write) (f : α → γ) (bs : List UInt8) (c : γ)
    (rest : List UInt8) :
    (f <$> read) bs = .ok (c, rest) ↔ ∃ a, f a = c ∧ bs = write a ++ rest := by
  simp only [map_eq_ok_iff, h _, and_comm]

end Inverts

-- ════════════════════════════════════════════════════════════════════════
-- Primitives
-- ════════════════════════════════════════════════════════════════════════

/-- `read_exact` of `n` bytes from bincode's `SliceReader`. -/
def readExact (n : Nat) : Reader {b : List UInt8 // b.length = n} := fun bs =>
  if h : n ≤ bs.length then .ok (⟨bs.take n, List.length_take_of_le h⟩, bs.drop n)
  else .error .unexpectedEof

theorem inverts_readExact (n : Nat) : Inverts (readExact n) Subtype.val := by
  intro bs b rest
  unfold readExact
  split
  · constructor
    · intro h
      simp only [Except.ok.injEq, Prod.mk.injEq] at h
      rw [← h.1, ← h.2, List.take_append_drop]
    · rintro rfl
      have hn : b.1.length = n := b.2
      simp only [Except.ok.injEq, Prod.mk.injEq, List.take_left' hn, List.drop_left' hn]
  · refine ⟨nofun, fun hbs => ?_⟩
    have := congrArg List.length hbs
    simp only [List.length_append, b.2] at this
    omega

/-- A fixed-width value: `n` bytes read with `read_exact`, then decoded. -/
def readFixed {α : Type} (n : Nat) (decode : List UInt8 → α) : Reader α := do
  let b ← readExact n
  pure (decode b.1)

theorem inverts_readFixed {α : Type} {n : Nat} {decode : List UInt8 → α}
    {encode : α → List UInt8} (hlen : ∀ a, (encode a).length = n)
    (hde : ∀ a, decode (encode a) = a)
    (hed : ∀ b : List UInt8, b.length = n → encode (decode b) = b) :
    Inverts (readFixed n decode) encode := by
  intro bs a rest
  simp only [readFixed, bind_eq_ok_iff, pure_eq_ok_iff, inverts_readExact n _]
  constructor
  · rintro ⟨b, _, rfl, rfl, rfl⟩
    rw [hed b.1 b.2]
  · rintro rfl
    exact ⟨⟨encode a, hlen a⟩, rest, rfl, hde a, rfl⟩

/-- `deserialize_u8`. -/
def deserializeU8 : Reader UInt8
  | [] => .error .unexpectedEof
  | b :: rest => .ok (b, rest)

/-- `serialize_u8`. -/
def serializeU8 (b : UInt8) : List UInt8 := [b]

/-- `deserialize_u32`: four little-endian bytes. -/
def deserializeU32 : Reader UInt32 := readFixed 4 fun b => UInt32.ofNat (leValue b)

/-- `serialize_u32`. -/
def serializeU32 (n : UInt32) : List UInt8 := leBytes 4 n.toNat

/-- `deserialize_u64`: eight little-endian bytes. -/
def deserializeU64 : Reader UInt64 := readFixed 8 fun b => UInt64.ofNat (leValue b)

/-- `serialize_u64`. -/
def serializeU64 (n : UInt64) : List UInt8 := leBytes 8 n.toNat

/-- `deserialize_i32`: four little-endian bytes, two's complement. -/
def deserializeI32 : Reader (BitVec 32) := readFixed 4 fun b => BitVec.ofNat 32 (leValue b)

/-- `serialize_i32`. -/
def serializeI32 (x : BitVec 32) : List UInt8 := leBytes 4 x.toNat

theorem inverts_deserializeU8 : Inverts deserializeU8 serializeU8 := by
  intro bs a rest
  cases bs <;> simp [deserializeU8, serializeU8]

theorem inverts_deserializeU32 : Inverts deserializeU32 serializeU32 := by
  refine inverts_readFixed (fun _ => length_leBytes _ _) (fun n => ?_) (fun b hb => ?_)
  · rw [serializeU32, leValue_leBytes,
      Nat.mod_eq_of_lt (show n.toNat < 256 ^ 4 from n.toNat_lt_size)]
    exact UInt32.toNat.inj (UInt32.toNat_ofNat_of_lt n.toNat_lt_size)
  · have hlt : leValue b < UInt32.size := by have := leValue_lt b; rw [hb] at this; exact this
    rw [serializeU32, UInt32.toNat_ofNat_of_lt hlt, ← hb, leBytes_leValue]

theorem inverts_deserializeU64 : Inverts deserializeU64 serializeU64 := by
  refine inverts_readFixed (fun _ => length_leBytes _ _) (fun n => ?_) (fun b hb => ?_)
  · rw [serializeU64, leValue_leBytes,
      Nat.mod_eq_of_lt (show n.toNat < 256 ^ 8 from n.toNat_lt_size)]
    exact UInt64.toNat.inj (UInt64.toNat_ofNat_of_lt n.toNat_lt_size)
  · have hlt : leValue b < UInt64.size := by have := leValue_lt b; rw [hb] at this; exact this
    rw [serializeU64, UInt64.toNat_ofNat_of_lt hlt, ← hb, leBytes_leValue]

theorem inverts_deserializeI32 : Inverts deserializeI32 serializeI32 := by
  refine inverts_readFixed (fun _ => length_leBytes _ _) (fun x => ?_) (fun b hb => ?_)
  · rw [serializeI32, leValue_leBytes, Nat.mod_eq_of_lt (show x.toNat < 256 ^ 4 from x.isLt)]
    simp
  · have hlt : leValue b < 2 ^ 32 := by have := leValue_lt b; rw [hb] at this; exact this
    rw [serializeI32, BitVec.toNat_ofNat, Nat.mod_eq_of_lt hlt, ← hb, leBytes_leValue]

-- ════════════════════════════════════════════════════════════════════════
-- Sequences and strings
-- ════════════════════════════════════════════════════════════════════════

/-- `len` elements read one after another, as serde's `Vec` visitor pulls them from
bincode's sequence access. -/
def deserializeElements {α : Type} (read : Reader α) :
    (len : Nat) → Reader {xs : List α // xs.length = len}
  | 0 => pure ⟨[], rfl⟩
  | len + 1 => do
    let a ← read
    let as ← deserializeElements read len
    pure ⟨a :: as.1, congrArg Nat.succ as.2⟩

/-- `deserialize_seq` for a `Vec<T>`: the `u64` length, then that many elements. -/
def deserializeVec {α : Type} (read : Reader α) : Reader (RustVec α) := do
  let len ← deserializeU64
  let xs ← deserializeElements read len.toNat
  pure ⟨xs.1, Nat.lt_of_le_of_lt (Nat.le_of_eq xs.2) len.toNat_lt_size⟩

/-- `serialize_seq` for a `Vec<T>`: the length as a `u64`, then the elements. -/
def serializeVec {α : Type} (write : α → List UInt8) (v : RustVec α) : List UInt8 :=
  serializeU64 (UInt64.ofNat v.toList.length) ++ v.toList.flatMap write

/-- `String::from_utf8`: the vector itself, once checked to be UTF-8. -/
def RustString.fromUtf8 (v : RustVec UInt8) : Except Utf8Error RustString :=
  match h : validateUtf8 0 v.toList with
  | .ok () => .ok ⟨v, by rw [Utf8Valid, h]; rfl⟩
  | .error e => .error e

/-- The result of `String::from_utf8` as bincode reports it. -/
def liftUtf8 : Except Utf8Error RustString → Reader RustString
  | .ok s => pure s
  | .error e => throw (.invalidUtf8Encoding e)

/-- `deserialize_string`: bincode's `read_vec` reads the `u64` length and that many bytes,
then `String::from_utf8` checks them. -/
def deserializeString : Reader RustString := do
  let len ← deserializeU64
  let bytes ← readExact len.toNat
  liftUtf8 (RustString.fromUtf8
    ⟨bytes.1, Nat.lt_of_le_of_lt (Nat.le_of_eq bytes.2) len.toNat_lt_size⟩)

/-- `serialize_str`: the length as a `u64`, then the bytes. -/
def serializeString (s : RustString) : List UInt8 :=
  serializeU64 (UInt64.ofNat s.bytes.toList.length) ++ s.bytes.toList

/-- A length read back as a `u64` is the one written. -/
theorem ofNat_length_eq {α : Type} {xs : List α} {len : UInt64} (h : xs.length = len.toNat) :
    UInt64.ofNat xs.length = len := by
  rw [h]
  exact UInt64.toNat.inj (UInt64.toNat_ofNat_of_lt len.toNat_lt_size)

theorem validateUtf8_eq_ok {bs : List UInt8} (h : Utf8Valid bs) : validateUtf8 0 bs = .ok () := by
  unfold Utf8Valid at h
  cases hv : validateUtf8 0 bs <;> simp_all [Except.toBool]

theorem liftUtf8_eq_ok_iff {x : Except Utf8Error RustString} {bs rest : List UInt8}
    {s : RustString} : liftUtf8 x bs = .ok (s, rest) ↔ x = .ok s ∧ bs = rest := by
  cases x with
  | error e => exact ⟨nofun, nofun⟩
  | ok s' => simp [liftUtf8, pure_eq_ok_iff]

/-- `String::from_utf8` accepts exactly the strings' own vectors. -/
theorem RustString.fromUtf8_eq_ok_iff {v : RustVec UInt8} {s : RustString} :
    RustString.fromUtf8 v = .ok s ↔ s.bytes = v := by
  unfold RustString.fromUtf8
  split
  · refine ⟨fun h => by cases h; rfl, fun h => ?_⟩
    cases s
    subst h
    rfl
  · rename_i he
    refine ⟨nofun, fun h => ?_⟩
    have hv := validateUtf8_eq_ok s.valid
    rw [h, he] at hv
    cases hv

section Sequences

variable {α : Type} {read : Reader α} {write : α → List UInt8}

theorem Inverts.elements (h : Inverts read write) (len : Nat) :
    Inverts (deserializeElements read len) fun xs => xs.1.flatMap write := by
  induction len with
  | zero =>
    rintro bs ⟨xs, hxs⟩ rest
    rw [List.length_eq_zero] at hxs
    subst hxs
    simp [deserializeElements, pure_eq_ok_iff]
  | succ len ih =>
    rintro bs ⟨_ | ⟨x, xs⟩, hxs⟩ rest
    · simp at hxs
    simp only [deserializeElements, bind_eq_ok_iff, pure_eq_ok_iff, h _, ih _,
      Subtype.mk.injEq, List.cons.injEq, List.flatMap_cons, List.append_assoc]
    constructor
    · rintro ⟨a, _, rfl, ⟨as, has⟩, _, rfl, ⟨rfl, rfl⟩, rfl⟩
      rfl
    · rintro rfl
      exact ⟨x, _, rfl, ⟨xs, by simpa using hxs⟩, rest, rfl, ⟨rfl, rfl⟩, rfl⟩

theorem Inverts.vec (h : Inverts read write) :
    Inverts (deserializeVec read) (serializeVec write) := by
  intro bs v rest
  simp only [deserializeVec, serializeVec, bind_eq_ok_iff, pure_eq_ok_iff, inverts_deserializeU64 _,
    (h.elements _) _, List.append_assoc]
  constructor
  · rintro ⟨len, _, rfl, ⟨xs, hxs⟩, _, rfl, rfl, rfl⟩
    rw [ofNat_length_eq hxs]
  · rintro rfl
    exact ⟨_, _, rfl, ⟨v.toList, (UInt64.toNat_ofNat_of_lt v.length_lt).symm⟩, rest, rfl, rfl, rfl⟩

theorem inverts_deserializeString : Inverts deserializeString serializeString := by
  intro bs s rest
  simp only [deserializeString, serializeString, bind_eq_ok_iff, inverts_deserializeU64 _,
    inverts_readExact _ _, liftUtf8_eq_ok_iff, RustString.fromUtf8_eq_ok_iff, List.append_assoc]
  constructor
  · rintro ⟨len, _, rfl, ⟨bytes, hlen⟩, _, rfl, hs, rfl⟩
    rw [hs, ofNat_length_eq hlen]
  · rintro rfl
    exact ⟨_, _, rfl, ⟨s.bytes.toList, (UInt64.toNat_ofNat_of_lt s.bytes.length_lt).symm⟩,
      rest, rfl, rfl, rfl⟩

end Sequences

-- ════════════════════════════════════════════════════════════════════════
-- Truncated input
-- ════════════════════════════════════════════════════════════════════════

/-- `read` fails with `UnexpectedEof` on every proper prefix of an encoding: bincode's slice
reader runs out of bytes before the value is complete. -/
def Truncates {α : Type} (read : Reader α) (write : α → List UInt8) : Prop :=
  ∀ a bs u, bs ++ u = write a → u ≠ [] → read bs = .error .unexpectedEof

section Truncates

variable {α β : Type} {read : Reader α} {write : α → List UInt8}

/-- A cut inside `w₁ ++ w₂` falls strictly inside `w₁`, or after it. -/
theorem cut_append {bs u w₁ w₂ : List UInt8} (h : bs ++ u = w₁ ++ w₂) (hu : u ≠ []) :
    (∃ u', u' ≠ [] ∧ bs ++ u' = w₁) ∨ ∃ bs', bs = w₁ ++ bs' ∧ bs' ++ u = w₂ := by
  rcases List.append_eq_append_iff.mp h with ⟨a', rfl, rfl⟩ | ⟨c', rfl, rfl⟩
  · rcases a' with _ | ⟨x, a'⟩
    · exact .inr ⟨[], by simp, by simp⟩
    · exact .inl ⟨x :: a', List.cons_ne_nil x a', rfl⟩
  · exact .inr ⟨c', rfl, rfl⟩

/-- Nothing is a proper prefix of the empty encoding. -/
theorem not_cut_nil {bs u : List UInt8} (h : bs ++ u = []) (hu : u ≠ []) : False :=
  hu (List.append_eq_nil.mp h).2

theorem bind_eq_error {x : Reader α} {g : α → Reader β} {bs : List UInt8} {e : ErrorKind}
    (h : x bs = .error e) : (x >>= g) bs = .error e := by
  show (x bs >>= fun p => g p.1 p.2) = _
  rw [h]
  rfl

theorem map_eq_error {x : Reader α} (f : α → β) {bs : List UInt8} {e : ErrorKind}
    (h : x bs = .error e) : (f <$> x) bs = .error e := by
  show (x bs >>= fun p => pure (f p.1, p.2)) = _
  rw [h]
  rfl

/-- A reader and its continuation: a cut inside the reader's encoding fails in the reader,
a cut after it fails in the continuation. -/
theorem Truncates.bind (hinv : Inverts read write) (htr : Truncates read write)
    {g : α → Reader β} {a : α} {w : List UInt8}
    (hg : ∀ bs u, bs ++ u = w → u ≠ [] → g a bs = .error .unexpectedEof) {bs u : List UInt8}
    (h : bs ++ u = write a ++ w) (hu : u ≠ []) : (read >>= g) bs = .error .unexpectedEof := by
  rcases cut_append h hu with ⟨u', hu', hcut⟩ | ⟨bs', rfl, hcut⟩
  · exact bind_eq_error (htr a bs u' hcut hu')
  · show (read (write a ++ bs') >>= fun p => g p.1 p.2) = _
    rw [hinv.read_append]
    exact hg bs' u hcut hu

theorem truncates_readExact (n : Nat) : Truncates (readExact n) Subtype.val := by
  intro b bs u h hu
  have hlen := congrArg List.length h
  rw [List.length_append, b.2] at hlen
  have := List.length_pos.mpr hu
  simp only [readExact, dif_neg (show ¬ n ≤ bs.length by omega)]

theorem truncates_readFixed {n : Nat} {decode : List UInt8 → α} {encode : α → List UInt8}
    (hlen : ∀ a, (encode a).length = n) : Truncates (readFixed n decode) encode :=
  fun a bs u h hu => bind_eq_error (truncates_readExact n ⟨encode a, hlen a⟩ bs u h hu)

theorem truncates_deserializeU8 : Truncates deserializeU8 serializeU8 := by
  intro a bs u h hu
  rcases bs with _ | ⟨b, bs⟩
  · rfl
  · exact (not_cut_nil (List.cons.inj h).2 hu).elim

theorem truncates_deserializeU32 : Truncates deserializeU32 serializeU32 :=
  truncates_readFixed fun _ => length_leBytes _ _

theorem truncates_deserializeU64 : Truncates deserializeU64 serializeU64 :=
  truncates_readFixed fun _ => length_leBytes _ _

theorem truncates_deserializeI32 : Truncates deserializeI32 serializeI32 :=
  truncates_readFixed fun _ => length_leBytes _ _

theorem Truncates.elements (hinv : Inverts read write) (htr : Truncates read write)
    (len : Nat) : Truncates (deserializeElements read len) fun xs => xs.1.flatMap write := by
  induction len with
  | zero =>
    rintro ⟨xs, hxs⟩ bs u h hu
    rw [List.length_eq_zero] at hxs
    subst hxs
    exact (not_cut_nil h hu).elim
  | succ len ih =>
    rintro ⟨_ | ⟨x, xs⟩, hxs⟩ bs u h hu
    · simp at hxs
    simp only [List.flatMap_cons] at h
    rw [deserializeElements]
    exact Truncates.bind hinv htr (fun bs' u' h' hu' =>
      bind_eq_error (ih ⟨xs, by simpa using hxs⟩ bs' u' h' hu')) h hu

theorem Truncates.vec (hinv : Inverts read write) (htr : Truncates read write) :
    Truncates (deserializeVec read) (serializeVec write) :=
  fun v _ _ h hu => Truncates.bind inverts_deserializeU64 truncates_deserializeU64
    (fun bs' u' h' hu' => bind_eq_error (htr.elements hinv _
      ⟨v.toList, (UInt64.toNat_ofNat_of_lt v.length_lt).symm⟩ bs' u' h' hu')) h hu

theorem truncates_deserializeString : Truncates deserializeString serializeString :=
  fun s _ _ h hu => Truncates.bind inverts_deserializeU64 truncates_deserializeU64
    (fun bs' u' h' hu' => bind_eq_error (truncates_readExact _
      ⟨s.bytes.toList, (UInt64.toNat_ofNat_of_lt s.bytes.length_lt).symm⟩ bs' u' h' hu')) h hu

end Truncates

-- ════════════════════════════════════════════════════════════════════════
-- Errors of the field readers
-- ════════════════════════════════════════════════════════════════════════

/-- `read` never raises serde's `Custom` error: it fails only at the end of the input or on
bytes that are not UTF-8. -/
def NoCustom {α : Type} (read : Reader α) : Prop :=
  ∀ bs msg, read bs ≠ .error (.custom msg)

section NoCustom

variable {α β : Type}

theorem bind_eq_error_iff (x : Reader α) (g : α → Reader β) (bs : List UInt8) (e : ErrorKind) :
    (x >>= g) bs = .error e ↔ x bs = .error e ∨ ∃ a r, x bs = .ok (a, r) ∧ g a r = .error e := by
  show (x bs >>= fun p => g p.1 p.2) = _ ↔ _
  rcases x bs with e' | ⟨a, r⟩ <;> simp [bind, Except.bind, and_assoc]

theorem map_eq_error_iff (f : α → β) (x : Reader α) (bs : List UInt8) (e : ErrorKind) :
    (f <$> x) bs = .error e ↔ x bs = .error e := by
  show (x bs >>= fun p => pure (f p.1, p.2)) = _ ↔ _
  rcases x bs with e' | ⟨a, r⟩ <;> simp [bind, Except.bind, pure, Except.pure]

theorem NoCustom.bind {x : Reader α} {g : α → Reader β} (hx : NoCustom x)
    (hg : ∀ a, NoCustom (g a)) : NoCustom (x >>= g) := by
  intro bs msg h
  rcases (bind_eq_error_iff x g bs _).mp h with h | ⟨a, r, -, h⟩
  · exact hx bs msg h
  · exact hg a r msg h

theorem NoCustom.map {x : Reader α} (hx : NoCustom x) (f : α → β) : NoCustom (f <$> x) :=
  fun bs msg h => hx bs msg ((map_eq_error_iff f x bs _).mp h)

theorem noCustom_pure (a : α) : NoCustom (pure a : Reader α) :=
  fun _ _ => nofun

theorem noCustom_readExact (n : Nat) : NoCustom (readExact n) := by
  intro bs msg
  unfold readExact
  split <;> nofun

theorem noCustom_readFixed {n : Nat} {decode : List UInt8 → α} : NoCustom (readFixed n decode) :=
  (noCustom_readExact n).bind fun _ => noCustom_pure _

theorem noCustom_deserializeU8 : NoCustom deserializeU8 := by
  rintro (_ | ⟨b, bs⟩) msg <;> nofun

theorem noCustom_deserializeU32 : NoCustom deserializeU32 := noCustom_readFixed

theorem noCustom_deserializeU64 : NoCustom deserializeU64 := noCustom_readFixed

theorem noCustom_deserializeI32 : NoCustom deserializeI32 := noCustom_readFixed

theorem NoCustom.elements {read : Reader α} (h : NoCustom read) (len : Nat) :
    NoCustom (deserializeElements read len) := by
  induction len with
  | zero => exact noCustom_pure _
  | succ len ih => exact h.bind fun _ => ih.bind fun _ => noCustom_pure _

theorem NoCustom.vec {read : Reader α} (h : NoCustom read) : NoCustom (deserializeVec read) :=
  noCustom_deserializeU64.bind fun _ => (h.elements _).bind fun _ => noCustom_pure _

theorem noCustom_liftUtf8 (x : Except Utf8Error RustString) : NoCustom (liftUtf8 x) := by
  cases x with
  | ok s => exact noCustom_pure s
  | error e => exact fun _ _ => nofun

theorem noCustom_deserializeString : NoCustom deserializeString :=
  noCustom_deserializeU64.bind fun _ =>
    (noCustom_readExact _).bind fun _ => noCustom_liftUtf8 _

end NoCustom

end Veracruz.Bincode
