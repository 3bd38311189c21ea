import Veracruz.Client.Types

/-!
# The runtime-hash verifier

`check_runtime_hash` takes the single certificate the enclave presented in the TLS
handshake, looks up the Veracruz extension among its unrecognized extensions, and hands the
extension's bytes to `compare_runtime_hash`, which tries the policy's hash of each platform
in turn.

The loop of `compare_runtime_hash` skips a platform the policy names no hash for, but
returns the `hex::decode` error of the first malformed hash it meets: acceptance depends on
the order of the platforms as soon as one hash is malformed.

## Main results

- `compareRuntimeHashLoop_eq_ok_iff` — the loop accepts iff some platform's hash decodes to the
  received bytes and every earlier hash decodes.
- `runtime_hash_acceptance` — the same for `compare_runtime_hash`, and its order-free form
  when every hash in the policy is well-formed hex.
- `platform_cases` — what one platform does to the loop; the loop's outcomes are derived from
  it.
- `runtime_hash_outcomes` — when `compare_runtime_hash` raises each of its two errors.
-/

namespace Veracruz

open Veracruz.Bytes

/-- The loop of `compare_runtime_hash` over the platforms still to try. -/
def compareRuntimeHashLoop (policy : Policy) (received : List UInt8) :
    List Platform → Except VeracruzClientError Unit
  | [] => .error .noMatchingRuntimeIsolateHash
  | platform :: platforms =>
    match policy.runtimeManagerHash platform with
    | none => compareRuntimeHashLoop policy received platforms
    | some expected =>
      match hexDecode expected with
      | .error e => .error (.hexError e)
      | .ok expectedBytes =>
        if received = expectedBytes then .ok ()
        else compareRuntimeHashLoop policy received platforms

/-- `compare_runtime_hash`: Linux, then Nitro, then IceCap. -/
def compareRuntimeHash (policy : Policy) (received : List UInt8) :
    Except VeracruzClientError Unit :=
  compareRuntimeHashLoop policy received [.linux, .nitro, .iceCap]

/-- `check_runtime_hash`: exactly one chain, its first certificate, the extension under
the encoded id, and the comparison of its contents. Reading the extension's contents to
the end cannot fail. -/
def checkRuntimeHash (env : Env) (s : VeracruzClient) : Except VeracruzClientError Unit :=
  match s.peerCert with
  | none => .error .noPeerCertificatesError
  | some none => .error .unexpectedCertificateError
  | some (some []) => .error .unexpectedCertificateError
  | some (some (cert :: _)) =>
    match cert.endEntity with
    | .error e => .error (.webpkiError e)
    | .ok eeCert =>
      match eeCert.unrecognizedExtensions env.encodedExtensionId with
      | none => .error .runtimeHashExtensionMissingError
      | some extensionData => compareRuntimeHash s.policy extensionData

/-- The policy names no hash for the platform, or one that is well-formed hex. -/
def HashDecodes (policy : Policy) (p : Platform) : Prop :=
  ∀ h, policy.runtimeManagerHash p = some h → ∃ bytes, hexDecode h = .ok bytes

/-- The policy's hash for the platform decodes to exactly the received bytes. -/
def HashMatches (policy : Policy) (received : List UInt8) (p : Platform) : Prop :=
  ∃ h, policy.runtimeManagerHash p = some h ∧ hexDecode h = .ok received

/-- The policy's hash for the platform is malformed hex, `hex::decode` failing with `e`. -/
def HashMalformed (policy : Policy) (e : FromHexError) (p : Platform) : Prop :=
  ∃ h, policy.runtimeManagerHash p = some h ∧ hexDecode h = .error e

/-- The loop goes on past the platform: the policy names no hash for it, or a well-formed one
that decodes to other bytes. -/
def HashPasses (policy : Policy) (received : List UInt8) (p : Platform) : Prop :=
  HashDecodes policy p ∧ ¬ HashMatches policy received p

section Loop

variable (policy : Policy) (received : List UInt8)

/-- A split of `p :: ps` puts `p` first or in the prefix. -/
theorem exists_split_cons {P : List Platform → Platform → Prop} (p : Platform)
    (ps : List Platform) :
    (∃ pre q post, p :: ps = pre ++ q :: post ∧ P pre q) ↔
      P [] p ∨ ∃ pre q post, ps = pre ++ q :: post ∧ P (p :: pre) q := by
  constructor
  · rintro ⟨pre, q, post, hsplit, hP⟩
    rcases List.cons_eq_append_iff.mp hsplit with ⟨rfl, hq⟩ | ⟨pre', rfl, hps⟩
    · obtain ⟨rfl, -⟩ := List.cons.inj hq
      exact .inl hP
    · exact .inr ⟨pre', q, post, hps, hP⟩
  · rintro (hP | ⟨pre, q, post, rfl, hP⟩)
    · exact ⟨[], p, ps, rfl, hP⟩
    · exact ⟨p :: pre, q, post, rfl, hP⟩

/-- The loop accepts iff some platform's hash decodes to the received bytes and the hash of
every platform tried before it decodes. -/
theorem compareRuntimeHashLoop_eq_ok_iff (platforms : List Platform) :
    compareRuntimeHashLoop policy received platforms = .ok () ↔
      ∃ pre p post, platforms = pre ++ p :: post ∧ HashMatches policy received p ∧
        ∀ q ∈ pre, HashDecodes policy q := by
  induction platforms with
  | nil => simp [compareRuntimeHashLoop]
  | cons p ps ih =>
    rw [exists_split_cons]
    simp only [List.not_mem_nil, List.mem_cons, forall_eq_or_imp, IsEmpty.forall_iff,
      implies_true, and_true]
    cases hp : policy.runtimeManagerHash p with
    | none => simp [compareRuntimeHashLoop, hp, ih, HashMatches, HashDecodes]
    | some h =>
      cases hd : hexDecode h with
      | error e => simp [compareRuntimeHashLoop, hp, hd, HashMatches, HashDecodes]
      | ok bytes =>
        by_cases hr : received = bytes
        · subst hr
          simp [compareRuntimeHashLoop, hp, hd, HashMatches]
        · simp [compareRuntimeHashLoop, hp, hd, hr, ih, HashMatches, HashDecodes, Ne.symm hr]

/-- Each platform the loop tries lets it go on, or ends it with success, or with the
decoding error of the platform's hash. -/
theorem platform_cases (p : Platform) :
    HashPasses policy received p ∨ HashMatches policy received p ∨
      ∃ e, HashMalformed policy e p := by
  cases hp : policy.runtimeManagerHash p with
  | none => exact .inl ⟨by simp [HashDecodes, hp], by simp [HashMatches, hp]⟩
  | some h =>
    cases hd : hexDecode h with
    | error e => exact .inr (.inr ⟨e, h, hp, hd⟩)
    | ok bytes =>
      by_cases hr : received = bytes
      · exact .inr (.inl ⟨h, hp, hr ▸ hd⟩)
      · exact .inl ⟨by simp [HashDecodes, hp, hd], by simp [HashMatches, hp, hd, Ne.symm hr]⟩

variable {policy received} {p : Platform}

theorem HashPasses.not_malformed (h : HashPasses policy received p) (e : FromHexError) :
    ¬ HashMalformed policy e p := by
  rintro ⟨hash, hp, hd⟩
  obtain ⟨bytes, hb⟩ := h.1 hash hp
  simp [hd] at hb

theorem HashMatches.not_passes (h : HashMatches policy received p) :
    ¬ HashPasses policy received p :=
  fun hpass => hpass.2 h

theorem HashMalformed.not_passes {e : FromHexError} (h : HashMalformed policy e p) :
    ¬ HashPasses policy received p :=
  fun hpass => hpass.not_malformed e h

theorem HashMatches.not_malformed (h : HashMatches policy received p) (e : FromHexError) :
    ¬ HashMalformed policy e p := by
  rintro ⟨hash, hp, hd⟩
  obtain ⟨hash', hp', hd'⟩ := h
  simp [hp] at hp'
  simp [← hp', hd] at hd'

theorem HashMalformed.unique {e e' : FromHexError} (h : HashMalformed policy e p)
    (h' : HashMalformed policy e' p) : e = e' := by
  obtain ⟨hash, hp, hd⟩ := h
  obtain ⟨hash', hp', hd'⟩ := h'
  simp [hp] at hp'
  simpa [← hp', hd] using hd'

variable (policy received) (ps : List Platform)

theorem compareRuntimeHashLoop_cons_of_passes (h : HashPasses policy received p) :
    compareRuntimeHashLoop policy received (p :: ps) =
      compareRuntimeHashLoop policy received ps := by
  cases hp : policy.runtimeManagerHash p with
  | none => simp [compareRuntimeHashLoop, hp]
  | some hash =>
    obtain ⟨bytes, hd⟩ := h.1 hash hp
    have hr : received ≠ bytes := fun hr => h.2 ⟨hash, hp, hr ▸ hd⟩
    simp [compareRuntimeHashLoop, hp, hd, hr]

theorem compareRuntimeHashLoop_cons_of_matches (h : HashMatches policy received p) :
    compareRuntimeHashLoop policy received (p :: ps) = .ok () := by
  obtain ⟨hash, hp, hd⟩ := h
  simp [compareRuntimeHashLoop, hp, hd]

theorem compareRuntimeHashLoop_cons_of_malformed {e : FromHexError}
    (h : HashMalformed policy e p) :
    compareRuntimeHashLoop policy received (p :: ps) = .error (.hexError e) := by
  obtain ⟨hash, hp, hd⟩ := h
  simp [compareRuntimeHashLoop, hp, hd]

/-- The loop finds no matching hash iff it goes past every platform. -/
theorem compareRuntimeHashLoop_eq_noMatching_iff :
    compareRuntimeHashLoop policy received ps = .error .noMatchingRuntimeIsolateHash ↔
      ∀ p ∈ ps, HashPasses policy received p := by
  induction ps with
  | nil => simp [compareRuntimeHashLoop]
  | cons p ps ih =>
    rw [List.forall_mem_cons]
    rcases platform_cases policy received p with h | h | ⟨e, h⟩
    · rw [compareRuntimeHashLoop_cons_of_passes policy received ps h, ih]
      simp [h]
    · simp [compareRuntimeHashLoop_cons_of_matches policy received ps h, h.not_passes]
    · simp [compareRuntimeHashLoop_cons_of_malformed policy received ps h, h.not_passes]

/-- The loop fails on a malformed hash iff it meets one, with that error, after going past
every platform before it. -/
theorem compareRuntimeHashLoop_eq_hexError_iff (e : FromHexError) :
    compareRuntimeHashLoop policy received ps = .error (.hexError e) ↔
      ∃ pre p post, ps = pre ++ p :: post ∧ HashMalformed policy e p ∧
        ∀ q ∈ pre, HashPasses policy received q := by
  induction ps with
  | nil => simp [compareRuntimeHashLoop]
  | cons p ps ih =>
    rw [exists_split_cons]
    simp only [List.not_mem_nil, List.mem_cons, forall_eq_or_imp, IsEmpty.forall_iff,
      implies_true, and_true]
    rcases platform_cases policy received p with h | h | ⟨e', h⟩
    · rw [compareRuntimeHashLoop_cons_of_passes policy received ps h, ih]
      simp [h, h.not_malformed]
    · simp [compareRuntimeHashLoop_cons_of_matches policy received ps h, h.not_passes,
        h.not_malformed]
    · simp only [compareRuntimeHashLoop_cons_of_malformed policy received ps h,
        Except.error.injEq, VeracruzClientError.hexError.injEq, h.not_passes, false_and,
        and_false, exists_false, or_false]
      exact ⟨fun he => he ▸ h, h.unique⟩

/-- The loop raises no error but these two. -/
theorem compareRuntimeHashLoop_error {err : VeracruzClientError}
    (h : compareRuntimeHashLoop policy received ps = .error err) :
    err = .noMatchingRuntimeIsolateHash ∨ ∃ e, err = .hexError e := by
  induction ps with
  | nil => exact .inl (by simpa [compareRuntimeHashLoop] using h.symm)
  | cons p ps ih =>
    rcases platform_cases policy received p with hp | hp | ⟨e, hp⟩
    · exact ih (by rwa [compareRuntimeHashLoop_cons_of_passes policy received ps hp] at h)
    · simp [compareRuntimeHashLoop_cons_of_matches policy received ps hp] at h
    · rw [compareRuntimeHashLoop_cons_of_malformed policy received ps hp] at h
      exact .inr ⟨e, by simpa using h.symm⟩

end Loop

/-- `compare_runtime_hash` accepts the received bytes iff, scanning Linux, Nitro and IceCap
in that order, some platform's hash decodes to exactly those bytes before any malformed
hash is met; the first malformed hash met before a match ends the scan with its `HexError`.
When every hash the policy names is well-formed hex, acceptance is the order-free "some
platform's hash decodes to the received bytes". -/
theorem runtime_hash_acceptance (policy : Policy) (received : List UInt8) :
    (compareRuntimeHash policy received = .ok () ↔
      ∃ pre p post, [Platform.linux, .nitro, .iceCap] = pre ++ p :: post ∧
        HashMatches policy received p ∧ ∀ q ∈ pre, HashDecodes policy q) ∧
    (∀ e, compareRuntimeHash policy received = .error (.hexError e) ↔
      ∃ pre p post, [Platform.linux, .nitro, .iceCap] = pre ++ p :: post ∧
        HashMalformed policy e p ∧ ∀ q ∈ pre, HashPasses policy received q) ∧
    ((∀ q, HashDecodes policy q) →
      (compareRuntimeHash policy received = .ok () ↔ ∃ p, HashMatches policy received p)) := by
  refine ⟨compareRuntimeHashLoop_eq_ok_iff policy received _,
    compareRuntimeHashLoop_eq_hexError_iff policy received _, fun hall => ?_⟩
  rw [compareRuntimeHash, compareRuntimeHashLoop_eq_ok_iff]
  constructor
  · rintro ⟨-, p, -, -, hp, -⟩
    exact ⟨p, hp⟩
  · rintro ⟨p, hp⟩
    cases p
    · exact ⟨[], .linux, _, rfl, hp, by simp⟩
    · exact ⟨[.linux], .nitro, _, rfl, hp, by simpa using hall .linux⟩
    · exact ⟨[.linux, .nitro], .iceCap, [], rfl, hp, by simpa using ⟨hall .linux, hall .nitro⟩⟩

/-- A malformed Linux hash hides a matching Nitro hash. -/
theorem runtime_hash_malformed_first_hides_match :
    hexDecode [48, 48] = .ok [0] ∧
      compareRuntimeHash
          ⟨fun | .linux => some [122, 122] | .nitro => some [48, 48] | .iceCap => none⟩ [0] =
        .error (.hexError (.invalidHexCharacter 'z' 0)) :=
  ⟨rfl, rfl⟩

/-- `compare_runtime_hash` ends in one of three ways, decided by the policy's hashes in the
order Linux, Nitro, IceCap. It raises `HexError`, with the decoding error, exactly when it
meets a malformed hash after going past every platform before it, and
`NoMatchingRuntimeIsolateHash` exactly when it goes past all three: every hash the policy
names is well-formed hex and none decodes to the received bytes. It raises no other error. -/
theorem runtime_hash_outcomes (policy : Policy) (received : List UInt8) :
    (∀ err, compareRuntimeHash policy received = .error err →
      err = .noMatchingRuntimeIsolateHash ∨ ∃ e, err = .hexError e) ∧
    (compareRuntimeHash policy received = .error .noMatchingRuntimeIsolateHash ↔
      ∀ p, HashPasses policy received p) ∧
    ∀ e, compareRuntimeHash policy received = .error (.hexError e) ↔
      ∃ pre p post, [Platform.linux, .nitro, .iceCap] = pre ++ p :: post ∧
        HashMalformed policy e p ∧ ∀ q ∈ pre, HashPasses policy received q := by
  refine ⟨fun _ => compareRuntimeHashLoop_error policy received _,
    (compareRuntimeHashLoop_eq_noMatching_iff policy received _).trans ?_,
    compareRuntimeHashLoop_eq_hexError_iff policy received _⟩
  exact ⟨fun h p => h p (by cases p <;> simp), fun h p _ => h p⟩

end Veracruz
