import Veracruz.Nitro.Bincode

/-!
# Messages of the Nitro root enclave

`NitroRootEnclaveMessage`, the enum the Veracruz server and the Nitro root enclave exchange
over a socket with `send_message` and `receive_message`, and bincode's encoding of it.
serde's derived code writes the index of the variant as a `u32`, then the fields in order;
reading an index past the last variant fails with serde's `invalid_value` message.

`receive_message` calls `bincode::deserialize`, which allows trailing bytes: it accepts a
buffer exactly when the buffer starts with the encoding of the message it returns, whatever
follows.

## Main results

- `inverts_deserializeMessage` — the message reader inverts `serialize`.
- `nitro_message_round_trip` — `receive_message` reads back what `send_message` wrote, so
  `serialize` is injective.
- `nitro_deserialize_accepts_iff` — `receive_message` accepts a buffer as `v` iff the buffer
  is `serialize v` followed by any bytes.
- `nitro_truncated_frame_rejected` — a proper prefix of an encoding fails with
  `UnexpectedEof`.
- `nitro_custom_error_iff` — the only `Custom` errors are serde's variant-index errors, for
  the message's index or for the index of a `Status` inside it.
-/

namespace Veracruz.Nitro

open Veracruz.Bincode

/-- Modelled from the spec: `runtime_manager_message::Status`, the generic reply codes
`Fail`, `Unimplemented` and `Success`, in the order the spec lists them. -/
inductive Status
  | fail
  | unimplemented
  | success
  deriving DecidableEq, Repr

/-- `NitroRootEnclaveMessage`. -/
inductive NitroRootEnclaveMessage
  | status (status : Status)
  | fetchFirmwareVersion
  | firmwareVersion (version : RustString)
  | setCertChain (rootCert caCert : RustVec UInt8)
  | nativeAttestation (challenge : RustVec UInt8) (deviceId : BitVec 32)
  | tokenData (token csr : RustVec UInt8)
  | startProxy
  | challengeData (challenge : RustVec UInt8) (challengeId : BitVec 32)
  | proxyAttestation (document : RustVec UInt8) (challengeId : BitVec 32)
  | certChain (chain : RustVec (RustVec UInt8))
  | success
  deriving DecidableEq

/-- serde's `invalid_value` message for a variant index out of range of an enum with `count`
variants. -/
def invalidVariantIndex (idx count : Nat) : String :=
  "invalid value: integer `" ++ toString idx ++ "`, expected variant index 0 <= i < " ++
    toString count

-- ════════════════════════════════════════════════════════════════════════
-- Status
-- ════════════════════════════════════════════════════════════════════════

/-- The variant index serde gives a status. -/
def Status.index : Status → UInt32
  | .fail => 0
  | .unimplemented => 1
  | .success => 2

/-- `serialize_unit_variant`: the index alone. -/
def serializeStatus (s : Status) : List UInt8 := serializeU32 s.index

/-- The derived visitor's `visit_enum`, once the index is read. -/
def statusOfIndex : Nat → Reader Status
  | 0 => pure .fail
  | 1 => pure .unimplemented
  | 2 => pure .success
  | idx => throw (.custom (invalidVariantIndex idx 3))

/-- `deserialize_enum` for `Status`. -/
def deserializeStatus : Reader Status := do
  let idx ← deserializeU32
  statusOfIndex idx.toNat

theorem statusOfIndex_eq_ok_iff (idx : Nat) (bs : List UInt8) (s : Status) (rest : List UInt8) :
    statusOfIndex idx bs = .ok (s, rest) ↔ idx = s.index.toNat ∧ bs = rest := by
  rcases idx with _ | _ | _ | idx <;> cases s <;>
    simp [statusOfIndex, Status.index, pure_eq_ok_iff, throw_ne_ok, UInt32.size]

theorem inverts_deserializeStatus : Inverts deserializeStatus serializeStatus := by
  intro bs s rest
  simp only [deserializeStatus, serializeStatus, bind_eq_ok_iff, inverts_deserializeU32 _,
    statusOfIndex_eq_ok_iff]
  constructor
  · rintro ⟨idx, _, rfl, hidx, rfl⟩
    rw [UInt32.toNat.inj hidx]
  · rintro rfl
    exact ⟨_, _, rfl, rfl, rfl⟩

-- ════════════════════════════════════════════════════════════════════════
-- Messages
-- ════════════════════════════════════════════════════════════════════════

namespace NitroRootEnclaveMessage

/-- The variant index serde gives a message: its position in the declaration. -/
def index : NitroRootEnclaveMessage → UInt32
  | status _ => 0
  | fetchFirmwareVersion => 1
  | firmwareVersion _ => 2
  | setCertChain .. => 3
  | nativeAttestation .. => 4
  | tokenData .. => 5
  | startProxy => 6
  | challengeData .. => 7
  | proxyAttestation .. => 8
  | certChain _ => 9
  | success => 10

/-- The fields of a message, each serialized in turn. -/
def serializeFields : NitroRootEnclaveMessage → List UInt8
  | status s => serializeStatus s
  | fetchFirmwareVersion | startProxy | success => []
  | firmwareVersion version => serializeString version
  | setCertChain a b | tokenData a b => serializeVec serializeU8 a ++ serializeVec serializeU8 b
  | nativeAttestation a i | challengeData a i | proxyAttestation a i =>
    serializeVec serializeU8 a ++ serializeI32 i
  | certChain chain => serializeVec (serializeVec serializeU8) chain

end NitroRootEnclaveMessage

open NitroRootEnclaveMessage

/-- `bincode::serialize`: the variant index as a `u32`, then the fields. -/
def serialize (v : NitroRootEnclaveMessage) : List UInt8 :=
  serializeU32 v.index ++ v.serializeFields

/-- A `Vec<u8>`, read as a sequence of bytes. -/
def deserializeBytes : Reader (RustVec UInt8) := deserializeVec deserializeU8

/-- The derived visitor's `visit_enum`, once the index is read: the fields of that variant. -/
def messageOfIndex : Nat → Reader NitroRootEnclaveMessage
  | 0 => status <$> deserializeStatus
  | 1 => pure fetchFirmwareVersion
  | 2 => firmwareVersion <$> deserializeString
  | 3 => do let a ← deserializeBytes; let b ← deserializeBytes; pure (setCertChain a b)
  | 4 => do let a ← deserializeBytes; let i ← deserializeI32; pure (nativeAttestation a i)
  | 5 => do let a ← deserializeBytes; let b ← deserializeBytes; pure (tokenData a b)
  | 6 => pure startProxy
  | 7 => do let a ← deserializeBytes; let i ← deserializeI32; pure (challengeData a i)
  | 8 => do let a ← deserializeBytes; let i ← deserializeI32; pure (proxyAttestation a i)
  | 9 => certChain <$> deserializeVec deserializeBytes
  | 10 => pure success
  | idx => throw (.custom (invalidVariantIndex idx 11))

/-- `deserialize_enum` for `NitroRootEnclaveMessage`. -/
def deserializeMessage : Reader NitroRootEnclaveMessage := do
  let idx ← deserializeU32
  messageOfIndex idx.toNat

/-- `bincode::deserialize`: the message read from the front of the buffer; what follows it
is ignored. -/
def deserialize (bs : List UInt8) : Except ErrorKind NitroRootEnclaveMessage :=
  (deserializeMessage bs).map Prod.fst

/-- The bytes `send_message` hands to `send_buffer`; bincode cannot fail to serialize this
type. -/
def sendMessage (data : NitroRootEnclaveMessage) : List UInt8 := serialize data

/-- `receive_message`, given the buffer `receive_buffer` returned. -/
def receiveMessage (response : List UInt8) : Except ErrorKind NitroRootEnclaveMessage :=
  deserialize response

theorem inverts_deserializeBytes : Inverts deserializeBytes (serializeVec serializeU8) :=
  inverts_deserializeU8.vec

/-- The fields of each variant are read back from their encoding. -/
theorem messageOfIndex_serializeFields (v : NitroRootEnclaveMessage) (rest : List UInt8) :
    messageOfIndex v.index.toNat (v.serializeFields ++ rest) = .ok (v, rest) := by
  cases v with
  | status s => exact (inverts_deserializeStatus.map _ _ _ _).mpr ⟨s, rfl, rfl⟩
  | fetchFirmwareVersion | startProxy | success => exact (pure_eq_ok_iff _ _).mpr ⟨rfl, rfl⟩
  | firmwareVersion version =>
    exact (inverts_deserializeString.map _ _ _ _).mpr ⟨version, rfl, rfl⟩
  | setCertChain a b | tokenData a b =>
    exact (inverts_deserializeBytes.bind_pair inverts_deserializeBytes _ _ _ _).mpr
      ⟨a, b, rfl, rfl⟩
  | nativeAttestation a i | challengeData a i | proxyAttestation a i =>
    exact (inverts_deserializeBytes.bind_pair inverts_deserializeI32 _ _ _ _).mpr
      ⟨a, i, rfl, rfl⟩
  | certChain chain =>
    exact (inverts_deserializeBytes.vec.map _ _ _ _).mpr ⟨chain, rfl, rfl⟩

/-- Whatever the fields' reader accepts is the encoding of the fields, under the index read. -/
theorem eq_serializeFields_of_messageOfIndex {idx : Nat} {bs rest : List UInt8}
    {v : NitroRootEnclaveMessage} (h : messageOfIndex idx bs = .ok (v, rest)) :
    idx = v.index.toNat ∧ bs = v.serializeFields ++ rest := by
  have hbytes := fun f : RustVec UInt8 → RustVec UInt8 → NitroRootEnclaveMessage =>
    inverts_deserializeBytes.bind_pair inverts_deserializeBytes f
  have hbytesI32 := fun f : RustVec UInt8 → BitVec 32 → NitroRootEnclaveMessage =>
    inverts_deserializeBytes.bind_pair inverts_deserializeI32 f
  rcases idx with _ | _ | _ | _ | _ | _ | _ | _ | _ | _ | _ | idx
  · obtain ⟨s, rfl, rfl⟩ := (inverts_deserializeStatus.map _ _ _ _).mp h
    exact ⟨rfl, rfl⟩
  · obtain ⟨rfl, rfl⟩ := (pure_eq_ok_iff _ _).mp h
    exact ⟨rfl, rfl⟩
  · obtain ⟨version, rfl, rfl⟩ := (inverts_deserializeString.map _ _ _ _).mp h
    exact ⟨rfl, rfl⟩
  · obtain ⟨a, b, rfl, rfl⟩ := (hbytes _ _ _ _).mp h
    exact ⟨rfl, rfl⟩
  · obtain ⟨a, i, rfl, rfl⟩ := (hbytesI32 _ _ _ _).mp h
    exact ⟨rfl, rfl⟩
  · obtain ⟨a, b, rfl, rfl⟩ := (hbytes _ _ _ _).mp h
    exact ⟨rfl, rfl⟩
  · obtain ⟨rfl, rfl⟩ := (pure_eq_ok_iff _ _).mp h
    exact ⟨rfl, rfl⟩
  · obtain ⟨a, i, rfl, rfl⟩ := (hbytesI32 _ _ _ _).mp h
    exact ⟨rfl, rfl⟩
  · obtain ⟨a, i, rfl, rfl⟩ := (hbytesI32 _ _ _ _).mp h
    exact ⟨rfl, rfl⟩
  · obtain ⟨chain, rfl, rfl⟩ := (inverts_deserializeBytes.vec.map _ _ _ _).mp h
    exact ⟨rfl, rfl⟩
  · obtain ⟨rfl, rfl⟩ := (pure_eq_ok_iff _ _).mp h
    exact ⟨rfl, rfl⟩
  · exact absurd h (throw_ne_ok _ _)

theorem inverts_deserializeMessage : Inverts deserializeMessage serialize := by
  intro bs v rest
  simp only [deserializeMessage, serialize, bind_eq_ok_iff, inverts_deserializeU32 _,
    List.append_assoc]
  constructor
  · rintro ⟨idx, _, rfl, h⟩
    obtain ⟨hidx, rfl⟩ := eq_serializeFields_of_messageOfIndex h
    rw [UInt32.toNat.inj hidx]
  · rintro rfl
    exact ⟨v.index, _, rfl, messageOfIndex_serializeFields v rest⟩

/-- `deserialize` accepts exactly the encodings of messages, with anything after them. -/
theorem deserialize_eq_ok_iff (bs : List UInt8) (v : NitroRootEnclaveMessage) :
    deserialize bs = .ok v ↔ ∃ rest, bs = serialize v ++ rest := by
  constructor
  · intro h
    obtain ⟨⟨v', rest⟩, hp, rfl⟩ : ∃ p, deserializeMessage bs = .ok p ∧ p.1 = v := by
      cases hd : deserializeMessage bs <;> simp_all [deserialize, Except.map]
    exact ⟨rest, (inverts_deserializeMessage _ _ _).mp hp⟩
  · rintro ⟨rest, rfl⟩
    rw [deserialize, inverts_deserializeMessage.read_append]
    rfl

/-- Every message round-trips through the socket: `receive_message` reads back what
`send_message` wrote, and no two messages are sent as the same bytes. -/
theorem nitro_message_round_trip (v : NitroRootEnclaveMessage) :
    receiveMessage (sendMessage v) = .ok v ∧ ∀ w, sendMessage v = sendMessage w → v = w :=
  ⟨(deserialize_eq_ok_iff _ v).mpr ⟨[], (List.append_nil _).symm⟩,
    fun _ h => inverts_deserializeMessage.injective h⟩

/-- `receive_message` accepts a buffer as `v` exactly when the buffer is the encoding of `v`
followed by any bytes: the encoding is canonical, but trailing bytes are ignored. -/
theorem nitro_deserialize_accepts_iff (b : List UInt8) (v : NitroRootEnclaveMessage) :
    receiveMessage b = .ok v ↔ ∃ t, b = sendMessage v ++ t :=
  deserialize_eq_ok_iff b v

/-- A byte after the encoding of `Success` does not stop `receive_message`. -/
theorem nitro_trailing_byte_accepted :
    receiveMessage (sendMessage .success ++ [0]) = .ok .success ∧
      sendMessage .success ++ [0] ≠ sendMessage .success :=
  ⟨rfl, by decide⟩

theorem truncates_deserializeStatus : Truncates deserializeStatus serializeStatus :=
  fun s bs u h hu => bind_eq_error (truncates_deserializeU32 s.index bs u h hu)

theorem truncates_deserializeBytes : Truncates deserializeBytes (serializeVec serializeU8) :=
  Truncates.vec inverts_deserializeU8 truncates_deserializeU8

/-- The fields' reader fails at the end of the input on every proper prefix of the fields'
encoding. -/
theorem messageOfIndex_truncated (v : NitroRootEnclaveMessage) {bs u : List UInt8}
    (h : bs ++ u = v.serializeFields) (hu : u ≠ []) :
    messageOfIndex v.index.toNat bs = .error .unexpectedEof := by
  cases v with
  | status s => exact map_eq_error _ (truncates_deserializeStatus s bs u h hu)
  | fetchFirmwareVersion | startProxy | success => exact (not_cut_nil h hu).elim
  | firmwareVersion version => exact map_eq_error _ (truncates_deserializeString version bs u h hu)
  | setCertChain a b | tokenData a b =>
    exact Truncates.bind inverts_deserializeBytes truncates_deserializeBytes
      (fun bs' u' h' hu' => bind_eq_error (truncates_deserializeBytes b bs' u' h' hu')) h hu
  | nativeAttestation a i | challengeData a i | proxyAttestation a i =>
    exact Truncates.bind inverts_deserializeBytes truncates_deserializeBytes
      (fun bs' u' h' hu' => bind_eq_error (truncates_deserializeI32 i bs' u' h' hu')) h hu
  | certChain chain =>
    exact map_eq_error _
      (Truncates.vec inverts_deserializeBytes truncates_deserializeBytes chain bs u h hu)

theorem truncates_deserializeMessage : Truncates deserializeMessage serialize :=
  fun v _ _ h hu => Truncates.bind inverts_deserializeU32 truncates_deserializeU32
    (fun _ _ h' hu' => messageOfIndex_truncated v h' hu') h hu

/-- A buffer cut short inside an encoding is rejected with `UnexpectedEof`: no proper prefix
of an encoding is accepted as any message, nor reported as malformed. -/
theorem nitro_truncated_frame_rejected (v : NitroRootEnclaveMessage) (b u : List UInt8)
    (hb : b ++ u = sendMessage v) (hu : u ≠ []) :
    receiveMessage b = .error .unexpectedEof := by
  rw [receiveMessage, deserialize, truncates_deserializeMessage v b u hb hu]
  rfl

/-- A frame cut after the first byte of `Success`'s index. -/
theorem nitro_truncated_frame_sample :
    [10] ++ [0, 0, 0] = sendMessage .success ∧ ([0, 0, 0] : List UInt8) ≠ [] ∧
      receiveMessage [10] = .error .unexpectedEof :=
  ⟨rfl, by decide, nitro_truncated_frame_rejected .success [10] [0, 0, 0] rfl (by decide)⟩

-- ════════════════════════════════════════════════════════════════════════
-- Variant-index errors
-- ════════════════════════════════════════════════════════════════════════

theorem statusOfIndex_eq_custom_iff (idx : Nat) (bs : List UInt8) (msg : String) :
    statusOfIndex idx bs = .error (.custom msg) ↔ 3 ≤ idx ∧ msg = invalidVariantIndex idx 3 := by
  rcases idx with _ | _ | _ | idx
  case' zero | succ.zero | succ.succ.zero => exact iff_of_false nofun (by omega)
  show Except.error _ = _ ↔ _
  simp [eq_comm]

/-- `Status` is refused as malformed exactly for an index past `Success`. -/
theorem deserializeStatus_eq_custom_iff (bs : List UInt8) (msg : String) :
    deserializeStatus bs = .error (.custom msg) ↔
      ∃ idx rest, bs = serializeU32 idx ++ rest ∧ 3 ≤ idx.toNat ∧
        msg = invalidVariantIndex idx.toNat 3 := by
  simp only [deserializeStatus, bind_eq_error_iff, noCustom_deserializeU32 bs msg, false_or,
    inverts_deserializeU32 bs, statusOfIndex_eq_custom_iff]

/-- The fields of every variant are read by readers that never raise `Custom`. -/
theorem noCustom_messageOfIndex {idx : Nat} (h0 : idx ≠ 0) (h11 : idx < 11) :
    NoCustom (messageOfIndex idx) := by
  have hbytes : NoCustom deserializeBytes := noCustom_deserializeU8.vec
  rcases idx with _ | _ | _ | _ | _ | _ | _ | _ | _ | _ | _ | idx
  · exact absurd rfl h0
  · exact noCustom_pure _
  · exact noCustom_deserializeString.map _
  · exact hbytes.bind fun _ => hbytes.bind fun _ => noCustom_pure _
  · exact hbytes.bind fun _ => noCustom_deserializeI32.bind fun _ => noCustom_pure _
  · exact hbytes.bind fun _ => hbytes.bind fun _ => noCustom_pure _
  · exact noCustom_pure _
  · exact hbytes.bind fun _ => noCustom_deserializeI32.bind fun _ => noCustom_pure _
  · exact hbytes.bind fun _ => noCustom_deserializeI32.bind fun _ => noCustom_pure _
  · exact hbytes.vec.map _
  · exact noCustom_pure _
  · omega

theorem messageOfIndex_eq_custom_iff (idx : Nat) (bs : List UInt8) (msg : String) :
    messageOfIndex idx bs = .error (.custom msg) ↔
      (idx = 0 ∧ deserializeStatus bs = .error (.custom msg)) ∨
        (11 ≤ idx ∧ msg = invalidVariantIndex idx 11) := by
  rcases Nat.lt_or_ge idx 11 with h11 | h11
  · rcases Nat.eq_zero_or_pos idx with rfl | hpos
    · simp [messageOfIndex, map_eq_error_iff]
    · exact iff_of_false (noCustom_messageOfIndex (by omega) h11 bs msg) (by omega)
  · obtain ⟨k, rfl⟩ : ∃ k, idx = k + 11 := ⟨idx - 11, by omega⟩
    have hthrow : messageOfIndex (k + 11) bs =
        .error (.custom (invalidVariantIndex (k + 11) 11)) := rfl
    rw [hthrow]
    constructor
    · rintro ⟨⟩
      exact .inr ⟨h11, rfl⟩
    · rintro (⟨h0, -⟩ | ⟨-, rfl⟩)
      · omega
      · rfl

/-- The only `Custom` errors `receive_message` raises are serde's variant-index errors: for a
message whose index is past `Success`, and for a `Status` message (index `0`) whose `Status`
index is past `Success`, whatever bytes follow. The readers of every other variant's fields
fail only at the end of the input or on bytes that are not UTF-8. -/
theorem nitro_custom_error_iff (b : List UInt8) (msg : String) :
    receiveMessage b = .error (.custom msg) ↔
      (∃ idx rest, b = serializeU32 idx ++ rest ∧ 11 ≤ idx.toNat ∧
          msg = invalidVariantIndex idx.toNat 11) ∨
        ∃ idx rest, b = serializeU32 0 ++ serializeU32 idx ++ rest ∧ 3 ≤ idx.toNat ∧
          msg = invalidVariantIndex idx.toNat 3 := by
  have hrecv : receiveMessage b = .error (.custom msg) ↔
      deserializeMessage b = .error (.custom msg) := by
    rw [receiveMessage, deserialize]
    cases deserializeMessage b <;> simp [Except.map]
  simp only [hrecv, deserializeMessage, bind_eq_error_iff, noCustom_deserializeU32 b msg, false_or,
    inverts_deserializeU32 b, messageOfIndex_eq_custom_iff, deserializeStatus_eq_custom_iff]
  constructor
  · rintro ⟨idx, r, rfl, ⟨h0, idx', rest, rfl, h3, rfl⟩ | ⟨h11, rfl⟩⟩
    · rw [(UInt32.toNat.inj h0 : idx = 0)]
      exact .inr ⟨idx', rest, List.append_assoc .. |>.symm, h3, rfl⟩
    · exact .inl ⟨idx, r, rfl, h11, rfl⟩
  · rintro (⟨idx, rest, rfl, h11, rfl⟩ | ⟨idx, rest, rfl, h3, rfl⟩)
    · exact ⟨idx, rest, rfl, .inr ⟨h11, rfl⟩⟩
    · exact ⟨0, serializeU32 idx ++ rest, List.append_assoc .., .inl ⟨rfl, idx, rest, rfl, h3, rfl⟩⟩

end Veracruz.Nitro
