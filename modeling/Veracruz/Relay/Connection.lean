import Veracruz.Codec.Base64

/-!
# The insecure connection under the client's TLS engine

`InsecureConnection` is the transport mbedTLS drives on the client side. It is not a
socket: every `write` of ciphertext becomes one HTTP POST to the Veracruz server's
`/runtime_manager` endpoint, whose body is the session id and the base64 record, and the
response body, the session id again followed by zero or more base64 records, is decoded
into a read buffer that `read` drains.

The HTTP exchange itself is outside the model: `write` takes its outcome as an argument,
so every statement over `write` holds for every server.

## Main definitions

- `InsecureConnection.read`, `InsecureConnection.write` — the two trait methods.
- `parseRelayBody` — what a response body carries, read the way `write` reads it.
- `relayBody` — the body a server sends for a session id and a list of records.

## Main results

- `write_of_parseRelayBody` — on a body that parses, `write` is one atomic update.
- `write_error_effect` — what a failed `write` may leave behind.
- `relay_frame_round_trip` — the relay frame round-trips through `write`.
-/

namespace Veracruz

open Veracruz.Text

/-- A `std::io::Error` of kind `Other` raised by the connection, with its message. -/
structure IoError where
  msg : String
  deriving DecidableEq, Repr

/-- How the blocking POST made inside `write` ended: the client could not be built, the
request could not be sent, the server answered with a status and a body text (`none` if the
text could not be read), or the worker thread panicked. -/
inductive HttpOutcome
  | buildFailed
  | sendFailed
  | response (status : Nat) (text : Option (List Char))
  | panicked
  deriving DecidableEq, Repr

/-- The body of a successful POST, or the error `write` raises for the outcome. -/
def HttpOutcome.body : HttpOutcome → Except IoError (List Char)
  | .buildFailed => .error ⟨"reqwest new"⟩
  | .sendFailed => .error ⟨"reqwest send"⟩
  | .response status text =>
    if status ≠ 200 then .error ⟨"reqwest bad status"⟩
    else match text with
      | none => .error ⟨"reqwest text"⟩
      | some body => .ok body
  | .panicked => .error ⟨"join failed"⟩

@[simp] theorem HttpOutcome.body_response_ok (body : List Char) :
    (HttpOutcome.response 200 (some body)).body = .ok body :=
  rfl

/-- The connection's state. `remoteSessionId` is the cell shared with `VeracruzClient`;
the mutex around it is not modelled, as nothing here poisons it. -/
structure InsecureConnection where
  readBuffer : List UInt8
  veracruzServerUrl : List Char
  remoteSessionId : Option UInt32
  deriving DecidableEq, Repr

/-- A POST request: target URL and body text. -/
structure Post where
  url : List Char
  body : List Char
  deriving DecidableEq, Repr

namespace InsecureConnection

/-- The connection `with_policy_and_hash` builds: empty read buffer, session id `Some(0)`. -/
def init (url : List Char) : InsecureConnection :=
  ⟨[], url, some 0⟩

/-- `<InsecureConnection as Read>::read`: copy as much of the read buffer as fits into
`data` and keep the rest. Returns the count and the destination after the copy; the
Rust method never fails. -/
def read (c : InsecureConnection) (data : List UInt8) :
    (Nat × List UInt8) × InsecureConnection :=
  let n := min data.length c.readBuffer.length
  ((n, c.readBuffer.take n ++ data.drop n), { c with readBuffer := c.readBuffer.drop n })

/-- The POST `write` sends for `data`: `"{session id} {base64}"` to `/runtime_manager`. -/
def post (c : InsecureConnection) (data : List UInt8) : Post :=
  ⟨"http://".toList ++ c.veracruzServerUrl ++ "/runtime_manager".toList,
    u32Display (c.remoteSessionId.getD 0) ++ ' ' :: Base64.encode data⟩

/-- The append loop of `write`: decode each record and extend the read buffer with it,
stopping at the first record that does not decode. Records already appended stay. -/
def appendRecords : List (List Char) → InsecureConnection → Except IoError Unit × InsecureConnection
  | [], c => (.ok (), c)
  | item :: items, c =>
    match Base64.decode item with
    | none => (.error ⟨"base64::decode"⟩, c)
    | some thisBodyData => appendRecords items { c with readBuffer := c.readBuffer ++ thisBodyData }

/-- `<InsecureConnection as Write>::write`, given how the POST of `c.post data` ended.
A non-empty response body first replaces the session id, then appends its records. -/
def write (c : InsecureConnection) (data : List UInt8) (outcome : HttpOutcome) :
    Except IoError Nat × InsecureConnection :=
  match outcome.body with
  | .error e => (.error e, c)
  | .ok body =>
    match splitWhitespace body with
    | [] => (.ok data.length, c)
    | first :: items =>
      match parseU32 first with
      | none => (.error ⟨"bad session id"⟩, c)
      | some receivedSessionId =>
        let (r, c) := appendRecords items { c with remoteSessionId := some receivedSessionId }
        (r.map fun _ => data.length, c)

end InsecureConnection

/-- The records of a body's tokens, concatenated; `none` if one does not decode. -/
def decodeRecords : List (List Char) → Option (List UInt8)
  | [] => some []
  | t :: ts => do
    let r ← Base64.decode t
    let rs ← decodeRecords ts
    some (r ++ rs)

/-- The bytes of the records before the first one that does not decode. -/
def decodedPrefix : List (List Char) → List UInt8
  | [] => []
  | t :: ts =>
    match Base64.decode t with
    | none => []
    | some r => r ++ decodedPrefix ts

/-- The session id a POST outcome carries: that of the response body's first token. -/
def HttpOutcome.sessionId (o : HttpOutcome) : Option UInt32 :=
  match o.body with
  | .ok body =>
    match splitWhitespace body with
    | first :: _ => parseU32 first
    | [] => none
  | .error _ => none

/-- The bytes a POST outcome leaves in the read buffer: the records before the first bad
one, and none unless the first token is a session id. -/
def HttpOutcome.delivered (o : HttpOutcome) : List UInt8 :=
  match o.body with
  | .ok body =>
    match splitWhitespace body with
    | first :: items => if (parseU32 first).isSome then decodedPrefix items else []
    | [] => []
  | .error _ => []

/-- What a response body carries, read as `write` reads it: the session id of its first
token (`none` for an empty body) and the concatenated records of the others. -/
def parseRelayBody (body : List Char) : Option (Option UInt32 × List UInt8) :=
  match splitWhitespace body with
  | [] => some (none, [])
  | first :: items => do
    let sid ← parseU32 first
    let bytes ← decodeRecords items
    some (some sid, bytes)

/-- The records a POST outcome carries; `none` for a failed POST or a malformed body. -/
def HttpOutcome.records (o : HttpOutcome) : Option (List UInt8) :=
  match o.body with
  | .ok body => (parseRelayBody body).map Prod.snd
  | .error _ => none

/-- The body a server sends back: the decimal session id, then `' '` and the base64 of
each record. -/
def relayBody (s : UInt32) (records : List (List UInt8)) : List Char :=
  u32Display s ++ records.flatMap fun r => ' ' :: Base64.encode r

namespace InsecureConnection

variable (c : InsecureConnection)

theorem decodedPrefix_of_decodeRecords {items : List (List Char)} {bytes : List UInt8}
    (h : decodeRecords items = some bytes) : decodedPrefix items = bytes := by
  induction items generalizing bytes with
  | nil => simpa [decodeRecords, decodedPrefix] using h
  | cons t ts ih =>
    simp only [decodeRecords, Option.bind_eq_bind, Option.bind_eq_some, Option.some.injEq] at h
    obtain ⟨r, hr, rs, hrs, rfl⟩ := h
    simp [decodedPrefix, hr, ih hrs]

/-- The append loop appends exactly the records before the first bad one, and fails iff
there is a bad one. -/
theorem appendRecords_eq (items : List (List Char)) :
    appendRecords items c =
      ((decodeRecords items).elim (.error ⟨"base64::decode"⟩) fun _ => .ok (),
        { c with readBuffer := c.readBuffer ++ decodedPrefix items }) := by
  induction items generalizing c with
  | nil => simp [appendRecords, decodeRecords, decodedPrefix]
  | cons t ts ih =>
    cases ht : Base64.decode t with
    | none => simp [appendRecords, decodeRecords, decodedPrefix, ht]
    | some r =>
      simp only [appendRecords, ht, ih]
      cases hts : decodeRecords ts <;> simp [decodeRecords, decodedPrefix, ht, hts]

/-- What `write` does, case by case as it matches: the POST failed; the body is empty; its
first token is not a `u32`; the token is a session id and every record decodes; or the token
is a session id and a record does not decode, after the id was stored and the records before
the bad one were appended. -/
theorem write_cases (data : List UInt8) (o : HttpOutcome) :
    (∃ err, o.body = .error err ∧ c.write data o = (.error err, c)) ∨
    (∃ body, o.body = .ok body ∧ splitWhitespace body = [] ∧
      c.write data o = (.ok data.length, c)) ∨
    (∃ body first items, o.body = .ok body ∧ splitWhitespace body = first :: items ∧
      parseU32 first = none ∧ c.write data o = (.error ⟨"bad session id"⟩, c)) ∨
    (∃ body first items sid bytes, o.body = .ok body ∧ splitWhitespace body = first :: items ∧
      parseU32 first = some sid ∧ decodeRecords items = some bytes ∧
      c.write data o =
        (.ok data.length, { c with remoteSessionId := some sid, readBuffer := c.readBuffer ++ bytes })) ∨
    (∃ body first items sid, o.body = .ok body ∧ splitWhitespace body = first :: items ∧
      parseU32 first = some sid ∧ decodeRecords items = none ∧
      c.write data o =
        (.error ⟨"base64::decode"⟩,
          { c with
            remoteSessionId := some sid
            readBuffer := c.readBuffer ++ decodedPrefix items })) := by
  cases hb : o.body with
  | error err => exact .inl ⟨err, rfl, by simp [write, hb]⟩
  | ok body =>
    cases hs : splitWhitespace body with
    | nil => exact .inr (.inl ⟨body, rfl, hs, by simp [write, hb, hs]⟩)
    | cons first items =>
      cases hp : parseU32 first with
      | none =>
        exact .inr (.inr (.inl ⟨body, first, items, rfl, hs, hp, by simp [write, hb, hs, hp]⟩))
      | some sid =>
        cases hr : decodeRecords items with
        | some bytes =>
          exact .inr (.inr (.inr (.inl ⟨body, first, items, sid, bytes, rfl, hs, hp, hr,
            by simp [write, hb, hs, hp, appendRecords_eq, hr, decodedPrefix_of_decodeRecords hr,
              Except.map]⟩)))
        | none =>
          exact .inr (.inr (.inr (.inr ⟨body, first, items, sid, rfl, hs, hp, hr,
            by simp [write, hb, hs, hp, appendRecords_eq, hr, Except.map]⟩)))

/-- Every `write`, failed or not, stores the session id of the response's first token
when it parses, and appends the records decoded before the first bad one. -/
theorem write_state (data : List UInt8) (o : HttpOutcome) :
    (c.write data o).2 =
      { c with
        remoteSessionId := Option.or o.sessionId c.remoteSessionId
        readBuffer := c.readBuffer ++ o.delivered } := by
  rcases c.write_cases data o with ⟨err, hb, hw⟩ | ⟨body, hb, hs, hw⟩ |
    ⟨body, first, items, hb, hs, hp, hw⟩ | ⟨body, first, items, sid, bytes, hb, hs, hp, hr, hw⟩ |
    ⟨body, first, items, sid, hb, hs, hp, hr, hw⟩
  · -- the POST failed
    simp [hw, HttpOutcome.sessionId, HttpOutcome.delivered, hb]
  · -- an empty body
    simp [hw, HttpOutcome.sessionId, HttpOutcome.delivered, hb, hs]
  · -- a first token that is not a session id
    simp [hw, HttpOutcome.sessionId, HttpOutcome.delivered, hb, hs, hp]
  · -- a session id and records that decode
    simp [hw, HttpOutcome.sessionId, HttpOutcome.delivered, hb, hs, hp,
      decodedPrefix_of_decodeRecords hr]
  · -- a session id and a record that does not decode
    simp [hw, HttpOutcome.sessionId, HttpOutcome.delivered, hb, hs, hp]

/-- `write` succeeds exactly when the POST succeeded and its whole body parses; it then
reports every byte of `data` as handled. -/
theorem write_eq_ok_iff {data : List UInt8} {o : HttpOutcome} {n : Nat} :
    (c.write data o).1 = .ok n ↔ n = data.length ∧ o.records.isSome := by
  rcases c.write_cases data o with ⟨err, hb, hw⟩ | ⟨body, hb, hs, hw⟩ |
    ⟨body, first, items, hb, hs, hp, hw⟩ | ⟨body, first, items, sid, bytes, hb, hs, hp, hr, hw⟩ |
    ⟨body, first, items, sid, hb, hs, hp, hr, hw⟩
  · -- the POST failed
    simp [hw, HttpOutcome.records, hb]
  · -- an empty body
    simp [hw, HttpOutcome.records, parseRelayBody, hb, hs, eq_comm]
  · -- a first token that is not a session id
    simp [hw, HttpOutcome.records, parseRelayBody, hb, hs, hp]
  · -- a session id and records that decode
    simp [hw, HttpOutcome.records, parseRelayBody, hb, hs, hp, hr, eq_comm]
  · -- a session id and a record that does not decode
    simp [hw, HttpOutcome.records, parseRelayBody, hb, hs, hp, hr]

/-- When the whole body parses, what `write` delivers is what the body carries. -/
theorem delivered_of_records {o : HttpOutcome} {bytes : List UInt8}
    (h : o.records = some bytes) : o.delivered = bytes := by
  unfold HttpOutcome.records parseRelayBody at h
  unfold HttpOutcome.delivered
  cases hb : o.body with
  | error e => simp [hb] at h
  | ok body =>
    cases hs : splitWhitespace body with
    | nil => simpa [hb, hs, eq_comm] using h
    | cons first items =>
      cases hp : parseU32 first with
      | none => simp [hb, hs, hp] at h
      | some sid =>
        cases hr : decodeRecords items with
        | none => simp [hb, hs, hp, hr] at h
        | some r =>
          simp only [hb, hs, hp, hr, Option.bind_eq_bind, Option.some_bind, Option.map_some',
            Option.some.injEq] at h
          simp [hb, hs, hp, decodedPrefix_of_decodeRecords hr, h]

/-- On a POST whose body parses, `write` is one atomic update: the carried session id, if
any, and all the carried records. -/
theorem write_of_parseRelayBody {o : HttpOutcome} {body : List Char} (hb : o.body = .ok body)
    {sid? : Option UInt32} {bytes : List UInt8} (h : parseRelayBody body = some (sid?, bytes))
    (data : List UInt8) :
    c.write data o =
      (.ok data.length,
        { c with
          remoteSessionId := Option.or sid? c.remoteSessionId
          readBuffer := c.readBuffer ++ bytes }) := by
  unfold parseRelayBody at h
  unfold write
  rw [hb]
  cases hs : splitWhitespace body with
  | nil =>
    simp only [hs, Option.some.injEq, Prod.mk.injEq] at h
    simp [hs, ← h.1, ← h.2]
  | cons first items =>
    cases hp : parseU32 first with
    | none => simp [hs, hp] at h
    | some sid =>
      cases hr : decodeRecords items with
      | none => simp [hs, hp, hr] at h
      | some r =>
        simp only [hs, hp, hr, Option.bind_eq_bind, Option.some_bind, Option.some.injEq,
          Prod.mk.injEq] at h
        obtain ⟨rfl, rfl⟩ := h
        simp [hs, hp, appendRecords_eq, hr, decodedPrefix_of_decodeRecords hr, Except.map]

end InsecureConnection

/-- The separated records of a relay body split into the encodings of the non-empty ones. -/
theorem splitWhitespace_records (rs : List (List UInt8)) :
    splitWhitespace (rs.flatMap fun r => ' ' :: Base64.encode r) =
      (rs.filter fun r => !r.isEmpty).map Base64.encode := by
  induction rs with
  | nil => rfl
  | cons r rs ih =>
    have hsep : ∀ c ∈ (rs.flatMap fun r => ' ' :: Base64.encode r).head?,
        isWhitespace c = true := by
      cases rs <;> simp [isWhitespace]
    rw [List.flatMap_cons, List.cons_append, splitWhitespace_sep_cons (by decide)]
    cases r with
    | nil => simpa [Base64.encode] using ih
    | cons b bs =>
      rw [splitWhitespace_token_append (Base64.encode_isToken (List.cons_ne_nil b bs)) hsep, ih]
      simp

theorem decodeRecords_encode (rs : List (List UInt8)) :
    decodeRecords ((rs.filter fun r => !r.isEmpty).map Base64.encode) = some rs.flatten := by
  induction rs with
  | nil => rfl
  | cons r rs ih =>
    cases r with
    | nil => simpa using ih
    | cons b bs => simp [decodeRecords, Base64.decode_encode, ih]

/-- A relay body parses back to its session id and the concatenation of its records. -/
theorem parseRelayBody_relayBody (s : UInt32) (rs : List (List UInt8)) :
    parseRelayBody (relayBody s rs) = some (some s, rs.flatten) := by
  have hsep : ∀ c ∈ (rs.flatMap fun r => ' ' :: Base64.encode r).head?,
      isWhitespace c = true := by
    cases rs <;> simp [isWhitespace]
  rw [parseRelayBody, relayBody, splitWhitespace_token_append (u32Display_isToken s) hsep,
    splitWhitespace_records]
  simp [parseU32_u32Display, decodeRecords_encode]

/-- The POST `write` sends is itself a relay body, carrying the current id and the data. -/
theorem post_body_eq_relayBody (c : InsecureConnection) (data : List UInt8) :
    (c.post data).body = relayBody (c.remoteSessionId.getD 0) [data] := by
  simp [InsecureConnection.post, relayBody]

/-- The relay frame round-trips: `write` receiving the body for session id `s` and
`records` stores `s` and appends exactly the records, and the body `write` posts parses
back to the session id it was sent with and to the data. -/
theorem relay_frame_round_trip (c : InsecureConnection) (data : List UInt8) (s : UInt32)
    (records : List (List UInt8)) :
    c.write data (.response 200 (some (relayBody s records))) =
      (.ok data.length,
        { c with remoteSessionId := some s, readBuffer := c.readBuffer ++ records.flatten }) ∧
    parseRelayBody (c.post data).body = some (some (c.remoteSessionId.getD 0), data) := by
  have hwrite := c.write_of_parseRelayBody (HttpOutcome.body_response_ok _)
    (parseRelayBody_relayBody s records) data
  exact ⟨by simpa using hwrite, by simp [post_body_eq_relayBody, parseRelayBody_relayBody]⟩

end Veracruz
