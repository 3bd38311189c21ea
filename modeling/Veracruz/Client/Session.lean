import Veracruz.Client.RuntimeHash

/-!
# The client's session protocol

The methods of `VeracruzClient` that talk to the enclave. Each data-plane call
(`send_program`, `send_data`, `request_compute`, `get_results`) first runs
`check_policy_hash`, a round trip asking the enclave for the hash of its policy, and
`check_runtime_hash` on the peer certificate; only then does it write its own request.

The methods run in `EStateM`, whose state survives an error as `&mut self` does, so the
log of written requests records what a failing call wrote before it failed.

## Main results

- `checkPolicyHash_cases` — `check_policy_hash` returns exactly when the enclave answers the
  probe with `SUCCESS` and the client's hash; otherwise the log holds at most the probe.
- `dataPlaneCall_cases` — the shared body of the data-plane calls writes its own request
  exactly when both checks pass, the path is a string and the request encodes.
-/

namespace Veracruz

open Veracruz.Bytes

/-- The methods of `VeracruzClient`; the state persists across an error. -/
abbrev ClientM := EStateM VeracruzClientError VeracruzClient

/-- The state a method leaves, whether it returned or failed. -/
def stateOf {ε σ α : Type} : EStateM.Result ε σ α → σ
  | .ok _ s => s
  | .error _ s => s

/-- The value a method returned; `none` if it failed. -/
def valueOf {ε σ α : Type} : EStateM.Result ε σ α → Option α
  | .ok a _ => some a
  | .error _ _ => none

section EStateM

variable {ε σ α β : Type} (s : σ)

@[simp] theorem bind_apply (x : EStateM ε σ α) (f : α → EStateM ε σ β) :
    (x >>= f) s = match x s with
      | .ok a s' => f a s'
      | .error e s' => .error e s' :=
  rfl

theorem map_apply (x : EStateM ε σ α) (f : α → β) :
    (f <$> x) s = match x s with
      | .ok a s' => .ok (f a) s'
      | .error e s' => .error e s' :=
  rfl

@[simp] theorem stateOf_map_apply (x : EStateM ε σ α) (f : α → β) :
    stateOf ((f <$> x) s) = stateOf (x s) := by
  simp only [map_apply]
  cases x s <;> rfl

@[simp] theorem valueOf_map_apply (x : EStateM ε σ α) (f : α → β) :
    valueOf ((f <$> x) s) = (valueOf (x s)).map f := by
  simp only [map_apply]
  cases x s <;> rfl

@[simp] theorem get_apply : (get : EStateM ε σ σ) s = .ok s s := rfl

@[simp] theorem set_apply (s' : σ) : (set s' : EStateM ε σ PUnit) s = .ok ⟨⟩ s' := rfl

@[simp] theorem pure_apply (a : α) : (pure a : EStateM ε σ α) s = .ok a s := rfl

@[simp] theorem throw_apply (e : ε) : (throw e : EStateM ε σ α) s = .error e s := rfl

end EStateM

/-- A library result raised into the client's error type. -/
def liftResult {ε α : Type} (x : Except ε α) (f : ε → VeracruzClientError) : ClientM α :=
  match x with
  | .ok a => pure a
  | .error e => throw (f e)

@[simp] theorem liftResult_ok {ε α : Type} (a : α) (f : ε → VeracruzClientError)
    (s : VeracruzClient) : liftResult (.ok a) f s = .ok a s :=
  rfl

@[simp] theorem liftResult_error {ε α : Type} (e : ε) (f : ε → VeracruzClientError)
    (s : VeracruzClient) : (liftResult (.error e) f : ClientM α) s = .error (f e) s :=
  rfl

section Methods

variable (env : Env)

/-- The state once `req` is written and the response read: the request joins the log and
the session-id cell holds what the relay left in it. -/
def afterSend (s : VeracruzClient) (req : Request) : VeracruzClient :=
  { s with
    written := s.written ++ [req]
    remoteSessionId := (env.respond (s.written ++ [req])).1 }

/-- A `serialize_*` call followed by `send`: the request is encoded, written to the TLS
context with `write_all`, and the response read back with `read_to_end`. -/
def send (req : Request) : ClientM (List UInt8) := do
  let _ ← liftResult (env.serialize req) .transportProtocolError
  let s ← get
  set (afterSend env s req)
  liftResult (env.respond (s.written ++ [req])).2 .ioError

/-- `parse_runtime_manager_response`, given the session id the shared cell holds now. -/
def parseResponse (response : List UInt8) : ClientM RuntimeManagerResponse := do
  let s ← get
  liftResult (env.parse s.remoteSessionId response) .transportProtocolError

/-- `check_policy_hash`: ask the enclave for the hash of its policy and compare it, as a
string, with the client's. -/
def checkPolicyHash : ClientM Unit := do
  let response ← send env .requestPolicyHash
  let parsedResponse ← parseResponse env response
  match parsedResponse.status with
  | .success =>
    let receivedHash ← liftResult (fromUtf8 parsedResponse.getPolicyHash) .utf8Error
    let s ← get
    if s.policyHash ≠ receivedHash then
      throw (.mismatchError "check_policy_hash" s.policyHash receivedHash)
    else pure ()
  | status => throw (.responseError "check_policy_hash" status)

/-- The body `send_program`, `send_data`, `request_compute` and `get_results` share: both
checks, the path made a `str` and given its leading slash, then one request whose parsed
response `finish` turns into the method's result. -/
def dataPlaneCall {α : Type} (path : List UInt8) (request : List UInt8 → Request)
    (finish : RuntimeManagerResponse → Except VeracruzClientError α) : ClientM α := do
  checkPolicyHash env
  let s ← get
  liftResult (checkRuntimeHash env s) id
  let path ← liftResult (fromUtf8 path) fun _ => .invalidPath
  let response ← send env (request (env.enforceLeadingBackslash path))
  let parsedResponse ← parseResponse env response
  liftResult (finish parsedResponse) id

/-- How `send_program` and `send_data` end: `Ok(())` on `SUCCESS`. -/
def statusResult (function : String) (r : RuntimeManagerResponse) :
    Except VeracruzClientError Unit :=
  match r.status with
  | .success => .ok ()
  | status => .error (.responseError function status)

/-- How `request_compute` and `get_results` end: on `SUCCESS` with a result, its data. -/
def dataResult (function : String) (r : RuntimeManagerResponse) :
    Except VeracruzClientError (List UInt8) :=
  if r.status ≠ .success then .error (.responseError function r.status)
  else match r.result with
    | none => .error .veracruzServerResponseNoResultError
    | some data => .ok data

/-- `send_program`. -/
def sendProgram (path program : List UInt8) : ClientM Unit :=
  dataPlaneCall env path (fun path => .program path program) (statusResult "send_program")

/-- `send_data`. -/
def sendData (path data : List UInt8) : ClientM Unit :=
  dataPlaneCall env path (fun path => .programData path data) (statusResult "send_data")

/-- `request_compute`. -/
def requestCompute (path : List UInt8) : ClientM (List UInt8) :=
  dataPlaneCall env path .requestResult (dataResult "request_compute")

/-- `get_results`. -/
def getResults (path : List UInt8) : ClientM (List UInt8) :=
  dataPlaneCall env path .readFile (dataResult "get_result")

/-- `request_shutdown`: no check precedes it. -/
def requestShutdown : ClientM Unit := do
  let _ ← send env .requestShutdown
  pure ()

end Methods

section Spec

variable (env : Env)

/-- The probe of `check_policy_hash` succeeds from state `s`: the request is encoded, the
enclave's reply is read back and parses with status `SUCCESS`, and its policy-hash payload
is valid UTF-8 equal to the client's policy hash. -/
def PolicyHashAccepted (s : VeracruzClient) : Prop :=
  (∃ b, env.serialize .requestPolicyHash = .ok b) ∧
    ∃ bytes resp, (env.respond (s.written ++ [.requestPolicyHash])).2 = .ok bytes ∧
      env.parse (env.respond (s.written ++ [.requestPolicyHash])).1 bytes = .ok resp ∧
      resp.status = .success ∧ Utf8Valid resp.getPolicyHash ∧ resp.getPolicyHash = s.policyHash

@[simp] theorem afterSend_policy (s : VeracruzClient) (req : Request) :
    (afterSend env s req).policy = s.policy := rfl

@[simp] theorem afterSend_policyHash (s : VeracruzClient) (req : Request) :
    (afterSend env s req).policyHash = s.policyHash := rfl

@[simp] theorem afterSend_written (s : VeracruzClient) (req : Request) :
    (afterSend env s req).written = s.written ++ [req] := rfl

@[simp] theorem afterSend_remoteSessionId (s : VeracruzClient) (req : Request) :
    (afterSend env s req).remoteSessionId = (env.respond (s.written ++ [req])).1 := rfl

/-- Sending changes neither the policy nor the peer certificate. -/
@[simp] theorem checkRuntimeHash_afterSend (s : VeracruzClient) (req : Request) :
    checkRuntimeHash env (afterSend env s req) = checkRuntimeHash env s := rfl

/-- `send` fails before writing when the request does not encode; otherwise the request is
written, and the result is the read-back response. -/
theorem send_apply (req : Request) (s : VeracruzClient) :
    send env req s =
      match env.serialize req with
      | .error e => .error (.transportProtocolError e) s
      | .ok _ =>
        match (env.respond (s.written ++ [req])).2 with
        | .ok bytes => .ok bytes (afterSend env s req)
        | .error e => .error (.ioError e) (afterSend env s req) := by
  unfold send
  cases env.serialize req <;> cases h : (env.respond (s.written ++ [req])).2 <;> simp [h]

/-- `check_policy_hash` returns exactly when the probe is accepted; the probe is in the log
unless it did not encode. -/
theorem checkPolicyHash_cases (s : VeracruzClient) :
    (PolicyHashAccepted env s ∧
        checkPolicyHash env s = .ok () (afterSend env s .requestPolicyHash)) ∨
      (¬ PolicyHashAccepted env s ∧ ∃ e, checkPolicyHash env s = .error e s ∨
        checkPolicyHash env s = .error e (afterSend env s .requestPolicyHash)) := by
  simp only [checkPolicyHash, parseResponse, bind_apply, send_apply, get_apply]
  cases hser : env.serialize .requestPolicyHash with
  | error e => exact .inr ⟨by simp [PolicyHashAccepted, hser], _, .inl rfl⟩
  | ok b =>
    cases hresp : (env.respond (s.written ++ [.requestPolicyHash])).2 with
    | error e => exact .inr ⟨by simp [PolicyHashAccepted, hresp], _, .inr rfl⟩
    | ok bytes =>
      simp only [afterSend_remoteSessionId]
      cases hparse : env.parse (env.respond (s.written ++ [.requestPolicyHash])).1 bytes with
      | error e =>
        exact .inr ⟨by simp [PolicyHashAccepted, hresp, hparse], .transportProtocolError e,
          .inr (by simp)⟩
      | ok resp =>
        have hacc : PolicyHashAccepted env s → resp.status = .success ∧
            Utf8Valid resp.getPolicyHash ∧ resp.getPolicyHash = s.policyHash := by
          rintro ⟨-, bytes', resp', h1, h2, h3⟩
          rw [hresp, Except.ok.injEq] at h1
          subst h1
          rw [hparse, Except.ok.injEq] at h2
          exact h2 ▸ h3
        cases hst : resp.status with
        | failed code =>
          exact .inr ⟨fun h => by simp [hst] at hacc; exact hacc h,
            .responseError "check_policy_hash" (.failed code), .inr (by simp [hst])⟩
        | success =>
          cases hutf : fromUtf8 resp.getPolicyHash with
          | error e =>
            have hinvalid : ¬ Utf8Valid resp.getPolicyHash := by
              simp [utf8Valid_iff_fromUtf8, hutf]
            exact .inr ⟨fun h => hinvalid (hacc h).2.1, .utf8Error e, .inr (by simp [hst, hutf])⟩
          | ok received =>
            obtain ⟨hvalid, rfl⟩ := fromUtf8_eq_ok_iff.mp hutf
            by_cases heq : s.policyHash = resp.getPolicyHash
            · exact .inl ⟨⟨⟨b, hser⟩, bytes, resp, hresp, hparse, hst, hvalid, heq.symm⟩,
                by simp [hst, hutf, heq]⟩
            · exact .inr ⟨fun h => heq (hacc h).2.2.symm,
                .mismatchError "check_policy_hash" s.policyHash resp.getPolicyHash,
                .inr (by simp [hst, hutf, heq])⟩

/-- What a data-plane call does: it fails without writing its own request unless the probe
is accepted, the runtime hash matches, the path is a string and the request encodes; then
the request is written after the probe, and the call returns what `finish` makes of the
parsed response. -/
theorem dataPlaneCall_cases {α : Type} (path : List UInt8) (request : List UInt8 → Request)
    (finish : RuntimeManagerResponse → Except VeracruzClientError α) (s : VeracruzClient) :
    (¬ (PolicyHashAccepted env s ∧ checkRuntimeHash env s = .ok () ∧ Utf8Valid path ∧
          ∃ b, env.serialize (request (env.enforceLeadingBackslash path)) = .ok b) ∧
        ∃ e, dataPlaneCall env path request finish s = .error e s ∨
          dataPlaneCall env path request finish s =
            .error e (afterSend env s .requestPolicyHash)) ∨
      (PolicyHashAccepted env s ∧ checkRuntimeHash env s = .ok () ∧ Utf8Valid path ∧
        (∃ b, env.serialize (request (env.enforceLeadingBackslash path)) = .ok b) ∧
        stateOf (dataPlaneCall env path request finish s) =
          afterSend env (afterSend env s .requestPolicyHash)
            (request (env.enforceLeadingBackslash path)) ∧
        ∀ v, valueOf (dataPlaneCall env path request finish s) = some v ↔
          ∃ bytes resp,
            (env.respond (s.written ++ [.requestPolicyHash,
              request (env.enforceLeadingBackslash path)])).2 = .ok bytes ∧
            env.parse (env.respond (s.written ++ [.requestPolicyHash,
              request (env.enforceLeadingBackslash path)])).1 bytes = .ok resp ∧
            finish resp = .ok v) := by
  simp only [dataPlaneCall, parseResponse, bind_apply, get_apply]
  rcases checkPolicyHash_cases env s with ⟨hacc, hok⟩ | ⟨hno, e, he | he⟩
  · rw [hok]
    simp only [checkRuntimeHash_afterSend]
    cases hrt : checkRuntimeHash env s with
    | error e => exact .inl ⟨by simp, e, .inr (by simp)⟩
    | ok u =>
      cases hpath : fromUtf8 path with
      | error e =>
        have hinvalid : ¬ Utf8Valid path := by simp [utf8Valid_iff_fromUtf8, hpath]
        exact .inl ⟨by simp [hinvalid], .invalidPath, .inr (by simp)⟩
      | ok p =>
        obtain ⟨hvalid, rfl⟩ := fromUtf8_eq_ok_iff.mp hpath
        simp only [liftResult_ok, send_apply]
        cases hser : env.serialize (request (env.enforceLeadingBackslash p)) with
        | error e => exact .inl ⟨by simp, .transportProtocolError e, .inr rfl⟩
        | ok b =>
          refine .inr ⟨hacc, by simp [hrt], hvalid, ⟨b, rfl⟩, ?_⟩
          simp only [afterSend_written, afterSend_remoteSessionId, List.append_assoc,
            List.singleton_append]
          cases hresp : (env.respond (s.written ++ [.requestPolicyHash,
              request (env.enforceLeadingBackslash p)])).2 with
          | error e => simp [stateOf, valueOf, hresp]
          | ok bytes =>
            cases hparse : env.parse (env.respond (s.written ++ [.requestPolicyHash,
                request (env.enforceLeadingBackslash p)])).1 bytes with
            | error e => simp [stateOf, valueOf, hresp, hparse]
            | ok resp => cases hfin : finish resp <;> simp [stateOf, valueOf, hresp, hparse, hfin]
  · exact .inl ⟨fun h => hno h.1, e, .inl (by simp [he])⟩
  · exact .inl ⟨fun h => hno h.1, e, .inr (by simp [he])⟩

end Spec

end Veracruz
