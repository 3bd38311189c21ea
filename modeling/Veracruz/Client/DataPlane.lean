import Veracruz.Client.Session

/-!
# Data-plane calls and their pre-conditions

The four data-plane methods of `VeracruzClient` as one type of call, so that what the
spec asks of all of them is stated once. Before a call writes its own request, the policy
hash the enclave reports must equal the client's, and the runtime hash in the enclave's
certificate must be one the policy approves.

The client keeps no record of a failed check: every call probes the enclave afresh, so a
call that follows a failed one writes its request as soon as its own checks pass.

## Main results

- `run_cases` — one call, from any state: what it writes and returns.
- `runAll_appends` — along any sequence of calls the client changes only its log and its
  session-id cell, and every data-plane request in the log follows an accepted probe.
- `data_plane_writes_after_checks` — the two together, stated over the log.
- `data_plane_checks_each_call` — after any run, failed checks included, the next call
  writes its request exactly when its own checks pass.
-/

namespace Veracruz

open Veracruz.Bytes

/-- A data-plane call with its arguments. -/
inductive DataPlaneCall
  | sendProgram (path program : List UInt8)
  | sendData (path data : List UInt8)
  | requestCompute (path : List UInt8)
  | getResults (path : List UInt8)

namespace DataPlaneCall

/-- The path the call names. -/
def path : DataPlaneCall → List UInt8
  | sendProgram path _ | sendData path _ | requestCompute path | getResults path => path

/-- The request the call writes for a normalised path. -/
def request : DataPlaneCall → List UInt8 → Request
  | sendProgram _ program => fun p => .program p program
  | sendData _ data => fun p => .programData p data
  | requestCompute _ => .requestResult
  | getResults _ => .readFile

/-- The method itself; its result is the returned bytes, `none` for the two methods that
return `()`. -/
def run (env : Env) : DataPlaneCall → ClientM (Option (List UInt8))
  | sendProgram path program => (fun _ => none) <$> Veracruz.sendProgram env path program
  | sendData path data => (fun _ => none) <$> Veracruz.sendData env path data
  | requestCompute path => some <$> Veracruz.requestCompute env path
  | getResults path => some <$> Veracruz.getResults env path

/-- The response on which the call returns, and what it then returns: a `SUCCESS` status,
and for `request_compute` and `get_results` a result, whose data is returned. -/
def Accepts : DataPlaneCall → RuntimeManagerResponse → Option (List UInt8) → Prop
  | sendProgram .., r, v | sendData .., r, v => r.status = .success ∧ v = none
  | requestCompute _, r, v | getResults _, r, v =>
    r.status = .success ∧ ∃ d, r.result = some d ∧ v = some d

/-- The request the call writes to the TLS context. -/
def ownRequest (env : Env) (call : DataPlaneCall) : Request :=
  call.request (env.enforceLeadingBackslash call.path)

/-- What a call needs to write its own request from state `s`: both checks, a path that is
a string, and a request that encodes. -/
def ChecksPass (env : Env) (call : DataPlaneCall) (s : VeracruzClient) : Prop :=
  PolicyHashAccepted env s ∧ checkRuntimeHash env s = .ok () ∧ Utf8Valid call.path ∧
    ∃ b, env.serialize (call.ownRequest env) = .ok b

theorem statusResult_eq_ok_iff {function : String} {r : RuntimeManagerResponse} {u : Unit} :
    statusResult function r = .ok u ↔ r.status = .success := by
  unfold statusResult
  split <;> simp_all

theorem dataResult_eq_ok_iff {function : String} {r : RuntimeManagerResponse}
    {d : List UInt8} : dataResult function r = .ok d ↔ r.status = .success ∧ r.result = some d := by
  unfold dataResult
  split
  · simp_all
  · split <;> simp_all

/-- A `dataPlaneCall` whose result is mapped, with its ending described by `accepts`. -/
theorem map_dataPlaneCall_cases (env : Env) {α : Type} (f : α → Option (List UInt8))
    (path : List UInt8) (request : List UInt8 → Request)
    (finish : RuntimeManagerResponse → Except VeracruzClientError α)
    (accepts : RuntimeManagerResponse → Option (List UInt8) → Prop)
    (hfinish : ∀ r v, (∃ a, finish r = .ok a ∧ f a = v) ↔ accepts r v) (s : VeracruzClient) :
    (¬ (PolicyHashAccepted env s ∧ checkRuntimeHash env s = .ok () ∧ Utf8Valid path ∧
          ∃ b, env.serialize (request (env.enforceLeadingBackslash path)) = .ok b) ∧
        valueOf ((f <$> dataPlaneCall env path request finish) s) = none ∧
        (stateOf ((f <$> dataPlaneCall env path request finish) s) = s ∨
          stateOf ((f <$> dataPlaneCall env path request finish) s) =
            afterSend env s .requestPolicyHash)) ∨
      ((PolicyHashAccepted env s ∧ checkRuntimeHash env s = .ok () ∧ Utf8Valid path ∧
          ∃ b, env.serialize (request (env.enforceLeadingBackslash path)) = .ok b) ∧
        stateOf ((f <$> dataPlaneCall env path request finish) s) =
          afterSend env (afterSend env s .requestPolicyHash)
            (request (env.enforceLeadingBackslash path)) ∧
        ∀ v, valueOf ((f <$> dataPlaneCall env path request finish) s) = some v ↔
          ∃ bytes resp,
            (env.respond (s.written ++ [.requestPolicyHash,
              request (env.enforceLeadingBackslash path)])).2 = .ok bytes ∧
            env.parse (env.respond (s.written ++ [.requestPolicyHash,
              request (env.enforceLeadingBackslash path)])).1 bytes = .ok resp ∧
            accepts resp v) := by
  rcases dataPlaneCall_cases env path request finish s with
    ⟨hno, e, he | he⟩ | ⟨hacc, hrt, hvalid, hser, hstate, hvalue⟩
  · exact .inl ⟨hno, by rw [valueOf_map_apply, he]; rfl, .inl (by rw [stateOf_map_apply, he]; rfl)⟩
  · exact .inl ⟨hno, by rw [valueOf_map_apply, he]; rfl, .inr (by rw [stateOf_map_apply, he]; rfl)⟩
  · refine .inr ⟨⟨hacc, hrt, hvalid, hser⟩, by rw [stateOf_map_apply, hstate], fun v => ?_⟩
    simp only [valueOf_map_apply, Option.map_eq_some', hvalue, ← hfinish]
    constructor
    · rintro ⟨a, ⟨bytes, resp, h1, h2, h3⟩, rfl⟩
      exact ⟨bytes, resp, h1, h2, a, h3, rfl⟩
    · rintro ⟨bytes, resp, h1, h2, a, h3, rfl⟩
      exact ⟨a, ⟨bytes, resp, h1, h2, h3⟩, rfl⟩

/-- What one call does: unless its checks pass it fails, having written nothing or only the
probe; otherwise it writes the probe and its own request, and returns what `Accepts` makes
of the response to its own request. -/
theorem run_cases (env : Env) (call : DataPlaneCall) (s : VeracruzClient) :
    (¬ call.ChecksPass env s ∧ valueOf (call.run env s) = none ∧
        (stateOf (call.run env s) = s ∨
          stateOf (call.run env s) = afterSend env s .requestPolicyHash)) ∨
      (call.ChecksPass env s ∧
        stateOf (call.run env s) =
          afterSend env (afterSend env s .requestPolicyHash) (call.ownRequest env) ∧
        ∀ v, valueOf (call.run env s) = some v ↔
          ∃ bytes resp,
            (env.respond (s.written ++ [.requestPolicyHash, call.ownRequest env])).2 =
              .ok bytes ∧
            env.parse (env.respond (s.written ++ [.requestPolicyHash, call.ownRequest env])).1
              bytes = .ok resp ∧
            call.Accepts resp v) := by
  cases call with
  | sendProgram path program | sendData path program =>
    refine map_dataPlaneCall_cases env _ _ _ _ _ (fun r v => ?_) s
    simp only [Accepts, statusResult_eq_ok_iff]
    exact ⟨fun ⟨_, h, hv⟩ => ⟨h, hv.symm⟩, fun ⟨h, hv⟩ => ⟨(), h, hv.symm⟩⟩
  | requestCompute path | getResults path =>
    refine map_dataPlaneCall_cases env _ _ _ _ _ (fun r v => ?_) s
    simp only [Accepts, dataResult_eq_ok_iff]
    exact ⟨fun ⟨d, ⟨h1, h2⟩, hv⟩ => ⟨h1, d, h2, hv.symm⟩,
      fun ⟨h1, d, h2, hv⟩ => ⟨d, ⟨h1, h2⟩, hv.symm⟩⟩

-- ════════════════════════════════════════════════════════════════════════
-- Runs of calls
-- ════════════════════════════════════════════════════════════════════════

/-- Every data-plane request in `new`, a stretch of the log written after that of `s`,
directly follows a policy-hash probe the enclave accepted on the log before it, and the
runtime hash of the client's certificate is accepted. -/
def ChecksPrecede (env : Env) (s : VeracruzClient) (new : List Request) : Prop :=
  ∀ pre req post, new = pre ++ req :: post → req.isDataPlane →
    ∃ pre', pre = pre' ++ [.requestPolicyHash] ∧
      PolicyHashAccepted env { s with written := s.written ++ pre' } ∧
      checkRuntimeHash env s = .ok ()

/-- A sequence of data-plane calls on one client, each made whatever the previous one
returned: the values returned (`none` for an error) and the final state. -/
def runAll (env : Env) : List DataPlaneCall → VeracruzClient →
    List (Option (Option (List UInt8))) × VeracruzClient
  | [], s => ([], s)
  | call :: calls, s =>
    let rest := runAll env calls (stateOf (call.run env s))
    (valueOf (call.run env s) :: rest.1, rest.2)

section Runs

variable (env : Env)

/-- The probe is accepted or not on the log and the policy hash alone. -/
theorem policyHashAccepted_congr {s t : VeracruzClient} (hw : s.written = t.written)
    (hp : s.policyHash = t.policyHash) : PolicyHashAccepted env s ↔ PolicyHashAccepted env t := by
  simp only [PolicyHashAccepted, hw, hp]

theorem checksPrecede_nil (s : VeracruzClient) : ChecksPrecede env s [] := by
  intro pre req post h
  simp at h

/-- The guarantee composes along the log: a stretch written from `s`, then one written from
the state it led to. -/
theorem checksPrecede_append {s : VeracruzClient} {seg new : List Request} (i : Option UInt32)
    (hseg : ChecksPrecede env s seg)
    (hnew : ChecksPrecede env { s with written := s.written ++ seg, remoteSessionId := i } new) :
    ChecksPrecede env s (seg ++ new) := by
  intro pre req post h hdp
  rcases List.append_eq_append_iff.mp h with ⟨a, rfl, hn⟩ | ⟨c, rfl, hc⟩
  · obtain ⟨pre', rfl, hacc, hrt⟩ := hnew a req post hn hdp
    refine ⟨seg ++ pre', by simp, (policyHashAccepted_congr env ?_ ?_).mp hacc, hrt⟩ <;> simp
  · cases c with
    | nil =>
      obtain ⟨pre', h, -⟩ := hnew [] req post (by simpa using hc.symm) hdp
      simp at h
    | cons c cs =>
      obtain ⟨rfl, -⟩ := List.cons.inj hc
      exact hseg pre req cs rfl hdp

/-- A call changes only the log and the session-id cell, and the data-plane request it
appends, if any, follows its accepted probe. -/
theorem run_appends (call : DataPlaneCall) (s : VeracruzClient) :
    ∃ new i,
      stateOf (call.run env s) = { s with written := s.written ++ new, remoteSessionId := i } ∧
      ChecksPrecede env s new := by
  rcases run_cases env call s with ⟨-, -, hs | hs⟩ | ⟨hpass, hs, -⟩
  · exact ⟨[], s.remoteSessionId, by simp [hs], checksPrecede_nil env s⟩
  · refine ⟨[.requestPolicyHash], _, hs, fun pre req post h hdp => ?_⟩
    rcases pre with _ | ⟨x, pre⟩
    · obtain ⟨rfl, -⟩ := List.cons.inj h
      simp [Request.isDataPlane] at hdp
    · simp at h
  · refine ⟨[.requestPolicyHash, call.ownRequest env],
      (env.respond (s.written ++ [.requestPolicyHash, call.ownRequest env])).1,
      by simp [hs, afterSend], ?_⟩
    intro pre req post h hdp
    rcases pre with _ | ⟨x, _ | ⟨y, pre⟩⟩
    · obtain ⟨rfl, -⟩ := List.cons.inj h
      simp [Request.isDataPlane] at hdp
    · obtain ⟨rfl, -⟩ := List.cons.inj h
      refine ⟨[], rfl, (policyHashAccepted_congr env ?_ ?_).mpr hpass.1, hpass.2.1⟩ <;> simp
    · simp at h

/-- A call writes its own request exactly when its checks pass. -/
theorem writes_own_request_iff (call : DataPlaneCall) (s : VeracruzClient) :
    (stateOf (call.run env s)).written =
        s.written ++ [.requestPolicyHash, call.ownRequest env] ↔ call.ChecksPass env s := by
  rcases run_cases env call s with ⟨hno, -, hs | hs⟩ | ⟨hpass, hs, -⟩
  · simp [hs, hno]
  · simp [hs, hno, afterSend]
  · simp [hs, hpass, afterSend]

@[simp] theorem runAll_nil (s : VeracruzClient) : runAll env [] s = ([], s) := rfl

/-- A run changes only the log and the session-id cell, and every data-plane request in the
stretch of log it writes follows an accepted probe. -/
theorem runAll_appends (calls : List DataPlaneCall) (s : VeracruzClient) :
    ∃ new i, (runAll env calls s).2 =
        { s with written := s.written ++ new, remoteSessionId := i } ∧
      ChecksPrecede env s new := by
  induction calls generalizing s with
  | nil => exact ⟨[], s.remoteSessionId, by simp, checksPrecede_nil env s⟩
  | cons call calls ih =>
    obtain ⟨seg, i, hs, hseg⟩ := run_appends env call s
    obtain ⟨new, j, hrest, hnew⟩ := ih (stateOf (call.run env s))
    rw [hs] at hrest hnew
    exact ⟨seg ++ new, j, by simp [runAll, hs, hrest], checksPrecede_append env i hseg hnew⟩

end Runs

/-- A data-plane call writes its own request only after, in the same call, a policy-hash
probe that the enclave answered with `SUCCESS` and the client's hash as a string, and a
runtime-hash check that passed; when a check fails it returns an error having written at
most the probe; `request_compute` and `get_results` return bytes only from a `SUCCESS`
response to their own request that carries them. Along any sequence of calls, whatever
each returns, every data-plane request in the log follows such a probe. -/
theorem data_plane_writes_after_checks (env : Env) :
    (∀ (call : DataPlaneCall) (s : VeracruzClient),
      (¬ call.ChecksPass env s ∧ valueOf (call.run env s) = none ∧
          ((stateOf (call.run env s)).written = s.written ∨
            (stateOf (call.run env s)).written = s.written ++ [.requestPolicyHash])) ∨
        (call.ChecksPass env s ∧
          (stateOf (call.run env s)).written =
            s.written ++ [.requestPolicyHash, call.ownRequest env] ∧
          ∀ v, valueOf (call.run env s) = some v ↔
            ∃ bytes resp,
              (env.respond (s.written ++ [.requestPolicyHash, call.ownRequest env])).2 =
                .ok bytes ∧
              env.parse (env.respond (s.written ++ [.requestPolicyHash, call.ownRequest env])).1
                bytes = .ok resp ∧
              call.Accepts resp v)) ∧
    ∀ (calls : List DataPlaneCall) (s : VeracruzClient), ∃ new,
      (runAll env calls s).2.written = s.written ++ new ∧ ChecksPrecede env s new := by
  refine ⟨fun call s => ?_, fun calls s => ?_⟩
  · rcases run_cases env call s with ⟨hno, hv, hs | hs⟩ | ⟨hpass, hs, hv⟩
    · exact .inl ⟨hno, hv, .inl (by rw [hs])⟩
    · exact .inl ⟨hno, hv, .inr (by rw [hs]; rfl)⟩
    · exact .inr ⟨hpass, by simp [hs, afterSend], hv⟩
  · obtain ⟨new, i, hs, hnew⟩ := runAll_appends env calls s
    exact ⟨new, by rw [hs], hnew⟩

/-- The client keeps no record of a failed check. After any run of calls, failed checks
included, the next call writes its own request exactly when the enclave accepts its probe
on the log as it stands, the certificate's runtime hash is accepted as it was before the
run, and the path and request are well-formed. -/
theorem data_plane_checks_each_call (env : Env) (calls : List DataPlaneCall)
    (s : VeracruzClient) (call : DataPlaneCall) :
    ∃ new, (runAll env calls s).2.written = s.written ++ new ∧
      ((stateOf (call.run env (runAll env calls s).2)).written =
          s.written ++ new ++ [.requestPolicyHash, call.ownRequest env] ↔
        PolicyHashAccepted env { s with written := s.written ++ new } ∧
          checkRuntimeHash env s = .ok () ∧ Utf8Valid call.path ∧
          ∃ b, env.serialize (call.ownRequest env) = .ok b) := by
  obtain ⟨new, i, hs, -⟩ := runAll_appends env calls s
  refine ⟨new, by rw [hs], ?_⟩
  rw [hs]
  exact (writes_own_request_iff env call _).trans
    (and_congr (policyHashAccepted_congr env rfl rfl) Iff.rfl)

/-- An enclave that answers the first policy-hash probe with the hash `b` and every later
probe with `a`. -/
def sampleEnv : Env where
  serialize _ := .ok []
  respond log := (some 0, .ok [if log.length = 1 then 0 else 1])
  parse _ bytes := .ok ⟨.success, some (if bytes = [0] then [98] else [97]), none⟩
  enforceLeadingBackslash := id
  runtimeHashExtensionId _ := 0

/-- A client with policy hash `a`, whose policy approves the Linux runtime hash `00` and
whose peer presented a certificate carrying the hash `0x00`. -/
def sampleClient : VeracruzClient where
  policy := ⟨fun p => if p = .linux then some [48, 48] else none⟩
  policyHash := [97]
  peerCert := some (some [⟨.ok ⟨fun _ => some [0]⟩⟩])
  remoteSessionId := some 0
  written := []

/-- A failed policy-hash check does not stop the next call: the first `send_data` fails on
the mismatching hash, and the second writes its data. -/
theorem data_plane_call_after_failed_check :
    checkPolicyHash sampleEnv sampleClient =
        .error (.mismatchError "check_policy_hash" [97] [98])
          (afterSend sampleEnv sampleClient .requestPolicyHash) ∧
      (runAll sampleEnv [.sendData [47] [1], .sendData [47] [2]] sampleClient).1 =
        [none, some none] ∧
      (runAll sampleEnv [.sendData [47] [1], .sendData [47] [2]] sampleClient).2.written =
        [.requestPolicyHash, .requestPolicyHash, .programData [47] [2]] :=
  ⟨rfl, rfl, rfl⟩
end DataPlaneCall

end Veracruz
