import Veracruz.Client.DataPlane

/-!
# Runs of the client

The public methods of `VeracruzClient` that talk to the enclave, the four data-plane calls
and `request_shutdown`, called in any order, each whatever the previous one returned.

Each call has a script, the requests it writes when nothing fails: the policy-hash probe
and then its own request for a data-plane call, the shutdown request alone for
`request_shutdown`, which checks nothing first. A call writes a prefix of its script, the
whole of it exactly when it is ready (its checks pass and its requests encode), and returns
only once the whole script is written. The session-id cell always holds what the relay left
after the last request written.

## Main results

- `ClientCall.run_wrote` — one call, from any state.
- `ClientCall.runCalls_wrote` — a run is the concatenation of what each call wrote, each
  from the state the calls before it left.
- `ClientCall.checksPrecede_of_wroteAll` — in a log so made, every data-plane request follows
  an accepted probe.
- `client_run_log` — the three together.
-/

namespace Veracruz

open Veracruz.Bytes DataPlaneCall

section Log

variable (env : Env)

/-- `request_shutdown` fails without writing when its request does not encode. Otherwise it
writes it, with no check before, and returns `Ok(())` exactly when the response reads back:
an error of the TLS layer after the request was written is returned to the caller. -/
theorem requestShutdown_cases (s : VeracruzClient) :
    (¬ (∃ b, env.serialize .requestShutdown = .ok b) ∧
        valueOf (requestShutdown env s) = none ∧ stateOf (requestShutdown env s) = s) ∨
      ((∃ b, env.serialize .requestShutdown = .ok b) ∧
        stateOf (requestShutdown env s) = afterSend env s .requestShutdown ∧
        (valueOf (requestShutdown env s) = some () ↔
          ∃ bytes, (env.respond (s.written ++ [.requestShutdown])).2 = .ok bytes)) := by
  simp only [requestShutdown, bind_apply, send_apply]
  cases env.serialize .requestShutdown with
  | error e => exact .inl ⟨by simp, rfl, rfl⟩
  | ok b =>
    refine .inr ⟨⟨b, rfl⟩, ?_⟩
    cases (env.respond (s.written ++ [.requestShutdown])).2 <;> simp [stateOf, valueOf]

/-- The client once `new` has been written from `s`: the log extended, and the session-id
cell as the relay left it after the last request, or as it was if nothing was written. -/
def afterWriting (s : VeracruzClient) (new : List Request) : VeracruzClient :=
  { s with
    written := s.written ++ new
    remoteSessionId := if new = [] then s.remoteSessionId else (env.respond (s.written ++ new)).1 }

@[simp] theorem afterWriting_nil (s : VeracruzClient) : afterWriting env s [] = s := by
  simp [afterWriting]

theorem afterSend_eq_afterWriting (s : VeracruzClient) (req : Request) :
    afterSend env s req = afterWriting env s [req] := by
  simp [afterSend, afterWriting]

@[simp] theorem afterWriting_append (s : VeracruzClient) (a b : List Request) :
    afterWriting env (afterWriting env s a) b = afterWriting env s (a ++ b) := by
  by_cases hb : b = []
  · simp [hb]
  · simp [afterWriting, hb]

/-- A stretch of log with no data-plane request meets the guarantee vacuously. -/
theorem checksPrecede_of_not_isDataPlane (s : VeracruzClient) {new : List Request}
    (h : ∀ r ∈ new, r.isDataPlane = false) : ChecksPrecede env s new := by
  intro pre req post hnew hdp
  exact absurd hdp (by simp [h req (by simp [hnew])])

/-- A probe accepted from `s`, on a certificate whose runtime hash is accepted, covers the
request that follows it. -/
theorem checksPrecede_probe (s : VeracruzClient) (hacc : PolicyHashAccepted env s)
    (hrt : checkRuntimeHash env s = .ok ()) (req : Request) :
    ChecksPrecede env s [.requestPolicyHash, req] := by
  intro pre r post h hdp
  rcases pre with _ | ⟨x, _ | ⟨y, pre⟩⟩
  · obtain ⟨rfl, -⟩ := List.cons.inj h
    simp [Request.isDataPlane] at hdp
  · obtain ⟨rfl, -⟩ := List.cons.inj h
    refine ⟨[], rfl, (policyHashAccepted_congr env ?_ ?_).mpr hacc, hrt⟩ <;> simp
  · simp at h

end Log

/-- A public method of `VeracruzClient` that talks to the enclave, with its arguments. -/
inductive ClientCall
  | dataPlane (call : DataPlaneCall)
  | requestShutdown

namespace ClientCall

/-- The method itself; its result as `DataPlaneCall.run` gives it, `none` for
`request_shutdown`. -/
def run (env : Env) : ClientCall → ClientM (Option (List UInt8))
  | dataPlane call => call.run env
  | requestShutdown => (fun _ => none) <$> Veracruz.requestShutdown env

/-- The requests a call writes when nothing fails, in order. -/
def script (env : Env) : ClientCall → List Request
  | dataPlane call => [.requestPolicyHash, call.ownRequest env]
  | requestShutdown => [.requestShutdown]

/-- What a call needs to write its whole script from state `s`. `request_shutdown` checks
nothing: it needs only its request to encode. -/
def Ready (env : Env) : ClientCall → VeracruzClient → Prop
  | dataPlane call, s => call.ChecksPass env s
  | requestShutdown, _ => ∃ b, env.serialize .requestShutdown = .ok b

/-- What one call did from state `s`: it wrote `seg`, a prefix of its script, the whole
script exactly when it was ready, and returned `v`, a value only after the whole script. -/
def Wrote (env : Env) (s : VeracruzClient) (call : ClientCall) (v : Option (Option (List UInt8)))
    (seg : List Request) : Prop :=
  seg ∈ (call.script env).inits ∧ (seg = call.script env ↔ call.Ready env s) ∧
    (v.isSome → seg = call.script env)

/-- What a run did, call by call, each call from the state the calls before it left. -/
inductive WroteAll (env : Env) : VeracruzClient → List ClientCall →
    List (Option (Option (List UInt8))) → List (List Request) → Prop
  | nil (s : VeracruzClient) : WroteAll env s [] [] []
  | cons {s : VeracruzClient} {call : ClientCall} {v : Option (Option (List UInt8))}
      {seg : List Request} {calls vs segs} :
      call.Wrote env s v seg → WroteAll env (afterWriting env s seg) calls vs segs →
        WroteAll env s (call :: calls) (v :: vs) (seg :: segs)

/-- A run of calls on one client, each made whatever the previous one returned: the values
returned (`none` for an error) and the final state. -/
def runCalls (env : Env) : List ClientCall → VeracruzClient →
    List (Option (Option (List UInt8))) × VeracruzClient
  | [], s => ([], s)
  | call :: calls, s =>
    let rest := runCalls env calls (stateOf (call.run env s))
    (valueOf (call.run env s) :: rest.1, rest.2)

section Runs

variable (env : Env)

/-- One call from any state: it changes only the log and the session-id cell, as
`afterWriting` does for what it wrote. -/
theorem run_wrote (call : ClientCall) (s : VeracruzClient) :
    ∃ seg, stateOf (call.run env s) = afterWriting env s seg ∧
      call.Wrote env s (valueOf (call.run env s)) seg := by
  cases call with
  | dataPlane call =>
    rcases run_cases env call s with ⟨hno, hv, hs | hs⟩ | ⟨hpass, hs, -⟩
    · exact ⟨[], by simp [run, hs], by simp [Wrote, script, Ready, run, hno, hv]⟩
    · exact ⟨[.requestPolicyHash], by simp [run, hs, afterSend_eq_afterWriting],
        by simp [Wrote, script, Ready, run, hno, hv]⟩
    · exact ⟨[.requestPolicyHash, call.ownRequest env],
        by simp [run, hs, afterSend_eq_afterWriting], by simp [Wrote, script, Ready, hpass]⟩
  | requestShutdown =>
    rcases requestShutdown_cases env s with ⟨hno, hv, hs⟩ | ⟨hser, hs, -⟩
    · exact ⟨[], by simp [run, hs], by simp [Wrote, script, Ready, run, hno, hv]⟩
    · exact ⟨[.requestShutdown], by simp [run, hs, afterSend_eq_afterWriting],
        by simp [Wrote, script, Ready, hser]⟩

/-- A whole run is what its calls wrote, one after the other. -/
theorem runCalls_wrote (calls : List ClientCall) (s : VeracruzClient) :
    ∃ segs, (runCalls env calls s).2 = afterWriting env s segs.flatten ∧
      WroteAll env s calls (runCalls env calls s).1 segs := by
  induction calls generalizing s with
  | nil => exact ⟨[], by simp [runCalls], .nil s⟩
  | cons call calls ih =>
    obtain ⟨seg, hs, hw⟩ := run_wrote env call s
    obtain ⟨segs, hrest, hall⟩ := ih (stateOf (call.run env s))
    simp only [runCalls]
    rw [hs] at hrest hall ⊢
    exact ⟨seg :: segs, by simp [hrest], .cons hw hall⟩

/-- What one call wrote meets the guarantee: a data-plane request is written only with the
whole script, after the probe, when the call was ready. -/
theorem checksPrecede_of_wrote {s : VeracruzClient} {call : ClientCall}
    {v : Option (Option (List UInt8))} {seg : List Request} (h : call.Wrote env s v seg) :
    ChecksPrecede env s seg := by
  obtain ⟨hmem, hready, -⟩ := h
  cases call <;> simp only [script, List.inits, List.map_cons, List.map_nil, List.mem_cons,
    List.not_mem_nil, or_false] at hmem
  case dataPlane call =>
    rcases hmem with rfl | rfl | rfl
    · exact checksPrecede_nil env s
    · exact checksPrecede_of_not_isDataPlane env s (by simp [Request.isDataPlane])
    · obtain ⟨hacc, hrt, -⟩ := hready.mp rfl
      exact checksPrecede_probe env s hacc hrt _
  case requestShutdown =>
    rcases hmem with rfl | rfl
    · exact checksPrecede_nil env s
    · exact checksPrecede_of_not_isDataPlane env s (by simp [Request.isDataPlane])

/-- In the log a run wrote, every data-plane request follows an accepted probe. -/
theorem checksPrecede_of_wroteAll {s : VeracruzClient} {calls : List ClientCall}
    {vs : List (Option (Option (List UInt8)))} {segs : List (List Request)}
    (h : WroteAll env s calls vs segs) : ChecksPrecede env s segs.flatten := by
  induction h with
  | nil s => exact checksPrecede_nil env s
  | cons hw _ ih => exact checksPrecede_append env _ (checksPrecede_of_wrote env hw) ih

end Runs

end ClientCall

open ClientCall in
/-- Along any run of the client's public methods, in any order and whatever each returns,
the client changes only its log and its session-id cell. The log grows by what each call
wrote: a prefix of its script, the whole script exactly when the call was ready on the log
as it stood, and a value returned only once the whole script was written. The cell holds
what the relay left after the last request. Every data-plane request of the run follows a
policy-hash probe the enclave accepted, on a certificate whose runtime hash is accepted;
`request_shutdown` is ready as soon as its request encodes, as it checks nothing. -/
theorem client_run_log (env : Env) (calls : List ClientCall) (s : VeracruzClient) :
    ∃ segs, (runCalls env calls s).2 = afterWriting env s segs.flatten ∧
      WroteAll env s calls (runCalls env calls s).1 segs ∧ ChecksPrecede env s segs.flatten := by
  obtain ⟨segs, hs, hall⟩ := runCalls_wrote env calls s
  exact ⟨segs, hs, hall, checksPrecede_of_wroteAll env hall⟩

end Veracruz
