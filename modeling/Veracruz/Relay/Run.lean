import Veracruz.Relay.Connection

/-!
# Runs of the connection

mbedTLS may call `read` and `write` on the connection in any order, with destinations of
any length, while the server answers each POST however it likes. A run is such a sequence
of calls, each `write` with the outcome of its POST; the statements below hold for every
run from every state.

## Main results

- `run_handed_out` — every byte a run's responses deliver is handed to the engine once and
  in order, or is still in the read buffer.
- `read_buffer_fifo` — the same, for runs whose writes all succeed, stated over the records
  the responses carry; with the shape of a single read and the draining of the buffer.
- `session_id_follows_server` — the session id held after a run is the one carried by the
  latest response whose first token is a `u32`, and no `write` fails because of an id.
-/

namespace Veracruz

open Veracruz.Text

/-- A call the TLS engine makes on the connection. -/
inductive Event
  | read (data : List UInt8)
  | write (data : List UInt8) (outcome : HttpOutcome)

/-- What a call returned: a read's count and the bytes it placed in the destination, or a
write's result. -/
inductive Output
  | read (n : Nat) (bytes : List UInt8)
  | write (result : Except IoError Nat)

/-- The bytes a call handed to the engine. -/
def Output.bytes : Output → List UInt8
  | .read _ bs => bs
  | .write _ => []

/-- Whether a call succeeded; only a `write` can fail. -/
def Output.isOk : Output → Bool
  | .write (.error _) => false
  | _ => true

/-- The records an event's response carries. -/
def Event.received : Event → List UInt8
  | .read _ => []
  | .write _ o => o.records.getD []

/-- The bytes an event's response leaves in the read buffer, whether `write` then fails
or not. -/
def Event.delivered : Event → List UInt8
  | .read _ => []
  | .write _ o => o.delivered

/-- The session id an event's response carries. -/
def Event.sessionId : Event → Option UInt32
  | .read _ => none
  | .write _ o => o.sessionId

namespace InsecureConnection

/-- One call. -/
def step (c : InsecureConnection) : Event → Output × InsecureConnection
  | .read data =>
    let r := c.read data
    (.read r.1.1 (r.1.2.take r.1.1), r.2)
  | .write data o => (.write (c.write data o).1, (c.write data o).2)

/-- A run: the calls' outputs in order, and the final state. -/
def run (c : InsecureConnection) : List Event → List Output × InsecureConnection
  | [] => ([], c)
  | e :: es =>
    let s := c.step e
    let r := s.2.run es
    (s.1 :: r.1, r.2)

variable (c : InsecureConnection)

@[simp] theorem run_nil : c.run [] = ([], c) := rfl

@[simp] theorem run_cons (e : Event) (es : List Event) :
    c.run (e :: es) = ((c.step e).1 :: ((c.step e).2.run es).1, ((c.step e).2.run es).2) :=
  rfl

/-- A read hands out the front of the buffer, as many bytes as fit in the destination. -/
theorem read_spec (data : List UInt8) :
    (c.read data).1.1 = min data.length c.readBuffer.length ∧
      (c.read data).1.2.length = data.length ∧
      (c.read data).1.2.take (c.read data).1.1 = c.readBuffer.take (c.read data).1.1 ∧
      (c.read data).1.2.drop (c.read data).1.1 = data.drop (c.read data).1.1 ∧
      (c.read data).2.readBuffer = c.readBuffer.drop (c.read data).1.1 := by
  have hn : (c.readBuffer.take (min data.length c.readBuffer.length)).length =
      min data.length c.readBuffer.length := by simp
  refine ⟨rfl, ?_, List.take_left' hn, List.drop_left' hn, rfl⟩
  simp only [read, List.length_append, List.length_take, List.length_drop]
  omega

/-- One call: what it hands out, followed by the buffer after it, is the buffer before it
followed by what its response delivered. -/
theorem step_handed_out (e : Event) :
    (c.step e).1.bytes ++ (c.step e).2.readBuffer = c.readBuffer ++ e.delivered := by
  cases e with
  | read data =>
    obtain ⟨-, -, htake, -, hbuf⟩ := c.read_spec data
    simp only [step, Output.bytes, Event.delivered, htake, hbuf, List.append_nil]
    exact List.take_append_drop _ _
  | write data o => simp [step, Output.bytes, Event.delivered, write_state]

theorem run_handed_out (es : List Event) :
    ((c.run es).1.flatMap Output.bytes) ++ (c.run es).2.readBuffer =
      c.readBuffer ++ es.flatMap Event.delivered := by
  induction es generalizing c with
  | nil => simp
  | cons e es ih =>
    simp only [run_cons, List.flatMap_cons, List.append_assoc, ih]
    rw [← List.append_assoc, step_handed_out, List.append_assoc]

/-- A write that succeeds delivers exactly the records its response carries. -/
theorem delivered_of_step_isOk {e : Event} (h : (c.step e).1.isOk) :
    e.delivered = e.received := by
  cases e with
  | read data => rfl
  | write data o =>
    cases hw : (c.write data o).1 with
    | error err => simp [step, hw, Output.isOk] at h
    | ok n =>
      obtain ⟨-, hsome⟩ := (c.write_eq_ok_iff).mp hw
      obtain ⟨bytes, hb⟩ := Option.isSome_iff_exists.mp hsome
      simp [Event.delivered, Event.received, hb, delivered_of_records hb]

theorem delivered_of_run_isOk {es : List Event} (h : ∀ out ∈ (c.run es).1, out.isOk) :
    es.flatMap Event.delivered = es.flatMap Event.received := by
  induction es generalizing c with
  | nil => rfl
  | cons e es ih =>
    simp only [run_cons, List.mem_cons, forall_eq_or_imp] at h
    simp only [List.flatMap_cons, c.delivered_of_step_isOk h.1, ih _ h.2]

/-- Reads with non-empty destinations drain the buffer in at most its length many calls. -/
theorem run_reads_drain (ds : List (List UInt8)) (hds : ∀ d ∈ ds, d ≠ [])
    (hlen : c.readBuffer.length ≤ ds.length) :
    (c.run (ds.map .read)).2.readBuffer = [] := by
  induction ds generalizing c with
  | nil => simpa using hlen
  | cons d ds ih =>
    simp only [List.mem_cons, forall_eq_or_imp] at hds
    have hd : 0 < d.length := List.length_pos.mpr hds.1
    simp only [List.map_cons, run_cons]
    apply ih _ hds.2
    simp only [step, read, List.length_drop, List.length_cons] at hlen ⊢
    omega

/-- The connection's read buffer is a FIFO: along any run whose writes succeed, the bytes
handed to the engine, followed by the buffer, are the records of all responses in order
of receipt; a read hands out exactly as many bytes as fit, never indexing past either
slice; a zero-length read changes nothing; and reads with non-empty destinations empty
the buffer in at most its length many calls. -/
theorem read_buffer_fifo (es : List Event) (hok : ∀ out ∈ (c.run es).1, out.isOk) :
    ((c.run es).1.flatMap Output.bytes) ++ (c.run es).2.readBuffer =
        c.readBuffer ++ es.flatMap Event.received ∧
      (∀ data : List UInt8,
        (c.read data).1.1 = min data.length c.readBuffer.length ∧
          (c.read data).1.2.length = data.length ∧
          (c.read data).1.2.take (c.read data).1.1 = c.readBuffer.take (c.read data).1.1 ∧
          (c.read data).1.2.drop (c.read data).1.1 = data.drop (c.read data).1.1 ∧
          (c.read data).2.readBuffer = c.readBuffer.drop (c.read data).1.1) ∧
      c.read [] = ((0, []), c) ∧
      (∀ ds : List (List UInt8), (∀ d ∈ ds, d ≠ []) → c.readBuffer.length ≤ ds.length →
        (c.run (ds.map .read)).2.readBuffer = []) := by
  refine ⟨?_, c.read_spec, by simp [read], c.run_reads_drain⟩
  rw [run_handed_out, delivered_of_run_isOk c hok]

/-- A run from a fresh connection that receives one record and reads it in two calls. -/
theorem read_buffer_fifo_sample :
    (∀ out ∈ ((init []).run [.write [] (.response 200 (some "7 AAECAw==".toList)),
        .read [0, 0, 0], .read [0, 0]]).1, out.isOk) ∧
      (((init []).run [.write [] (.response 200 (some "7 AAECAw==".toList)),
        .read [0, 0, 0], .read [0, 0]]).1.flatMap Output.bytes) ++
        ((init []).run [.write [] (.response 200 (some "7 AAECAw==".toList)),
          .read [0, 0, 0], .read [0, 0]]).2.readBuffer =
        (init []).readBuffer ++ [Event.write [] (.response 200 (some "7 AAECAw==".toList)),
          .read [0, 0, 0], .read [0, 0]].flatMap Event.received := by
  have hok : ∀ out ∈ ((init []).run [.write [] (.response 200 (some "7 AAECAw==".toList)),
      .read [0, 0, 0], .read [0, 0]]).1, out.isOk := by decide
  exact ⟨hok, (read_buffer_fifo _ _ hok).1⟩

/-- The session id after a run: that of the latest response whose first token is a `u32`,
folded over the run. -/
theorem run_remoteSessionId (es : List Event) :
    (c.run es).2.remoteSessionId =
      es.foldl (fun acc e => Option.or e.sessionId acc) c.remoteSessionId := by
  induction es generalizing c with
  | nil => rfl
  | cons e es ih =>
    rw [run_cons, ih]
    cases e <;> simp [step, read, write_state, Event.sessionId]

/-- The session id is not pinned, nor checked. Whatever id the latest response's first token
carries, `0` included, replaces the one held, and the next POST body starts with it. Whether
a `write` succeeds depends on the response alone, never on the id held or the id received:
it succeeds exactly when the POST did and the whole body parses. -/
theorem session_id_follows_server (es : List Event) (data : List UInt8) :
    (c.run es).2.remoteSessionId =
        es.foldl (fun acc e => Option.or e.sessionId acc) c.remoteSessionId ∧
      ((c.run es).2.post data).body =
        u32Display ((es.foldl (fun acc e => Option.or e.sessionId acc) c.remoteSessionId).getD 0)
          ++ ' ' :: Base64.encode data ∧
      ∀ (c' : InsecureConnection) (data' : List UInt8) (o : HttpOutcome) (n : Nat),
        (c'.write data' o).1 = .ok n ↔ n = data'.length ∧ o.records.isSome := by
  refine ⟨c.run_remoteSessionId es, ?_, fun c' _ _ _ => c'.write_eq_ok_iff⟩
  rw [post, c.run_remoteSessionId es]

/-- A server that changes the id: after `7` is assigned, a response carrying `9` is
accepted without error and replaces it. -/
theorem session_id_replaced_without_error :
    (init []).write [] (.response 200 (some "7".toList)) = (.ok 0, ⟨[], [], some 7⟩) ∧
      (⟨[], [], some 7⟩ : InsecureConnection).write [] (.response 200 (some "9".toList)) =
        (.ok 0, ⟨[], [], some 9⟩) :=
  ⟨rfl, rfl⟩

end InsecureConnection

end Veracruz
