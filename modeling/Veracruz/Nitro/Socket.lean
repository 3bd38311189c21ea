import Veracruz.Nitro.Message

/-!
# The framed socket between the host and the root enclave

`send_message` hands the bincode encoding of a message to `send_buffer`, and
`receive_message` decodes the buffer `receive_buffer` returns. The two buffer functions live
in the `fd` module of `io-utils`, which is not in this repository; they are modelled from the
spec's framed transport: a buffer goes on the stream as its length, a little-endian `u64`,
followed by its bytes; the reader retries short reads until it has the declared length, and
the end of the stream in the middle of a buffer is an error.

The stream is seen from its reading end: the bytes the peer has written and that are not yet
read, up to where the peer closes it, and how many bytes the kernel hands to each coming
`read`. Every statement holds for every such schedule.

## Main results

- `receiveExact_of_le`, `receiveExact_of_lt` — the retry loop reads exactly the bytes asked
  for, whatever the schedule, or fails at the end of the stream.
- `receiveBuffer_sendBuffer` — a frame is read back whole, leaving what follows.
- `nitro_channel_in_order` — the messages the peer sends are received in order, none lost,
  changed or duplicated, and once they are read the next receive fails.
-/

namespace Veracruz.Nitro

open Veracruz.Bincode

/-- Modelled from the spec: the transport's error, the stream ending before a buffer is
complete. -/
inductive SocketError
  | unexpectedEof
  deriving DecidableEq, Repr

/-- The reading end of the stream socket: the bytes the peer has written that are not yet
read, up to where the peer closes the stream, and for each coming `read` the most bytes the
kernel hands over; a `read` past the end of the schedule is handed all it asks for. -/
structure Socket where
  pending : List UInt8
  schedule : List Nat
  deriving DecidableEq, Repr

/-- Modelled from the spec: the bytes `send_buffer` puts on the stream for `buffer`: its
length as a little-endian `u64` (`as u64`, so modulo `2^64`), then the buffer. -/
def sendBuffer (buffer : List UInt8) : List UInt8 :=
  leBytes 8 buffer.length ++ buffer

/-- An error of `receive_message`, as the `anyhow` error carries it: the transport's or
bincode's. -/
inductive ReceiveError
  | socket (e : SocketError)
  | bincode (e : ErrorKind)
  deriving DecidableEq, Repr

namespace Socket

/-- Modelled from the spec: one `read` into a destination of `want` bytes. It returns `0` at
the end of the stream; otherwise, for `want > 0`, it hands over at least one byte and at
most `want`, as many as the kernel's schedule allows. -/
def read (s : Socket) (want : Nat) : Nat × List UInt8 × Socket :=
  let n := min (max (s.schedule.headD want) 1) (min want s.pending.length)
  (n, s.pending.take n, ⟨s.pending.drop n, s.schedule.tail⟩)

/-- Modelled from the spec: the loop of `receive_buffer` that fills a buffer of `want` bytes,
retrying short reads; a `read` of `0` bytes, the end of the stream, fails. -/
def receiveExact (s : Socket) (want : Nat) : Except SocketError (List UInt8 × Socket) :=
  if _ : want = 0 then .ok ([], s)
  else
    if _ : (s.read want).1 = 0 then .error .unexpectedEof
    else
      match receiveExact (s.read want).2.2 (want - (s.read want).1) with
      | .ok (bytes, s') => .ok ((s.read want).2.1 ++ bytes, s')
      | .error e => .error e
termination_by want
decreasing_by omega

/-- Modelled from the spec: `receive_buffer`, the length as a little-endian `u64`, then that
many bytes. -/
def receiveBuffer (s : Socket) : Except SocketError (List UInt8 × Socket) :=
  match s.receiveExact 8 with
  | .error e => .error e
  | .ok (lengthBytes, s) => s.receiveExact (leValue lengthBytes)

/-- `send_message` of the peer: the frame of the message's encoding joins the stream. -/
def sendMessage (s : Socket) (data : NitroRootEnclaveMessage) : Socket :=
  { s with pending := s.pending ++ sendBuffer (Nitro.sendMessage data) }

/-- `receive_message`: `receive_buffer`, then `bincode::deserialize` of the buffer. -/
def receiveMessage (s : Socket) : Except ReceiveError (NitroRootEnclaveMessage × Socket) :=
  match s.receiveBuffer with
  | .error e => .error (.socket e)
  | .ok (response, s) =>
    match Nitro.receiveMessage response with
    | .error e => .error (.bincode e)
    | .ok message => .ok (message, s)

/-- `receive_message` called `n` times: the messages, or the first error. -/
def receiveMessages (s : Socket) :
    Nat → Except ReceiveError (List NitroRootEnclaveMessage × Socket)
  | 0 => .ok ([], s)
  | n + 1 =>
    match s.receiveMessage with
    | .error e => .error e
    | .ok (m, s) =>
      match s.receiveMessages n with
      | .error e => .error e
      | .ok (ms, s) => .ok (m :: ms, s)

-- ════════════════════════════════════════════════════════════════════════
-- Reading exactly
-- ════════════════════════════════════════════════════════════════════════

section Read

variable (s : Socket) (want : Nat)

/-- A `read` hands over the front of the stream, never more than asked for or than there is,
and at least one byte when it asks for some and the stream has some. -/
theorem read_spec :
    (s.read want).1 ≤ want ∧ (s.read want).1 ≤ s.pending.length ∧
      (0 < want → s.pending ≠ [] → 0 < (s.read want).1) ∧
      (s.read want).2.1 = s.pending.take (s.read want).1 ∧
      (s.read want).2.2.pending = s.pending.drop (s.read want).1 := by
  refine ⟨?_, ?_, fun hw hp => ?_, rfl, rfl⟩ <;> simp only [read]
  · omega
  · omega
  · have := List.length_pos.mpr hp
    omega

theorem receiveExact_zero : s.receiveExact 0 = .ok ([], s) := by
  rw [receiveExact, dif_pos rfl]

/-- The loop, once a read has handed over `n > 0` bytes: the rest is read from where it
left the stream. -/
theorem receiveExact_step (hwant : want ≠ 0) (hn : (s.read want).1 ≠ 0) :
    s.receiveExact want =
      match (s.read want).2.2.receiveExact (want - (s.read want).1) with
      | .ok (bytes, s') => .ok ((s.read want).2.1 ++ bytes, s')
      | .error e => .error e := by
  rw [receiveExact, dif_neg hwant, dif_neg hn]

/-- Whatever the schedule, the loop reads exactly the first `want` bytes of the stream when
they are there. -/
theorem receiveExact_of_le (h : want ≤ s.pending.length) :
    ∃ sched,
      s.receiveExact want = .ok (s.pending.take want, ⟨s.pending.drop want, sched⟩) := by
  induction want using Nat.strong_induction_on generalizing s with
  | _ want ih =>
    rcases Nat.eq_zero_or_pos want with rfl | hwant
    · exact ⟨s.schedule, by simp [receiveExact_zero]⟩
    obtain ⟨hle, hlen, hpos, htake, hdrop⟩ := s.read_spec want
    have hn : 0 < (s.read want).1 := hpos hwant (List.ne_nil_of_length_pos (by omega))
    obtain ⟨sched, hrest⟩ := ih (want - (s.read want).1) (by omega) (s.read want).2.2
      (by simp only [hdrop, List.length_drop]; omega)
    refine ⟨sched, ?_⟩
    rw [receiveExact_step s want (by omega) (by omega), hrest]
    simp only [htake, hdrop, List.drop_drop, ← List.take_add, Nat.add_sub_cancel' hle]

/-- ... and fails when the stream ends first. -/
theorem receiveExact_of_lt (h : s.pending.length < want) :
    s.receiveExact want = .error .unexpectedEof := by
  induction want using Nat.strong_induction_on generalizing s with
  | _ want ih =>
    obtain ⟨hle, hlen, hpos, -, hdrop⟩ := s.read_spec want
    by_cases hn : (s.read want).1 = 0
    · rw [receiveExact, dif_neg (by omega), dif_pos hn]
    · rw [receiveExact_step s want (by omega) hn, ih _ (by omega) _
        (by simp only [hdrop, List.length_drop]; omega)]

end Read

-- ════════════════════════════════════════════════════════════════════════
-- Frames
-- ════════════════════════════════════════════════════════════════════════

theorem uint64_size_eq : UInt64.size = 256 ^ 8 := rfl

/-- A frame is read back whole, whatever the schedule, and what follows it is left. -/
theorem receiveBuffer_sendBuffer (buffer rest : List UInt8) (sched : List Nat)
    (h : buffer.length < UInt64.size) :
    ∃ sched', (⟨sendBuffer buffer ++ rest, sched⟩ : Socket).receiveBuffer =
      .ok (buffer, ⟨rest, sched'⟩) := by
  have hhead : (sendBuffer buffer ++ rest).take 8 = leBytes 8 buffer.length ∧
      (sendBuffer buffer ++ rest).drop 8 = buffer ++ rest := by
    simp [sendBuffer, List.take_append_of_le_length, List.drop_append_of_le_length]
  obtain ⟨sched1, h1⟩ := receiveExact_of_le ⟨sendBuffer buffer ++ rest, sched⟩ 8
    (by simp [sendBuffer])
  obtain ⟨sched2, h2⟩ := receiveExact_of_le ⟨buffer ++ rest, sched1⟩ buffer.length (by simp)
  refine ⟨sched2, ?_⟩
  rw [receiveBuffer, h1]
  simp only [hhead, leValue_leBytes, Nat.mod_eq_of_lt (uint64_size_eq ▸ h)]
  rw [h2]
  simp

-- ════════════════════════════════════════════════════════════════════════
-- Messages
-- ════════════════════════════════════════════════════════════════════════

/-- The peer's messages join the stream as their frames, in order. -/
theorem foldl_sendMessage (s : Socket) (msgs : List NitroRootEnclaveMessage) :
    msgs.foldl sendMessage s =
      ⟨s.pending ++ msgs.flatMap fun m => sendBuffer (Nitro.sendMessage m), s.schedule⟩ := by
  induction msgs generalizing s with
  | nil => simp
  | cons m ms ih => simp [ih, sendMessage]

/-- A message sent on the stream is received, whatever the schedule, and what follows its
frame is left. -/
theorem receiveMessage_sendBuffer (m : NitroRootEnclaveMessage) (rest : List UInt8)
    (sched : List Nat) (h : (Nitro.sendMessage m).length < UInt64.size) :
    ∃ sched', (⟨sendBuffer (Nitro.sendMessage m) ++ rest, sched⟩ : Socket).receiveMessage =
      .ok (m, ⟨rest, sched'⟩) := by
  obtain ⟨sched', hbuf⟩ := receiveBuffer_sendBuffer _ rest sched h
  have hdec : Nitro.receiveMessage (Nitro.sendMessage m) = .ok m :=
    (deserialize_eq_ok_iff _ m).mpr ⟨[], (List.append_nil _).symm⟩
  refine ⟨sched', ?_⟩
  rw [receiveMessage, hbuf]
  simp only [hdec]

theorem receiveMessages_frames (msgs : List NitroRootEnclaveMessage)
    (hlen : ∀ m ∈ msgs, (Nitro.sendMessage m).length < UInt64.size) (rest : List UInt8)
    (sched : List Nat) :
    ∃ sched', (⟨(msgs.flatMap fun m => sendBuffer (Nitro.sendMessage m)) ++ rest, sched⟩ :
      Socket).receiveMessages msgs.length = .ok (msgs, ⟨rest, sched'⟩) := by
  induction msgs generalizing sched with
  | nil => exact ⟨sched, rfl⟩
  | cons m ms ih =>
    simp only [List.mem_cons, forall_eq_or_imp] at hlen
    obtain ⟨sched1, h1⟩ := receiveMessage_sendBuffer m
      ((ms.flatMap fun m => sendBuffer (Nitro.sendMessage m)) ++ rest) sched hlen.1
    obtain ⟨sched2, h2⟩ := ih hlen.2 sched1
    refine ⟨sched2, ?_⟩
    rw [List.flatMap_cons, List.append_assoc, List.length_cons, receiveMessages, h1]
    simp only [h2]

/-- At the end of the stream `receive_message` fails. -/
theorem receiveMessage_closed (sched : List Nat) :
    (⟨[], sched⟩ : Socket).receiveMessage = .error (.socket .unexpectedEof) := by
  rw [receiveMessage, receiveBuffer, receiveExact_of_lt _ 8 (by simp)]

end Socket

/-- The channel to the root enclave delivers in order. When the peer sends messages on a
fresh stream and closes it, `receive_message`, called once per message, returns exactly
those messages in order, whatever sizes the kernel hands each `read`: none is lost, changed
or duplicated, and the stream is then empty, so the next call fails. Each message's encoding
must fit the `u64` length of its frame. -/
theorem nitro_channel_in_order (msgs : List NitroRootEnclaveMessage)
    (hlen : ∀ m ∈ msgs, (sendMessage m).length < UInt64.size) (sched : List Nat) :
    ∃ sched', (msgs.foldl Socket.sendMessage ⟨[], sched⟩).receiveMessages msgs.length =
        .ok (msgs, ⟨[], sched'⟩) ∧
      (⟨[], sched'⟩ : Socket).receiveMessage = .error (.socket .unexpectedEof) := by
  obtain ⟨sched', h⟩ := Socket.receiveMessages_frames msgs hlen [] sched
  refine ⟨sched', ?_, Socket.receiveMessage_closed sched'⟩
  rw [Socket.foldl_sendMessage]
  simpa using h

/-- Two messages through a stream whose reads hand over one byte, then three. -/
theorem nitro_channel_sample :
    (∀ m ∈ [NitroRootEnclaveMessage.fetchFirmwareVersion, .success],
        (sendMessage m).length < UInt64.size) ∧
      ∃ sched', ([NitroRootEnclaveMessage.fetchFirmwareVersion, .success].foldl
          Socket.sendMessage ⟨[], [1, 3]⟩).receiveMessages 2 =
          .ok ([.fetchFirmwareVersion, .success], ⟨[], sched'⟩) ∧
        (⟨[], sched'⟩ : Socket).receiveMessage = .error (.socket .unexpectedEof) := by
  have hlen : ∀ m ∈ [NitroRootEnclaveMessage.fetchFirmwareVersion, .success],
      (sendMessage m).length < UInt64.size := by decide
  exact ⟨hlen, nitro_channel_in_order _ hlen _⟩

end Veracruz.Nitro
