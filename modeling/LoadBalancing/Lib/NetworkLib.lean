/-
LoadBalancing.Lib.NetworkLib — the partial-transfer loops of
`Lib/NetworkLib.c` and the framing of `ProtocolSend` and
`ProtocolReceive` on top of them.

A socket answers each `send` or `recv` with a count or an error. The
answers are a sequence `Nat → SocketAnswer` read one call at a time, so
that a statement over every sequence covers every way the operating
system can split, stall or break a transfer. A count is what the system
was able to move, capped by what it was asked for: `send` and `recv`
never move more than their length argument.

`SendBuffer` and `ReceiveBuffer` are the same loop around `SafeSend` and
`SafeReceive`; `transferLoop` is that loop, and each keeps its own
definition as an instance of it.
-/
import LoadBalancing.Lib.Protocol

namespace LoadBalancing.Lib

open LoadBalancing.Base

/-! ## Single calls -/

/-- The `WSAGetLastError` codes the library tells apart. -/
inductive SocketError where
  | wouldBlock | notInitialised | connReset | connAborted | netUnreach | hostUnreach | other
  deriving DecidableEq, Repr

/-- What the system answers to one `send` or `recv`. -/
inductive SocketAnswer where
  | count (n : Nat)
  | error (code : SocketError)
  deriving DecidableEq, Repr

/-- The return value of `SafeSend` and `SafeReceive` on `SOCKET_ERROR`. -/
def errorResult : SocketError → Int
  | .wouldBlock => 0
  | .notInitialised => -2
  | .connReset | .connAborted => -2
  | .netUnreach | .hostUnreach => -3
  | .other => -1

/-- The return value for a call asked to move `length` bytes of which
the system moved `moved`: no byte moved is a closed connection. -/
def countResult (moved : Nat) : Int :=
  if moved = 0 then -2 else moved

/-- `SafeSend`, on a valid socket and buffer. -/
def safeSend (answer : SocketAnswer) (length : Nat) : Int :=
  if length = 0 then -1
  else match answer with
    | .error code => errorResult code
    | .count n => countResult (min n length)

/-- `SafeReceive`, on a valid socket and buffer, with `available` bytes
behind it in the stream. On an empty stream a count cannot be answered:
the call would block. -/
def safeReceive (answer : SocketAnswer) (length available : Nat) : Int :=
  if length = 0 then -1
  else match answer with
    | .error code => errorResult code
    | .count n =>
      if available = 0 then errorResult .wouldBlock
      else countResult (min n (min length available))

/-! ## The transfer loop -/

/-- `MAX_RETRIES` of `SendBuffer` and `ReceiveBuffer`. -/
def maxRetries : Nat := 5000

/-- The loop of `SendBuffer` and `ReceiveBuffer`. `attempt s total rest`
is the call at offset `total` with `rest` bytes to go. Progress resets
the retry counter, so the two counters fall lexicographically. -/
def transferLoop {σ : Type} (attempt : σ → Nat → Nat → Int × σ) (length : Nat)
    (s : σ) (total retries : Nat) : Int × σ :=
  if total < length ∧ retries < maxRetries then
    let (moved, s') := attempt s total (length - total)
    if 0 < moved then transferLoop attempt length s' (total + moved.toNat) 0
    else if moved = 0 then transferLoop attempt length s' total (retries + 1)
    else if moved = -2 ∨ moved = -3 then (moved, s')
    else (-1, s')
  else if total < length then (-1, s)
  else (0, s)
termination_by (length - total, maxRetries - retries)
decreasing_by all_goals simp_wf; omega

/-- The sending side of a socket: how many calls have been made and the
bytes on the wire. -/
structure SendSide where
  calls : Nat
  wire : List UInt8

/-- The receiving side: how many calls have been made and the bytes of
the stream still to come. -/
structure ReceiveSide where
  calls : Nat
  stream : List UInt8

/-- One `SafeSend` of a buffer from an offset. -/
def sendAttempt (answers : Nat → SocketAnswer) (buffer : List UInt8)
    (s : SendSide) (total rest : Nat) : Int × SendSide :=
  let moved := safeSend (answers s.calls) rest
  (moved, ⟨s.calls + 1, s.wire ++ (buffer.drop total).take moved.toNat⟩)

/-- `SendBuffer`, on a valid socket. -/
def sendBuffer (answers : Nat → SocketAnswer) (buffer : List UInt8) (s : SendSide) :
    Int × SendSide :=
  if buffer.length = 0 then (-1, s)
  else transferLoop (sendAttempt answers buffer) buffer.length s 0 0

/-- One `SafeReceive` behind the bytes received so far. -/
def receiveAttempt (answers : Nat → SocketAnswer)
    (s : ReceiveSide × List UInt8) (_total rest : Nat) : Int × ReceiveSide × List UInt8 :=
  let moved := safeReceive (answers s.1.calls) rest s.1.stream.length
  (moved, ⟨s.1.calls + 1, s.1.stream.drop moved.toNat⟩, s.2 ++ s.1.stream.take moved.toNat)

/-- `ReceiveBuffer`, on a valid socket, with the bytes it filled the
buffer with. -/
def receiveBuffer (answers : Nat → SocketAnswer) (length : Nat) (s : ReceiveSide) :
    Int × ReceiveSide × List UInt8 :=
  if length = 0 then (-1, s, [])
  else transferLoop (receiveAttempt answers) length (s, []) 0 0

/-! ## Frames -/

/-- The packed `MessageHeader`: the type byte and `htons(length)`. -/
def header (type : UInt8) (dataSize : UInt16) : List UInt8 :=
  writeUInt8 type ++ writeUInt16 dataSize

/-- `sizeof(MessageHeader)`. -/
def headerSize : Nat := 3

/-- The bytes of a message on the wire. -/
def Message.frame (m : Message) : List UInt8 :=
  header m.type (UInt16.ofNat m.payload.length) ++ m.payload

/-- `ProtocolSendBuffer` hands the codes -2 and -3 through and turns
every other failure into -1. -/
def transferCode (result : Int) : Int :=
  if result < 0 then
    if result = -2 then -2 else if result = -3 then -3 else -1
  else 0

/-- `ProtocolSend` on a valid socket: the header, then the payload if it
has one. -/
def protocolSend (answers : Nat → SocketAnswer) (m : Message) (s : SendSide) : Int × SendSide :=
  if maxMessageSize < m.payload.length then (-1, s)
  else
    let (headerResult, s₁) := sendBuffer answers
      (header m.type (UInt16.ofNat m.payload.length)) s
    if transferCode headerResult ≠ 0 then (transferCode headerResult, s₁)
    else if 0 < m.payload.length then
      let (payloadResult, s₂) := sendBuffer answers m.payload s₁
      if transferCode payloadResult ≠ 0 then (transferCode payloadResult, s₂)
      else ((headerSize + m.payload.length : Nat), s₂)
    else ((headerSize + m.payload.length : Nat), s₁)

/-- The outputs of a `ProtocolReceive` that returns 0: the type, the
actual size and the bytes received. -/
structure Received where
  type : UInt8
  actualSize : Nat
  data : List UInt8
  deriving DecidableEq

/-- `ProtocolReceive` on a valid socket, with a buffer of `bufferSize`
bytes. The outputs are `none` when the call fails. -/
def protocolReceive (answers : Nat → SocketAnswer) (bufferSize : Nat) (s : ReceiveSide) :
    Int × ReceiveSide × Option Received :=
  let (headerResult, s₁, bytes) := receiveBuffer answers headerSize s
  if transferCode headerResult ≠ 0 then (transferCode headerResult, s₁, none)
  else
    let type := UInt8.ofNat (ofBigEndian (bytes.take 1))
    let actualSize := ofBigEndian (bytes.drop 1)
    if type = 0 then (-4, s₁, none)
    else if maxMessageSize * 4 < actualSize then (-4, s₁, none)
    else if 0 < actualSize then
      if bufferSize < actualSize then (-1, s₁, none)
      else
        let (payloadResult, s₂, data) := receiveBuffer answers actualSize s₁
        if transferCode payloadResult ≠ 0 then (transferCode payloadResult, s₂, none)
        else (0, s₂, some ⟨type, actualSize, data⟩)
    else (0, s₁, some ⟨type, 0, []⟩)

/-- A thread's `ProtocolSend` calls for a sequence of messages, with
their return values. -/
def sendAll (answers : Nat → SocketAnswer) : List Message → SendSide → List Int × SendSide
  | [], s => ([], s)
  | m :: ms, s =>
    let (result, s₁) := protocolSend answers m s
    let (results, s₂) := sendAll answers ms s₁
    (result :: results, s₂)

/-- `n` calls of `ProtocolReceive` on one socket, with their outputs. -/
def receiveAll (answers : Nat → SocketAnswer) (bufferSize : Nat) :
    Nat → ReceiveSide → List (Int × Option Received) × ReceiveSide
  | 0, s => ([], s)
  | n + 1, s =>
    let (result, s₁, out) := protocolReceive answers bufferSize s
    let (outs, s₂) := receiveAll answers bufferSize n s₁
    ((result, out) :: outs, s₂)

/-! ## Results of a send -/

/-- The codes of a transfer. -/
theorem transferCode_cases (result : Int) :
    transferCode result = 0 ∨ transferCode result = -1 ∨ transferCode result = -2 ∨
      transferCode result = -3 := by
  unfold transferCode
  split
  · split
    · exact Or.inr (Or.inr (Or.inl rfl))
    · split
      · exact Or.inr (Or.inr (Or.inr rfl))
      · exact Or.inr (Or.inl rfl)
  · exact Or.inl rfl

/-- `ProtocolSend` returns the size of the frame or the code of a transfer
that failed. -/
theorem protocolSend_result (answers : Nat → SocketAnswer) (m : Message) (s : SendSide) :
    0 < (protocolSend answers m s).1 ∨ (protocolSend answers m s).1 = -1 ∨
      (protocolSend answers m s).1 = -2 ∨ (protocolSend answers m s).1 = -3 := by
  have hsize : (0 : Int) < (headerSize + m.payload.length : Nat) := by
    rw [headerSize]
    omega
  unfold protocolSend
  split
  · exact Or.inr (Or.inl rfl)
  · simp only
    split
    · rename_i hfailed
      exact Or.inr ((transferCode_cases _).resolve_left hfailed)
    · split
      · split
        · rename_i hfailed
          exact Or.inr ((transferCode_cases _).resolve_left hfailed)
        · exact Or.inl hsize
      · exact Or.inl hsize

/-- A send whose first call fails, other than by having to wait. -/
theorem protocolSend_error {answers : Nat → SocketAnswer} {m : Message} {s : SendSide}
    (hsize : m.payload.length ≤ maxMessageSize) {code : SocketError} (hcode : code ≠ .wouldBlock)
    (h : answers s.calls = .error code) :
    protocolSend answers m s = (errorResult code, ⟨s.calls + 1, s.wire⟩) := by
  have hlength : (header m.type (UInt16.ofNat m.payload.length)).length = 3 := by
    simp [header, writeUInt8, writeUInt16]
  have hheader : sendBuffer answers (header m.type (UInt16.ofNat m.payload.length)) s =
      (errorResult code, ⟨s.calls + 1, s.wire⟩) := by
    unfold sendBuffer
    rw [hlength, if_neg (by decide)]
    unfold transferLoop
    rw [if_pos (by decide)]
    cases code with
    | wouldBlock => exact absurd rfl hcode
    | notInitialised | connReset | connAborted | netUnreach | hostUnreach | other =>
      simp [sendAttempt, safeSend, h, errorResult]
  unfold protocolSend
  rw [if_neg (Nat.not_lt.mpr hsize), hheader]
  cases code with
  | wouldBlock => exact absurd rfl hcode
  | notInitialised | connReset | connAborted | netUnreach | hostUnreach | other => rfl

end LoadBalancing.Lib
