/-
LoadBalancing.Lib.ErrorRoundTrip — what of an error text comes out of
`ReceiveError` that went into `SendError`.

Four lengths meet on the way: the 16 bits `strlen` is cut to, the
`MAX_ERROR_MSG_SIZE` that the encoder cuts to, the bytes that its buffer
has left behind the code and the length field, which are three fewer, and
the 255 bytes that the decoder copies. `error_round_trip_iff` says which
texts get through: those that fit the buffer, and longer ones whose length
wraps to one that fits and is at least what the decoder copies.

The socket is a healthy one, so what does not get through is lost by the
encoder.

No `sorry`, no `axiom`, no `native_decide`.
-/
import LoadBalancing.Lib.ReceiveBuffer
import LoadBalancing.Lib.SendBuffer
import LoadBalancing.Lib.StreamReassembly

namespace LoadBalancing.Lib.ErrorRoundTrip

open LoadBalancing.Base LoadBalancing.Lib

/-- `SendError` with its buffer and its `ProtocolSend`, which is given the
first `offset` bytes. A write behind the buffer is a fault. -/
def sendError (answers : Nat → SocketAnswer) (error : UInt8) (message : Option CString)
    (s : SendSide) : Outcome (Int × SendSide) :=
  match SendBuffer.sendError error message with
  | none => .reject
  | some (type, buffer) =>
    if buffer.InBounds maxMessageSize then
      .accept (protocolSend answers ⟨type.value, buffer.content.take buffer.offset.toNat⟩ s)
    else .fault

/-- The bytes of a message; none for NULL. -/
def textOf (message : Option CString) : List UInt8 := (message.map CString.bytes).getD []

/-- **The promise for an error**: `SendError` puts one frame on the wire and
returns its size, and `ReceiveError` accepts its payload with the code and
the first 255 bytes of the text. -/
def RoundTrips (answers : Nat → SocketAnswer) (s : SendSide) (error : UInt8)
    (message : Option CString) : Prop :=
  ∃ (payload : List UInt8) (calls : Nat),
    sendError answers error message s = .accept
      ((headerSize + payload.length : Nat),
        ⟨calls, s.wire ++ (⟨MessageType.error.value, payload⟩ : Message).frame⟩) ∧
    ReceiveBuffer.receiveError payload = .accept (error, (textOf message).take 255)

/-- The texts that get through: NULL, those that fit the buffer behind the
three bytes in front, and those whose length wraps to such a length that is
no less than what the decoder copies. -/
def Carried : Option CString → Prop
  | none => True
  | some text =>
    text.strlen ≤ maxMessageSize - 3 ∨
      65536 ≤ text.strlen ∧ 255 ≤ text.strlen % 65536 ∧
        text.strlen % 65536 ≤ maxMessageSize - 3

/-! ## The encoder -/

/-- The text that `SendError` copies. -/
def copiedText (message : Option CString) : List UInt8 :=
  match message with
  | none => []
  | some text => text.bytes.take (errorMessageLength text)

/-- What it fills its buffer with. -/
theorem sendError_content (error : UInt8) (message : Option CString) :
    ∃ buffer, SendBuffer.sendError error message = some (.error, buffer) ∧
      buffer.content = writeUInt8 error ++ lengthPrefixed (copiedText message) := by
  cases message with
  | none => exact ⟨_, rfl, by simp [copiedText, lengthPrefixed]⟩
  | some text => exact ⟨_, rfl, by simp [copiedText]⟩

/-- The copy is cut to the length field. -/
theorem length_copiedText (message : Option CString) :
    (copiedText message).length =
      (message.map fun text => min (text.strlen % 65536) 1024).getD 0 := by
  cases message with
  | none => rfl
  | some text =>
    rw [copiedText, SendBuffer.length_take_errorMessage, SendBuffer.errorMessageLength_eq]
    rfl

/-- **On a healthy socket** `SendError` sends the frame of its buffer, if
that was large enough. -/
theorem sendError_healthy {answers : Nat → SocketAnswer} (hhealthy : Healthy answers)
    (error : UInt8) {message : Option CString}
    (hfits : (copiedText message).length + 3 ≤ maxMessageSize) (s : SendSide) :
    ∃ calls, sendError answers error message s = .accept
      ((headerSize + (writeUInt8 error ++ lengthPrefixed (copiedText message)).length : Nat),
        ⟨calls, s.wire ++ (⟨MessageType.error.value,
          writeUInt8 error ++ lengthPrefixed (copiedText message)⟩ : Message).frame⟩) := by
  obtain ⟨buffer, hsend, hcontent⟩ := sendError_content error message
  have hshort : ¬ (SendBuffer.SendCall.error error message).Overlong := by
    cases message with
    | none => exact not_false
    | some text =>
      have hlength := length_copiedText (some text)
      simp only [Option.map_some, Option.getD_some] at hlength
      simp only [SendBuffer.SendCall.Overlong, maxMessageSize] at hfits ⊢
      omega
  have hbounded := (SendBuffer.encoders_bounded_iff
    (show (SendBuffer.SendCall.error error message).buffer = _ from hsend)).mpr hshort
  have hwhole : buffer.content.take buffer.offset.toNat = buffer.content := by
    rw [hbounded.2.1]
    exact List.take_length
  have hsize : buffer.content.length ≤ maxMessageSize := hbounded.2.1 ▸ hbounded.2.2
  obtain ⟨calls, hsent⟩ := protocolSend_healthy hhealthy
    (m := ⟨MessageType.error.value, buffer.content⟩) hsize s
  refine ⟨calls, ?_⟩
  simp only [sendError, hsend, if_pos hbounded.1, hwhole]
  rw [hsent, hcontent]

/-- Otherwise it writes behind its buffer. -/
theorem sendError_fault (answers : Nat → SocketAnswer) (error : UInt8) {message : Option CString}
    (hlong : maxMessageSize < (copiedText message).length + 3) (s : SendSide) :
    sendError answers error message s = .fault := by
  obtain ⟨buffer, hsend, hcontent⟩ := sendError_content error message
  obtain ⟨hmessage, hsteady⟩ := SendBuffer.encoders_fill
    (show (SendBuffer.SendCall.error error message).buffer = _ from hsend)
  have hcount : buffer.content.length < 65536 := SendBuffer.length_message_lt hmessage
  have hout : ¬ buffer.InBounds maxMessageSize := by
    rw [hsteady.bounds hcount, hcontent]
    simp only [List.length_append, SendBuffer.length_lengthPrefixed, writeUInt8, length_toBigEndian]
    omega
  simp only [sendError, hsend, if_neg hout]

/-! ## The decoder -/

/-- The decoder on what the encoder copied. -/
theorem receiveError_copiedText (error : UInt8) {message : Option CString}
    (hfits : (copiedText message).length + 3 ≤ maxMessageSize) :
    ReceiveBuffer.receiveError (writeUInt8 error ++ lengthPrefixed (copiedText message)) =
      .accept (error, (copiedText message).take 255) := by
  have hshort : (copiedText message).length ≤ 65535 := by
    simp only [maxMessageSize] at hfits
    omega
  have hbuffer : (writeUInt8 error ++ lengthPrefixed (copiedText message)).length < 65536 := by
    simp only [List.length_append, SendBuffer.length_lengthPrefixed, writeUInt8, length_toBigEndian,
      maxMessageSize] at hfits ⊢
    omega
  rw [ReceiveBuffer.receiveError_eq hbuffer, (ReceiveBuffer.reads_error _).2]
  exact ⟨copiedText message, hshort, List.prefix_refl _, rfl⟩

/-- What the decoder hands over is the beginning of the text exactly when the
copy was not too short for it. -/
theorem take_copiedText (message : Option CString) :
    (copiedText message).take 255 = (textOf message).take 255 ↔
      min (textOf message).length 255 ≤ (copiedText message).length := by
  cases message with
  | none => simp [copiedText, textOf]
  | some text =>
    have hcopied : copiedText (some text) = text.bytes.take (copiedText (some text)).length := by
      rw [copiedText, SendBuffer.length_take_errorMessage]
    have htext : textOf (some text) = text.bytes := rfl
    rw [htext]
    constructor
    · intro hsame
      have hlength := congrArg List.length hsame
      simp only [List.length_take] at hlength
      omega
    · intro henough
      rw [hcopied, List.take_take, List.take_eq_take_iff]
      omega

/-! ## There and back -/

/-- A frame of the same size shows its payload. -/
theorem payload_of_frame {wire p q : List UInt8} {type : UInt8} (hlength : p.length = q.length)
    (h : wire ++ (⟨type, p⟩ : Message).frame = wire ++ (⟨type, q⟩ : Message).frame) : p = q := by
  have hframe := List.append_cancel_left h
  simp only [Message.frame, hlength] at hframe
  exact List.append_cancel_left hframe

theorem carried_iff (message : Option CString) :
    Carried message ↔ (copiedText message).length + 3 ≤ maxMessageSize ∧
      min (textOf message).length 255 ≤ (copiedText message).length := by
  rw [length_copiedText]
  cases message with
  | none => simp [Carried, textOf, maxMessageSize]
  | some text =>
    have htext : (textOf (some text)).length = text.strlen := rfl
    simp only [Carried, htext, Option.map_some, Option.getD_some, maxMessageSize]
    omega

/-- **Which error messages get through** a healthy socket. -/
theorem error_round_trip_iff {answers : Nat → SocketAnswer} (hhealthy : Healthy answers)
    (s : SendSide) (error : UInt8) (message : Option CString) :
    RoundTrips answers s error message ↔ Carried message := by
  rw [carried_iff]
  constructor
  · rintro ⟨payload, calls, hsend, hreceive⟩
    have hfits : (copiedText message).length + 3 ≤ maxMessageSize := by
      by_contra hlong
      rw [sendError_fault answers error (by omega) s] at hsend
      cases hsend
    obtain ⟨calls', hsent⟩ := sendError_healthy hhealthy error hfits s
    rw [hsend, Outcome.accept.injEq, Prod.mk.injEq, SendSide.mk.injEq] at hsent
    obtain ⟨hsize, -, hwire⟩ := hsent
    have hpayload := payload_of_frame (by omega) hwire
    rw [hpayload, receiveError_copiedText error hfits, Outcome.accept.injEq, Prod.mk.injEq]
      at hreceive
    exact ⟨hfits, (take_copiedText message).mp hreceive.2⟩
  · rintro ⟨hfits, henough⟩
    obtain ⟨calls, hsent⟩ := sendError_healthy hhealthy error hfits s
    refine ⟨_, calls, hsent, ?_⟩
    rw [receiveError_copiedText error hfits, (take_copiedText message).mpr henough]

/-- A socket that takes all it is given. -/
theorem healthy_count : Healthy fun _ => .count 1024 :=
  ⟨fun _ => Or.inr ⟨1024, by decide, rfl⟩, fun _ => ⟨0, by decide, nofun⟩⟩

/-- The longest text that fits. -/
theorem error_round_trip_full :
    RoundTrips (fun _ => .count 1024) ⟨0, []⟩ ErrorCode.serverBusy.value
      (some (SendBuffer.letters 1021)) := by
  have hstrlen : (SendBuffer.letters 1021).strlen = 1021 := List.length_replicate
  exact (error_round_trip_iff healthy_count ⟨0, []⟩ _ _).mpr (Or.inl (by rw [hstrlen]; decide))

/-- **One byte more is written behind the buffer**, on any socket. -/
theorem error_text_overflows :
    ¬ ∀ (answers : Nat → SocketAnswer), Healthy answers → ∀ (s : SendSide) (error : UInt8)
      (message : Option CString), RoundTrips answers s error message := by
  intro hall
  obtain ⟨payload, calls, hsend, -⟩ := hall _ healthy_count ⟨0, []⟩ ErrorCode.serverBusy.value
    (some (SendBuffer.letters 1022))
  have hstrlen : (SendBuffer.letters 1022).strlen = 1022 := List.length_replicate
  have hlong : maxMessageSize < (copiedText (some (SendBuffer.letters 1022))).length + 3 := by
    rw [length_copiedText, Option.map_some, Option.getD_some, hstrlen]
    decide
  rw [sendError_fault _ _ hlong] at hsend
  cases hsend

end LoadBalancing.Lib.ErrorRoundTrip
