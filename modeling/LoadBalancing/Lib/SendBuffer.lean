/-
LoadBalancing.Lib.SendBuffer — the encoders of `Lib/Protocol.c` at the
level of their local buffer, `uint8_t buffer[MAX_MESSAGE_SIZE]`.

Every encoder fills the buffer from offset 0 upwards with the fields of
its message. `encoders_fill` says that the bytes are those of the encoder
in `Protocol` and that the offset counts them, so whether a write leaves
the buffer is a question about the length of the message.

It does for one encoder: `SendError` cuts its text to `MAX_ERROR_MSG_SIZE`,
which is the size of the whole buffer, and puts it behind three bytes.

No `sorry`, no `axiom`, no `native_decide`.
-/
import LoadBalancing.Base.WordBuffer
import LoadBalancing.Lib.ProtocolCodec

namespace LoadBalancing.Lib.SendBuffer

open LoadBalancing.Base LoadBalancing.Lib

/-! ## Writes -/

/-- `offset += WriteUInt8(buffer + offset, v)`. -/
def putUInt8 (b : WordBuffer) (v : UInt8) : WordBuffer := b.put (writeUInt8 v)

/-- `offset += WriteUInt16(buffer + offset, v)`. -/
def putUInt16 (b : WordBuffer) (v : UInt16) : WordBuffer := b.put (writeUInt16 v)

/-- `offset += WriteUInt32(buffer + offset, v)`. -/
def putUInt32 (b : WordBuffer) (v : UInt32) : WordBuffer := b.put (writeUInt32 v)

/-- The length and the bytes of a string: `WriteUInt16` with
`WriteString`, or with a `memcpy` and `offset += len`. -/
def putCounted (b : WordBuffer) (bytes : List UInt8) : WordBuffer :=
  (putUInt16 b (UInt16.ofNat bytes.length)).put bytes

/-- The value under `ERR_NONE`, a zero length otherwise. -/
def putResultValue (b : WordBuffer) (result : UInt8) (value : CString) : WordBuffer :=
  if result == ErrorCode.none.value then putCounted b value.bytes else putUInt16 b 0

/-! ## Encoders

The message type and the buffer that go to `ProtocolSend`, or `none` when
a check of the arguments fails. -/

/-- `SendPut`. -/
def sendPut (key value : CString) : Option (MessageType × WordBuffer) :=
  if !validateKey key || !validateValue value then none
  else some (.put, putCounted (putCounted .empty key.bytes) value.bytes)

/-- `SendPutResponse`. -/
def sendPutResponse (result : UInt8) (key : CString) : Option (MessageType × WordBuffer) :=
  if !validateKey key then none
  else some (.putResponse, putCounted (putUInt8 .empty result) key.bytes)

/-- `SendGet`. -/
def sendGet (key : CString) : Option (MessageType × WordBuffer) :=
  if !validateKey key then none
  else some (.get, putCounted .empty key.bytes)

/-- `SendGetResponse`. -/
def sendGetResponse (result : UInt8) (key value : CString) : Option (MessageType × WordBuffer) :=
  if !validateKey key || !validateValue value then none
  else some (.getResponse,
    putResultValue (putCounted (putUInt8 .empty result) key.bytes) result value)

/-- `SendStoreRequest`. -/
def sendStoreRequest (clientId : UInt32) (key value : CString) :
    Option (MessageType × WordBuffer) :=
  if !validateKey key || !validateValue value then none
  else some (.storeRequest,
    putCounted (putCounted (putUInt32 .empty clientId) key.bytes) value.bytes)

/-- `SendStoreResponse`. -/
def sendStoreResponse (result : UInt8) (clientId : UInt32) (key : CString) :
    Option (MessageType × WordBuffer) :=
  if !validateKey key then none
  else some (.storeResponse, putCounted (putUInt32 (putUInt8 .empty result) clientId) key.bytes)

/-- `SendRetrieveRequest`. -/
def sendRetrieveRequest (clientId : UInt32) (key : CString) :
    Option (MessageType × WordBuffer) :=
  if !validateKey key then none
  else some (.retrieveRequest, putCounted (putUInt32 .empty clientId) key.bytes)

/-- `SendRetrieveResponse`. -/
def sendRetrieveResponse (result : UInt8) (clientId : UInt32) (key value : CString) :
    Option (MessageType × WordBuffer) :=
  if !validateKey key || !validateValue value then none
  else some (.retrieveResponse,
    putResultValue (putCounted (putUInt32 (putUInt8 .empty result) clientId) key.bytes)
      result value)

/-- `SendWorkerReady`. -/
def sendWorkerReady (workerId : UInt32) (peerPort : UInt16) : Option (MessageType × WordBuffer) :=
  some (.workerReady, putUInt16 (putUInt32 .empty workerId) peerPort)

/-- `SendWorkerEntry`. -/
def sendWorkerEntry (workerId : UInt32) (address : CString) (port : UInt16)
    (shouldExportData : UInt8) : Option (MessageType × WordBuffer) :=
  some (.workerEntry,
    putUInt8 (putUInt16 (putCounted (putUInt32 .empty workerId)
      (address.bytes.take (addressLength address))) port) shouldExportData)

/-- `SendDataExportStart`. -/
def sendDataExportStart (totalEntries : UInt32) : Option (MessageType × WordBuffer) :=
  some (.dataExportStart, putUInt32 .empty totalEntries)

/-- `SendDataEntry`. -/
def sendDataEntry (key value : CString) : Option (MessageType × WordBuffer) :=
  if !validateKey key || !validateValue value then none
  else some (.dataEntry, putCounted (putCounted .empty key.bytes) value.bytes)

/-- `SendDataExportEnd`. -/
def sendDataExportEnd : Option (MessageType × WordBuffer) := some (.dataExportEnd, .empty)

/-- `SendPeerNotify`. -/
def sendPeerNotify (key value : CString) : Option (MessageType × WordBuffer) :=
  if !validateKey key || !validateValue value then none
  else some (.peerNotify, putCounted (putCounted .empty key.bytes) value.bytes)

/-- `SendError`; a message of `none` is the `NULL` pointer. -/
def sendError (error : UInt8) (message : Option CString) : Option (MessageType × WordBuffer) :=
  some (.error,
    match message with
    | some text =>
      putCounted (putUInt8 .empty error) (text.bytes.take (errorMessageLength text))
    | none => putUInt16 (putUInt8 .empty error) 0)

/-- `SendShutdown`. -/
def sendShutdown : Option (MessageType × WordBuffer) := some (.shutdown, .empty)

/-! ## All of them -/

/-- A call of one of the sixteen encoders. -/
inductive SendCall where
  | fields (fields : Fields CString)
  | error (error : UInt8) (message : Option CString)
  | dataExportEnd
  | shutdown

namespace SendCall

/-- What the call fills its buffer with. -/
def buffer : SendCall → Option (MessageType × WordBuffer)
  | fields (.put key value) => sendPut key value
  | fields (.putResponse result key) => sendPutResponse result key
  | fields (.get key) => sendGet key
  | fields (.getResponse result key value) => sendGetResponse result key value
  | fields (.storeRequest clientId key value) => sendStoreRequest clientId key value
  | fields (.storeResponse result clientId key) => sendStoreResponse result clientId key
  | fields (.retrieveRequest clientId key) => sendRetrieveRequest clientId key
  | fields (.retrieveResponse result clientId key value) =>
    sendRetrieveResponse result clientId key value
  | fields (.workerReady workerId peerPort) => sendWorkerReady workerId peerPort
  | fields (.workerEntry workerId address port shouldExportData) =>
    sendWorkerEntry workerId address port shouldExportData
  | fields (.dataExportStart totalEntries) => sendDataExportStart totalEntries
  | fields (.dataEntry key value) => sendDataEntry key value
  | fields (.peerNotify key value) => sendPeerNotify key value
  | error e message => sendError e message
  | dataExportEnd => sendDataExportEnd
  | shutdown => sendShutdown

/-- The message the call stands for. -/
def message : SendCall → Option Message
  | fields f => encode f
  | error e message => Lib.sendError e message
  | dataExportEnd => Lib.sendDataExportEnd
  | shutdown => Lib.sendShutdown

/-- A text with a 16-bit length of more than the buffer has left behind the
error code and the length field. -/
def Overlong : SendCall → Prop
  | error _ (some text) => maxMessageSize < 3 + text.strlen % 65536
  | _ => False

end SendCall

/-! ## What a buffer is filled with -/

@[simp] theorem content_putUInt8 (b : WordBuffer) (v : UInt8) :
    (putUInt8 b v).content = b.content ++ writeUInt8 v := WordBuffer.content_put _ _

@[simp] theorem content_putUInt16 (b : WordBuffer) (v : UInt16) :
    (putUInt16 b v).content = b.content ++ writeUInt16 v := WordBuffer.content_put _ _

@[simp] theorem content_putUInt32 (b : WordBuffer) (v : UInt32) :
    (putUInt32 b v).content = b.content ++ writeUInt32 v := WordBuffer.content_put _ _

@[simp] theorem content_putCounted (b : WordBuffer) (bytes : List UInt8) :
    (putCounted b bytes).content = b.content ++ lengthPrefixed bytes := by
  simp [putCounted, lengthPrefixed]

@[simp] theorem content_putResultValue (b : WordBuffer) (result : UInt8) (value : CString) :
    (putResultValue b result value).content = b.content ++ resultValue result value := by
  unfold putResultValue resultValue
  split <;> simp

theorem steady_putCounted {b : WordBuffer} (h : b.Steady) (bytes : List UInt8) :
    (putCounted b bytes).Steady := (h.put _).put _

theorem steady_putResultValue {b : WordBuffer} (h : b.Steady) (result : UInt8) (value : CString) :
    (putResultValue b result value).Steady := by
  unfold putResultValue
  split
  · exact steady_putCounted h _
  · exact h.put _

/-- What a checked encoder hands over, when the checks pass. -/
theorem checked_eq_some {α : Type} {p : Bool} {a b : α}
    (h : (if p then none else some a) = some b) : p = false ∧ a = b := by
  cases p with
  | true => cases h
  | false => exact ⟨rfl, Option.some.inj h⟩

/-- **Every encoder fills its buffer with its message**, and writes nothing
else. -/
theorem encoders_fill {call : SendCall} {type : MessageType} {b : WordBuffer}
    (h : call.buffer = some (type, b)) :
    call.message = some ⟨type.value, b.content⟩ ∧ b.Steady := by
  have hempty := WordBuffer.steady_empty
  cases call with
  | dataExportEnd | shutdown =>
    cases h
    exact ⟨rfl, hempty⟩
  | error e message =>
    cases message with
    | none =>
      cases h
      exact ⟨by simp [SendCall.message, Lib.sendError], (hempty.put _).put _⟩
    | some text =>
      cases h
      exact ⟨by simp [SendCall.message, Lib.sendError], steady_putCounted (hempty.put _) _⟩
  | fields f =>
    cases f with
    | put key value =>
      obtain ⟨hvalid, heq⟩ := checked_eq_some h
      cases heq
      exact ⟨by simp [SendCall.message, encode, Lib.sendPut, hvalid],
        steady_putCounted (steady_putCounted hempty _) _⟩
    | dataEntry key value =>
      obtain ⟨hvalid, heq⟩ := checked_eq_some h
      cases heq
      exact ⟨by simp [SendCall.message, encode, Lib.sendDataEntry, hvalid],
        steady_putCounted (steady_putCounted hempty _) _⟩
    | peerNotify key value =>
      obtain ⟨hvalid, heq⟩ := checked_eq_some h
      cases heq
      exact ⟨by simp [SendCall.message, encode, Lib.sendPeerNotify, hvalid],
        steady_putCounted (steady_putCounted hempty _) _⟩
    | putResponse result key =>
      obtain ⟨hvalid, heq⟩ := checked_eq_some h
      cases heq
      exact ⟨by simp [SendCall.message, encode, Lib.sendPutResponse, hvalid],
        steady_putCounted (hempty.put _) _⟩
    | get key =>
      obtain ⟨hvalid, heq⟩ := checked_eq_some h
      cases heq
      exact ⟨by simp [SendCall.message, encode, Lib.sendGet, hvalid], steady_putCounted hempty _⟩
    | getResponse result key value =>
      obtain ⟨hvalid, heq⟩ := checked_eq_some h
      cases heq
      exact ⟨by simp [SendCall.message, encode, Lib.sendGetResponse, hvalid],
        steady_putResultValue (steady_putCounted (hempty.put _) _) _ _⟩
    | storeRequest clientId key value =>
      obtain ⟨hvalid, heq⟩ := checked_eq_some h
      cases heq
      exact ⟨by simp [SendCall.message, encode, Lib.sendStoreRequest, hvalid],
        steady_putCounted (steady_putCounted (hempty.put _) _) _⟩
    | storeResponse result clientId key =>
      obtain ⟨hvalid, heq⟩ := checked_eq_some h
      cases heq
      exact ⟨by simp [SendCall.message, encode, Lib.sendStoreResponse, hvalid],
        steady_putCounted ((hempty.put _).put _) _⟩
    | retrieveRequest clientId key =>
      obtain ⟨hvalid, heq⟩ := checked_eq_some h
      cases heq
      exact ⟨by simp [SendCall.message, encode, Lib.sendRetrieveRequest, hvalid],
        steady_putCounted (hempty.put _) _⟩
    | retrieveResponse result clientId key value =>
      obtain ⟨hvalid, heq⟩ := checked_eq_some h
      cases heq
      exact ⟨by simp [SendCall.message, encode, Lib.sendRetrieveResponse, hvalid],
        steady_putResultValue (steady_putCounted ((hempty.put _).put _) _) _ _⟩
    | workerReady workerId peerPort =>
      cases h
      exact ⟨by simp [SendCall.message, encode, Lib.sendWorkerReady], (hempty.put _).put _⟩
    | workerEntry workerId address port shouldExportData =>
      cases h
      exact ⟨by simp [SendCall.message, encode, Lib.sendWorkerEntry],
        ((steady_putCounted (hempty.put _) _).put _).put _⟩
    | dataExportStart totalEntries =>
      cases h
      exact ⟨by simp [SendCall.message, encode, Lib.sendDataExportStart], hempty.put _⟩

/-! ## Lengths -/

theorem length_lengthPrefixed (bytes : List UInt8) :
    (lengthPrefixed bytes).length = 2 + bytes.length := by
  simp [lengthPrefixed, writeUInt16]

theorem length_resultValue (result : UInt8) (value : CString) :
    (resultValue result value).length ≤ 2 + value.bytes.length := by
  unfold resultValue
  split
  · exact (length_lengthPrefixed _).le
  · simp [writeUInt16]

/-- What the checks of a key and a value let through. -/
theorem lengths_of_valid {key value : CString}
    (h : (!validateKey key || !validateValue value) = false) :
    key.bytes.length ≤ 256 ∧ value.bytes.length ≤ 256 := by
  rw [Bool.or_eq_false_iff, Bool.not_eq_false', Bool.not_eq_false'] at h
  exact ⟨((validateKey_iff key).mp h.1).2, (validateValue_iff value).mp h.2⟩

theorem length_of_valid {key : CString} (h : (!validateKey key) = false) :
    key.bytes.length ≤ 256 := by
  rw [Bool.not_eq_false'] at h
  exact ((validateKey_iff key).mp h).2

/-- The messages with fields are far from the limit. -/
theorem length_encode {f : Fields CString} {message : Message} (h : encode f = some message) :
    message.payload.length ≤ maxMessageSize := by
  cases f with
  | put key value | dataEntry key value | peerNotify key value =>
    obtain ⟨hvalid, rfl⟩ := checked_eq_some h
    have := lengths_of_valid hvalid
    simp only [List.length_append, length_lengthPrefixed, maxMessageSize]
    omega
  | putResponse result key =>
    obtain ⟨hvalid, rfl⟩ := checked_eq_some h
    have := length_of_valid hvalid
    simp only [List.length_append, length_lengthPrefixed, writeUInt8, length_toBigEndian,
      maxMessageSize]
    omega
  | get key =>
    obtain ⟨hvalid, rfl⟩ := checked_eq_some h
    have := length_of_valid hvalid
    simp only [length_lengthPrefixed, maxMessageSize]
    omega
  | getResponse result key value =>
    obtain ⟨hvalid, rfl⟩ := checked_eq_some h
    have := lengths_of_valid hvalid
    have := length_resultValue result value
    simp only [List.length_append, length_lengthPrefixed, writeUInt8, length_toBigEndian,
      maxMessageSize]
    omega
  | storeRequest clientId key value =>
    obtain ⟨hvalid, rfl⟩ := checked_eq_some h
    have := lengths_of_valid hvalid
    simp only [List.length_append, length_lengthPrefixed, writeUInt32, length_toBigEndian,
      maxMessageSize]
    omega
  | storeResponse result clientId key =>
    obtain ⟨hvalid, rfl⟩ := checked_eq_some h
    have := length_of_valid hvalid
    simp only [List.length_append, length_lengthPrefixed, writeUInt8, writeUInt32,
      length_toBigEndian, maxMessageSize]
    omega
  | retrieveRequest clientId key =>
    obtain ⟨hvalid, rfl⟩ := checked_eq_some h
    have := length_of_valid hvalid
    simp only [List.length_append, length_lengthPrefixed, writeUInt32, length_toBigEndian,
      maxMessageSize]
    omega
  | retrieveResponse result clientId key value =>
    obtain ⟨hvalid, rfl⟩ := checked_eq_some h
    have := lengths_of_valid hvalid
    have := length_resultValue result value
    simp only [List.length_append, length_lengthPrefixed, writeUInt8, writeUInt32,
      length_toBigEndian, maxMessageSize]
    omega
  | workerReady workerId peerPort =>
    cases h
    simp [writeUInt16, writeUInt32, maxMessageSize]
  | workerEntry workerId address port shouldExportData =>
    cases h
    have haddress : addressLength address ≤ 255 := Nat.min_le_right _ _
    simp only [List.length_append, length_lengthPrefixed, List.length_take, writeUInt8, writeUInt16,
      writeUInt32, length_toBigEndian, maxMessageSize]
    omega
  | dataExportStart totalEntries =>
    cases h
    simp [writeUInt32, maxMessageSize]

/-- The text `SendError` copies is as long as its length field says. -/
theorem length_take_errorMessage (text : CString) :
    (text.bytes.take (errorMessageLength text)).length = errorMessageLength text := by
  have hmod : (UInt16.ofNat text.strlen).toNat ≤ text.bytes.length := by
    rw [UInt16.toNat_ofNat']
    exact Nat.mod_le _ _
  have hle : errorMessageLength text ≤ (UInt16.ofNat text.strlen).toNat := Nat.min_le_left _ _
  rw [List.length_take]
  omega

theorem errorMessageLength_eq (text : CString) :
    errorMessageLength text = min (text.strlen % 65536) 1024 := by
  rw [errorMessageLength, UInt16.toNat_ofNat']
  rfl

/-- **How long messages are**: within `MAX_MESSAGE_SIZE`, but for an
overlong error. -/
theorem length_message_le {call : SendCall} {message : Message}
    (h : call.message = some message) :
    message.payload.length ≤ maxMessageSize ↔ ¬ call.Overlong := by
  cases call with
  | fields f => exact iff_of_true (length_encode h) not_false
  | dataExportEnd | shutdown =>
    cases h
    exact iff_of_true (by simp [maxMessageSize]) not_false
  | error e message =>
    cases message with
    | none =>
      cases h
      exact iff_of_true (by simp [writeUInt8, writeUInt16, maxMessageSize]) not_false
    | some text =>
      cases h
      have hclamp := errorMessageLength_eq text
      simp only [SendCall.Overlong, List.length_append, length_lengthPrefixed,
        length_take_errorMessage, writeUInt8, length_toBigEndian, maxMessageSize]
      omega

/-! ## Bounds -/

/-- Every byte a call writes is inside its buffer, and the offset it hands
over is the number of bytes written and at most `MAX_MESSAGE_SIZE`. -/
def Bounded (b : WordBuffer) : Prop :=
  b.InBounds maxMessageSize ∧ b.offset.toNat = b.content.length ∧ b.offset.toNat ≤ maxMessageSize

instance (b : WordBuffer) : Decidable (Bounded b) := inferInstanceAs (Decidable (_ ∧ _ ∧ _))

/-- No message is too long for the offset to count. -/
theorem length_message_lt {call : SendCall} {message : Message}
    (h : call.message = some message) : message.payload.length < 65536 := by
  by_cases hlong : call.Overlong
  · cases call with
    | fields f => exact absurd hlong not_false
    | dataExportEnd | shutdown => exact absurd hlong not_false
    | error e text =>
      cases text with
      | none => exact absurd hlong not_false
      | some text =>
        cases h
        have hclamp : errorMessageLength text ≤ maxErrorMsgSize := Nat.min_le_right _ _
        simp only [List.length_append, length_lengthPrefixed, length_take_errorMessage, writeUInt8,
          length_toBigEndian, maxErrorMsgSize] at hclamp ⊢
        omega
  · have := (length_message_le h).mpr hlong
    simp only [maxMessageSize] at this
    omega

/-- **When an encoder stays inside its buffer**: always, but for an error
whose text is cut to more than the buffer has left. -/
theorem encoders_bounded_iff {call : SendCall} {type : MessageType} {b : WordBuffer}
    (h : call.buffer = some (type, b)) : Bounded b ↔ ¬ call.Overlong := by
  obtain ⟨hmessage, hsteady⟩ := encoders_fill h
  have hcount : b.content.length < 65536 := length_message_lt hmessage
  have hle : b.content.length ≤ maxMessageSize ↔ ¬ call.Overlong := length_message_le hmessage
  rw [Bounded, hsteady.bounds hcount, hsteady.offset hcount, ← hle]
  simp

/-- A string of one letter. -/
def letters (n : Nat) : CString := ⟨List.replicate n 97, by simp⟩

theorem overlong_letters {n : Nat} (hn : n < 65536) (e : UInt8) :
    (SendCall.error e (some (letters n))).Overlong ↔ maxMessageSize < 3 + n := by
  have hstrlen : (letters n).strlen = n := List.length_replicate
  rw [SendCall.Overlong, hstrlen, Nat.mod_eq_of_lt hn]

/-- An error with a text of 1021 bytes fills the buffer to the end. -/
theorem encoders_bounded_iff_full :
    ∃ type b, (SendCall.error ErrorCode.serverBusy.value (some (letters 1021))).buffer
      = some (type, b) ∧ Bounded b := by
  let call := SendCall.error ErrorCode.serverBusy.value (some (letters 1021))
  have hshort : ¬ call.Overlong := by
    rw [overlong_letters (by decide)]
    decide
  exact ⟨_, _, rfl, (encoders_bounded_iff (show call.buffer = _ from rfl)).mpr hshort⟩

/-- **`SendError` overflows its buffer**: a text of 1022 bytes is not cut,
and its last byte lies behind the end. -/
theorem sendError_overflows :
    ¬ ∀ (call : SendCall) (type : MessageType) (b : WordBuffer),
      call.buffer = some (type, b) → Bounded b := by
  intro hall
  let call := SendCall.error ErrorCode.serverBusy.value (some (letters 1022))
  have hlong : call.Overlong := (overlong_letters (by decide) _).mpr (by decide)
  have hbounded := hall call _ _ rfl
  obtain ⟨hmessage, hsteady⟩ := encoders_fill (show call.buffer = _ from rfl)
  have hlength := (hsteady.bounds (length_message_lt hmessage) _).mp hbounded.1
  exact (length_message_le hmessage).mp hlength hlong

end LoadBalancing.Lib.SendBuffer
