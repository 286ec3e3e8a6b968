/-
LoadBalancing.Lib.ProtocolCodec — every decoder is exact for the format
its encoder writes, and the round trips that follow.

Each `receive…_eq_accept` says which buffers a decoder accepts and with
which outputs: those with a prefix made of the fields in order, every
string within its limit. They are proved one field at a time with
`Cursor.exact_bind`, and every later proof about a hop of the system
reads a decoder through them and never unfolds it.

`Fields` puts the thirteen kinds that have both an encoder and a decoder
under one type, so that the round trips `decode_encode` and
`encode_decode` are statements about the whole format.
-/
import LoadBalancing.Lib.Protocol

namespace LoadBalancing.Lib

open LoadBalancing.Base

/-! ## Number fields -/

theorem exact_uint8Field : Cursor.Exact uint8Field (fun v bs => bs = writeUInt8 v) := by
  refine (Cursor.exact_bind (Cursor.exact_number 1) fun n _ _ =>
    Cursor.exact_pure (UInt8.ofNat n)).congr fun v bs => ?_
  constructor
  · rintro ⟨n, xs, ys, ⟨hn, rfl⟩, ⟨rfl, rfl⟩, rfl⟩
    simp [writeUInt8, UInt8.toNat_ofNat_of_lt' hn]
  · rintro rfl
    exact ⟨v.toNat, _, [], ⟨v.toNat_lt, rfl⟩, ⟨by simp, rfl⟩, by simp [writeUInt8]⟩

theorem exact_uint16Field : Cursor.Exact uint16Field (fun v bs => bs = writeUInt16 v) := by
  refine (Cursor.exact_bind (Cursor.exact_number 2) fun n _ _ =>
    Cursor.exact_pure (UInt16.ofNat n)).congr fun v bs => ?_
  constructor
  · rintro ⟨n, xs, ys, ⟨hn, rfl⟩, ⟨rfl, rfl⟩, rfl⟩
    simp [writeUInt16, UInt16.toNat_ofNat_of_lt' hn]
  · rintro rfl
    exact ⟨v.toNat, _, [], ⟨v.toNat_lt, rfl⟩, ⟨by simp, rfl⟩, by simp [writeUInt16]⟩

theorem exact_uint32Field : Cursor.Exact uint32Field (fun v bs => bs = writeUInt32 v) := by
  refine (Cursor.exact_bind (Cursor.exact_number 4) fun n _ _ =>
    Cursor.exact_pure (UInt32.ofNat n)).congr fun v bs => ?_
  constructor
  · rintro ⟨n, xs, ys, ⟨hn, rfl⟩, ⟨rfl, rfl⟩, rfl⟩
    simp [writeUInt32, UInt32.toNat_ofNat_of_lt' hn]
  · rintro rfl
    exact ⟨v.toNat, _, [], ⟨v.toNat_lt, rfl⟩, ⟨by simp, rfl⟩, by simp [writeUInt32]⟩

/-! ## String fields -/

/-- The bytes of a string, behind its length. -/
theorem exact_stringBody {limit capacity : Nat} (hcap : limit + 1 ≤ capacity) (len : UInt16) :
    Cursor.Exact (stringBody limit capacity len)
      (fun s bs => len.toNat ≤ limit ∧ s.length = len.toNat ∧ bs = s) := by
  unfold stringBody
  split
  · next h =>
    refine Cursor.exact_reject.congr fun s bs => ?_
    simp only [false_iff]
    omega
  · next h =>
    refine (Cursor.exact_checked_take (by omega)).congr fun s bs => ?_
    constructor
    · rintro ⟨hs, rfl⟩
      exact ⟨by omega, hs, rfl⟩
    · rintro ⟨-, hs, rfl⟩
      exact ⟨hs, rfl⟩

/-- A length field in front of a body that reads as many bytes spells
exactly the strings within the limit, provided that fits the field. -/
theorem exact_lengthPrefixed {limit : Nat} {body : UInt16 → Cursor (List UInt8)}
    (hlim : limit < 65536)
    (hbody : ∀ len, Cursor.Exact (body len)
      (fun s bs => len.toNat ≤ limit ∧ s.length = len.toNat ∧ bs = s)) :
    Cursor.Exact (uint16Field >>= body)
      (fun s bs => s.length ≤ limit ∧ bs = lengthPrefixed s) := by
  refine (Cursor.exact_bind exact_uint16Field fun len _ _ => hbody len).congr fun s bs => ?_
  constructor
  · rintro ⟨len, xs, ys, rfl, ⟨hle, hlen, rfl⟩, rfl⟩
    refine ⟨by omega, ?_⟩
    rw [lengthPrefixed, hlen, UInt16.ofNat_toNat]
  · rintro ⟨hs, rfl⟩
    have hlen : (UInt16.ofNat s.length).toNat = s.length :=
      UInt16.toNat_ofNat_of_lt' (by change s.length < 65536; omega)
    exact ⟨_, _, s, rfl, ⟨by omega, hlen.symm, rfl⟩, rfl⟩

/-- A string field whose output has room for the terminator. -/
theorem exact_stringField {limit capacity : Nat} (hcap : limit + 1 ≤ capacity)
    (hlim : limit < 65536) :
    Cursor.Exact (stringField limit capacity)
      (fun s bs => s.length ≤ limit ∧ bs = lengthPrefixed s) :=
  exact_lengthPrefixed hlim (exact_stringBody hcap)

theorem exact_keyField :
    Cursor.Exact keyField (fun s bs => s.length ≤ maxKeySize ∧ bs = lengthPrefixed s) :=
  exact_stringField (by decide) (by decide)

theorem exact_valueField :
    Cursor.Exact valueField (fun s bs => s.length ≤ maxValueSize ∧ bs = lengthPrefixed s) :=
  exact_stringField (by decide) (by decide)

theorem exact_addressField :
    Cursor.Exact addressField (fun s bs => s.length ≤ 255 ∧ bs = lengthPrefixed s) :=
  exact_stringField (by decide) (by decide)

/-- Skipping the string of a zero length reads the same format as
reading it. -/
theorem exact_resultValueField :
    Cursor.Exact resultValueField
      (fun s bs => s.length ≤ maxValueSize ∧ bs = lengthPrefixed s) := by
  refine exact_lengthPrefixed (by decide) fun len => ?_
  split
  · exact exact_stringBody (by decide) len
  · next h =>
    have hstore : (do Cursor.store (maxValueSize + 1) 1; pure [] : Cursor (List UInt8))
        = pure [] := by
      funext buf off
      rw [Cursor.store_bind, if_neg (by decide)]
    rw [hstore]
    refine (Cursor.exact_pure []).congr fun s bs => ?_
    constructor
    · rintro ⟨rfl, rfl⟩
      exact ⟨by omega, by simp; omega, rfl⟩
    · rintro ⟨-, hs, rfl⟩
      have hnil : bs = [] := List.length_eq_zero_iff.mp (by omega)
      exact ⟨hnil, hnil⟩

/-! ## Decoders -/

theorem keyValueCursor_eq_accept (buffer key value : List UInt8) :
    keyValueCursor.run buffer = .accept (key, value) ↔
      key.length ≤ maxKeySize ∧ value.length ≤ maxValueSize ∧
        lengthPrefixed key ++ lengthPrefixed value <+: buffer := by
  have h := Cursor.exact_bind exact_keyField fun key _ _ =>
    Cursor.exact_bind exact_valueField fun value _ _ => Cursor.exact_pure (key, value)
  refine (h.run_eq_accept buffer (key, value)).trans ?_
  simp [and_assoc]

theorem receivePut_eq_accept (buffer key value : List UInt8) :
    receivePut buffer = .accept (key, value) ↔
      key.length ≤ maxKeySize ∧ value.length ≤ maxValueSize ∧
        lengthPrefixed key ++ lengthPrefixed value <+: buffer :=
  keyValueCursor_eq_accept buffer key value

theorem receiveDataEntry_eq_accept (buffer key value : List UInt8) :
    receiveDataEntry buffer = .accept (key, value) ↔
      key.length ≤ maxKeySize ∧ value.length ≤ maxValueSize ∧
        lengthPrefixed key ++ lengthPrefixed value <+: buffer :=
  keyValueCursor_eq_accept buffer key value

theorem receivePeerNotify_eq_accept (buffer key value : List UInt8) :
    receivePeerNotify buffer = .accept (key, value) ↔
      key.length ≤ maxKeySize ∧ value.length ≤ maxValueSize ∧
        lengthPrefixed key ++ lengthPrefixed value <+: buffer :=
  keyValueCursor_eq_accept buffer key value

theorem receivePutResponse_eq_accept (buffer : List UInt8) (result : UInt8)
    (key : List UInt8) :
    receivePutResponse buffer = .accept (result, key) ↔
      key.length ≤ maxKeySize ∧ writeUInt8 result ++ lengthPrefixed key <+: buffer := by
  have h := Cursor.exact_bind exact_uint8Field fun result _ _ =>
    Cursor.exact_bind exact_keyField fun key _ _ => Cursor.exact_pure (result, key)
  refine (h.run_eq_accept buffer (result, key)).trans ?_
  simp [and_assoc]

theorem receiveGet_eq_accept (buffer key : List UInt8) :
    receiveGet buffer = .accept key ↔
      key.length ≤ maxKeySize ∧ lengthPrefixed key <+: buffer := by
  refine (exact_keyField.run_eq_accept buffer key).trans ?_
  simp

theorem receiveGetResponse_eq_accept (buffer : List UInt8) (result : UInt8)
    (key value : List UInt8) :
    receiveGetResponse buffer = .accept (result, key, value) ↔
      key.length ≤ maxKeySize ∧ value.length ≤ maxValueSize ∧
        writeUInt8 result ++ (lengthPrefixed key ++ lengthPrefixed value) <+: buffer := by
  have h := Cursor.exact_bind exact_uint8Field fun result _ _ =>
    Cursor.exact_bind exact_keyField fun key _ _ =>
    Cursor.exact_bind exact_resultValueField fun value _ _ =>
    Cursor.exact_pure (result, key, value)
  refine (h.run_eq_accept buffer (result, key, value)).trans ?_
  simp [and_assoc]

theorem receiveStoreRequest_eq_accept (buffer : List UInt8) (clientId : UInt32)
    (key value : List UInt8) :
    receiveStoreRequest buffer = .accept (clientId, key, value) ↔
      key.length ≤ maxKeySize ∧ value.length ≤ maxValueSize ∧
        writeUInt32 clientId ++ (lengthPrefixed key ++ lengthPrefixed value) <+: buffer := by
  have h := Cursor.exact_bind exact_uint32Field fun clientId _ _ =>
    Cursor.exact_bind exact_keyField fun key _ _ =>
    Cursor.exact_bind exact_valueField fun value _ _ =>
    Cursor.exact_pure (clientId, key, value)
  refine (h.run_eq_accept buffer (clientId, key, value)).trans ?_
  simp [and_assoc]

theorem receiveStoreResponse_eq_accept (buffer : List UInt8) (result : UInt8)
    (clientId : UInt32) (key : List UInt8) :
    receiveStoreResponse buffer = .accept (result, clientId, key) ↔
      key.length ≤ maxKeySize ∧
        writeUInt8 result ++ (writeUInt32 clientId ++ lengthPrefixed key) <+: buffer := by
  have h := Cursor.exact_bind exact_uint8Field fun result _ _ =>
    Cursor.exact_bind exact_uint32Field fun clientId _ _ =>
    Cursor.exact_bind exact_keyField fun key _ _ =>
    Cursor.exact_pure (result, clientId, key)
  refine (h.run_eq_accept buffer (result, clientId, key)).trans ?_
  simp [and_assoc]

theorem receiveRetrieveRequest_eq_accept (buffer : List UInt8) (clientId : UInt32)
    (key : List UInt8) :
    receiveRetrieveRequest buffer = .accept (clientId, key) ↔
      key.length ≤ maxKeySize ∧ writeUInt32 clientId ++ lengthPrefixed key <+: buffer := by
  have h := Cursor.exact_bind exact_uint32Field fun clientId _ _ =>
    Cursor.exact_bind exact_keyField fun key _ _ => Cursor.exact_pure (clientId, key)
  refine (h.run_eq_accept buffer (clientId, key)).trans ?_
  simp [and_assoc]

theorem receiveRetrieveResponse_eq_accept (buffer : List UInt8) (result : UInt8)
    (clientId : UInt32) (key value : List UInt8) :
    receiveRetrieveResponse buffer = .accept (result, clientId, key, value) ↔
      key.length ≤ maxKeySize ∧ value.length ≤ maxValueSize ∧
        writeUInt8 result ++ (writeUInt32 clientId ++
          (lengthPrefixed key ++ lengthPrefixed value)) <+: buffer := by
  have h := Cursor.exact_bind exact_uint8Field fun result _ _ =>
    Cursor.exact_bind exact_uint32Field fun clientId _ _ =>
    Cursor.exact_bind exact_keyField fun key _ _ =>
    Cursor.exact_bind exact_resultValueField fun value _ _ =>
    Cursor.exact_pure (result, clientId, key, value)
  refine (h.run_eq_accept buffer (result, clientId, key, value)).trans ?_
  simp [and_assoc]

theorem receiveDataExportStart_eq_accept (buffer : List UInt8) (totalEntries : UInt32) :
    receiveDataExportStart buffer = .accept totalEntries ↔
      writeUInt32 totalEntries <+: buffer := by
  refine (exact_uint32Field.run_eq_accept buffer totalEntries).trans ?_
  simp

theorem receiveWorkerReady_eq_accept (buffer : List UInt8) (workerId : UInt32)
    (peerPort : UInt16) :
    receiveWorkerReady buffer = .accept (workerId, peerPort) ↔
      writeUInt32 workerId ++ writeUInt16 peerPort <+: buffer := by
  have h := Cursor.exact_bind exact_uint32Field fun workerId _ _ =>
    Cursor.exact_bind exact_uint16Field fun peerPort _ _ =>
    Cursor.exact_pure (workerId, peerPort)
  refine (h.run_eq_accept buffer (workerId, peerPort)).trans ?_
  simp

theorem receiveWorkerEntry_eq_accept (buffer : List UInt8) (workerId : UInt32)
    (address : List UInt8) (port : UInt16) (shouldExportData : UInt8) :
    receiveWorkerEntry buffer = .accept (workerId, address, port, shouldExportData) ↔
      address.length ≤ 255 ∧
        writeUInt32 workerId ++ (lengthPrefixed address ++
          (writeUInt16 port ++ writeUInt8 shouldExportData)) <+: buffer := by
  have h := Cursor.exact_bind exact_uint32Field fun workerId _ _ =>
    Cursor.exact_bind exact_addressField fun address _ _ =>
    Cursor.exact_bind exact_uint16Field fun port _ _ =>
    Cursor.exact_bind exact_uint8Field fun shouldExportData _ _ =>
    Cursor.exact_pure (workerId, address, port, shouldExportData)
  refine (h.run_eq_accept buffer (workerId, address, port, shouldExportData)).trans ?_
  simp [and_assoc]

/-! ## The whole format -/

/-- The fields of the thirteen message kinds with both an encoder and a
decoder, over a type of strings: NUL-terminated ones for an encoder's
arguments, raw bytes for a decoder's outputs. -/
inductive Fields (S : Type) where
  | put (key value : S)
  | putResponse (result : UInt8) (key : S)
  | get (key : S)
  | getResponse (result : UInt8) (key value : S)
  | storeRequest (clientId : UInt32) (key value : S)
  | storeResponse (result : UInt8) (clientId : UInt32) (key : S)
  | retrieveRequest (clientId : UInt32) (key : S)
  | retrieveResponse (result : UInt8) (clientId : UInt32) (key value : S)
  | workerReady (workerId : UInt32) (peerPort : UInt16)
  | workerEntry (workerId : UInt32) (address : S) (port : UInt16) (shouldExportData : UInt8)
  | dataExportStart (totalEntries : UInt32)
  | dataEntry (key value : S)
  | peerNotify (key value : S)
  deriving DecidableEq

namespace Fields

variable {S T : Type}

/-- The message type a kind is sent under. -/
def type : Fields S → MessageType
  | put .. => .put
  | putResponse .. => .putResponse
  | get .. => .get
  | getResponse .. => .getResponse
  | storeRequest .. => .storeRequest
  | storeResponse .. => .storeResponse
  | retrieveRequest .. => .retrieveRequest
  | retrieveResponse .. => .retrieveResponse
  | workerReady .. => .workerReady
  | workerEntry .. => .workerEntry
  | dataExportStart .. => .dataExportStart
  | dataEntry .. => .dataEntry
  | peerNotify .. => .peerNotify

/-- Change the strings, keep everything else. -/
def map (f : S → T) : Fields S → Fields T
  | put key value => put (f key) (f value)
  | putResponse result key => putResponse result (f key)
  | get key => get (f key)
  | getResponse result key value => getResponse result (f key) (f value)
  | storeRequest clientId key value => storeRequest clientId (f key) (f value)
  | storeResponse result clientId key => storeResponse result clientId (f key)
  | retrieveRequest clientId key => retrieveRequest clientId (f key)
  | retrieveResponse result clientId key value =>
    retrieveResponse result clientId (f key) (f value)
  | workerReady workerId peerPort => workerReady workerId peerPort
  | workerEntry workerId address port shouldExportData =>
    workerEntry workerId (f address) port shouldExportData
  | dataExportStart totalEntries => dataExportStart totalEntries
  | dataEntry key value => dataEntry (f key) (f value)
  | peerNotify key value => peerNotify (f key) (f value)

/-- Every key passes `P`, every value `Q` and every address `R`. -/
def Strings (P Q R : S → Prop) : Fields S → Prop
  | put key value => P key ∧ Q value
  | putResponse _ key => P key
  | get key => P key
  | getResponse _ key value => P key ∧ Q value
  | storeRequest _ key value => P key ∧ Q value
  | storeResponse _ _ key => P key
  | retrieveRequest _ key => P key
  | retrieveResponse _ _ key value => P key ∧ Q value
  | workerReady .. => True
  | workerEntry _ address _ _ => R address
  | dataExportStart _ => True
  | dataEntry key value => P key ∧ Q value
  | peerNotify key value => P key ∧ Q value

/-- Replace the value of a `GET_RESPONSE` or `RETRIEVE_RESPONSE` whose
result is not `ERR_NONE`. -/
def withFailureValue (v : S) : Fields S → Fields S
  | getResponse result key value =>
    getResponse result key (if result = ErrorCode.none.value then value else v)
  | retrieveResponse result clientId key value =>
    retrieveResponse result clientId key (if result = ErrorCode.none.value then value else v)
  | fields => fields

end Fields

/-- The message the encoder of a kind hands to `ProtocolSend`. -/
def encode : Fields CString → Option Message
  | .put key value => sendPut key value
  | .putResponse result key => sendPutResponse result key
  | .get key => sendGet key
  | .getResponse result key value => sendGetResponse result key value
  | .storeRequest clientId key value => sendStoreRequest clientId key value
  | .storeResponse result clientId key => sendStoreResponse result clientId key
  | .retrieveRequest clientId key => sendRetrieveRequest clientId key
  | .retrieveResponse result clientId key value => sendRetrieveResponse result clientId key value
  | .workerReady workerId peerPort => sendWorkerReady workerId peerPort
  | .workerEntry workerId address port shouldExportData =>
    sendWorkerEntry workerId address port shouldExportData
  | .dataExportStart totalEntries => sendDataExportStart totalEntries
  | .dataEntry key value => sendDataEntry key value
  | .peerNotify key value => sendPeerNotify key value

/-- The outputs of the decoder of a message type. -/
def decode (type : MessageType) (buffer : List UInt8) : Outcome (Fields (List UInt8)) :=
  match type with
  | .put => (receivePut buffer).map fun (key, value) => .put key value
  | .putResponse => (receivePutResponse buffer).map fun (result, key) => .putResponse result key
  | .get => (receiveGet buffer).map fun key => .get key
  | .getResponse =>
    (receiveGetResponse buffer).map fun (result, key, value) => .getResponse result key value
  | .storeRequest =>
    (receiveStoreRequest buffer).map fun (clientId, key, value) => .storeRequest clientId key value
  | .storeResponse =>
    (receiveStoreResponse buffer).map fun (result, clientId, key) =>
      .storeResponse result clientId key
  | .retrieveRequest =>
    (receiveRetrieveRequest buffer).map fun (clientId, key) => .retrieveRequest clientId key
  | .retrieveResponse =>
    (receiveRetrieveResponse buffer).map fun (result, clientId, key, value) =>
      .retrieveResponse result clientId key value
  | .workerReady =>
    (receiveWorkerReady buffer).map fun (workerId, peerPort) => .workerReady workerId peerPort
  | .workerEntry =>
    (receiveWorkerEntry buffer).map fun (workerId, address, port, shouldExportData) =>
      .workerEntry workerId address port shouldExportData
  | .dataExportStart =>
    (receiveDataExportStart buffer).map fun totalEntries => .dataExportStart totalEntries
  | .dataEntry => (receiveDataEntry buffer).map fun (key, value) => .dataEntry key value
  | .peerNotify => (receivePeerNotify buffer).map fun (key, value) => .peerNotify key value
  -- no fields to decode, or the one kind whose decoder truncates
  | .dataExportEnd | .shutdown | .error => .reject

/-- The bytes the format spells a message's fields with. -/
def Fields.payload : Fields (List UInt8) → List UInt8
  | put key value => lengthPrefixed key ++ lengthPrefixed value
  | putResponse result key => writeUInt8 result ++ lengthPrefixed key
  | get key => lengthPrefixed key
  | getResponse result key value =>
    writeUInt8 result ++ (lengthPrefixed key ++ lengthPrefixed value)
  | storeRequest clientId key value =>
    writeUInt32 clientId ++ (lengthPrefixed key ++ lengthPrefixed value)
  | storeResponse result clientId key =>
    writeUInt8 result ++ (writeUInt32 clientId ++ lengthPrefixed key)
  | retrieveRequest clientId key => writeUInt32 clientId ++ lengthPrefixed key
  | retrieveResponse result clientId key value =>
    writeUInt8 result ++ (writeUInt32 clientId ++ (lengthPrefixed key ++ lengthPrefixed value))
  | workerReady workerId peerPort => writeUInt32 workerId ++ writeUInt16 peerPort
  | workerEntry workerId address port shouldExportData =>
    writeUInt32 workerId ++ (lengthPrefixed address ++
      (writeUInt16 port ++ writeUInt8 shouldExportData))
  | dataExportStart totalEntries => writeUInt32 totalEntries
  | dataEntry key value => lengthPrefixed key ++ lengthPrefixed value
  | peerNotify key value => lengthPrefixed key ++ lengthPrefixed value

/-- **The decoders are exact**: a buffer is accepted with given outputs
exactly when these are of the decoder's kind and within the limits and a
prefix of the buffer spells them. -/
theorem decode_eq_accept (type : MessageType) (buffer : List UInt8)
    (fields : Fields (List UInt8)) :
    decode type buffer = .accept fields ↔
      fields.type = type ∧
      fields.Strings (·.length ≤ maxKeySize) (·.length ≤ maxValueSize) (·.length ≤ 255) ∧
      fields.payload <+: buffer := by
  cases type <;>
    simp only [decode, Outcome.map_eq_accept, Prod.exists, receivePut_eq_accept,
      receivePutResponse_eq_accept, receiveGet_eq_accept, receiveGetResponse_eq_accept,
      receiveStoreRequest_eq_accept, receiveStoreResponse_eq_accept,
      receiveRetrieveRequest_eq_accept, receiveRetrieveResponse_eq_accept,
      receiveWorkerReady_eq_accept, receiveWorkerEntry_eq_accept,
      receiveDataExportStart_eq_accept, receiveDataEntry_eq_accept,
      receivePeerNotify_eq_accept] <;>
    cases fields <;> simp [Fields.type, Fields.Strings, Fields.payload, and_assoc]

/-! ## Encoders -/

theorem validateKey_iff (key : CString) :
    validateKey key = true ↔ 1 ≤ key.bytes.length ∧ key.bytes.length ≤ maxKeySize := by
  unfold validateKey CString.strlen
  split
  · simp only [Bool.false_eq_true, false_iff]; omega
  · simp only [true_iff]; omega

theorem validateValue_iff (value : CString) :
    validateValue value = true ↔ value.bytes.length ≤ maxValueSize := by
  unfold validateValue CString.strlen
  split
  · simp only [Bool.false_eq_true, false_iff]; omega
  · simp only [true_iff]; omega

/-- A key the decoder accepted passes the encoder's check when it reads as
a string that is not empty. -/
theorem validateKey_ofBuffer {key : List UInt8} (hlen : key.length ≤ maxKeySize) :
    validateKey (CString.ofBuffer key) = true ↔ (CString.ofBuffer key).strlen ≠ 0 := by
  have hle := CString.strlen_ofBuffer_le key
  rw [validateKey_iff]
  simp only [CString.strlen] at hle ⊢
  omega

/-- A value the decoder accepted always passes it. -/
theorem validateValue_ofBuffer {value : List UInt8} (hlen : value.length ≤ maxValueSize) :
    validateValue (CString.ofBuffer value) = true := by
  have hle := CString.strlen_ofBuffer_le value
  rw [validateValue_iff]
  simp only [CString.strlen] at hle
  omega

/-- A worker decodes the request that was encoded. -/
theorem receiveStoreRequest_sendStoreRequest {clientId : UInt32} {key value : CString}
    {m : Message} (h : sendStoreRequest clientId key value = some m) :
    m.type = MessageType.storeRequest.value ∧
      receiveStoreRequest m.payload = .accept (clientId, key.bytes, value.bytes) := by
  unfold sendStoreRequest at h
  split at h
  · cases h
  · rename_i hvalid
    simp only [Bool.or_eq_true, Bool.not_eq_true', not_or, Bool.not_eq_false] at hvalid
    cases h
    have hkey := (validateKey_iff key).mp hvalid.1
    have hvalue := (validateValue_iff value).mp hvalid.2
    refine ⟨rfl, (receiveStoreRequest_eq_accept _ _ _ _).mpr ⟨hkey.2, hvalue, [], ?_⟩⟩
    simp only [List.append_nil, List.append_assoc]

/-- And the lookup that was encoded. -/
theorem receiveRetrieveRequest_sendRetrieveRequest {clientId : UInt32} {key : CString}
    {m : Message} (h : sendRetrieveRequest clientId key = some m) :
    m.type = MessageType.retrieveRequest.value ∧
      receiveRetrieveRequest m.payload = .accept (clientId, key.bytes) := by
  unfold sendRetrieveRequest at h
  split at h
  · cases h
  · rename_i hvalid
    simp only [Bool.not_eq_true', Bool.not_eq_false] at hvalid
    cases h
    have hkey := (validateKey_iff key).mp hvalid
    exact ⟨rfl, (receiveRetrieveRequest_eq_accept _ _ _).mpr ⟨hkey.2, List.prefix_refl _⟩⟩

/-- A value field under a failure result spells the empty value. -/
theorem resultValue_eq (result : UInt8) (value : CString) :
    resultValue result value =
      lengthPrefixed (if result = ErrorCode.none.value then value else CString.empty).bytes := by
  unfold resultValue
  by_cases h : result = ErrorCode.none.value <;> simp [h, lengthPrefixed]

/-- An address within its limit is sent whole. -/
theorem take_addressLength {address : CString} (h : address.bytes.length ≤ 255) :
    address.bytes.take (addressLength address) = address.bytes := by
  have hlen : (UInt16.ofNat address.bytes.length).toNat = address.bytes.length :=
    UInt16.toNat_ofNat_of_lt' (by change _ < 65536; omega)
  simp only [addressLength, CString.strlen, hlen, Nat.min_eq_left h, List.take_length]

/-- **The encoders write the format**: on arguments they accept, with
the empty value in the place of a failed lookup's. -/
theorem encode_eq_some {fields : Fields CString}
    (h : fields.Strings (fun key => 1 ≤ key.bytes.length ∧ key.bytes.length ≤ maxKeySize)
      (·.bytes.length ≤ maxValueSize) (·.bytes.length ≤ 255)) :
    encode fields = some ⟨fields.type.value,
      ((fields.withFailureValue CString.empty).map CString.bytes).payload⟩ := by
  cases fields with
  | workerEntry workerId address port shouldExportData =>
    simp only [encode, sendWorkerEntry, take_addressLength h, Fields.type,
      Fields.withFailureValue, Fields.map, Fields.payload, List.append_assoc]
  | _ =>
    simp_all [Fields.Strings, encode, sendPut, sendPutResponse, sendGet, sendGetResponse,
      sendStoreRequest, sendStoreResponse, sendRetrieveRequest, sendRetrieveResponse,
      sendWorkerReady, sendDataExportStart, sendDataEntry, sendPeerNotify,
      ← validateKey_iff, ← validateValue_iff, resultValue_eq, Fields.type,
      Fields.withFailureValue, Fields.map, Fields.payload]

/-! ## Round trips -/

/-- The field values the encoders accept: keys of 1 to 256 bytes, values
of at most 256, addresses of at most 255. -/
def Fields.InDomain (fields : Fields CString) : Prop :=
  fields.Strings (fun key => 1 ≤ key.bytes.length ∧ key.bytes.length ≤ maxKeySize)
    (·.bytes.length ≤ maxValueSize) (·.bytes.length ≤ 255)

/-- No bytes follow the message: no shorter prefix is accepted. -/
def NoTrailingBytes (type : MessageType) (payload : List UInt8) : Prop :=
  ∀ p, p <+: payload → p ≠ payload → ∀ fields, decode type p ≠ .accept fields

/-- Every limit a decoder checks holds of what an encoder wrote. -/
theorem Fields.InDomain.decodable {fields : Fields CString} (h : fields.InDomain) :
    ((fields.withFailureValue CString.empty).map CString.bytes).Strings
      (·.length ≤ maxKeySize) (·.length ≤ maxValueSize) (·.length ≤ 255) := by
  cases fields <;>
    simp_all [Fields.InDomain, Fields.Strings, Fields.map, Fields.withFailureValue] <;>
    split <;> simp_all

theorem Fields.type_map {S T : Type} (f : S → T) (fields : Fields S) :
    (fields.map f).type = fields.type := by
  cases fields <;> rfl

theorem Fields.type_withFailureValue {S : Type} (v : S) (fields : Fields S) :
    (fields.withFailureValue v).type = fields.type := by
  cases fields <;> rfl

/-- Decoding what an encoder wrote gives its fields back. -/
theorem decode_encode {fields : Fields CString} (h : fields.InDomain) :
    ∃ payload, encode fields = some ⟨fields.type.value, payload⟩ ∧
      decode fields.type payload
        = .accept ((fields.withFailureValue CString.empty).map CString.bytes) := by
  refine ⟨_, encode_eq_some h, (decode_eq_accept _ _ _).mpr ⟨?_, h.decodable, List.prefix_refl _⟩⟩
  rw [Fields.type_map, Fields.type_withFailureValue]

/-- The message an encoder makes of fields in its domain. -/
def Fields.message (fields : Fields CString) : Message :=
  ⟨fields.type.value, ((fields.withFailureValue CString.empty).map CString.bytes).payload⟩

@[simp] theorem Fields.message_type (fields : Fields CString) :
    fields.message.type = fields.type.value := rfl

theorem Fields.InDomain.encode {fields : Fields CString} (h : fields.InDomain) :
    LoadBalancing.Lib.encode fields = some fields.message :=
  encode_eq_some h

theorem MessageType.value_ne_zero (type : MessageType) : type.value ≠ 0 := by
  cases type <;> decide

/-- Every such message fits a receive buffer. -/
theorem Fields.InDomain.length_payload {fields : Fields CString} (h : fields.InDomain) :
    fields.message.payload.length ≤ maxMessageSize := by
  have hdecodable := h.decodable
  cases fields <;>
    simp only [Fields.message, Fields.map, Fields.withFailureValue, Fields.Strings, Fields.payload,
      maxKeySize, maxValueSize] at hdecodable ⊢ <;>
    simp [lengthPrefixed, writeUInt8, writeUInt16, writeUInt32, maxMessageSize] <;>
    omega

/-- A payload without trailing bytes is what its fields spell. -/
theorem eq_payload_of_noTrailingBytes {type : MessageType} {payload : List UInt8}
    {fields : Fields (List UInt8)} (hdec : decode type payload = .accept fields)
    (htrail : NoTrailingBytes type payload) : payload = fields.payload := by
  obtain ⟨htype, hlimits, hpre⟩ := (decode_eq_accept _ _ _).mp hdec
  by_contra hne
  have hshort : decode type fields.payload = .accept fields :=
    (decode_eq_accept _ _ _).mpr ⟨htype, hlimits, List.prefix_refl _⟩
  exact htrail _ hpre (Ne.symm hne) _ hshort

/-- Encoding what a decoder accepted gives the same bytes, when nothing
follows the message, its strings have no inner NUL, its key is not empty
and a failed lookup carries no value. -/
theorem encode_decode {type : MessageType} {payload : List UInt8} {fields : Fields CString}
    (hdec : decode type payload = .accept (fields.map CString.bytes))
    (htrail : NoTrailingBytes type payload)
    (hkey : fields.Strings (fun key => key.bytes ≠ []) (fun _ => True) (fun _ => True))
    (hvalue : fields.withFailureValue CString.empty = fields) :
    encode fields = some ⟨type.value, payload⟩ := by
  obtain ⟨htype, hlimits, -⟩ := (decode_eq_accept _ _ _).mp hdec
  have hdomain : fields.InDomain := by
    cases fields <;>
      simp_all [Fields.InDomain, Fields.Strings, Fields.map, List.length_pos_iff,
        Nat.succ_le_iff]
  rw [encode_eq_some hdomain, hvalue, eq_payload_of_noTrailingBytes hdec htrail]
  rw [Fields.type_map] at htype
  rw [htype]

/-- **Codec round trip over the whole message format.** -/
theorem codec_round_trip :
    (∀ fields : Fields CString, fields.InDomain →
      ∃ payload, encode fields = some ⟨fields.type.value, payload⟩ ∧
        decode fields.type payload
          = .accept ((fields.withFailureValue CString.empty).map CString.bytes)) ∧
    (∀ (type : MessageType) (payload : List UInt8) (fields : Fields CString),
      decode type payload = .accept (fields.map CString.bytes) →
      NoTrailingBytes type payload →
      fields.Strings (fun key => key.bytes ≠ []) (fun _ => True) (fun _ => True) →
      fields.withFailureValue CString.empty = fields →
      encode fields = some ⟨type.value, payload⟩) :=
  ⟨fun _ h => decode_encode h,
   fun _ _ _ hdec htrail hkey hvalue => encode_decode hdec htrail hkey hvalue⟩

/-- The GET of a one-byte key, in both directions. -/
theorem codec_round_trip_get :
    let key : CString := ⟨[107], by decide⟩
    (∃ payload, encode (.get key) = some ⟨MessageType.get.value, payload⟩ ∧
      decode .get payload = .accept (.get [107])) ∧
    encode (.get key) = some ⟨MessageType.get.value, [0, 1, 107]⟩ := by
  have htrail : NoTrailingBytes .get [0, 1, 107] := by
    intro p hp hne fields
    simp only [List.prefix_cons_iff, List.prefix_nil] at hp
    rcases hp with rfl | ⟨_, rfl, rfl | ⟨_, rfl, rfl | ⟨_, rfl, rfl⟩⟩⟩
    · simp [show decode .get [] = .reject from rfl]
    · simp [show decode .get [0] = .reject from rfl]
    · simp [show decode .get [0, 1] = .reject from rfl]
    · exact absurd rfl hne
  exact ⟨codec_round_trip.1 (.get ⟨[107], by decide⟩) ⟨by decide, by decide⟩,
    codec_round_trip.2 .get [0, 1, 107] (.get ⟨[107], by decide⟩) rfl htrail
      (by simp [Fields.Strings]) rfl⟩

end LoadBalancing.Lib
