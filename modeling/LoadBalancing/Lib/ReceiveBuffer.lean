/-
LoadBalancing.Lib.ReceiveBuffer — the decoders of `Lib/Protocol.c` on a
receive buffer as the source walks it, with a 16-bit `offset`, and what
they do with bytes that anybody may have sent.

Every decoder here is the word-level text of the one in `Protocol`, and
tracks it: the size checks keep the offset inside the buffer, so it never
wraps. Safety and exactness then come from the exactness of the fields.

`ReceiveError` is the decoder that stops early. It checks that the whole
message text is there and copies its first 255 bytes, so what it accepts
is the format of the text in full and what it hands over is not.

No `sorry`, no `axiom`, no `native_decide`.
-/
import LoadBalancing.Base.WordBuffer
import LoadBalancing.Lib.ProtocolCodec

namespace LoadBalancing.Lib.ReceiveBuffer

open LoadBalancing.Base LoadBalancing.Lib WordCursor

/-! ## Fields -/

/-- The size check, `ReadUInt8` and `offset += 1`. -/
def uint8Field : WordCursor UInt8 := do
  let n ← number 1
  pure (UInt8.ofNat n)

/-- The size check, `ReadUInt16` and `offset += 2`. -/
def uint16Field : WordCursor UInt16 := do
  let n ← number 2
  pure (UInt16.ofNat n)

/-- The size check, `ReadUInt32` and `offset += 4`. -/
def uint32Field : WordCursor UInt32 := do
  let n ← number 4
  pure (UInt32.ofNat n)

/-- `len > limit || offset + len > bufferSize`, then
`ReadString(buffer + offset, out, len + 1)` into an output of `capacity`
bytes and `offset += len`. -/
def stringBody (limit capacity : Nat) (len : UInt16) : WordCursor (List UInt8) :=
  if limit < len.toNat then reject
  else do
    require len.toNat
    store capacity (len.toNat + 1)
    take len.toNat

/-- A length field and the string it counts. -/
def stringField (limit capacity : Nat) : WordCursor (List UInt8) := do
  let len ← uint16Field
  stringBody limit capacity len

/-- A key, into a buffer `char key[MAX_KEY_SIZE + 1]`. -/
def keyField : WordCursor (List UInt8) := stringField maxKeySize (maxKeySize + 1)

/-- A value, into a buffer `char value[MAX_VALUE_SIZE + 1]`. -/
def valueField : WordCursor (List UInt8) := stringField maxValueSize (maxValueSize + 1)

/-- The value of `ReceiveGetResponse` and `ReceiveRetrieveResponse`. -/
def resultValueField : WordCursor (List UInt8) := do
  let len ← uint16Field
  if 0 < len.toNat then stringBody maxValueSize (maxValueSize + 1) len
  else do
    store (maxValueSize + 1) 1
    pure []

/-- An address, into a buffer `char address[256]`. -/
def addressField : WordCursor (List UInt8) := stringField 255 256

/-! ## Decoders -/

/-- A key and a value. -/
def keyValueCursor : WordCursor (List UInt8 × List UInt8) := do
  let key ← keyField
  let value ← valueField
  pure (key, value)

/-- `ReceivePut`. -/
def receivePut (buffer : List UInt8) : Outcome (List UInt8 × List UInt8) :=
  keyValueCursor.run buffer

/-- `ReceivePutResponse`. -/
def receivePutResponse (buffer : List UInt8) : Outcome (UInt8 × List UInt8) :=
  WordCursor.run (do
    let result ← uint8Field
    let key ← keyField
    pure (result, key)) buffer

/-- `ReceiveGet`. -/
def receiveGet (buffer : List UInt8) : Outcome (List UInt8) :=
  keyField.run buffer

/-- `ReceiveGetResponse`. -/
def receiveGetResponse (buffer : List UInt8) : Outcome (UInt8 × List UInt8 × List UInt8) :=
  WordCursor.run (do
    let result ← uint8Field
    let key ← keyField
    let value ← resultValueField
    pure (result, key, value)) buffer

/-- `ReceiveStoreRequest`. -/
def receiveStoreRequest (buffer : List UInt8) : Outcome (UInt32 × List UInt8 × List UInt8) :=
  WordCursor.run (do
    let clientId ← uint32Field
    let key ← keyField
    let value ← valueField
    pure (clientId, key, value)) buffer

/-- `ReceiveStoreResponse`. -/
def receiveStoreResponse (buffer : List UInt8) : Outcome (UInt8 × UInt32 × List UInt8) :=
  WordCursor.run (do
    let result ← uint8Field
    let clientId ← uint32Field
    let key ← keyField
    pure (result, clientId, key)) buffer

/-- `ReceiveRetrieveRequest`. -/
def receiveRetrieveRequest (buffer : List UInt8) : Outcome (UInt32 × List UInt8) :=
  WordCursor.run (do
    let clientId ← uint32Field
    let key ← keyField
    pure (clientId, key)) buffer

/-- `ReceiveRetrieveResponse`. -/
def receiveRetrieveResponse (buffer : List UInt8) :
    Outcome (UInt8 × UInt32 × List UInt8 × List UInt8) :=
  WordCursor.run (do
    let result ← uint8Field
    let clientId ← uint32Field
    let key ← keyField
    let value ← resultValueField
    pure (result, clientId, key, value)) buffer

/-- `ReceiveDataEntry`. -/
def receiveDataEntry (buffer : List UInt8) : Outcome (List UInt8 × List UInt8) :=
  keyValueCursor.run buffer

/-- `ReceivePeerNotify`. -/
def receivePeerNotify (buffer : List UInt8) : Outcome (List UInt8 × List UInt8) :=
  keyValueCursor.run buffer

/-- `ReceiveDataExportStart`. -/
def receiveDataExportStart (buffer : List UInt8) : Outcome UInt32 :=
  uint32Field.run buffer

/-- `ReceiveWorkerReady`. -/
def receiveWorkerReady (buffer : List UInt8) : Outcome (UInt32 × UInt16) :=
  WordCursor.run (do
    let workerId ← uint32Field
    let peerPort ← uint16Field
    pure (workerId, peerPort)) buffer

/-- `ReceiveWorkerEntry`. -/
def receiveWorkerEntry (buffer : List UInt8) :
    Outcome (UInt32 × List UInt8 × UInt16 × UInt8) :=
  WordCursor.run (do
    let workerId ← uint32Field
    let address ← addressField
    let port ← uint16Field
    let shouldExportData ← uint8Field
    pure (workerId, address, port, shouldExportData)) buffer

/-- `ReceiveError`. -/
def receiveError (buffer : List UInt8) : Outcome (UInt8 × List UInt8) :=
  WordCursor.run (do
    let errorCode ← uint8Field
    let messageLen ← uint16Field
    if 0 < messageLen.toNat then do
      require messageLen.toNat
      let length := if 256 ≤ messageLen.toNat then 255 else messageLen.toNat
      store (maxErrorMsgSize + 1) (length + 1)
      let message ← take length
      pure (errorCode, message)
    else do
      store (maxErrorMsgSize + 1) 1
      pure (errorCode, [])) buffer

/-! ## The offset never wraps -/

theorem tracks_uint8Field : Tracks uint8Field Lib.uint8Field :=
  tracks_bind (tracks_number 1) fun _ => tracks_pure _

theorem tracks_uint16Field : Tracks uint16Field Lib.uint16Field :=
  tracks_bind (tracks_number 2) fun _ => tracks_pure _

theorem tracks_uint32Field : Tracks uint32Field Lib.uint32Field :=
  tracks_bind (tracks_number 4) fun _ => tracks_pure _

theorem tracks_stringBody (limit capacity : Nat) (len : UInt16) :
    Tracks (stringBody limit capacity len) (Lib.stringBody limit capacity len) :=
  tracks_ite tracks_reject
    (tracks_bind (tracks_require _) fun _ => tracks_bind (tracks_store _ _) fun _ => tracks_take _)

theorem tracks_stringField (limit capacity : Nat) :
    Tracks (stringField limit capacity) (Lib.stringField limit capacity) :=
  tracks_bind tracks_uint16Field fun len => tracks_stringBody limit capacity len

theorem tracks_keyField : Tracks keyField Lib.keyField := tracks_stringField _ _

theorem tracks_valueField : Tracks valueField Lib.valueField := tracks_stringField _ _

theorem tracks_addressField : Tracks addressField Lib.addressField := tracks_stringField _ _

theorem tracks_resultValueField : Tracks resultValueField Lib.resultValueField :=
  tracks_bind tracks_uint16Field fun len => tracks_ite (tracks_stringBody _ _ len)
    (tracks_bind (tracks_store _ _) fun _ => tracks_pure _)

theorem tracks_keyValueCursor : Tracks keyValueCursor Lib.keyValueCursor :=
  tracks_bind tracks_keyField fun _ => tracks_bind tracks_valueField fun _ => tracks_pure _

/-! ## Messages on the wire -/

/-- A message of one of the fourteen kinds with a decoder, with the whole
text of an error. -/
inductive WireMessage where
  | fields (fields : Fields (List UInt8))
  | error (errorCode : UInt8) (message : List UInt8)
  deriving DecidableEq

namespace WireMessage

/-- The message type. -/
def type : WireMessage → MessageType
  | fields f => f.type
  | error .. => .error

/-- The bytes the format spells a message with. -/
def payload : WireMessage → List UInt8
  | fields f => f.payload
  | error errorCode message => writeUInt8 errorCode ++ lengthPrefixed message

/-- Keys and values have at most 256 bytes, addresses at most 255, and the
text of an error as many as its length field can say. -/
def WithinLimits : WireMessage → Prop
  | fields f => f.Strings (·.length ≤ maxKeySize) (·.length ≤ maxValueSize) (·.length ≤ 255)
  | error _ message => message.length ≤ 65535

/-- What a decoder hands over: the text of an error is cut. -/
def outputs : WireMessage → WireMessage
  | fields f => fields f
  | error errorCode message => error errorCode (message.take 255)

end WireMessage

/-- The decoder of a message type. -/
def decode (type : MessageType) (buffer : List UInt8) : Outcome WireMessage :=
  match type with
  | .put => (receivePut buffer).map fun (key, value) => .fields (.put key value)
  | .putResponse =>
    (receivePutResponse buffer).map fun (result, key) => .fields (.putResponse result key)
  | .get => (receiveGet buffer).map fun key => .fields (.get key)
  | .getResponse =>
    (receiveGetResponse buffer).map fun (result, key, value) =>
      .fields (.getResponse result key value)
  | .storeRequest =>
    (receiveStoreRequest buffer).map fun (clientId, key, value) =>
      .fields (.storeRequest clientId key value)
  | .storeResponse =>
    (receiveStoreResponse buffer).map fun (result, clientId, key) =>
      .fields (.storeResponse result clientId key)
  | .retrieveRequest =>
    (receiveRetrieveRequest buffer).map fun (clientId, key) =>
      .fields (.retrieveRequest clientId key)
  | .retrieveResponse =>
    (receiveRetrieveResponse buffer).map fun (result, clientId, key, value) =>
      .fields (.retrieveResponse result clientId key value)
  | .workerReady =>
    (receiveWorkerReady buffer).map fun (workerId, peerPort) =>
      .fields (.workerReady workerId peerPort)
  | .workerEntry =>
    (receiveWorkerEntry buffer).map fun (workerId, address, port, shouldExportData) =>
      .fields (.workerEntry workerId address port shouldExportData)
  | .dataExportStart =>
    (receiveDataExportStart buffer).map fun totalEntries => .fields (.dataExportStart totalEntries)
  | .dataEntry => (receiveDataEntry buffer).map fun (key, value) => .fields (.dataEntry key value)
  | .peerNotify =>
    (receivePeerNotify buffer).map fun (key, value) => .fields (.peerNotify key value)
  | .error =>
    (receiveError buffer).map fun (errorCode, message) => .error errorCode message
  -- these two carry no fields and have no decoder
  | .dataExportEnd | .shutdown => .reject

/-! ## Exactness -/

/-- The text of an error behind its length. -/
def errorText (errorCode : UInt8) (messageLen : UInt16) : Cursor (UInt8 × List UInt8) :=
  if 0 < messageLen.toNat then do
    Cursor.require messageLen.toNat
    let length := if 256 ≤ messageLen.toNat then 255 else messageLen.toNat
    Cursor.store (maxErrorMsgSize + 1) (length + 1)
    let message ← Cursor.take length
    pure (errorCode, message)
  else do
    Cursor.store (maxErrorMsgSize + 1) 1
    pure (errorCode, [])

/-- All of the text has to be there, and its first 255 bytes are copied. -/
theorem errorText_apply (errorCode : UInt8) (messageLen : UInt16) {buf : List UInt8} {off : Nat}
    (hoff : off ≤ buf.length) :
    errorText errorCode messageLen buf off =
      if buf.length < off + messageLen.toNat then .reject
      else .accept ((errorCode, (buf.drop off).take (min messageLen.toNat 255)),
        off + min messageLen.toNat 255) := by
  have hlength : (if 256 ≤ messageLen.toNat then 255 else messageLen.toNat)
      = min messageLen.toNat 255 := by
    split <;> omega
  unfold errorText
  split
  · rw [Cursor.require_bind]
    split
    · rfl
    · rename_i hroom
      simp only [hlength]
      rw [Cursor.store_bind, if_neg (by simp only [maxErrorMsgSize]; omega), Cursor.take_bind,
        if_neg (by omega), Cursor.pure_apply]
  · rename_i hzero
    have hmin : min messageLen.toNat 255 = 0 := by omega
    rw [Cursor.store_bind, if_neg (by decide), Cursor.pure_apply, if_neg (by omega), hmin,
      List.take_zero, Nat.add_zero]

theorem reads_errorText (errorCode : UInt8) (messageLen : UInt16) :
    Cursor.Reads (errorText errorCode messageLen)
      (fun out bs => bs.length = messageLen.toNat ∧ out = (errorCode, bs.take 255)) := by
  constructor
  · intro buf off hoff
    rw [errorText_apply errorCode messageLen hoff]
    split <;> simp
  · intro buf off out hoff
    rw [errorText_apply errorCode messageLen hoff]
    constructor
    · rintro ⟨off', h⟩
      split at h
      · cases h
      · rename_i hroom
        cases h
        refine ⟨(buf.drop off).take messageLen.toNat, ⟨?_, ?_⟩, List.take_prefix _ _⟩
        · rw [List.length_take, List.length_drop]
          omega
        · rw [List.take_take, Nat.min_comm]
    · rintro ⟨bs, ⟨hlen, rfl⟩, hpre⟩
      have hle := hpre.length_le
      rw [List.length_drop] at hle
      have htake : (buf.drop off).take messageLen.toNat = bs := by
        rw [← hlen]
        exact (List.prefix_iff_eq_take.mp hpre).symm
      rw [if_neg (by omega), ← htake, List.take_take, Nat.min_comm]
      exact ⟨_, rfl⟩

/-- The format of an error, text in full. -/
theorem reads_error (buffer : List UInt8) :
    Lib.receiveError buffer ≠ .fault ∧
    ∀ errorCode out, Lib.receiveError buffer = .accept (errorCode, out) ↔
      ∃ message : List UInt8, message.length ≤ 65535 ∧
        writeUInt8 errorCode ++ lengthPrefixed message <+: buffer ∧ out = message.take 255 := by
  have h := Cursor.reads_bind exact_uint8Field fun errorCode _ _ =>
    Cursor.reads_bind exact_uint16Field fun messageLen _ _ => reads_errorText errorCode messageLen
  refine ⟨h.run_ne_fault buffer, fun errorCode out => (h.run_eq_accept buffer _).trans ?_⟩
  constructor
  · rintro ⟨bs, ⟨code, _, _, rfl, ⟨len, _, message, rfl, ⟨hlen, hout⟩, rfl⟩, rfl⟩, hpre⟩
    obtain ⟨rfl, rfl⟩ := Prod.mk.inj hout
    have hlt := len.toNat_lt
    refine ⟨message, by omega, ?_, rfl⟩
    rwa [lengthPrefixed, hlen, UInt16.ofNat_toNat]
  · rintro ⟨message, hlen, hpre, rfl⟩
    have hcount : (UInt16.ofNat message.length).toNat = message.length :=
      UInt16.toNat_ofNat_of_lt' (by change message.length < 65536; omega)
    exact ⟨_, ⟨errorCode, _, _, rfl, ⟨_, _, message, rfl, ⟨hcount.symm, rfl⟩, rfl⟩, rfl⟩, hpre⟩

/-- The text of an error read in full, to tell messages apart. -/
theorem error_unique {buffer : List UInt8} {errorCode errorCode' : UInt8}
    {message message' : List UInt8} (hlen : message.length ≤ 65535)
    (hlen' : message'.length ≤ 65535)
    (hpre : writeUInt8 errorCode ++ lengthPrefixed message <+: buffer)
    (hpre' : writeUInt8 errorCode' ++ lengthPrefixed message' <+: buffer) :
    errorCode = errorCode' ∧ message = message' := by
  have htext : Cursor.Exact (Lib.stringField 65535 65536)
      fun s bs => s.length ≤ 65535 ∧ bs = lengthPrefixed s :=
    exact_stringField (le_refl 65536) (by decide)
  have hexact := Cursor.exact_bind exact_uint8Field fun errorCode _ _ =>
    Cursor.exact_bind htext fun message _ _ => Cursor.exact_pure (errorCode, message)
  have hrun : ∀ (code : UInt8) (text : List UInt8), text.length ≤ 65535 →
      writeUInt8 code ++ lengthPrefixed text <+: buffer →
        Cursor.run (do
          let errorCode ← Lib.uint8Field
          let message ← Lib.stringField 65535 65536
          pure (errorCode, message)) buffer = .accept (code, text) := by
    intro code text htext hprefix
    refine (hexact.run_eq_accept buffer (code, text)).mpr ⟨_, ⟨code, _, _, rfl,
      ⟨text, _, [], ⟨htext, rfl⟩, ⟨rfl, rfl⟩, rfl⟩, rfl⟩, ?_⟩
    rwa [List.append_nil]
  have heq := (hrun errorCode message hlen hpre).symm.trans (hrun errorCode' message' hlen' hpre')
  exact Prod.mk.inj (Outcome.accept.inj heq)

/-! ## Hostile input -/

theorem tracks_errorText (errorCode : UInt8) (messageLen : UInt16) :
    Tracks
      (if 0 < messageLen.toNat then do
          require messageLen.toNat
          let length := if 256 ≤ messageLen.toNat then 255 else messageLen.toNat
          store (maxErrorMsgSize + 1) (length + 1)
          let message ← take length
          pure (errorCode, message)
        else do
          store (maxErrorMsgSize + 1) 1
          pure (errorCode, []))
      (errorText errorCode messageLen) :=
  tracks_ite
    (tracks_bind (tracks_require _) fun _ => tracks_bind (tracks_store _ _) fun _ =>
      tracks_bind (tracks_take _) fun _ => tracks_pure _)
    (tracks_bind (tracks_store _ _) fun _ => tracks_pure _)

/-- The decoder of an error is the one over unbounded offsets. -/
theorem receiveError_eq {buffer : List UInt8} (hbuf : buffer.length < 65536) :
    receiveError buffer = Lib.receiveError buffer := by
  have htracks := tracks_bind tracks_uint8Field fun errorCode =>
    tracks_bind tracks_uint16Field fun messageLen => tracks_errorText errorCode messageLen
  exact htracks.run_eq hbuf

theorem decode_error {buffer : List UInt8} (hbuf : buffer.length < 65536) :
    decode .error buffer
      = (Lib.receiveError buffer).map fun (errorCode, message) => .error errorCode message := by
  simp only [decode, receiveError_eq hbuf]

/-- So are the other thirteen. -/
theorem decode_fields {type : MessageType} (htype : type ≠ .error) {buffer : List UInt8}
    (hbuf : buffer.length < 65536) :
    decode type buffer = (Lib.decode type buffer).map .fields := by
  cases type with
  | error => exact absurd rfl htype
  | dataExportEnd | shutdown => rfl
  | put =>
    have heq : receivePut buffer = Lib.receivePut buffer := tracks_keyValueCursor.run_eq hbuf
    simp only [decode, Lib.decode, heq, Outcome.map_map]
  | dataEntry =>
    have heq : receiveDataEntry buffer = Lib.receiveDataEntry buffer :=
      tracks_keyValueCursor.run_eq hbuf
    simp only [decode, Lib.decode, heq, Outcome.map_map]
  | peerNotify =>
    have heq : receivePeerNotify buffer = Lib.receivePeerNotify buffer :=
      tracks_keyValueCursor.run_eq hbuf
    simp only [decode, Lib.decode, heq, Outcome.map_map]
  | putResponse =>
    have heq : receivePutResponse buffer = Lib.receivePutResponse buffer :=
      (tracks_bind tracks_uint8Field fun _ => tracks_bind tracks_keyField fun _ =>
        tracks_pure _).run_eq hbuf
    simp only [decode, Lib.decode, heq, Outcome.map_map]
  | get =>
    have heq : receiveGet buffer = Lib.receiveGet buffer := tracks_keyField.run_eq hbuf
    simp only [decode, Lib.decode, heq, Outcome.map_map]
  | getResponse =>
    have heq : receiveGetResponse buffer = Lib.receiveGetResponse buffer :=
      (tracks_bind tracks_uint8Field fun _ => tracks_bind tracks_keyField fun _ =>
        tracks_bind tracks_resultValueField fun _ => tracks_pure _).run_eq hbuf
    simp only [decode, Lib.decode, heq, Outcome.map_map]
  | storeRequest =>
    have heq : receiveStoreRequest buffer = Lib.receiveStoreRequest buffer :=
      (tracks_bind tracks_uint32Field fun _ => tracks_bind tracks_keyField fun _ =>
        tracks_bind tracks_valueField fun _ => tracks_pure _).run_eq hbuf
    simp only [decode, Lib.decode, heq, Outcome.map_map]
  | storeResponse =>
    have heq : receiveStoreResponse buffer = Lib.receiveStoreResponse buffer :=
      (tracks_bind tracks_uint8Field fun _ => tracks_bind tracks_uint32Field fun _ =>
        tracks_bind tracks_keyField fun _ => tracks_pure _).run_eq hbuf
    simp only [decode, Lib.decode, heq, Outcome.map_map]
  | retrieveRequest =>
    have heq : receiveRetrieveRequest buffer = Lib.receiveRetrieveRequest buffer :=
      (tracks_bind tracks_uint32Field fun _ => tracks_bind tracks_keyField fun _ =>
        tracks_pure _).run_eq hbuf
    simp only [decode, Lib.decode, heq, Outcome.map_map]
  | retrieveResponse =>
    have heq : receiveRetrieveResponse buffer = Lib.receiveRetrieveResponse buffer :=
      (tracks_bind tracks_uint8Field fun _ => tracks_bind tracks_uint32Field fun _ =>
        tracks_bind tracks_keyField fun _ => tracks_bind tracks_resultValueField fun _ =>
        tracks_pure _).run_eq hbuf
    simp only [decode, Lib.decode, heq, Outcome.map_map]
  | dataExportStart =>
    have heq : receiveDataExportStart buffer = Lib.receiveDataExportStart buffer :=
      tracks_uint32Field.run_eq hbuf
    simp only [decode, Lib.decode, heq, Outcome.map_map]
  | workerReady =>
    have heq : receiveWorkerReady buffer = Lib.receiveWorkerReady buffer :=
      (tracks_bind tracks_uint32Field fun _ => tracks_bind tracks_uint16Field fun _ =>
        tracks_pure _).run_eq hbuf
    simp only [decode, Lib.decode, heq, Outcome.map_map]
  | workerEntry =>
    have heq : receiveWorkerEntry buffer = Lib.receiveWorkerEntry buffer :=
      (tracks_bind tracks_uint32Field fun _ => tracks_bind tracks_addressField fun _ =>
        tracks_bind tracks_uint16Field fun _ => tracks_bind tracks_uint8Field fun _ =>
        tracks_pure _).run_eq hbuf
    simp only [decode, Lib.decode, heq, Outcome.map_map]

/-- No decoder of the thirteen touches memory outside its buffers. -/
theorem decode_ne_fault (type : MessageType) (buffer : List UInt8) :
    Lib.decode type buffer ≠ .fault := by
  have hkeyValue : Lib.keyValueCursor.run buffer ≠ .fault :=
    (Cursor.exact_bind exact_keyField fun _ _ _ => Cursor.exact_bind exact_valueField fun _ _ _ =>
      Cursor.exact_pure _).run_ne_fault buffer
  intro hfault
  cases type with
  | dataExportEnd | shutdown | error => cases hfault
  | put | dataEntry | peerNotify => exact hkeyValue (Outcome.map_eq_fault.mp hfault)
  | putResponse =>
    exact (Cursor.exact_bind exact_uint8Field fun _ _ _ => Cursor.exact_bind exact_keyField
      fun _ _ _ => Cursor.exact_pure _).run_ne_fault buffer (Outcome.map_eq_fault.mp hfault)
  | get => exact exact_keyField.run_ne_fault buffer (Outcome.map_eq_fault.mp hfault)
  | getResponse =>
    exact (Cursor.exact_bind exact_uint8Field fun _ _ _ => Cursor.exact_bind exact_keyField
      fun _ _ _ => Cursor.exact_bind exact_resultValueField fun _ _ _ =>
      Cursor.exact_pure _).run_ne_fault buffer (Outcome.map_eq_fault.mp hfault)
  | storeRequest =>
    exact (Cursor.exact_bind exact_uint32Field fun _ _ _ => Cursor.exact_bind exact_keyField
      fun _ _ _ => Cursor.exact_bind exact_valueField fun _ _ _ =>
      Cursor.exact_pure _).run_ne_fault buffer (Outcome.map_eq_fault.mp hfault)
  | storeResponse =>
    exact (Cursor.exact_bind exact_uint8Field fun _ _ _ => Cursor.exact_bind exact_uint32Field
      fun _ _ _ => Cursor.exact_bind exact_keyField fun _ _ _ =>
      Cursor.exact_pure _).run_ne_fault buffer (Outcome.map_eq_fault.mp hfault)
  | retrieveRequest =>
    exact (Cursor.exact_bind exact_uint32Field fun _ _ _ => Cursor.exact_bind exact_keyField
      fun _ _ _ => Cursor.exact_pure _).run_ne_fault buffer (Outcome.map_eq_fault.mp hfault)
  | retrieveResponse =>
    exact (Cursor.exact_bind exact_uint8Field fun _ _ _ => Cursor.exact_bind exact_uint32Field
      fun _ _ _ => Cursor.exact_bind exact_keyField fun _ _ _ =>
      Cursor.exact_bind exact_resultValueField fun _ _ _ =>
      Cursor.exact_pure _).run_ne_fault buffer (Outcome.map_eq_fault.mp hfault)
  | dataExportStart => exact exact_uint32Field.run_ne_fault buffer (Outcome.map_eq_fault.mp hfault)
  | workerReady =>
    exact (Cursor.exact_bind exact_uint32Field fun _ _ _ => Cursor.exact_bind exact_uint16Field
      fun _ _ _ => Cursor.exact_pure _).run_ne_fault buffer (Outcome.map_eq_fault.mp hfault)
  | workerEntry =>
    exact (Cursor.exact_bind exact_uint32Field fun _ _ _ => Cursor.exact_bind exact_addressField
      fun _ _ _ => Cursor.exact_bind exact_uint16Field fun _ _ _ =>
      Cursor.exact_bind exact_uint8Field fun _ _ _ =>
      Cursor.exact_pure _).run_ne_fault buffer (Outcome.map_eq_fault.mp hfault)

/-- The thirteen decoders, on messages on the wire. -/
theorem decode_fields_eq_accept {type : MessageType} (htype : type ≠ .error) {buffer : List UInt8}
    (hbuf : buffer.length < 65536) (out : WireMessage) :
    decode type buffer = .accept out ↔
      ∃ m : WireMessage, m.type = type ∧ m.WithinLimits ∧ m.payload <+: buffer ∧
        out = m.outputs := by
  rw [decode_fields htype hbuf, Outcome.map_eq_accept]
  constructor
  · rintro ⟨f, hf, rfl⟩
    exact ⟨.fields f, ((decode_eq_accept type buffer f).mp hf).1,
      ((decode_eq_accept type buffer f).mp hf).2.1, ((decode_eq_accept type buffer f).mp hf).2.2,
      rfl⟩
  · rintro ⟨m, hm, hlimits, hpre, rfl⟩
    cases m with
    | fields f => exact ⟨f, (decode_eq_accept type buffer f).mpr ⟨hm, hlimits, hpre⟩, rfl⟩
    | error errorCode message => exact absurd hm.symm htype

/-- And the fourteenth. -/
theorem decode_error_eq_accept {buffer : List UInt8} (hbuf : buffer.length < 65536)
    (out : WireMessage) :
    decode .error buffer = .accept out ↔
      ∃ m : WireMessage, m.type = .error ∧ m.WithinLimits ∧ m.payload <+: buffer ∧
        out = m.outputs := by
  rw [decode_error hbuf, Outcome.map_eq_accept]
  constructor
  · rintro ⟨⟨errorCode, text⟩, hread, rfl⟩
    obtain ⟨message, hlen, hpre, rfl⟩ := ((reads_error buffer).2 errorCode text).mp hread
    exact ⟨.error errorCode message, rfl, hlen, hpre, rfl⟩
  · rintro ⟨m, hm, hlimits, hpre, rfl⟩
    cases m with
    | fields f => cases f <;> cases hm
    | error errorCode message =>
      exact ⟨(errorCode, message.take 255),
        ((reads_error buffer).2 errorCode _).mpr ⟨message, hlimits, hpre, rfl⟩, rfl⟩

/-- A buffer starts with at most one message of a kind. -/
theorem wireMessage_unique {buffer : List UInt8} {m m' : WireMessage} (htype : m.type = m'.type)
    (hlimits : m.WithinLimits) (hlimits' : m'.WithinLimits) (hpre : m.payload <+: buffer)
    (hpre' : m'.payload <+: buffer) : m = m' := by
  cases m with
  | fields f =>
    cases m' with
    | fields f' =>
      have hf := (decode_eq_accept f.type buffer f).mpr ⟨rfl, hlimits, hpre⟩
      have hf' := (decode_eq_accept f.type buffer f').mpr ⟨htype.symm, hlimits', hpre'⟩
      rw [Outcome.accept.inj (hf.symm.trans hf')]
    | error errorCode message => cases f <;> cases htype
  | error errorCode message =>
    cases m' with
    | fields f' => cases f' <;> cases htype
    | error errorCode' message' =>
      obtain ⟨rfl, rfl⟩ := error_unique hlimits hlimits' hpre hpre'
      rfl

/-- **The decoders are safe and exact on every input** that a `bufferSize`
can measure: no byte outside the buffers is touched, a buffer is accepted
exactly when a message of the kind is in front, and there is only one. -/
theorem decoders_safe_and_exact (type : MessageType) (buffer : List UInt8)
    (hbuf : buffer.length ≤ 65535) :
    decode type buffer ≠ .fault ∧
    (∀ out, decode type buffer = .accept out ↔
      ∃ m : WireMessage, m.type = type ∧ m.WithinLimits ∧ m.payload <+: buffer ∧
        out = m.outputs) ∧
    ∀ m m' : WireMessage, m.type = type → m'.type = type → m.WithinLimits → m'.WithinLimits →
      m.payload <+: buffer → m'.payload <+: buffer → m = m' := by
  have hsize : buffer.length < 65536 := by omega
  refine ⟨?_, ?_, fun m m' hm hm' hlimits hlimits' hpre hpre' =>
    wireMessage_unique (hm.trans hm'.symm) hlimits hlimits' hpre hpre'⟩
  · by_cases htype : type = .error
    · rw [htype, decode_error hsize, ne_eq, Outcome.map_eq_fault]
      exact (reads_error buffer).1
    · rw [decode_fields htype hsize, ne_eq, Outcome.map_eq_fault]
      exact decode_ne_fault type buffer
  · intro out
    by_cases htype : type = .error
    · rw [htype]
      exact decode_error_eq_accept hsize out
    · exact decode_fields_eq_accept htype hsize out

/-- A GET whose key length lies about the two bytes behind it, and the
same with the byte it asks for. -/
theorem decoders_safe_and_exact_get :
    decode .get [0, 2, 107] = .reject ∧
    ∃ m : WireMessage, m.payload <+: [0, 2, 107, 107, 7] ∧
      decode .get [0, 2, 107, 107, 7] = .accept m.outputs := by
  obtain ⟨m, hm, -, hpre, hout⟩ :=
    ((decoders_safe_and_exact .get [0, 2, 107, 107, 7] (by decide)).2.1
      (.fields (.get [107, 107]))).mp rfl
  exact ⟨rfl, m, hpre, hout ▸ rfl⟩

end LoadBalancing.Lib.ReceiveBuffer
