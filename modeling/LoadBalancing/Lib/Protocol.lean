/-
LoadBalancing.Lib.Protocol — the message format of `Lib/Protocol.h` and
`Lib/Protocol.c`: message types, error codes, the encoders and the
decoders.

An encoder of the source fills a local buffer from offset 0 upwards and
hands it to `ProtocolSend`. Its model is the message it hands over, the
type byte with the bytes written; `none` is the early `return -1` of a
failed `ValidateKey` or `ValidateValue`. The source's 16-bit `offset`
never leaves the range 0..1027, so a `Nat` length is the same number.

A decoder is a `Cursor` over the first `bufferSize` bytes of its buffer.
The two checks the source makes in front of every field, "is the length
field there" and "are its bytes there", are `Cursor.require`; the
`memcpy`s are the unchecked `Cursor.take`, and `Cursor.store` is the
write of `len + 1` bytes into the caller's output buffer, so an
overread and an overflow both show as `fault`. A string comes out as the
raw bytes copied; what its reader makes of an inner NUL is
`CString.ofBuffer`.

`SendError`, `ReceiveError` and `SendShutdown` are here too: threads of
the load balancer send them.
-/
import LoadBalancing.Base.CString
import LoadBalancing.Base.Cursor
import LoadBalancing.Lib.SharedConfig

namespace LoadBalancing.Lib

open LoadBalancing.Base

/-! ## Message types and error codes -/

/-- `MessageType`. -/
inductive MessageType where
  | put | putResponse | get | getResponse
  | storeRequest | storeResponse | retrieveRequest | retrieveResponse
  | workerEntry | dataExportStart | dataEntry | dataExportEnd | workerReady
  | peerNotify | shutdown | error
  deriving DecidableEq, Repr

/-- The value of an enumerator, which is its byte on the wire. -/
def MessageType.value : MessageType → UInt8
  | .put => 1
  | .putResponse => 2
  | .get => 3
  | .getResponse => 4
  | .storeRequest => 10
  | .storeResponse => 11
  | .retrieveRequest => 12
  | .retrieveResponse => 13
  | .workerEntry => 14
  | .dataExportStart => 15
  | .dataEntry => 16
  | .dataExportEnd => 17
  | .workerReady => 18
  | .peerNotify => 30
  | .shutdown => 90
  | .error => 91

/-- The `case` a `switch` on a type byte takes; `none` is its default. -/
def MessageType.ofValue? (b : UInt8) : Option MessageType :=
  [.put, .putResponse, .get, .getResponse, .storeRequest, .storeResponse, .retrieveRequest,
    .retrieveResponse, .workerEntry, .dataExportStart, .dataEntry, .dataExportEnd,
    .workerReady, .peerNotify, .shutdown, .error].find? fun t => t.value == b

@[simp] theorem MessageType.ofValue?_value (t : MessageType) : ofValue? t.value = some t := by
  cases t <;> rfl

/-- `ErrorCode`. -/
inductive ErrorCode where
  | none | invalidKey | invalidValue | keyNotFound | serverBusy | networkError | protocolError
  deriving DecidableEq, Repr

/-- The value of an enumerator. -/
def ErrorCode.value : ErrorCode → UInt8
  | .none => 0
  | .invalidKey => 1
  | .invalidValue => 2
  | .keyNotFound => 3
  | .serverBusy => 4
  | .networkError => 5
  | .protocolError => 6

/-- What an encoder hands to `ProtocolSend`: a type byte and a payload. -/
structure Message where
  type : UInt8
  payload : List UInt8
  deriving DecidableEq

/-! ## Validation -/

/-- `ValidateKey`. -/
def validateKey (key : CString) : Bool :=
  if key.strlen = 0 ∨ maxKeySize < key.strlen then false else true

/-- `ValidateValue`. -/
def validateValue (value : CString) : Bool :=
  if maxValueSize < value.strlen then false else true

/-! ## Writing fields -/

/-- `WriteUInt8`. -/
def writeUInt8 (v : UInt8) : List UInt8 := toBigEndian 1 v.toNat

/-- `WriteUInt16`. -/
def writeUInt16 (v : UInt16) : List UInt8 := toBigEndian 2 v.toNat

/-- `WriteUInt32`. -/
def writeUInt32 (v : UInt32) : List UInt8 := toBigEndian 4 v.toNat

/-- A 16-bit length and the bytes it counts: `WriteUInt16` followed by
`WriteString` or a `memcpy`. -/
def lengthPrefixed (bytes : List UInt8) : List UInt8 :=
  writeUInt16 (UInt16.ofNat bytes.length) ++ bytes

/-! ## Encoders -/

/-- `SendPut`. -/
def sendPut (key value : CString) : Option Message :=
  if !validateKey key || !validateValue value then none
  else some ⟨MessageType.put.value, lengthPrefixed key.bytes ++ lengthPrefixed value.bytes⟩

/-- `SendPutResponse`. -/
def sendPutResponse (result : UInt8) (key : CString) : Option Message :=
  if !validateKey key then none
  else some ⟨MessageType.putResponse.value, writeUInt8 result ++ lengthPrefixed key.bytes⟩

/-- `SendGet`. -/
def sendGet (key : CString) : Option Message :=
  if !validateKey key then none
  else some ⟨MessageType.get.value, lengthPrefixed key.bytes⟩

/-- The value field of `SendGetResponse` and `SendRetrieveResponse`: the
value under `ERR_NONE`, a zero length otherwise. -/
def resultValue (result : UInt8) (value : CString) : List UInt8 :=
  if result == ErrorCode.none.value then lengthPrefixed value.bytes else writeUInt16 0

/-- `SendGetResponse`. -/
def sendGetResponse (result : UInt8) (key value : CString) : Option Message :=
  if !validateKey key || !validateValue value then none
  else some ⟨MessageType.getResponse.value,
    writeUInt8 result ++ lengthPrefixed key.bytes ++ resultValue result value⟩

/-- `SendStoreRequest`. -/
def sendStoreRequest (clientId : UInt32) (key value : CString) : Option Message :=
  if !validateKey key || !validateValue value then none
  else some ⟨MessageType.storeRequest.value,
    writeUInt32 clientId ++ lengthPrefixed key.bytes ++ lengthPrefixed value.bytes⟩

/-- `SendStoreResponse`. -/
def sendStoreResponse (result : UInt8) (clientId : UInt32) (key : CString) : Option Message :=
  if !validateKey key then none
  else some ⟨MessageType.storeResponse.value,
    writeUInt8 result ++ writeUInt32 clientId ++ lengthPrefixed key.bytes⟩

/-- `SendRetrieveRequest`. -/
def sendRetrieveRequest (clientId : UInt32) (key : CString) : Option Message :=
  if !validateKey key then none
  else some ⟨MessageType.retrieveRequest.value, writeUInt32 clientId ++ lengthPrefixed key.bytes⟩

/-- `SendRetrieveResponse`. -/
def sendRetrieveResponse (result : UInt8) (clientId : UInt32) (key value : CString) :
    Option Message :=
  if !validateKey key || !validateValue value then none
  else some ⟨MessageType.retrieveResponse.value,
    writeUInt8 result ++ writeUInt32 clientId ++ lengthPrefixed key.bytes ++
      resultValue result value⟩

/-- `SendWorkerReady`. -/
def sendWorkerReady (workerId : UInt32) (peerPort : UInt16) : Option Message :=
  some ⟨MessageType.workerReady.value, writeUInt32 workerId ++ writeUInt16 peerPort⟩

/-- The clamp of `SendWorkerEntry`: `strlen` cut to 16 bits, then to 255. -/
def addressLength (address : CString) : Nat :=
  min (UInt16.ofNat address.strlen).toNat 255

/-- `SendWorkerEntry`. -/
def sendWorkerEntry (workerId : UInt32) (address : CString) (port : UInt16)
    (shouldExportData : UInt8) : Option Message :=
  some ⟨MessageType.workerEntry.value,
    writeUInt32 workerId ++ lengthPrefixed (address.bytes.take (addressLength address)) ++
      writeUInt16 port ++ writeUInt8 shouldExportData⟩

/-- `SendDataExportStart`. -/
def sendDataExportStart (totalEntries : UInt32) : Option Message :=
  some ⟨MessageType.dataExportStart.value, writeUInt32 totalEntries⟩

/-- `SendDataEntry`. -/
def sendDataEntry (key value : CString) : Option Message :=
  if !validateKey key || !validateValue value then none
  else some ⟨MessageType.dataEntry.value,
    lengthPrefixed key.bytes ++ lengthPrefixed value.bytes⟩

/-- `SendDataExportEnd`. -/
def sendDataExportEnd : Option Message :=
  some ⟨MessageType.dataExportEnd.value, []⟩

/-- `SendPeerNotify`. -/
def sendPeerNotify (key value : CString) : Option Message :=
  if !validateKey key || !validateValue value then none
  else some ⟨MessageType.peerNotify.value,
    lengthPrefixed key.bytes ++ lengthPrefixed value.bytes⟩

/-- The clamp of `SendError`: `strlen` cut to 16 bits, then to
`MAX_ERROR_MSG_SIZE`. -/
def errorMessageLength (message : CString) : Nat :=
  min (UInt16.ofNat message.strlen).toNat maxErrorMsgSize

/-- `SendError`; a message of `none` is the `NULL` pointer. -/
def sendError (error : UInt8) (message : Option CString) : Option Message :=
  some ⟨MessageType.error.value,
    writeUInt8 error ++ match message with
      | some text => lengthPrefixed (text.bytes.take (errorMessageLength text))
      | none => writeUInt16 0⟩

/-- `SendShutdown`. -/
def sendShutdown : Option Message :=
  some ⟨MessageType.shutdown.value, []⟩

/-! ## Reading fields -/

/-- The size check and `ReadUInt8`. -/
def uint8Field : Cursor UInt8 := do
  let n ← Cursor.number 1
  pure (UInt8.ofNat n)

/-- The size check and `ReadUInt16`. -/
def uint16Field : Cursor UInt16 := do
  let n ← Cursor.number 2
  pure (UInt16.ofNat n)

/-- The size check and `ReadUInt32`. -/
def uint32Field : Cursor UInt32 := do
  let n ← Cursor.number 4
  pure (UInt32.ofNat n)

/-- The bytes of a string field of `len` bytes: the limit and size
check, then `ReadString(buffer + offset, out, len + 1)` into an output
of `capacity` bytes. -/
def stringBody (limit capacity : Nat) (len : UInt16) : Cursor (List UInt8) :=
  if limit < len.toNat then Cursor.reject
  else do
    Cursor.require len.toNat
    Cursor.store capacity (len.toNat + 1)
    Cursor.take len.toNat

/-- A length field and the string it counts. -/
def stringField (limit capacity : Nat) : Cursor (List UInt8) := do
  let len ← uint16Field
  stringBody limit capacity len

/-- A key, into a buffer `char key[MAX_KEY_SIZE + 1]`. -/
def keyField : Cursor (List UInt8) := stringField maxKeySize (maxKeySize + 1)

/-- A value, into a buffer `char value[MAX_VALUE_SIZE + 1]`. -/
def valueField : Cursor (List UInt8) := stringField maxValueSize (maxValueSize + 1)

/-- The value of `ReceiveGetResponse` and `ReceiveRetrieveResponse`,
whose string is only read when its length is not zero. -/
def resultValueField : Cursor (List UInt8) := do
  let len ← uint16Field
  if 0 < len.toNat then stringBody maxValueSize (maxValueSize + 1) len
  else do
    Cursor.store (maxValueSize + 1) 1
    pure []

/-- An address, into a buffer `char address[256]`. -/
def addressField : Cursor (List UInt8) := stringField 255 256

/-! ## Decoders

Each runs over the first `bufferSize` bytes of the receive buffer.
`accept` carries the outputs of a call that returns 0 and `reject` is
the return value -1. -/

/-- A key and a value, as `PUT`, `DATA_ENTRY` and `PEER_NOTIFY` carry them. -/
def keyValueCursor : Cursor (List UInt8 × List UInt8) := do
  let key ← keyField
  let value ← valueField
  pure (key, value)

/-- `ReceivePut`. -/
def receivePut (buffer : List UInt8) : Outcome (List UInt8 × List UInt8) :=
  keyValueCursor.run buffer

/-- `ReceivePutResponse`. -/
def receivePutResponse (buffer : List UInt8) : Outcome (UInt8 × List UInt8) :=
  Cursor.run (do
    let result ← uint8Field
    let key ← keyField
    pure (result, key)) buffer

/-- `ReceiveGet`. -/
def receiveGet (buffer : List UInt8) : Outcome (List UInt8) :=
  keyField.run buffer

/-- `ReceiveGetResponse`. -/
def receiveGetResponse (buffer : List UInt8) : Outcome (UInt8 × List UInt8 × List UInt8) :=
  Cursor.run (do
    let result ← uint8Field
    let key ← keyField
    let value ← resultValueField
    pure (result, key, value)) buffer

/-- `ReceiveStoreRequest`. -/
def receiveStoreRequest (buffer : List UInt8) : Outcome (UInt32 × List UInt8 × List UInt8) :=
  Cursor.run (do
    let clientId ← uint32Field
    let key ← keyField
    let value ← valueField
    pure (clientId, key, value)) buffer

/-- `ReceiveStoreResponse`. -/
def receiveStoreResponse (buffer : List UInt8) : Outcome (UInt8 × UInt32 × List UInt8) :=
  Cursor.run (do
    let result ← uint8Field
    let clientId ← uint32Field
    let key ← keyField
    pure (result, clientId, key)) buffer

/-- `ReceiveRetrieveRequest`. -/
def receiveRetrieveRequest (buffer : List UInt8) : Outcome (UInt32 × List UInt8) :=
  Cursor.run (do
    let clientId ← uint32Field
    let key ← keyField
    pure (clientId, key)) buffer

/-- `ReceiveRetrieveResponse`. -/
def receiveRetrieveResponse (buffer : List UInt8) :
    Outcome (UInt8 × UInt32 × List UInt8 × List UInt8) :=
  Cursor.run (do
    let result ← uint8Field
    let clientId ← uint32Field
    let key ← keyField
    let value ← resultValueField
    pure (result, clientId, key, value)) buffer

/-- `ReceiveDataEntry`. -/
def receiveDataEntry (buffer : List UInt8) : Outcome (List UInt8 × List UInt8) :=
  keyValueCursor.run buffer

/-- `ReceivePeerNotify`. -/
def receivePeerNotify (buffer : List UInt8) : Outcome (List UInt8 × List UInt8) :=
  keyValueCursor.run buffer

/-- `ReceiveDataExportStart`. -/
def receiveDataExportStart (buffer : List UInt8) : Outcome UInt32 :=
  uint32Field.run buffer

/-- `ReceiveWorkerReady`. -/
def receiveWorkerReady (buffer : List UInt8) : Outcome (UInt32 × UInt16) :=
  Cursor.run (do
    let workerId ← uint32Field
    let peerPort ← uint16Field
    pure (workerId, peerPort)) buffer

/-- `ReceiveWorkerEntry`. -/
def receiveWorkerEntry (buffer : List UInt8) :
    Outcome (UInt32 × List UInt8 × UInt16 × UInt8) :=
  Cursor.run (do
    let workerId ← uint32Field
    let address ← addressField
    let port ← uint16Field
    let shouldExportData ← uint8Field
    pure (workerId, address, port, shouldExportData)) buffer

/-- `ReceiveError`; the message is cut to 255 bytes of the output buffer
`char errorMessage[MAX_ERROR_MSG_SIZE + 1]`. -/
def receiveError (buffer : List UInt8) : Outcome (UInt8 × List UInt8) :=
  Cursor.run (do
    let errorCode ← uint8Field
    let messageLen ← uint16Field
    if 0 < messageLen.toNat then do
      Cursor.require messageLen.toNat
      let length := if 256 ≤ messageLen.toNat then 255 else messageLen.toNat
      Cursor.store (maxErrorMsgSize + 1) (length + 1)
      let message ← Cursor.take length
      pure (errorCode, message)
    else do
      Cursor.store (maxErrorMsgSize + 1) 1
      pure (errorCode, [])) buffer

end LoadBalancing.Lib
