/-
LoadBalancing.Worker.ReceiverThread — what a worker does with a request
of the load balancer.

The decoded arguments are strings, cut at their first NUL. `handleMessage`
is one pass through the `switch` of `Worker/ReceiverThread.c` for a worker
without peers, whose `BroadcastData` sends nothing; the passes of workers
that have peers are steps of `Worker.Cluster`, which shares the decoders
here.

Out of scope: the messages that store and retrieve nothing, which such a
worker only logs, and `SHUTDOWN`.
-/
import LoadBalancing.Lib.ProtocolCodec
import LoadBalancing.Worker.HashTable

namespace LoadBalancing.Worker

open LoadBalancing.Base LoadBalancing.Lib

/-! ## Requests -/

/-- The outputs of `ReceiveStoreRequest`. -/
structure StoreRequest where
  clientId : UInt32
  key : CString
  value : CString
  deriving DecidableEq

/-- The outputs of `ReceiveRetrieveRequest`. -/
structure RetrieveRequest where
  clientId : UInt32
  key : CString
  deriving DecidableEq

/-- `ReceiveStoreRequest` into the thread's buffers; `none` is the result
-1. -/
def storeRequest? (payload : List UInt8) : Option StoreRequest :=
  match receiveStoreRequest payload with
  | .accept (clientId, key, value) =>
    some ⟨clientId, CString.ofBuffer key, CString.ofBuffer value⟩
  | _ => none

/-- `ReceiveRetrieveRequest` into the thread's buffers. -/
def retrieveRequest? (payload : List UInt8) : Option RetrieveRequest :=
  match receiveRetrieveRequest payload with
  | .accept (clientId, key) => some ⟨clientId, CString.ofBuffer key⟩
  | _ => none

/-! ## Responses -/

/-- The STORE_RESPONSE behind a `SetHashTable` with this result. -/
def storeResponse (request : StoreRequest) (result : Int) : Option Message :=
  if result = 1 then sendStoreResponse ErrorCode.none.value request.clientId request.key
  else sendStoreResponse ErrorCode.networkError.value request.clientId request.key

/-- The RETRIEVE_RESPONSE behind a `GetHashTable`; a value is sent only
under the result 1. -/
def retrieveResponse (request : RetrieveRequest) (value : Option CString) : Option Message :=
  match value with
  | some value =>
    sendRetrieveResponse ErrorCode.none.value request.clientId request.key value
  | none =>
    sendRetrieveResponse ErrorCode.keyNotFound.value request.clientId request.key CString.empty

/-- One message of the load balancer: the table behind it and the message
handed to `ProtocolSend`, if any. -/
def handleMessage (table : HashTable) (message : Message) (allocated : Bool) :
    Outcome (HashTable × Option Message) :=
  match MessageType.ofValue? message.type with
  | some .storeRequest =>
    match storeRequest? message.payload with
    | some request =>
      let (result, table') := setHashTable table request.key request.value allocated
      .accept (table', storeResponse request result)
    | none => .accept (table, none)
  | some .retrieveRequest =>
    match retrieveRequest? message.payload with
    | some request =>
      match getHashTable table request.key allocated with
      | .accept value => .accept (table, retrieveResponse request value)
      | .reject => .accept (table, retrieveResponse request none)
      | .fault => .fault
    | none => .accept (table, none)
  | _ => .accept (table, none)

/-! ## What a decoded request is worth -/

/-- A decoded request with a key has a key and a value every encoder
takes. -/
theorem storeRequest?_valid {payload : List UInt8} {request : StoreRequest}
    (h : storeRequest? payload = some request) (hkey : request.key ≠ CString.empty) :
    validateKey request.key = true ∧ validateValue request.value = true := by
  unfold storeRequest? at h
  split at h
  · rename_i clientId key value hdec
    cases h
    obtain ⟨hkeyLen, hvalueLen, -⟩ := (receiveStoreRequest_eq_accept _ _ _ _).mp hdec
    refine ⟨(validateKey_ofBuffer hkeyLen).mpr fun hzero => hkey ?_,
      validateValue_ofBuffer hvalueLen⟩
    exact CString.ext (List.length_eq_zero_iff.mp hzero)
  · cases h

/-- A worker decodes the request that was encoded. -/
theorem storeRequest?_sendStoreRequest {clientId : UInt32} {key value : CString} {m : Message}
    (h : sendStoreRequest clientId key value = some m) :
    m.type = MessageType.storeRequest.value ∧
      storeRequest? m.payload = some ⟨clientId, key, value⟩ := by
  obtain ⟨htype, hdec⟩ := receiveStoreRequest_sendStoreRequest h
  refine ⟨htype, ?_⟩
  simp only [storeRequest?, hdec, CString.ofBuffer_bytes]

/-- And the lookup that was encoded. -/
theorem retrieveRequest?_sendRetrieveRequest {clientId : UInt32} {key : CString} {m : Message}
    (h : sendRetrieveRequest clientId key = some m) :
    m.type = MessageType.retrieveRequest.value ∧
      retrieveRequest? m.payload = some ⟨clientId, key⟩ := by
  obtain ⟨htype, hdec⟩ := receiveRetrieveRequest_sendRetrieveRequest h
  refine ⟨htype, ?_⟩
  simp only [retrieveRequest?, hdec, CString.ofBuffer_bytes]

end LoadBalancing.Worker
