/-
LoadBalancing.LoadBalancer.DataReceivers — what the two kinds of receiver
threads of the load balancer do with a message.

`ClientDataReceiverThread` checks a client's request and puts it into the
client request queue; `WorkerDataReceiverThread` does the same with a
worker's response and the worker response queue. Both answer the sender
with an error when the queue does not take the message. The two branches
of each `switch` differ in the decoder only.

Out of scope: `WORKER_READY`, whose branch is the registration of a
worker, the log output and the sleeps.
-/
import LoadBalancing.LoadBalancer.Queues
import LoadBalancing.Lib.ProtocolCodec

namespace LoadBalancing.LoadBalancer

open LoadBalancing.Base LoadBalancing.Lib

/-! ## Clients -/

/-- `"No workers available"`. -/
def noWorkersAvailable : CString := CString.ofString "No workers available"

/-- `"Server is busy, please try again later"`. -/
def serverIsBusyTryAgain : CString := CString.ofString "Server is busy, please try again later"

/-- `"Server error, please try again later"`. -/
def serverErrorTryAgain : CString := CString.ofString "Server error, please try again later"

/-- `"Invalid PUT message format"`. -/
def invalidPutFormat : CString := CString.ofString "Invalid PUT message format"

/-- `"Invalid GET message format"`. -/
def invalidGetFormat : CString := CString.ofString "Invalid GET message format"

/-- What became of a client's message: the queue behind it, whether the
message is in it, and the error sent to the client. -/
structure ClientReception where
  queue : ClientRequestQueue
  entered : Bool
  error : Option Message

/-- The `workerCount` check and the `PutClientRequestQueue` of a request
that parsed. -/
def enqueueRequest (workerCount : Nat) (queue : ClientRequestQueue) (request : ClientRequest) :
    ClientReception :=
  if workerCount = 0 then
    ⟨queue, false, sendError ErrorCode.serverBusy.value (some noWorkersAvailable)⟩
  else
    let (result, queue') := putClientRequestQueue queue request
    if result = 0 then
      ⟨queue', false, sendError ErrorCode.serverBusy.value (some serverIsBusyTryAgain)⟩
    else if result = -1 then
      ⟨queue', false, sendError ErrorCode.serverBusy.value (some serverErrorTryAgain)⟩
    else ⟨queue', true, none⟩

/-- The `switch` of `ClientDataReceiverThread`. -/
def receiveFromClient (workerCount : Nat) (queue : ClientRequestQueue) (clientSocket : Socket)
    (clientId : Int32) (message : Message) : ClientReception :=
  let request : ClientRequest :=
    { Payload.ofMessage message.type message.payload with
      clientSocket := some clientSocket
      clientId := clientId }
  match MessageType.ofValue? message.type with
  | some .put =>
    match receivePut message.payload with
    | .accept _ => enqueueRequest workerCount queue request
    | _ => ⟨queue, false, sendError ErrorCode.protocolError.value (some invalidPutFormat)⟩
  | some .get =>
    match receiveGet message.payload with
    | .accept _ => enqueueRequest workerCount queue request
    | _ => ⟨queue, false, sendError ErrorCode.protocolError.value (some invalidGetFormat)⟩
  | _ => ⟨queue, false, none⟩

/-! ## Workers -/

/-- `"Server is busy"`. -/
def serverIsBusy : CString := CString.ofString "Server is busy"

/-- `"Server error"`. -/
def serverError : CString := CString.ofString "Server error"

/-- What became of a worker's message: the queue behind it and the error
sent to the worker. -/
structure WorkerReception where
  queue : WorkerResponseQueue
  error : Option Message

/-- The `PutWorkerResponseQueue` of a response that parsed. -/
def enqueueResponse (queue : WorkerResponseQueue) (response : WorkerResponse) : WorkerReception :=
  let (result, queue') := putWorkerResponseQueue queue response
  if result = 0 then ⟨queue', sendError ErrorCode.serverBusy.value (some serverIsBusy)⟩
  else if result = -1 then ⟨queue', sendError ErrorCode.serverBusy.value (some serverError)⟩
  else ⟨queue', none⟩

/-- The two response branches of the `switch` of
`WorkerDataReceiverThread`; the `uint32_t` client id becomes an `int`. -/
def receiveFromWorker (queue : WorkerResponseQueue) (workerSocket : Socket) (workerId : Int32)
    (message : Message) : WorkerReception :=
  let response (clientId : UInt32) : WorkerResponse :=
    { Payload.ofMessage message.type message.payload with
      workerSocket := some workerSocket
      workerId := workerId
      clientId := clientId.toInt32 }
  match MessageType.ofValue? message.type with
  | some .storeResponse =>
    match receiveStoreResponse message.payload with
    | .accept (_, clientId, _) => enqueueResponse queue (response clientId)
    | _ => ⟨queue, none⟩
  | some .retrieveResponse =>
    match receiveRetrieveResponse message.payload with
    | .accept (_, clientId, _, _) => enqueueResponse queue (response clientId)
    | _ => ⟨queue, none⟩
  | _ => ⟨queue, none⟩

/-! ## Queues with room -/

/-- A request that finds a worker and room is put behind the others. -/
theorem enqueueRequest_of_room {workerCount : Nat} {queue : ClientRequestQueue}
    {request : ClientRequest} (hworkers : workerCount ≠ 0) (hsocket : request.clientSocket ≠ none)
    (hsettled : queue.Settled) (hroom : queue.ring.count < clientRequestQueueCapacity) :
    ∃ slot queue', enqueueRequest workerCount queue request = ⟨queue', true, none⟩ ∧
      queue'.Settled ∧ queue'.contents = queue.contents ++ [request.copy slot] := by
  obtain ⟨slot, queue', hput, hsettled', hcontents⟩ := hsettled.enqueue hroom request.copy
  have hcall : putClientRequestQueue queue request = (1, queue') := by
    rw [putClientRequestQueue, if_neg hsocket, hput]
  refine ⟨slot, queue', ?_, hsettled', hcontents⟩
  simp [enqueueRequest, hworkers, hcall]

/-- And so is a response. -/
theorem enqueueResponse_of_room {queue : WorkerResponseQueue} {response : WorkerResponse}
    (hsocket : response.workerSocket ≠ none) (hsettled : queue.Settled)
    (hroom : queue.ring.count < workerResponseQueueCapacity) :
    ∃ slot queue', enqueueResponse queue response = ⟨queue', none⟩ ∧
      queue'.Settled ∧ queue'.contents = queue.contents ++ [response.copy slot] := by
  obtain ⟨slot, queue', hput, hsettled', hcontents⟩ := hsettled.enqueue hroom response.copy
  have hcall : putWorkerResponseQueue queue response = (1, queue') := by
    rw [putWorkerResponseQueue, if_neg hsocket, hput]
  refine ⟨slot, queue', ?_, hsettled', hcontents⟩
  simp [enqueueResponse, hcall]

end LoadBalancing.LoadBalancer
