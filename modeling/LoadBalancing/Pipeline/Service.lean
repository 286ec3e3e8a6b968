/-
LoadBalancing.Pipeline.Service — the whole service with one worker.

A request goes from a client's connection through the client request queue
and the request dispatcher to the worker, and its reply from the worker's
connection through the worker response queue and the response dispatcher
to the client. The state holds every place a message can be in on this
way, byte by byte on the connections; each thread of the way has one or
two steps, built from the thread's own functions.

A call on a queue is one step here; `LoadBalancer.RequestConservation`
takes it apart. Three fields are logs: what each client has sent, which
calls have entered the client request queue, and the replies sent.

Clients connect at any time and stay. The worker is registered and ready
from the start, has no peers, and its allocations succeed; a client that
connects in front of the registration is as one behind it, for the two
touch different parts. Polls that find nothing are no steps, and a thread
whose receive fails closes its connection without the `SHUTDOWN` it tries
to send.
-/
import LoadBalancing.Base.KeyValue
import LoadBalancing.Base.Transition
import LoadBalancing.Lib.Connection
import LoadBalancing.LoadBalancer.DataReceivers
import LoadBalancing.LoadBalancer.RequestDispatcher
import LoadBalancing.LoadBalancer.ResponseDispatcher
import LoadBalancing.Worker.ReceiverThread

namespace LoadBalancing.Pipeline

open LoadBalancing.Base LoadBalancing.Lib LoadBalancing.LoadBalancer LoadBalancing.Worker

/-! ## Calls -/

/-- What a client asks for. -/
abbrev Request := Operation CString CString

/-- The client's `SendPut` or `SendGet`. -/
def Request.message : Request → Option Message
  | .put key value => sendPut key value
  | .get key => sendGet key

/-- The request a receiver thread decodes. -/
def requestOf (message : Message) : Option Request :=
  match MessageType.ofValue? message.type with
  | some .put =>
    match receivePut message.payload with
    | .accept (key, value) => some (.put (CString.ofBuffer key) (CString.ofBuffer value))
    | _ => none
  | some .get =>
    match receiveGet message.payload with
    | .accept key => some (.get (CString.ofBuffer key))
    | _ => none
  | _ => none

/-- A request with the client it is from: its slot in the pool, its id and
its socket. -/
structure Call where
  slot : Nat
  clientId : Int32
  clientSocket : Socket
  request : Request
  deriving DecidableEq

/-- What the systems at the ends of the connections answer: of a client's
connection by its slot, of the worker's, and of the load balancer's sends
by socket. -/
structure Network where
  fromClient : Nat → Link
  toWorker : Socket → Nat → SocketAnswer
  atWorker : Nat → SocketAnswer
  fromWorker : Link
  toClient : Socket → Nat → SocketAnswer

/-- No connection fails. -/
structure Network.Reliable (net : Network) : Prop where
  fromClient : ∀ i, (net.fromClient i).Reliable
  toWorker : ∀ socket, Healthy (net.toWorker socket)
  atWorker : Healthy net.atWorker
  fromWorker : net.fromWorker.Reliable
  toClient : ∀ socket, Healthy (net.toClient socket)

/-! ## The service -/

/-- The service. `dispatcher` has the client request queue, the worker list
and what the load balancer has sent to the worker and the worker not yet
received; `toClients` is all that the clients have been sent. -/
structure Service where
  pool : ClientThreadPool
  nextClientId : Int32
  fromClient : Nat → Connection
  dispatcher : DispatcherState
  workerSocket : Socket
  workerId : Int32
  workerReceives : Nat
  table : HashTable
  fromWorker : Connection
  responses : WorkerResponseQueue
  response : Option WorkerResponse
  clientSocket : Option Socket
  toClients : Socket → SendSide
  sent : Nat → List Request
  entered : List Call
  replies : List (Socket × Message)

/-- One step: a client connects or sends a request, and one of the threads
on the way. -/
inductive Label where
  | connect (clientSocket : Socket)
  | clientSend (i : Nat) (request : Request)
  | clientReceiver (i : Nat)
  | takeRequest
  | dispatch
  | worker
  | workerReceiver
  | takeResponse
  | reply
  deriving DecidableEq

/-- The steps of the service's own threads. -/
def Label.internal : Label → Bool
  | .connect _ | .clientSend _ _ => false
  | _ => true

namespace Service

/-- The listener accepts a client. -/
def connectStep (s : Service) (clientSocket : Socket) : Service :=
  let (pool, nextClientId) := s.pool.acceptClient s.nextClientId clientSocket .started
  { s with pool := pool, nextClientId := nextClientId }

/-- The client in a slot sends a request. `SendPut` and `SendGet` send
nothing that they refuse. -/
def clientSendStep (net : Network) (s : Service) (i : Nat) (request : Request) : Option Service :=
  match (s.pool.slots[i]?).bind ClientSlot.clientSocket, request.message with
  | some _, some message =>
    some { s with
      fromClient := Function.update s.fromClient i
        ((s.fromClient i).send (net.fromClient i) message).2
      sent := Function.update s.sent i (s.sent i ++ [request]) }
  | _, _ => none

/-- An error sent to a client by its receiver thread. -/
def sendToClient (net : Network) (s : Service) (clientSocket : Socket)
    (message : Option Message) : Service :=
  { s with
    toClients := (sendMessage net.toClient s.toClients (some clientSocket) message).2
    replies := s.replies ++ message.toList.map fun m => (clientSocket, m) }

/-- `ClientDataReceiverThread` of a slot, on one message. A receive that
fails ends the thread. -/
def clientReceiverStep (net : Network) (s : Service) (i : Nat) : Option Service :=
  match s.pool.slots[i]? with
  | none => none
  | some slot =>
    match slot.clientSocket with
    | none => none
    | some clientSocket =>
      if (s.fromClient i).bytes = [] then none
      else
        let (_, connection, received) := (s.fromClient i).receive (net.fromClient i)
        let s' := { s with fromClient := Function.update s.fromClient i connection }
        match received with
        | none => some { s' with pool := s'.pool.returnClientDataReceiverThread i }
        | some m =>
          let message : Message := ⟨m.type, m.data⟩
          let reception := receiveFromClient s.dispatcher.workerList.getWorkerCount
            s.dispatcher.queue clientSocket slot.clientId message
          let s'' := { s' with dispatcher := { s'.dispatcher with queue := reception.queue } }
          if reception.entered then
            some { s'' with
              entered := s''.entered ++ (requestOf message).toList.map fun request =>
                ⟨i, slot.clientId, clientSocket, request⟩ }
          else some (s''.sendToClient net clientSocket reception.error)

/-- The dispatcher takes a request, when it holds none. -/
def takeRequestStep (s : Service) : Option Service :=
  match s.dispatcher.request with
  | some _ => none
  | none =>
    match takeClientRequestQueue s.dispatcher.queue ClientRequest.zero with
    | (none, _) => none
    | (some request, queue) =>
      some { s with
        dispatcher := { s.dispatcher with queue := queue, request := some request } }

/-- The dispatcher passes the request on that it holds. -/
def dispatchStep (net : Network) (s : Service) : Option Service :=
  match s.dispatcher.request with
  | none => none
  | some request =>
    some { s with dispatcher := dispatchHeld net.toWorker s.dispatcher request }

/-- The worker's `ReceiverThread`, on one message. -/
def workerStep (net : Network) (s : Service) : Option Service :=
  let wire := s.dispatcher.wires s.workerSocket
  if wire.wire = [] then none
  else
    match protocolReceive net.atWorker maxMessageSize ⟨s.workerReceives, wire.wire⟩ with
    | (_, side, some m) =>
      match handleMessage s.table ⟨m.type, m.data⟩ true with
      | .accept (table, response) =>
        some { s with
          dispatcher := { s.dispatcher with
            wires := Function.update s.dispatcher.wires s.workerSocket
              { wire with wire := side.stream } }
          workerReceives := side.calls
          table := table
          fromWorker := match response with
            | some message => (s.fromWorker.send net.fromWorker message).2
            | none => s.fromWorker }
      | _ => none
    | _ => none

/-- `WorkerDataReceiverThread`, on one message. -/
def workerReceiverStep (net : Network) (s : Service) : Option Service :=
  if s.fromWorker.bytes = [] then none
  else
    match s.fromWorker.receive net.fromWorker with
    | (_, connection, some m) =>
      let reception := receiveFromWorker s.responses s.workerSocket s.workerId ⟨m.type, m.data⟩
      some { s with
        fromWorker := connection
        responses := reception.queue
        dispatcher := { s.dispatcher with
          wires := (sendMessage net.toWorker s.dispatcher.wires (some s.workerSocket)
            reception.error).2 } }
    | _ => none

/-- The response dispatcher takes a response, when it holds none. -/
def takeResponseStep (s : Service) : Option Service :=
  match s.response with
  | some _ => none
  | none =>
    match takeWorkerResponseQueue s.responses WorkerResponse.zero with
    | (none, _) => none
    | (some response, queue) => some { s with responses := queue, response := some response }

/-- The response dispatcher answers the client of the response it holds. A
lookup that finds nothing leaves `clientSocket` as it was. -/
def replyStep (net : Network) (s : Service) : Option Service :=
  match s.response with
  | none => none
  | some response =>
    let clientSocket :=
      (s.pool.getClientSocketByClientId response.clientId).getD s.clientSocket
    match clientSocket with
    | none => some { s with response := none, clientSocket := none }
    | some socket =>
      some { s.sendToClient net socket (responseMessage response) with
        response := none
        clientSocket := some socket }

/-- One step of the service. -/
def step (net : Network) (s : Service) : Label → Option Service
  | .connect clientSocket => some (s.connectStep clientSocket)
  | .clientSend i request => s.clientSendStep net i request
  | .clientReceiver i => s.clientReceiverStep net i
  | .takeRequest => s.takeRequestStep
  | .dispatch => s.dispatchStep net
  | .worker => s.workerStep net
  | .workerReceiver => s.workerReceiverStep net
  | .takeResponse => s.takeResponseStep
  | .reply => s.replyStep net

/-- The worker list after one worker has connected and announced itself. -/
def registered (worker : NewWorker) : WorkerList :=
  ((initializeWorkerList.addWorker worker true).2.setWorkerReady worker.workerId).2

/-- The service with its worker registered and before the first client,
over whatever the slots of the queues hold. -/
def start (workerSocket : Socket) (workerId : Int32) (address : CString) (peerPort : Int32)
    (requestSlots : Nat → ClientRequest) (responseSlots : Nat → WorkerResponse) : Service where
  pool := ClientThreadPool.initializePool
  nextClientId := 1
  fromClient := fun _ => Connection.new
  dispatcher :=
    { queue := initializeClientRequestQueue requestSlots
      workerList := registered ⟨some workerSocket, workerId, address, peerPort⟩
      wires := fun _ => ⟨0, []⟩
      request := none
      worker := none }
  workerSocket := workerSocket
  workerId := workerId
  workerReceives := 0
  table := initializeHashTable
  fromWorker := Connection.new
  responses := initializeWorkerResponseQueue responseSlots
  response := none
  clientSocket := none
  toClients := fun _ => ⟨0, []⟩
  sent := fun _ => []
  entered := []
  replies := []

end Service

end LoadBalancing.Pipeline
