/-
LoadBalancing.Pipeline.Fleet — the whole service with any number of
workers, and with failures.

The messages of a request and of its answer go through the same places as
in `Pipeline.Service`, but there are many workers, with the threads and
connections of `Worker.Cluster`, and everything that can fail may fail:
clients come and go and send what they like, allocations and sends fail,
queues are full, connections break with messages on them, and the registry
changes at will. Workers end, and sockets are given out again.

A message is the unit on every connection, and a call on a queue is one
step. The code does not see to it that frames arrive whole: a send that
fails may have sent a part of its frame on a connection that stays in use
(`LoadBalancer.SendFailures`), and two threads may send on one connection
in turns (`LoadBalancer.FrameAtomicity`, `Worker.PeerFrames`). Behind that a
reader takes other messages off the connection. The step for it is `garble`,
which puts any messages there, and the results are about runs without it
(`Label.framed`), in which a send delivers its message or nothing.

`endWorker` is the end of a worker, whatever brings it about: the end of its
connection to the load balancer, a receive that fails, a `SHUTDOWN`, a
crash. What a worker still does in between is done before this step, and a
connection to the load balancer is only lost behind it.

`announce` is a `WORKER_ENTRY` of the registration, whatever it says;
`connected` says whether an `AddPeer` comes to a connection.

Four fields are logs: the messages clients have sent, the requests that have
entered the client request queue, the keys each receiver thread of a worker
has stored, and what clients have been sent.

Out of scope: a shutdown of the load balancer, and what a client reads.
-/
import LoadBalancing.Pipeline.Service
import LoadBalancing.Worker.Cluster

namespace LoadBalancing.Pipeline.Fleet

open LoadBalancing.Base LoadBalancing.Lib LoadBalancing.LoadBalancer LoadBalancing.Worker

/-! ## State -/

/-- Who is who: the worker at the other end of a socket of the load
balancer, the socket and the announced id of a worker, and the worker with
an id. -/
structure Wiring where
  workerOn : Socket → Option Nat
  workerSocket : Nat → Socket
  workerId : Nat → Int32
  workerWithId : Int32 → Option Nat

/-- A message to a client, for the client id it is for. -/
structure Delivery where
  clientId : Int32
  clientSocket : Socket
  message : Message
  deriving DecidableEq

/-- The load balancer, its connections, and the workers. `replying` is the
reply that a worker's receiver thread sends behind its broadcast; `stopped`
says which workers have ended. -/
structure State where
  net : Wiring
  pool : ClientThreadPool
  nextClientId : Int32
  fromClient : Nat → List Message
  queue : ClientRequestQueue
  workerList : WorkerList
  request : Option ClientRequest
  worker : Option WorkerNode
  toWorker : Nat → List Message
  cluster : Cluster
  stopped : Nat → Bool
  replying : Nat → List Message
  fromWorker : Nat → List Message
  responses : WorkerResponseQueue
  response : Option WorkerResponse
  clientSocket : Option Socket
  sent : List Message
  entered : List ClientRequest
  stored : List (Nat × CString)
  toClients : List Delivery

/-- A connection that messages are read off. -/
inductive Wire where
  | fromClient (i : Nat)
  | toWorker (w : Nat)
  | fromWorker (w : Nat)
  | peers (c : Nat × Nat)
  deriving DecidableEq

/-- One step, with what the environment answers. -/
inductive Label where
  | connect (clientSocket : Socket) (start : ThreadStart)
  | disconnect (i : Nat)
  | clientSend (i : Nat) (message : Message)
  | clientReceiver (i : Nat)
  | changeWorkers (list : WorkerList)
  | rewire (net : Wiring)
  | announce (w : Nat) (message : Message)
  | takeRequest
  | pickWorker
  | dispatch (sendResult : Int)
  | worker (w : Nat) (allocated connected : Bool)
  | respond (w : Nat) (sendResult : Int)
  | work (l : Worker.Label)
  | notifyFails (w : Nat)
  | exportFails (w : Nat)
  | breakPeers (c : Nat × Nat)
  | endWorker (w : Nat)
  | breakFromWorker (w : Nat)
  | workerReceiver (w : Nat)
  | takeResponse
  | reply (sendResult : Int)
  | garble (wire : Wire) (messages : List Message)

/-- Frames arrive whole. -/
def Label.framed : Label → Bool
  | .garble .. => false
  | _ => true

/-- The worker whose thread takes a step. -/
def workerOf : Worker.Label → Nat
  | .receive w _ | .notify w | .accept w | .read w _ | .hangUp w | .storePeerData w _
  | .runExport w => w

/-- The workers without one: its table and its threads are gone, and its
sockets closed. -/
def endNode (c : Cluster) (w : Nat) : Cluster :=
  { c.setNode w Node.fresh with ended := fun p => c.ended p || p.1 == w }

/-- The workers with a connection between two of them broken. -/
def breakChannel (c : Cluster) (pair : Nat × Nat) : Cluster :=
  { c.setChannel pair [] with ended := fun p => c.ended p || p == pair }

/-- What the log says of a call of `SetHashTable` with this result. -/
def storedKey (w : Nat) (key : CString) (result : Int) : List (Nat × CString) :=
  if result = 1 then [(w, key)] else []

namespace State

/-- A worker that has not ended. -/
def Running (s : State) (w : Nat) : Prop := w < s.cluster.size ∧ s.stopped w = false

instance decidableRunning (s : State) (w : Nat) : Decidable (s.Running w) :=
  inferInstanceAs (Decidable (_ ∧ _))

/-! ## Clients -/

/-- The listener accepts a client. -/
def connectStep (s : State) (clientSocket : Socket) (start : ThreadStart) : State :=
  let (pool, nextClientId) := s.pool.acceptClient s.nextClientId clientSocket start
  { s with pool := pool, nextClientId := nextClientId }

/-- A client's receiver thread ends, and with it the connection. -/
def disconnectStep (s : State) (i : Nat) : Option State :=
  match s.pool.slots[i]? with
  | some slot =>
    if slot.hasThread then
      some { s with
        pool := s.pool.returnClientDataReceiverThread i
        fromClient := Function.update s.fromClient i [] }
    else none
  | none => none

/-- The client of a slot sends a message, well formed or not. -/
def clientSendStep (s : State) (i : Nat) (message : Message) : Option State :=
  match s.pool.slots[i]? with
  | some slot =>
    if slot.hasThread then
      some { s with
        fromClient := Function.update s.fromClient i (s.fromClient i ++ [message])
        sent := s.sent ++ [message] }
    else none
  | none => none

/-- The request a receiver thread makes of a message. -/
def clientRequest (clientSocket : Socket) (clientId : Int32) (message : Message) :
    ClientRequest :=
  { Payload.ofMessage message.type message.payload with
    clientSocket := some clientSocket
    clientId := clientId }

/-- An error of a receiver thread, which nobody checks for success. -/
def sendToClient (s : State) (clientId : Int32) (clientSocket : Socket)
    (message : Option Message) : State :=
  { s with
    toClients := s.toClients ++ message.toList.map fun m => ⟨clientId, clientSocket, m⟩ }

/-- `ClientDataReceiverThread` of a slot, on one message. -/
def clientReceiverStep (s : State) (i : Nat) : Option State :=
  match s.pool.slots[i]?, s.fromClient i with
  | some slot, message :: rest =>
    match slot.hasThread, slot.clientSocket with
    | true, some clientSocket =>
      let reception := receiveFromClient s.workerList.getWorkerCount s.queue clientSocket
        slot.clientId message
      let s' := { s with
        fromClient := Function.update s.fromClient i rest
        queue := reception.queue }
      if reception.entered then
        some { s' with
          entered := s.entered ++ [clientRequest clientSocket slot.clientId message] }
      else some (s'.sendToClient slot.clientId clientSocket reception.error)
    | _, _ => none
  | _, _ => none

/-! ## The request dispatcher -/

/-- The dispatcher takes a request, when it holds none. -/
def takeRequestStep (s : State) : Option State :=
  match s.request with
  | some _ => none
  | none =>
    let (taken, queue) := takeClientRequestQueue s.queue ClientRequest.zero
    some { s with queue := queue, request := taken }

/-- It gets a worker, when it holds a request and no worker. -/
def pickWorkerStep (s : State) : Option State :=
  match s.request, s.worker with
  | some _, none =>
    match s.workerList.getNextWorker with
    | none => some s
    | some (worker, list) => some { s with workerList := list, worker := some worker }
  | _, _ => none

/-- A message goes to the worker at the other end of a socket. -/
def putToWorker (s : State) (w : Option Nat) (message : Message) : State :=
  w.elim s fun w =>
    if s.Running w then
      { s with toWorker := Function.update s.toWorker w (s.toWorker w ++ [message]) }
    else s

/-- The request goes back to the queue, if there is room, and is cleared. -/
def giveBack (s : State) (request : ClientRequest) : State :=
  { s with
    queue := (returnClientRequestQueue s.queue request).2
    request := none
    worker := none }

/-- `hasRequest && hasWorker`, with the result of the send: -1 for a message
the encoder refuses. -/
def dispatchStep (s : State) (sendResult : Int) : Option State :=
  match s.request, s.worker with
  | some request, some worker =>
    match LoadBalancer.translate request with
    | .unparsed => some { s with request := none }
    | .unsupported => some s
    | .encoded none => some (s.giveBack request)
    | .encoded (some message) =>
      if 0 < sendResult then
        some ({ s with request := none, worker := none }.putToWorker
          (worker.workerSocket.bind s.net.workerOn) message)
      else if sendResult = -2 ∨ sendResult = -3 then
        some { s.giveBack request with
          workerList := (s.workerList.removeWorker worker.workerId).2 }
      else some (s.giveBack request)
  | _, _ => none

/-! ## Workers -/

/-- What the receiver thread of a worker does with a message that stores and
retrieves nothing: for an entry it connects, if it can, and queues the
export. -/
def receiveOther (s : State) (w : Nat) (message : Message) (connected : Bool) : Cluster :=
  match MessageType.ofValue? message.type with
  | some .workerEntry =>
    match receiveWorkerEntry message.payload with
    | .accept (workerId, _, _, shouldExportData) =>
      (s.net.workerWithId workerId.toInt32).elim s.cluster fun peer =>
        let cluster := if connected then s.cluster.addPeer w peer else s.cluster
        if shouldExportData != 0 then cluster.addExportRequest w peer else cluster
    | _ => s.cluster
  | _ => s.cluster

/-- `ReceiverThread` of a worker, on one message of the load balancer. It
stands in front of its socket, and a bucket that the export holds blocks
it. -/
def workerStep (d : Worker.Delivery) (s : State) (w : Nat) (allocated connected : Bool) :
    Option State :=
  match s.toWorker w with
  | [] => none
  | message :: rest =>
    if s.Running w ∧ (s.cluster.node w).receiver = .idle ∧ s.replying w = [] then
      let s' := { s with toWorker := Function.update s.toWorker w rest }
      match MessageType.ofValue? message.type with
      | some .storeRequest =>
        match storeRequest? message.payload with
        | none => some s'
        | some request =>
          let result := (setHashTable (s.cluster.node w).table request.key request.value
            allocated).1
          (Cluster.step d s.cluster (.receive w (.storeRequest message.payload allocated))).map
            fun cluster => { s' with
              cluster := cluster
              stored := s.stored ++ storedKey w request.key result
              replying := Function.update s.replying w (storeResponse request result).toList }
      | some .retrieveRequest =>
        match retrieveRequest? message.payload with
        | none => some s'
        | some request =>
          if (s.cluster.node w).locked request.key then none
          else
            match getHashTable (s.cluster.node w).table request.key allocated with
            | .accept value =>
              some { s' with
                replying := Function.update s.replying w
                  (retrieveResponse request value).toList }
            | .reject =>
              some { s' with
                replying := Function.update s.replying w (retrieveResponse request none).toList }
            | .fault => none
      | _ => some { s' with cluster := s.receiveOther w message connected }
    else none

/-- Behind its broadcast the receiver thread sends the reply. -/
def respondStep (s : State) (w : Nat) (sendResult : Int) : Option State :=
  match s.replying w with
  | [] => none
  | message :: rest =>
    if s.Running w ∧ (s.cluster.node w).receiver = .idle then
      let s' := { s with replying := Function.update s.replying w rest }
      if 0 < sendResult then
        some { s' with
          fromWorker := Function.update s.fromWorker w (s.fromWorker w ++ [message]) }
      else some s'
    else none

/-- A `SendPeerNotify` fails: the peer is to be removed. -/
def notifyFailsStep (s : State) (w : Nat) : Option State :=
  match (s.cluster.node w).receiver with
  | .notifying key value (peer :: todo) removed =>
    some { s with cluster := s.cluster.setNode w { s.cluster.node w with
      receiver := .notifying key value todo (removed ++ [peer]) } }
  | _ => none

/-- A send of the export thread fails, which ends the export. -/
def exportFailsStep (s : State) (w : Nat) : State :=
  { s with cluster := s.cluster.setExporter w .idle }

/-- A worker ends. What it has sent can still be read. -/
def endWorkerStep (s : State) (w : Nat) : Option State :=
  if s.Running w then
    some { s with
      toWorker := Function.update s.toWorker w []
      cluster := endNode s.cluster w
      stopped := Function.update s.stopped w true
      replying := Function.update s.replying w [] }
  else none

/-- Unless the connection is lost. -/
def breakFromWorkerStep (s : State) (w : Nat) : Option State :=
  if s.stopped w then some { s with fromWorker := Function.update s.fromWorker w [] } else none

/-- `WorkerDataReceiverThread`, on one message. -/
def workerReceiverStep (s : State) (w : Nat) : Option State :=
  match s.fromWorker w with
  | [] => none
  | message :: rest =>
    if w < s.cluster.size then
      let reception := receiveFromWorker s.responses (s.net.workerSocket w) (s.net.workerId w)
        message
      let s' := { s with
        fromWorker := Function.update s.fromWorker w rest
        responses := reception.queue }
      match reception.error with
      | some error => some (s'.putToWorker (some w) error)
      | none => some s'
    else none

/-! ## The response dispatcher -/

/-- The response dispatcher takes a response, when it holds none. -/
def takeResponseStep (s : State) : Option State :=
  match s.response with
  | some _ => none
  | none =>
    let (taken, queue) := takeWorkerResponseQueue s.responses WorkerResponse.zero
    some { s with responses := queue, response := taken }

/-- It answers the client of the response it holds. A lookup that finds
nothing leaves `clientSocket` as it was. -/
def replyStep (s : State) (sendResult : Int) : Option State :=
  match s.response with
  | none => none
  | some response =>
    let clientSocket := (s.pool.getClientSocketByClientId response.clientId).getD s.clientSocket
    let s' := { s with response := none, clientSocket := clientSocket }
    match clientSocket with
    | none => some s'
    | some socket =>
      if 0 < sendResult then
        some (s'.sendToClient response.clientId socket (responseMessage response))
      else some s'

/-! ## Pieces of frames -/

/-- A reader takes other messages off a connection than were sent on it. -/
def garbleStep (s : State) (messages : List Message) : Wire → State
  | .fromClient i => { s with fromClient := Function.update s.fromClient i messages }
  | .toWorker w => { s with toWorker := Function.update s.toWorker w messages }
  | .fromWorker w => { s with fromWorker := Function.update s.fromWorker w messages }
  | .peers c => { s with cluster := s.cluster.setChannel c messages }

end State

/-! ## Steps -/

/-- One step. -/
def step (d : Worker.Delivery) (s : State) : Label → Option State
  | .connect clientSocket start => some (s.connectStep clientSocket start)
  | .disconnect i => s.disconnectStep i
  | .clientSend i message => s.clientSendStep i message
  | .clientReceiver i => s.clientReceiverStep i
  | .changeWorkers list => some { s with workerList := list }
  | .rewire net => some { s with net := net }
  | .announce w message =>
    if message.type = MessageType.workerEntry.value then
      some (s.putToWorker (some w) message)
    else none
  | .takeRequest => s.takeRequestStep
  | .pickWorker => s.pickWorkerStep
  | .dispatch sendResult => s.dispatchStep sendResult
  | .worker w allocated connected => s.workerStep d w allocated connected
  | .respond w sendResult => s.respondStep w sendResult
  | .work (.receive _ _) => none
  | .work l =>
    if s.Running (workerOf l) then
      (Cluster.step d s.cluster l).map fun cluster => { s with cluster := cluster }
    else none
  | .notifyFails w => s.notifyFailsStep w
  | .exportFails w => some (s.exportFailsStep w)
  | .breakPeers c => some { s with cluster := breakChannel s.cluster c }
  | .endWorker w => s.endWorkerStep w
  | .breakFromWorker w => s.breakFromWorkerStep w
  | .workerReceiver w => s.workerReceiverStep w
  | .takeResponse => s.takeResponseStep
  | .reply sendResult => s.replyStep sendResult
  | .garble wire messages => some (s.garbleStep messages wire)

/-- `n` workers before the first client, over whatever the slots of the
queues hold. -/
def start (n : Nat) (net : Wiring) (requestSlots : Nat → ClientRequest)
    (responseSlots : Nat → WorkerResponse) : State where
  net := net
  pool := ClientThreadPool.initializePool
  nextClientId := 1
  fromClient := fun _ => []
  queue := initializeClientRequestQueue requestSlots
  workerList := initializeWorkerList
  request := none
  worker := none
  toWorker := fun _ => []
  cluster := Cluster.start n
  stopped := fun _ => false
  replying := fun _ => []
  fromWorker := fun _ => []
  responses := initializeWorkerResponseQueue responseSlots
  response := none
  clientSocket := none
  sent := []
  entered := []
  stored := []
  toClients := []

end LoadBalancing.Pipeline.Fleet
