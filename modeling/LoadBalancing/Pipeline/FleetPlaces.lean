/-
LoadBalancing.Pipeline.FleetPlaces — where a request and its answer can be
in the fleet.

A request is in the client request queue, with the dispatcher or on its
way to a worker, and its answer with the worker's receiver thread, on its
way back, in the response queue, with the response dispatcher or sent to a
client. `State.items` has them all. `Next` is a hop from one place to the
next one, `Lost` says why one is lost, and `step_transfer` that a step with
whole frames is a hop, loses some of them, or lets one in.

No `sorry`, no `axiom`, no `native_decide`.
-/
import LoadBalancing.Base.Places
import LoadBalancing.Pipeline.Fleet
import LoadBalancing.Worker.PeerConnections
import Mathlib.Tactic.Abel

namespace LoadBalancing.Pipeline.Fleet

open LoadBalancing.Base LoadBalancing.Lib LoadBalancing.LoadBalancer LoadBalancing.Worker

/-! ## Items -/

/-- A message in one of the places. -/
inductive Item where
  | request (request : ClientRequest)
  | toWorker (w : Nat) (message : Message)
  | replying (w : Nat) (message : Message)
  | fromWorker (w : Nat) (message : Message)
  | response (response : WorkerResponse)
  | delivered (delivery : Delivery)

/-- All of them. -/
def State.items (s : State) : Multiset Item :=
  pile Item.request s.queue.contents + pile Item.request s.request.toList +
    gather s.cluster.size Item.toWorker s.toWorker +
    gather s.cluster.size Item.replying s.replying +
    gather s.cluster.size Item.fromWorker s.fromWorker +
    pile Item.response s.responses.contents + pile Item.response s.response.toList +
    pile Item.delivered s.toClients

/-- The message of a client's request. -/
def requestMessage (request : ClientRequest) : Message := ⟨request.messageType, request.content⟩

/-- The message of a worker's response. -/
def workerMessage (response : WorkerResponse) : Message :=
  ⟨response.messageType, response.content⟩

/-- The client id in a response of a worker. -/
def responseClientId (message : Message) : Option UInt32 :=
  match MessageType.ofValue? message.type with
  | some .storeResponse =>
    match receiveStoreResponse message.payload with
    | .accept (_, clientId, _) => some clientId
    | _ => none
  | some .retrieveResponse =>
    match receiveRetrieveResponse message.payload with
    | .accept (_, clientId, _, _) => some clientId
    | _ => none
  | _ => none

/-- A hop of a step from `s` to `t`: what becomes of an item. -/
inductive Next (s t : State) : Item → Item → Prop
  | copied {request copy : ClientRequest} (hsame : copy.Same request) :
      Next s t (.request request) (.request copy)
  | dispatched {request : ClientRequest} {message : Message} {w : Nat} (hw : s.stopped w = false)
      (htranslate : LoadBalancer.translate request = .encoded (some message)) :
      Next s t (.request request) (.toWorker w message)
  | stored {w : Nat} {message reply : Message} {request : StoreRequest} {allocated : Bool}
      (hw : s.stopped w = false)
      (htype : MessageType.ofValue? message.type = some .storeRequest)
      (hdecode : storeRequest? message.payload = some request)
      (hlog : t.stored = s.stored ++ storedKey w request.key
        (setHashTable (s.cluster.node w).table request.key request.value allocated).1)
      (hreply : storeResponse request (setHashTable (s.cluster.node w).table request.key
        request.value allocated).1 = some reply) :
      Next s t (.toWorker w message) (.replying w reply)
  | retrieved {w : Nat} {message reply : Message} {request : RetrieveRequest} {allocated : Bool}
      {value : Option CString} (hw : s.stopped w = false)
      (htype : MessageType.ofValue? message.type = some .retrieveRequest)
      (hdecode : retrieveRequest? message.payload = some request)
      (hget : value = none ∨
        getHashTable (s.cluster.node w).table request.key allocated = .accept value)
      (hreply : retrieveResponse request value = some reply) :
      Next s t (.toWorker w message) (.replying w reply)
  | responded (w : Nat) (message : Message) :
      Next s t (.replying w message) (.fromWorker w message)
  | received {w : Nat} {message : Message} {response : WorkerResponse} {clientId : UInt32}
      (hmessage : workerMessage response = message)
      (hclient : responseClientId message = some clientId)
      (hresponse : response.clientId = clientId.toInt32) :
      Next s t (.fromWorker w message) (.response response)
  | copiedResponse {response copy : WorkerResponse} (hsame : copy.Same response) :
      Next s t (.response response) (.response copy)
  | replied {response : WorkerResponse} {message : Message} (clientSocket : Socket)
      (hmessage : responseMessage response = some message) :
      Next s t (.response response) (.delivered ⟨response.clientId, clientSocket, message⟩)

/-- What comes in: a request that a client has sent and that enters the
queue, and messages that are neither a request nor an answer. -/
inductive New (s t : State) : Item → Prop
  | entered {request copy : ClientRequest} (hsame : copy.Same request)
      (haccepts : accepts request = true)
      (hsent : ∃ i, requestMessage request ∈ s.fromClient i)
      (hentered : t.entered = s.entered ++ [request]) : New s t (.request copy)
  | told {w : Nat} {message : Message} (hw : s.stopped w = false)
      (htype : message.type = MessageType.workerEntry.value ∨
        message.type = MessageType.error.value) : New s t (.toWorker w message)
  | refused {delivery : Delivery} (htype : delivery.message.type = MessageType.error.value) :
      New s t (.delivered delivery)

/-! ## What is lost -/

/-- What the receiver thread of a worker does with a message: the workers
behind it, the reply, and what is logged. -/
inductive WorkerTurn (d : Worker.Delivery) (s : State) (w : Nat) (message : Message) :
    Cluster → Option Message → List (Nat × CString) → Prop
  | dropped
      (hdrop : (MessageType.ofValue? message.type = some .storeRequest ∧
          storeRequest? message.payload = none) ∨
        (MessageType.ofValue? message.type = some .retrieveRequest ∧
          retrieveRequest? message.payload = none)) :
      WorkerTurn d s w message s.cluster none []
  | stored {request : StoreRequest} {allocated : Bool} {cluster : Cluster}
      (htype : MessageType.ofValue? message.type = some .storeRequest)
      (hdecode : storeRequest? message.payload = some request)
      (hstep : Cluster.step d s.cluster (.receive w (.storeRequest message.payload allocated))
        = some cluster) :
      WorkerTurn d s w message cluster
        (storeResponse request
          (setHashTable (s.cluster.node w).table request.key request.value allocated).1)
        (storedKey w request.key
          (setHashTable (s.cluster.node w).table request.key request.value allocated).1)
  | retrieved {request : RetrieveRequest} {allocated : Bool} {value : Option CString}
      (htype : MessageType.ofValue? message.type = some .retrieveRequest)
      (hdecode : retrieveRequest? message.payload = some request)
      (hget : value = none ∨
        getHashTable (s.cluster.node w).table request.key allocated = .accept value) :
      WorkerTurn d s w message s.cluster (retrieveResponse request value) []
  | other (connected : Bool)
      (hstore : MessageType.ofValue? message.type ≠ some .storeRequest)
      (hretrieve : MessageType.ofValue? message.type ≠ some .retrieveRequest) :
      WorkerTurn d s w message (s.receiveOther w message connected) none []

/-- Why an item is lost in a step from `s`. -/
inductive Lost (d : Worker.Delivery) (s : State) : Label → Item → Prop
  | unparsed {request : ClientRequest} (sendResult : Int)
      (htranslate : LoadBalancer.translate request = .unparsed) :
      Lost d s (.dispatch sendResult) (.request request)
  | noRoom {request : ClientRequest} {sendResult : Int} (hrequest : s.request = some request)
      (hback : sendResult ≤ 0 ∨ LoadBalancer.translate request = .encoded none)
      (hfull : (s.queue.enqueue request.copy).1 = 0) :
      Lost d s (.dispatch sendResult) (.request request)
  | noWorker (request : ClientRequest) {worker : WorkerNode} {sendResult : Int}
      (hworker : s.worker = some worker) (hsent : 0 < sendResult)
      (hnone : ∀ w, worker.workerSocket.bind s.net.workerOn = some w → ¬ s.Running w) :
      Lost d s (.dispatch sendResult) (.request request)
  | unanswered {w : Nat} {message : Message} {cluster : Cluster} (allocated connected : Bool)
      {log : List (Nat × CString)} (hturn : WorkerTurn d s w message cluster none log) :
      Lost d s (.worker w allocated connected) (.toWorker w message)
  | notResponded {w : Nat} (message : Message) {sendResult : Int} (hfails : sendResult ≤ 0) :
      Lost d s (.respond w sendResult) (.replying w message)
  | endedUnread {w : Nat} {message : Message} (hmem : message ∈ s.toWorker w) :
      Lost d s (.endWorker w) (.toWorker w message)
  | endedUnanswered {w : Nat} {message : Message} (hmem : message ∈ s.replying w) :
      Lost d s (.endWorker w) (.replying w message)
  | brokenFromWorker {w : Nat} {message : Message} (hmem : message ∈ s.fromWorker w) :
      Lost d s (.breakFromWorker w) (.fromWorker w message)
  | ignored {w : Nat} {message : Message} (hclient : responseClientId message = none) :
      Lost d s (.workerReceiver w) (.fromWorker w message)
  | refused (w : Nat) (message : Message) {response : WorkerResponse}
      (hfull : (s.responses.enqueue response.copy).1 = 0) :
      Lost d s (.workerReceiver w) (.fromWorker w message)
  | noClient {response : WorkerResponse} (sendResult : Int)
      (hresponse : s.response = some response)
      (hnone : (s.pool.getClientSocketByClientId response.clientId).join = none) :
      Lost d s (.reply sendResult) (.response response)
  | notReplied (response : WorkerResponse) {sendResult : Int} (hfails : sendResult ≤ 0) :
      Lost d s (.reply sendResult) (.response response)
  | unreadable {response : WorkerResponse} (sendResult : Int)
      (hnone : responseMessage response = none) :
      Lost d s (.reply sendResult) (.response response)

/-! ## What a message becomes -/

/-- Nothing, or an error. -/
def IsError (message : Option Message) : Prop :=
  ∀ m, message = some m → m.type = MessageType.error.value

theorem isError_none : IsError none := by
  intro m h
  cases h

theorem isError_sendError (code : UInt8) (text : Option CString) :
    IsError (sendError code text) := by
  intro m h
  cases h
  rfl

/-- A request is in the queue behind the others, or the client is told of
an error. -/
def Enters (queue : ClientRequestQueue) (request : ClientRequest) (reception : ClientReception) :
    Prop :=
  (reception.entered = true ∧
      ∃ slot, reception.queue.contents = queue.contents ++ [request.copy slot]) ∨
    (reception.entered = false ∧ reception.queue.contents = queue.contents ∧
      IsError reception.error)

theorem enters_refused {queue : ClientRequestQueue} {request : ClientRequest}
    {error : Option Message} (h : IsError error) : Enters queue request ⟨queue, false, error⟩ :=
  Or.inr ⟨rfl, rfl, h⟩

theorem enqueueRequest_enters (workerCount : Nat) (queue : ClientRequestQueue)
    {request : ClientRequest} (hsocket : request.clientSocket ≠ none) :
    Enters queue request (enqueueRequest workerCount queue request) := by
  unfold enqueueRequest
  split
  · exact enters_refused (isError_sendError _ _)
  · rw [putClientRequestQueue, if_neg hsocket]
    rcases queue.enqueue_cases request.copy with ⟨slot, b, hb, hcontents⟩ | ⟨b, hb, hcontents⟩
    · exact Or.inl ⟨by simp [hb], slot, by simp [hb, hcontents]⟩
    · refine Or.inr ⟨by simp [hb], by simp [hb, hcontents], ?_⟩
      simp only [hb, if_true]
      exact isError_sendError _ _

/-- A client's message, with the request it makes. -/
theorem receiveFromClient_enters (workerCount : Nat) (queue : ClientRequestQueue)
    (clientSocket : Socket) (clientId : Int32) (message : Message) :
    Enters queue (State.clientRequest clientSocket clientId message)
        (receiveFromClient workerCount queue clientSocket clientId message) ∧
      ((receiveFromClient workerCount queue clientSocket clientId message).entered = true →
        accepts (State.clientRequest clientSocket clientId message) = true) := by
  have hcontent : (State.clientRequest clientSocket clientId message).content = message.payload :=
    Payload.content_ofMessage _ _
  have hqueued : Enters queue (State.clientRequest clientSocket clientId message)
      (enqueueRequest workerCount queue (State.clientRequest clientSocket clientId message)) :=
    enqueueRequest_enters workerCount queue (by simp [State.clientRequest])
  have htype : (State.clientRequest clientSocket clientId message).messageType = message.type := rfl
  rw [accepts, hcontent, htype]
  unfold receiveFromClient
  cases htype : MessageType.ofValue? message.type with
  | none => exact ⟨enters_refused isError_none, fun h => by cases h⟩
  | some type =>
    cases type with
    | put =>
      cases receivePut message.payload with
      | accept fields => exact ⟨hqueued, fun _ => by simp⟩
      | reject | fault =>
        exact ⟨enters_refused (isError_sendError _ _), fun h => by cases h⟩
    | get =>
      cases receiveGet message.payload with
      | accept key => exact ⟨hqueued, fun _ => by simp⟩
      | reject | fault =>
        exact ⟨enters_refused (isError_sendError _ _), fun h => by cases h⟩
    | _ => exact ⟨enters_refused isError_none, fun h => by cases h⟩

/-- The response a receiver thread makes of a message with this client
id. -/
def workerResponse (workerSocket : Socket) (workerId : Int32) (message : Message)
    (clientId : UInt32) : WorkerResponse :=
  { Payload.ofMessage message.type message.payload with
    workerSocket := some workerSocket
    workerId := workerId
    clientId := clientId.toInt32 }

theorem workerMessage_workerResponse (workerSocket : Socket) (workerId : Int32)
    (message : Message) (clientId : UInt32) :
    workerMessage (workerResponse workerSocket workerId message clientId) = message :=
  congrArg (Message.mk message.type) (Payload.content_ofMessage _ _)

/-- A worker's message is put into the queue when it carries a client id. -/
theorem receiveFromWorker_eq (queue : WorkerResponseQueue) (workerSocket : Socket)
    (workerId : Int32) (message : Message) :
    receiveFromWorker queue workerSocket workerId message
      = match responseClientId message with
        | some clientId =>
          enqueueResponse queue (workerResponse workerSocket workerId message clientId)
        | none => ⟨queue, none⟩ := by
  unfold receiveFromWorker responseClientId
  cases MessageType.ofValue? message.type with
  | none => rfl
  | some type =>
    cases type with
    | storeResponse => cases receiveStoreResponse message.payload <;> rfl
    | retrieveResponse => cases receiveRetrieveResponse message.payload <;> rfl
    | _ => rfl

/-- A response is in the queue behind the others, or it is lost and the
worker told of an error. -/
theorem enqueueResponse_cases (queue : WorkerResponseQueue) {response : WorkerResponse}
    (hsocket : response.workerSocket ≠ none) :
    ((enqueueResponse queue response).error = none ∧
        ∃ slot, (enqueueResponse queue response).queue.contents
          = queue.contents ++ [response.copy slot]) ∨
      ((queue.enqueue response.copy).1 = 0 ∧
        (enqueueResponse queue response).queue.contents = queue.contents ∧
        IsError (enqueueResponse queue response).error) := by
  unfold enqueueResponse
  rw [putWorkerResponseQueue, if_neg hsocket]
  rcases queue.enqueue_cases response.copy with ⟨slot, b, hb, hcontents⟩ | ⟨b, hb, hcontents⟩
  · exact Or.inl ⟨by simp [hb], slot, by simp [hb, hcontents]⟩
  · refine Or.inr ⟨by rw [hb], by simp [hb, hcontents], ?_⟩
    simp only [hb, if_true]
    exact isError_sendError _ _

/-! ## What a step does to the items -/

section Steps

variable {d : Worker.Delivery} {s t : State} {l : Label}

/-- A client's receiver thread reads a message. The request in it enters the
queue, or the client may be told of an error. -/
theorem clientReceiver_cases {i : Nat} (h : s.clientReceiverStep i = some t) :
    ∃ message rest, s.fromClient i = message :: rest ∧
      t.fromClient = Function.update s.fromClient i rest ∧ t.sent = s.sent ∧
      ((∃ request copy, copy.Same request ∧ accepts request = true ∧
          requestMessage request = message ∧ t.entered = s.entered ++ [request] ∧
          t.items = .request copy ::ₘ s.items) ∨
        (t.entered = s.entered ∧ (t.items = s.items ∨
          ∃ delivery : Delivery, delivery.message.type = MessageType.error.value ∧
            t.items = .delivered delivery ::ₘ s.items))) := by
  unfold State.clientReceiverStep at h
  split at h
  · rename_i slot message rest hslot hfrom
    split at h
    · rename_i clientSocket hthread hsocket
      obtain ⟨henters, haccepts⟩ := receiveFromClient_enters s.workerList.getWorkerCount s.queue
        clientSocket slot.clientId message
      refine ⟨message, rest, hfrom, ?_⟩
      rcases henters with ⟨hentered, x, hcontents⟩ | ⟨hrefused, hcontents, herror⟩
      · -- the request enters
        simp only [hentered, if_true, Option.some.injEq] at h
        subst h
        refine ⟨rfl, rfl, Or.inl ⟨_, _, ClientRequest.same_copy _ x, haccepts hentered, ?_, rfl,
          ?_⟩⟩
        · exact congrArg (Message.mk message.type) (Payload.content_ofMessage _ _)
        · simp only [State.items, hcontents, pile_append, pile_cons, pile_nil,
            ← Multiset.singleton_add]
          abel
      · simp only [hrefused, Bool.false_eq_true, if_false, Option.some.injEq] at h
        subst h
        refine ⟨rfl, rfl, Or.inr ⟨rfl, ?_⟩⟩
        cases hmessage : (receiveFromClient s.workerList.getWorkerCount s.queue clientSocket
            slot.clientId message).error with
        | none =>
          refine Or.inl ?_
          simp [State.items, State.sendToClient, hcontents]
        | some m =>
          refine Or.inr ⟨⟨slot.clientId, clientSocket, m⟩, herror m hmessage, ?_⟩
          simp only [State.items, State.sendToClient, hcontents, Option.toList_some, List.map_cons,
            List.map_nil, pile_append, pile_cons, pile_nil,
            ← Multiset.singleton_add]
          abel
    · cases h
  · cases h

theorem transfer_clientReceiver {i : Nat} (h : s.clientReceiverStep i = some t) :
    Transfer (Next s t) (New s t) (Lost d s l) s.items t.items := by
  obtain ⟨message, rest, hfrom, -, -, ⟨request, copy, hsame, haccepts, rfl, hentered, hitems⟩ |
    ⟨-, hitems | ⟨delivery, htype, hitems⟩⟩⟩ := clientReceiver_cases h
  · exact .enter (.entered hsame haccepts ⟨i, by rw [hfrom]; exact List.mem_cons_self⟩ hentered)
      hitems
  · exact .still hitems
  · exact .enter (.refused htype) hitems

theorem transfer_takeRequest (h : s.takeRequestStep = some t) :
    Transfer (Next s t) (New s t) (Lost d s l) s.items t.items := by
  unfold State.takeRequestStep at h
  split at h
  · cases h
  · rename_i hrequest
    simp only [takeClientRequestQueue, Option.some.injEq] at h
    subst h
    rcases s.queue.dequeue_cases with ⟨x, b, hb, hcontents⟩ | ⟨b, hb, hcontents⟩
    · refine .pass { s with queue := b }.items
        (.copied (ClientRequest.same_copy x ClientRequest.zero)) ?_ ?_
      · simp only [State.items, hcontents, pile_cons, Multiset.cons_add]
      · simp only [State.items, hb, hrequest, Option.map_some, Option.toList_some,
          Option.toList_none, pile_cons, pile_nil, ← Multiset.singleton_add]
        abel
    · refine .still ?_
      simp [State.items, hb, hcontents, hrequest]

/-- The items besides the request in hand. -/
theorem items_request {request : ClientRequest} (hrequest : s.request = some request) :
    s.items = .request request ::ₘ { s with request := none }.items := by
  simp only [State.items, hrequest, Option.toList_some, Option.toList_none, pile_cons, pile_nil,
    ← Multiset.singleton_add]
  abel

theorem transfer_giveBack {request : ClientRequest} (hrequest : s.request = some request)
    (hlost : (s.queue.enqueue request.copy).1 = 0 → Lost d s l (.request request)) :
    Transfer (Next s t) (New s t) (Lost d s l) s.items (s.giveBack request).items := by
  rcases s.queue.enqueue_cases request.copy with ⟨slot, b, hb, hcontents⟩ | ⟨b, hb, hcontents⟩
  · refine .pass { s with request := none }.items
      (.copied (ClientRequest.same_copy request slot)) (items_request hrequest) ?_
    simp only [State.items, State.giveBack, returnClientRequestQueue, hb, hcontents, pile_append,
      pile_cons, pile_nil, ← Multiset.singleton_add]
    abel
  · refine .lose_one (hlost (by rw [hb])) ((items_request hrequest).trans ?_)
    simp only [State.items, State.giveBack, returnClientRequestQueue, hb, hcontents]

/-- What goes to a worker, if there is one. -/
theorem items_putToWorker (w : Option Nat) (message : Message) :
    ((∀ v, w = some v → ¬ s.Running v) ∧ (s.putToWorker w message).items = s.items) ∨
      ∃ v, s.stopped v = false ∧
        (s.putToWorker w message).items = .toWorker v message ::ₘ s.items := by
  unfold State.putToWorker
  cases w with
  | none => exact Or.inl ⟨fun v h => (by cases h), rfl⟩
  | some v =>
    rw [Option.elim_some]
    split
    · rename_i hv
      refine Or.inr ⟨v, hv.2, ?_⟩
      simp only [State.items, gather_append hv.1, ← Multiset.singleton_add]
      abel
    · rename_i hv
      refine Or.inl ⟨fun u h => ?_, rfl⟩
      cases h
      exact hv

theorem transfer_dispatch {sendResult : Int} (h : s.dispatchStep sendResult = some t) :
    Transfer (Next s t) (New s t) (Lost d s (.dispatch sendResult)) s.items t.items := by
  unfold State.dispatchStep at h
  split at h
  · rename_i request worker hrequest hworker
    split at h
    · rename_i htranslate
      cases h
      exact .lose_one (.unparsed sendResult htranslate) (items_request hrequest)
    · cases h
      exact .still rfl
    · rename_i htranslate
      cases h
      exact transfer_giveBack hrequest fun hfull => .noRoom hrequest (Or.inr htranslate) hfull
    · rename_i message htranslate
      split at h
      · rename_i hsent
        cases h
        rcases @items_putToWorker { s with request := none, worker := none }
          (worker.workerSocket.bind s.net.workerOn) message with ⟨hnone, hitems⟩ | ⟨w, hw, hitems⟩
        · refine .lose_one (.noWorker request hworker hsent hnone) ?_
          rw [hitems]
          exact items_request hrequest
        · exact .pass _ (.dispatched hw htranslate) (items_request hrequest) hitems
      · rename_i hfails
        have hback : (s.queue.enqueue request.copy).1 = 0 →
            Lost d s (.dispatch sendResult) (.request request) := fun hfull =>
          .noRoom hrequest (Or.inl (Int.not_lt.mp hfails)) hfull
        split at h
        · cases h
          exact transfer_giveBack hrequest hback
        · cases h
          exact transfer_giveBack hrequest hback
  · cases h

/-- The other steps of the workers leave the items alone. -/
theorem items_cluster {cluster : Cluster} (hsize : cluster.size = s.cluster.size) :
    { s with cluster := cluster }.items = s.items := by
  simp only [State.items, hsize]

theorem size_receiveOther (w : Nat) (message : Message) (connected : Bool) :
    (s.receiveOther w message connected).size = s.cluster.size := by
  have haddPeer : ∀ (c : Cluster) (v peer : Nat), (c.addPeer v peer).size = c.size := by
    intro c v peer
    unfold Cluster.addPeer
    split <;> rfl
  have haddExport : ∀ (c : Cluster) (v target : Nat),
      (c.addExportRequest v target).size = c.size := by
    intro c v target
    unfold Cluster.addExportRequest
    split <;> rfl
  unfold State.receiveOther
  split
  · split
    · rename_i workerId address port shouldExportData hreceive
      cases s.net.workerWithId workerId.toInt32 with
      | none => rfl
      | some peer =>
        cases connected <;> simp only [Option.elim_some] <;> split <;>
          simp [haddPeer, haddExport]
    · rfl
  · rfl

/-- A step of the receiver thread takes the oldest message and makes one of
the turns. -/
theorem workerStep_turn {d : Worker.Delivery} {w : Nat}
    {allocated connected : Bool} (h : s.workerStep d w allocated connected = some t) :
    ∃ message rest cluster reply log, s.toWorker w = message :: rest ∧ s.Running w ∧
      s.replying w = [] ∧ WorkerTurn d s w message cluster reply log ∧
      t = { s with
        toWorker := Function.update s.toWorker w rest
        cluster := cluster
        stored := s.stored ++ log
        replying := Function.update s.replying w reply.toList } := by
  unfold State.workerStep at h
  split at h
  · cases h
  · rename_i message rest hto
    split at h
    · rename_i hcond
      obtain ⟨hw, -, hnone⟩ := hcond
      have hsame : Function.update s.replying w (Option.toList none) = s.replying := by
        rw [Option.toList_none, ← hnone, Function.update_eq_self]
      refine ⟨message, rest, ?_⟩
      split at h
      · rename_i htype
        split at h
        · rename_i hdecode
          cases h
          exact ⟨_, none, [], hto, hw, hnone, .dropped (Or.inl ⟨htype, hdecode⟩),
            by rw [hsame, List.append_nil]⟩
        · rename_i request hdecode
          obtain ⟨cluster, hcluster, rfl⟩ := Option.map_eq_some_iff.mp h
          exact ⟨_, _, _, hto, hw, hnone, .stored htype hdecode hcluster, rfl⟩
      · rename_i htype
        split at h
        · rename_i hdecode
          cases h
          exact ⟨_, none, [], hto, hw, hnone, .dropped (Or.inr ⟨htype, hdecode⟩),
            by rw [hsame, List.append_nil]⟩
        · rename_i request hdecode
          split at h
          · cases h
          · split at h
            · rename_i value hget
              cases h
              exact ⟨_, _, [], hto, hw, hnone, .retrieved htype hdecode (Or.inr hget),
                by rw [List.append_nil]⟩
            · cases h
              exact ⟨_, _, [], hto, hw, hnone,
                @WorkerTurn.retrieved _ _ _ _ _ allocated _ htype hdecode (Or.inl rfl),
                by rw [List.append_nil]⟩
            · cases h
      · rename_i hstore hretrieve
        cases h
        exact ⟨_, none, [], hto, hw, hnone, .other connected hstore hretrieve,
          by rw [hsame, List.append_nil]⟩
    · cases h

theorem WorkerTurn.size_eq {d : Worker.Delivery} {w : Nat} {message : Message}
    {cluster : Cluster} {reply : Option Message} {log : List (Nat × CString)}
    (h : WorkerTurn d s w message cluster reply log) : cluster.size = s.cluster.size := by
  cases h with
  | dropped | retrieved => rfl
  | stored htype hdecode hstep => exact Cluster.size_move (Cluster.step_move hstep)
  | other connected hstore hretrieve => exact size_receiveOther w message connected

theorem transfer_worker {w : Nat} {allocated connected : Bool}
    (h : s.workerStep d w allocated connected = some t) :
    Transfer (Next s t) (New s t) (Lost d s (.worker w allocated connected)) s.items
      t.items := by
  obtain ⟨message, rest, cluster, reply, log, hto, hw, hnone, hturn, rfl⟩ := workerStep_turn h
  have htaken : s.items = .toWorker w message ::ₘ
      { s with toWorker := Function.update s.toWorker w rest }.items := by
    simp only [State.items, gather_tail hw.1 hto, ← Multiset.singleton_add]
    abel
  cases reply with
  | none =>
    refine .lose_one (.unanswered allocated connected hturn) ?_
    rw [Option.toList_none, ← hnone, Function.update_eq_self, htaken]
    simp only [State.items, hturn.size_eq]
  | some m =>
    have hreply : Next s { s with
        toWorker := Function.update s.toWorker w rest
        cluster := cluster
        stored := s.stored ++ log
        replying := Function.update s.replying w [m] } (.toWorker w message) (.replying w m) := by
      generalize hm : some m = reply at hturn
      cases hturn with
      | dropped | other => cases hm
      | stored htype hdecode hstep =>
        exact .stored hw.2 htype hdecode rfl hm.symm
      | retrieved htype hdecode hget => exact .retrieved hw.2 htype hdecode hget hm.symm
    have happend := gather_append hw.1 Item.replying s.replying m
    rw [hnone, List.nil_append] at happend
    refine .pass _ hreply htaken ?_
    simp only [State.items, hturn.size_eq, Option.toList_some, happend, ← Multiset.singleton_add]
    abel

theorem transfer_respond {w : Nat} {sendResult : Int} (h : s.respondStep w sendResult = some t) :
    Transfer (Next s t) (New s t) (Lost d s (.respond w sendResult)) s.items t.items := by
  unfold State.respondStep at h
  split at h
  · cases h
  · rename_i message rest hreplying
    split at h
    · rename_i hcond
      have htaken : s.items = .replying w message ::ₘ
          { s with replying := Function.update s.replying w rest }.items := by
        simp only [State.items, gather_tail hcond.1.1 hreplying, ← Multiset.singleton_add]
        abel
      split at h
      · cases h
        refine .pass _ (.responded w message) htaken ?_
        simp only [State.items, gather_append hcond.1.1, ← Multiset.singleton_add]
        abel
      · rename_i hfails
        cases h
        exact .lose_one (.notResponded message (Int.not_lt.mp hfails)) htaken
    · cases h

theorem transfer_workerReceiver {w : Nat} (h : s.workerReceiverStep w = some t) :
    Transfer (Next s t) (New s t) (Lost d s (.workerReceiver w)) s.items t.items := by
  unfold State.workerReceiverStep at h
  split at h
  · cases h
  · rename_i message rest hfrom
    split at h
    · rename_i hw
      have htaken : s.items = .fromWorker w message ::ₘ
          { s with fromWorker := Function.update s.fromWorker w rest }.items := by
        simp only [State.items, gather_tail hw hfrom, ← Multiset.singleton_add]
        abel
      rw [receiveFromWorker_eq] at h
      cases hclient : responseClientId message with
      | none =>
        simp only [hclient, Option.some.injEq] at h
        subst h
        exact .lose_one (.ignored hclient) htaken
      | some clientId =>
        simp only [hclient] at h
        obtain ⟨response, hresponse⟩ : ∃ response, response =
          workerResponse (s.net.workerSocket w) (s.net.workerId w) message clientId := ⟨_, rfl⟩
        rw [← hresponse] at h
        have hsocket : response.workerSocket ≠ none := by simp [hresponse, workerResponse]
        rcases enqueueResponse_cases s.responses hsocket with
          ⟨hnone, slot, hcontents⟩ | ⟨hfull, hcontents, herror⟩
        · rw [hnone] at h
          cases h
          obtain ⟨-, -, hid, htype, -, hcontent⟩ := WorkerResponse.same_copy response slot
          refine .pass _ (@Next.received s _ w message (response.copy slot) clientId ?_ hclient ?_)
            htaken ?_
          · rw [workerMessage, htype, hcontent, ← workerMessage, hresponse,
              workerMessage_workerResponse]
          · rw [hid, hresponse]
            rfl
          · simp only [State.items, hcontents, pile_append, pile_cons, pile_nil,
              ← Multiset.singleton_add]
            abel
        · -- the response is lost, and the worker may be told of it
          obtain ⟨lost, hlost⟩ : ∃ lost : State, lost = { s with
              fromWorker := Function.update s.fromWorker w rest
              responses := (enqueueResponse s.responses response).queue } := ⟨_, rfl⟩
          have hitems : s.items = .fromWorker w message ::ₘ lost.items := by
            rw [htaken]
            simp only [hlost, State.items, hcontents]
          rw [← hlost] at h
          cases hmessage : (enqueueResponse s.responses response).error with
          | none =>
            rw [hmessage] at h
            cases h
            exact .lose_one (.refused w message hfull) hitems
          | some error =>
            rw [hmessage] at h
            cases h
            rcases @items_putToWorker lost (some w) error with ⟨-, htold⟩ | ⟨v, hv, htold⟩
            · exact .lose_one (.refused w message hfull) (htold ▸ hitems)
            · have hrunning : s.stopped v = false := by
                rw [hlost] at hv
                exact hv
              exact .replace _ (.refused w message hfull)
                (.told hrunning (Or.inr (herror error hmessage))) hitems htold
    · cases h

theorem transfer_takeResponse (h : s.takeResponseStep = some t) :
    Transfer (Next s t) (New s t) (Lost d s l) s.items t.items := by
  unfold State.takeResponseStep at h
  split at h
  · cases h
  · rename_i hresponse
    simp only [takeWorkerResponseQueue, Option.some.injEq] at h
    subst h
    rcases s.responses.dequeue_cases with ⟨x, b, hb, hcontents⟩ | ⟨b, hb, hcontents⟩
    · refine .pass { s with responses := b }.items
        (.copiedResponse (WorkerResponse.same_copy x WorkerResponse.zero)) ?_ ?_
      · simp only [State.items, hcontents, pile_cons, ← Multiset.singleton_add]
        abel
      · simp only [State.items, hb, hresponse, Option.map_some, Option.toList_some,
          Option.toList_none, pile_cons, pile_nil, ← Multiset.singleton_add]
        abel
    · refine .still ?_
      simp [State.items, hb, hcontents, hresponse]

theorem transfer_reply {sendResult : Int} (h : s.replyStep sendResult = some t) :
    Transfer (Next s t) (New s t) (Lost d s (.reply sendResult)) s.items t.items := by
  unfold State.replyStep at h
  split at h
  · cases h
  · rename_i response hresponse
    have htaken : s.items = .response response ::ₘ { s with response := none }.items := by
      simp only [State.items, hresponse, Option.toList_some, Option.toList_none, pile_cons,
        pile_nil, ← Multiset.singleton_add]
      abel
    cases hsocket : (s.pool.getClientSocketByClientId response.clientId).getD s.clientSocket with
    | none =>
      simp only [hsocket, Option.some.injEq] at h
      subst h
      have hnone : (s.pool.getClientSocketByClientId response.clientId).join = none := by
        cases hfound : s.pool.getClientSocketByClientId response.clientId with
        | none => rfl
        | some clientSocket =>
          rw [hfound] at hsocket
          exact hsocket
      exact .lose_one (.noClient sendResult hresponse hnone) htaken
    | some clientSocket =>
      simp only [hsocket] at h
      split at h
      · cases h
        cases hmessage : responseMessage response with
        | none =>
          refine .lose_one (.unreadable sendResult hmessage) (htaken.trans ?_)
          simp [State.items, State.sendToClient]
        | some message =>
          refine .pass _ (.replied clientSocket hmessage) htaken ?_
          simp only [State.items, State.sendToClient, Option.toList_some, List.map_cons,
            List.map_nil, pile_append, pile_cons, pile_nil, ← Multiset.singleton_add]
          abel
      · rename_i hfails
        cases h
        exact .lose_one (.notReplied response (Int.not_lt.mp hfails)) htaken

/-- With a worker goes what it has not read and not answered. -/
theorem items_endWorker {w : Nat} (h : s.endWorkerStep w = some t) :
    ∃ lost, (∀ x ∈ lost, Lost d s (.endWorker w) x) ∧ s.items = lost + t.items := by
  unfold State.endWorkerStep at h
  split at h
  · cases h
    obtain ⟨unread, hunread, hsplit⟩ := gather_clear s.cluster.size w Item.toWorker s.toWorker
    obtain ⟨unanswered, hunanswered, hsplit'⟩ :=
      gather_clear s.cluster.size w Item.replying s.replying
    refine ⟨unread + unanswered, fun x hx => ?_, ?_⟩
    · rcases Multiset.mem_add.mp hx with hx | hx
      · obtain ⟨message, hmem, rfl⟩ := mem_pile.mp (Multiset.mem_of_le hunread hx)
        exact .endedUnread hmem
      · obtain ⟨message, hmem, rfl⟩ := mem_pile.mp (Multiset.mem_of_le hunanswered hx)
        exact .endedUnanswered hmem
    · simp only [State.items, hsplit, hsplit', endNode, Cluster.setNode]
      abel
  · cases h

theorem transfer_breakFromWorker {w : Nat} (h : s.breakFromWorkerStep w = some t) :
    Transfer (Next s t) (New s t) (Lost d s (.breakFromWorker w)) s.items t.items := by
  unfold State.breakFromWorkerStep at h
  split at h
  · cases h
    obtain ⟨lost, hle, hsplit⟩ := gather_clear s.cluster.size w Item.fromWorker s.fromWorker
    refine .lose lost (fun x hx => ?_) ?_
    · obtain ⟨message, hmem, rfl⟩ := mem_pile.mp (Multiset.mem_of_le hle hx)
      exact .brokenFromWorker hmem
    · simp only [State.items, hsplit]
      abel
  · cases h

/-- **A step moves the items.** With whole frames it is a hop of one of them,
loses some for a reason, or lets one in. -/
theorem step_transfer (hl : l.framed) (h : step d s l = some t) :
    Transfer (Next s t) (New s t) (Lost d s l) s.items t.items := by
  cases l with
  | connect clientSocket start =>
    cases h
    exact .still rfl
  | disconnect i =>
    simp only [step, State.disconnectStep] at h
    split at h
    · split at h
      · cases h
        exact .still rfl
      · cases h
    · cases h
  | clientSend i message =>
    simp only [step, State.clientSendStep] at h
    split at h
    · split at h
      · cases h
        exact .still rfl
      · cases h
    · cases h
  | clientReceiver i => exact transfer_clientReceiver h
  | changeWorkers | rewire =>
    cases h
    exact .still rfl
  | announce w message =>
    simp only [step] at h
    split at h
    · rename_i htype
      cases h
      rcases items_putToWorker (some w) message with ⟨-, hitems⟩ | ⟨v, hv, hitems⟩
      · exact .still hitems
      · exact .enter (.told hv (Or.inl htype)) hitems
    · cases h
  | takeRequest => exact transfer_takeRequest h
  | pickWorker =>
    simp only [step, State.pickWorkerStep] at h
    split at h
    · split at h
      · cases h
        exact .still rfl
      · cases h
        exact .still rfl
    · cases h
  | dispatch sendResult => exact transfer_dispatch h
  | worker w allocated connected => exact transfer_worker h
  | respond w sendResult => exact transfer_respond h
  | work l =>
    cases l with
    | receive => cases h
    | notify | accept | read | hangUp | storePeerData | runExport =>
      simp only [step] at h
      split at h
      · obtain ⟨cluster, hcluster, rfl⟩ := Option.map_eq_some_iff.mp h
        exact .still (items_cluster (Cluster.size_move (Cluster.step_move hcluster)))
      · cases h
  | notifyFails w =>
    simp only [step, State.notifyFailsStep] at h
    split at h
    · cases h
      exact .still (items_cluster rfl)
    · cases h
  | exportFails w =>
    cases h
    exact .still (items_cluster rfl)
  | breakPeers c =>
    cases h
    exact .still (items_cluster rfl)
  | endWorker w =>
    obtain ⟨lost, hlost, hitems⟩ := items_endWorker h
    exact .lose lost hlost hitems
  | breakFromWorker w => exact transfer_breakFromWorker h
  | workerReceiver w => exact transfer_workerReceiver h
  | takeResponse => exact transfer_takeResponse h
  | reply sendResult => exact transfer_reply h
  | garble => cases hl

/-- Before the first client there is nothing. -/
@[simp] theorem items_start (n : Nat) (net : Wiring) (requestSlots : Nat → ClientRequest)
    (responseSlots : Nat → WorkerResponse) :
    (start n net requestSlots responseSlots).items = 0 := by
  simp [State.items, start, initializeClientRequestQueue, initializeWorkerResponseQueue]

end Steps

end LoadBalancing.Pipeline.Fleet
