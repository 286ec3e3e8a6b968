/-
LoadBalancing.Pipeline.Refinement — the service refines one key-value
map.

`Carries s g` says that the service `s` carries the calls of the abstract
machine `g`: each place of `s` holds the bytes, slots or nodes that spell
the calls in the place of `g`. `carries_step` is the simulation: on
reliable connections, and as long as a queue that is put into has room,
both refuse a step or both take it and `s` carries `g` again. The hops of
`Pipeline.Hops` are its cases.

Runs of the service therefore inherit what `Pipeline.Stages` says of the
abstract machine: `Service.refines_map`.

No `sorry`, no `axiom`, no `native_decide`.
-/
import LoadBalancing.Pipeline.Stages

namespace LoadBalancing.Pipeline

open LoadBalancing.Base LoadBalancing.Lib LoadBalancing.LoadBalancer LoadBalancing.Worker

/-! ## What the service carries -/

/-- A queued request: for which client, and the message. -/
def taggedRequest (x : ClientRequest) : Int32 × Message :=
  (x.clientId, ⟨x.messageType, x.content⟩)

/-- A queued response: for which client, and the message. -/
def taggedResponse (x : WorkerResponse) : Int32 × Message :=
  (x.clientId, ⟨x.messageType, x.content⟩)

@[simp] theorem taggedRequest_copy (x dst : ClientRequest) :
    taggedRequest (x.copy dst) = taggedRequest x := by
  simp [taggedRequest, ClientRequest.copy]

@[simp] theorem taggedResponse_copy (x dst : WorkerResponse) :
    taggedResponse (x.copy dst) = taggedResponse x := by
  simp [taggedResponse, WorkerResponse.copy]

/-- A message that is queued as it is. -/
theorem message_ofMessage (m : Message) :
    (⟨(Payload.ofMessage m.type m.payload).messageType,
      (Payload.ofMessage m.type m.payload).content⟩ : Message) = m := by
  rw [Payload.content_ofMessage]
  rfl

/-- What is queued of a call. -/
def Call.tagged (call : Call) : Int32 × Message := (call.clientId, call.request.fields.message)

/-- What the worker sends for a reply. -/
def Reply.fromWorker (reply : Reply) : Message := (reply.1.fromWorker reply.2).message

/-- What is queued of it. -/
def Reply.tagged (reply : Reply) : Int32 × Message := (reply.1.clientId, Reply.fromWorker reply)

/-- What is sent to which client. -/
def Reply.toClient (reply : Reply) : Socket × Message :=
  (reply.1.clientSocket, (reply.1.toClient reply.2).message)

/-- The registry has a worker to select, and every worker it has is on this
socket. -/
structure Serves (list : WorkerList) (workerSocket : Socket) : Prop where
  count : list.count = list.nodes.length
  selectable : ∃ node ∈ list.nodes, node.selectable = true
  workerSocket : ∀ node ∈ list.nodes, node.workerSocket = some workerSocket

theorem Serves.getWorkerCount {list : WorkerList} {workerSocket : Socket}
    (h : Serves list workerSocket) : list.getWorkerCount ≠ 0 := by
  obtain ⟨node, hnode, -⟩ := h.selectable
  have hpos := List.length_pos_of_mem hnode
  rw [WorkerList.getWorkerCount, h.count]
  omega

/-- The service carries the calls of the abstract machine. -/
structure Carries (s : Service) (g : Stages) : Prop where
  pool : s.pool.Filled s.nextClientId g.clients
  sent : s.sent = g.sent
  fromClient : ∀ i, (s.fromClient i).Holds ((g.inbound i).map fun r => r.fields.message)
  entered : s.entered = g.entered
  requests : s.dispatcher.queue.Settled
  queued : s.dispatcher.queue.contents.map taggedRequest = g.queued.map Call.tagged
  held : s.dispatcher.request.map taggedRequest = g.held.map Call.tagged
  workerList : Serves s.dispatcher.workerList s.workerSocket
  worker : s.dispatcher.worker = none
  atWorker : OnWire (s.dispatcher.wires s.workerSocket).wire
    (g.atWorker.map fun call => call.toWorker.message)
  table : Represents s.table (g.handled.map Call.request)
  answered : s.fromWorker.Holds (g.answered.map Reply.fromWorker)
  settled : s.responses.Settled
  responses : s.responses.contents.map taggedResponse = g.responses.map Reply.tagged
  taken : s.response.map taggedResponse = g.taken.map Reply.tagged
  replies : s.replies = g.done.map Reply.toClient
  toClients : ∀ socket, OnWire (s.toClients socket).wire
    ((s.replies.filter fun reply => reply.1 = socket).map Prod.snd)

/-- The queue a step puts into has room. -/
def Room (s : Service) : Label → Prop
  | .clientReceiver _ => s.dispatcher.queue.ring.count < clientRequestQueueCapacity
  | .workerReceiver => s.responses.ring.count < workerResponseQueueCapacity
  | _ => True

instance (s : Service) : ∀ l : Label, Decidable (Room s l)
  | .clientReceiver _ | .workerReceiver => inferInstanceAs (Decidable (_ < _))
  | .connect _ | .clientSend _ _ | .takeRequest | .dispatch | .worker | .takeResponse
  | .reply => inferInstanceAs (Decidable True)

/-! ## The start -/

theorem serves_registered (worker : NewWorker) (workerSocket : Socket)
    (h : worker.workerSocket = some workerSocket) :
    Serves (Service.registered worker) workerSocket := by
  have hlist : (Service.registered worker).nodes = [{ worker.node with isReady := true }] ∧
      (Service.registered worker).count = 1 := by
    simp [Service.registered, initializeWorkerList, WorkerList.addWorker, h, Semaphore.full,
      Semaphore.wait, maxWorkers, WorkerList.addSection, WorkerList.setWorkerReady,
      WorkerList.indexOf, NewWorker.node]
  obtain ⟨hnodes, hcount⟩ := hlist
  constructor
  · rw [hnodes, hcount]
    rfl
  · exact ⟨_, by rw [hnodes]; exact List.mem_singleton_self _, rfl⟩
  · intro node hnode
    rw [hnodes] at hnode
    rw [List.mem_singleton.mp hnode]
    exact h

theorem carries_start (workerSocket : Socket) (workerId : Int32) (address : CString)
    (peerPort : Int32) (requestSlots : Nat → ClientRequest)
    (responseSlots : Nat → WorkerResponse) :
    Carries (Service.start workerSocket workerId address peerPort requestSlots responseSlots)
      Stages.start where
  pool := ClientThreadPool.filled_initializePool
  sent := rfl
  fromClient := by intro i; exact Connection.holds_new
  entered := rfl
  requests := BoundedBuffer.settled_new _ _
  queued := rfl
  held := rfl
  workerList := serves_registered _ _ rfl
  worker := rfl
  atWorker := rfl
  table := represents_initializeHashTable
  answered := Connection.holds_new
  settled := BoundedBuffer.settled_new _ _
  responses := rfl
  taken := rfl
  replies := rfl
  toClients := by intro socket; rfl

/-! ## The clients' side -/

section Steps

variable {net : Network} {s : Service} {g : Stages}

theorem carries_connect (h : Carries s g) (clientSocket : Socket) :
    Option.Rel Carries (s.step net (.connect clientSocket)) (g.step (.connect clientSocket)) :=
  .some { h with pool := h.pool.accept clientSocket }

theorem message_fits {fields : Fields CString} (h : fields.InDomain) : fields.message.Fits :=
  ⟨MessageType.value_ne_zero _, h.length_payload⟩

theorem carries_clientSend (hnet : net.Reliable) (h : Carries s g) (i : Nat)
    (request : Request) :
    Option.Rel Carries (s.step net (.clientSend i request)) (g.step (.clientSend i request)) := by
  have hclient := h.pool.clientSocket i
  simp only [Service.step, Service.clientSendStep, Stages.step, hclient]
  cases hsocket : g.clients[i]? with
  | none => exact .none
  | some clientSocket =>
    by_cases hvalid : request.Valid
    · have hmessage := Request.message_eq_some.mpr ⟨hvalid, rfl⟩
      rw [if_pos hvalid]
      simp only [hmessage]
      refine .some { h with
        sent := by rw [h.sent]
        fromClient := ?_ }
      intro j
      by_cases hj : j = i
      · subst hj
        obtain ⟨c', hsend, hholds⟩ :=
          Connection.holds_send (hnet.fromClient j) (h.fromClient j) (message_fits hvalid)
        simp only [Function.update_self, hsend, List.map_append]
        exact hholds
      · simp only [Function.update_of_ne hj]
        exact h.fromClient j
    · have hmessage : request.message = none := by
        cases hm : request.message with
        | none => rfl
        | some m => exact absurd (Request.message_eq_some.mp hm).1 hvalid
      rw [if_neg hvalid]
      simp only [hmessage]
      exact .none

theorem carries_clientReceiver (hnet : net.Reliable) (h : Carries s g) (hsound : g.Sound)
    (i : Nat) (hroom : Room s (.clientReceiver i)) :
    Option.Rel Carries (s.step net (.clientReceiver i)) (g.step (.clientReceiver i)) := by
  have hclient := h.pool.clientSocket i
  simp only [Service.step, Service.clientReceiverStep, Stages.step]
  cases hsocket : g.clients[i]? with
  | none =>
    rw [hsocket] at hclient
    cases hslot : s.pool.slots[i]? with
    | none => exact .none
    | some slot =>
      rw [hslot, Option.bind_some] at hclient
      simp only [hclient]
      exact .none
  | some clientSocket =>
    have hslot := h.pool.taken i clientSocket hsocket
    have hfrom := h.fromClient i
    simp only [hslot, ClientSlot.taken]
    cases hinbound : g.inbound i with
    | nil =>
      rw [hinbound] at hfrom
      rw [if_pos (hfrom.eq_nil.mpr rfl)]
      exact .none
    | cons request rest =>
      have hvalid := hsound.inbound i request (hinbound ▸ List.mem_cons_self ..)
      rw [hinbound, List.map_cons] at hfrom
      have hne : ¬ (s.fromClient i).bytes = [] := by
        rw [hfrom.eq_nil]
        exact List.cons_ne_nil _ _
      obtain ⟨c', hreceive, hholds⟩ :=
        Connection.holds_receive (hnet.fromClient i) hfrom (message_fits hvalid)
      let queued : ClientRequest :=
        { Payload.ofMessage request.fields.message.type request.fields.message.payload with
          clientSocket := some clientSocket
          clientId := Int32.ofNat (i + 1) }
      have hsome : queued.clientSocket ≠ none := Option.some_ne_none _
      obtain ⟨slot, queue', hput, hsettled, hcontents⟩ :=
        enqueueRequest_of_room h.workerList.getWorkerCount hsome h.requests hroom
      have hreceived := (receiveFromClient_message hvalid s.dispatcher.workerList.getWorkerCount
        s.dispatcher.queue clientSocket (Int32.ofNat (i + 1))).trans hput
      rw [if_neg hne]
      simp only [hreceive, hreceived, requestOf_message hvalid, Option.toList_some, List.map_cons,
        List.map_nil, if_true]
      refine .some { h with
        fromClient := ?_
        entered := by rw [h.entered]; rfl
        requests := hsettled
        queued := ?_ }
      · intro j
        by_cases hj : j = i
        · subst hj
          simp only [Function.update_self]
          exact hholds
        · simp only [Function.update_of_ne hj]
          exact h.fromClient j
      · rw [hcontents, List.map_append, List.map_append, h.queued, List.map_singleton,
          taggedRequest_copy]
        exact congrArg (fun m => _ ++ [(Int32.ofNat (i + 1), m)]) (message_ofMessage _)

/-! ## To the worker -/

theorem carries_takeRequest (h : Carries s g) :
    Option.Rel Carries (s.step net .takeRequest) (g.step .takeRequest) := by
  have hheld := h.held
  have hqueued := h.queued
  simp only [Service.step, Service.takeRequestStep, Stages.step]
  cases hg : g.held with
  | some call =>
    rw [hg] at hheld
    obtain ⟨x, hx, -⟩ := Option.map_eq_some_iff.mp hheld
    simp only [hx]
    exact .none
  | none =>
    rw [hg] at hheld
    have hrequest := Option.map_eq_none_iff.mp hheld
    simp only [hrequest]
    cases hgq : g.queued with
    | nil =>
      rw [hgq] at hqueued
      have hdequeue := h.requests.dequeue_nil (List.map_eq_nil_iff.mp hqueued)
      simp only [takeClientRequestQueue, hdequeue, Option.map_none]
      exact .none
    | cons call rest =>
      rw [hgq, List.map_cons] at hqueued
      obtain ⟨x, xs, hcontents, hx, hxs⟩ := List.map_eq_cons_iff.mp hqueued
      obtain ⟨queue', hdequeue, hsettled, hcontents'⟩ := h.requests.dequeue_cons hcontents
      simp only [takeClientRequestQueue, hdequeue, Option.map_some]
      refine .some { h with
        requests := hsettled
        queued := by rw [hcontents']; exact hxs
        held := ?_ }
      rw [Option.map_some, Option.map_some, taggedRequest_copy, hx]

/-- The calls that are held or queued are known. -/
theorem known_of_held (hsound : g.Sound) {call : Call} (hg : g.held = some call) :
    g.Known call := by
  refine hsound.known call ?_
  rw [hsound.entered, hg]
  simp

theorem carries_dispatch (hnet : net.Reliable) (h : Carries s g) (hsound : g.Sound) :
    Option.Rel Carries (s.step net .dispatch) (g.step .dispatch) := by
  have hheld := h.held
  simp only [Service.step, Service.dispatchStep, Stages.step]
  cases hg : g.held with
  | none =>
    rw [hg] at hheld
    have hrequest := Option.map_eq_none_iff.mp hheld
    simp only [hrequest]
    exact .none
  | some call =>
    rw [hg] at hheld
    obtain ⟨x, hx, htagged⟩ := Option.map_eq_some_iff.mp hheld
    obtain ⟨hid, hmessage⟩ := Prod.mk.inj htagged
    have hvalid := (known_of_held hsound hg).1
    obtain ⟨node, hmem, hready⟩ := h.workerList.selectable
    obtain ⟨chosen, current, hnext, hchosen, -⟩ :=
      WorkerList.getNextWorker_of_selectable h.workerList.count hmem hready
    have hsocket := h.workerList.workerSocket chosen hchosen
    obtain ⟨calls, hsend⟩ := protocolSend_healthy (hnet.toWorker s.workerSocket)
      hvalid.toWorker.length_payload (s.dispatcher.wires s.workerSocket)
    have hpos : (0 : Int) < ((headerSize + call.toWorker.message.payload.length : Nat) : Int) := by
      simp only [headerSize]
      omega
    simp only [hx, dispatchHeld, h.worker, hnext, dispatch, translate_message hvalid hid hmessage,
      sendMessage, hsocket, hsend, afterSend, if_pos hpos]
    refine .some { h with
      held := rfl
      workerList := ⟨h.workerList.count, h.workerList.selectable, h.workerList.workerSocket⟩
      worker := rfl
      atWorker := ?_ }
    simp only [Function.update_self, List.map_append, List.map_singleton]
    exact h.atWorker.append _

/-! ## At the worker -/

theorem known_of_atWorker (hsound : g.Sound) {call : Call} {rest : List Call}
    (hg : g.atWorker = call :: rest) : g.Known call := by
  refine hsound.known call ?_
  rw [hsound.entered, hg]
  simp

/-- The worker has handled valid requests. -/
theorem handled_valid (hsound : g.Sound) :
    ∀ request ∈ g.handled.map Call.request, request.Valid := by
  intro request hrequest
  obtain ⟨call, hcall, rfl⟩ := List.mem_map.mp hrequest
  refine (hsound.known call ?_).1
  rw [hsound.entered]
  simp [hcall]

theorem carries_worker (hnet : net.Reliable) (h : Carries s g) (hsound : g.Sound) :
    Option.Rel Carries (s.step net .worker) (g.step .worker) := by
  have hatWorker := h.atWorker
  simp only [Service.step, Service.workerStep, Stages.step]
  cases hg : g.atWorker with
  | nil =>
    rw [hg] at hatWorker
    rw [if_pos (hatWorker.eq_nil.mpr rfl)]
    exact .none
  | cons call rest =>
    have hvalid := (known_of_atWorker hsound hg).1
    have hhandled := handled_valid hsound
    obtain ⟨table', hhandle, htable⟩ := handleMessage_message hvalid h.table hhandled
    obtain ⟨c', hsend, hholds⟩ := Connection.holds_send hnet.fromWorker h.answered
      (message_fits (hvalid.fromWorker (validAnswer_answer hhandled call.request)))
    obtain ⟨calls, hreceive⟩ := protocolReceive_healthy hnet.atWorker
      (m := call.toWorker.message) (MessageType.value_ne_zero _) hvalid.toWorker.length_payload
      s.workerReceives ((rest.map fun call => call.toWorker.message).flatMap Message.frame)
    rw [hg, List.map_cons] at hatWorker
    have hne : ¬ (s.dispatcher.wires s.workerSocket).wire = [] := by
      rw [hatWorker.eq_nil]
      exact List.cons_ne_nil _ _
    rw [OnWire, List.flatMap_cons] at hatWorker
    rw [if_neg hne]
    simp only [hatWorker, hreceive, hhandle, hsend]
    exact .some { h with
      atWorker := by
        simp only [Function.update_self]
        rfl
      table := by
        rw [List.map_append]
        exact htable
      answered := by
        rw [List.map_append]
        exact hholds }

/-! ## Back to the client -/

/-- A reply on its way is of a known call and a valid answer. -/
theorem known_of_answered (hsound : g.Sound) {reply : Reply} {rest : List Reply}
    (hg : g.answered = reply :: rest) : g.Known reply.1 ∧ ValidAnswer reply.2 := by
  refine hsound.known_of_served ?_
  rw [hsound.served, hg]
  simp

theorem known_of_taken (hsound : g.Sound) {reply : Reply} (hg : g.taken = some reply) :
    g.Known reply.1 ∧ ValidAnswer reply.2 := by
  refine hsound.known_of_served ?_
  rw [hsound.served, hg]
  simp

theorem carries_workerReceiver (hnet : net.Reliable) (h : Carries s g) (hsound : g.Sound)
    (hroom : Room s .workerReceiver) :
    Option.Rel Carries (s.step net .workerReceiver) (g.step .workerReceiver) := by
  have hanswered := h.answered
  simp only [Service.step, Service.workerReceiverStep, Stages.step]
  cases hg : g.answered with
  | nil =>
    rw [hg] at hanswered
    rw [if_pos (hanswered.eq_nil.mpr rfl)]
    exact .none
  | cons reply rest =>
    obtain ⟨hknown, htold⟩ := known_of_answered hsound hg
    rw [hg, List.map_cons] at hanswered
    have hne : ¬ s.fromWorker.bytes = [] := by
      rw [hanswered.eq_nil]
      exact List.cons_ne_nil _ _
    obtain ⟨c', hreceive, hholds⟩ := Connection.holds_receive hnet.fromWorker hanswered
      (message_fits (hknown.1.fromWorker htold))
    let queued : WorkerResponse :=
      { Payload.ofMessage (Reply.fromWorker reply).type (Reply.fromWorker reply).payload with
        workerSocket := some s.workerSocket
        workerId := s.workerId
        clientId := reply.1.clientId }
    have hsome : queued.workerSocket ≠ none := Option.some_ne_none _
    obtain ⟨slot, queue', hput, hsettled, hcontents⟩ :=
      enqueueResponse_of_room hsome h.settled hroom
    have hreceived : receiveFromWorker s.responses s.workerSocket s.workerId
        ⟨(Reply.fromWorker reply).type, (Reply.fromWorker reply).payload⟩ = ⟨queue', none⟩ :=
      (receiveFromWorker_message hknown.1 htold _ _ _).trans hput
    rw [if_neg hne]
    simp only [hreceive, hreceived, sendMessage]
    refine .some { h with
      answered := hholds
      settled := hsettled
      responses := ?_ }
    rw [hcontents, List.map_append, List.map_append, h.responses, List.map_singleton,
      taggedResponse_copy]
    exact congrArg (fun m => _ ++ [(reply.1.clientId, m)]) (message_ofMessage _)

theorem carries_takeResponse (h : Carries s g) :
    Option.Rel Carries (s.step net .takeResponse) (g.step .takeResponse) := by
  have htaken := h.taken
  have hresponses := h.responses
  simp only [Service.step, Service.takeResponseStep, Stages.step]
  cases hg : g.taken with
  | some reply =>
    rw [hg] at htaken
    obtain ⟨x, hx, -⟩ := Option.map_eq_some_iff.mp htaken
    simp only [hx]
    exact .none
  | none =>
    rw [hg] at htaken
    have hresponse := Option.map_eq_none_iff.mp htaken
    simp only [hresponse]
    cases hgr : g.responses with
    | nil =>
      rw [hgr] at hresponses
      have hdequeue := h.settled.dequeue_nil (List.map_eq_nil_iff.mp hresponses)
      simp only [takeWorkerResponseQueue, hdequeue, Option.map_none]
      exact .none
    | cons reply rest =>
      rw [hgr, List.map_cons] at hresponses
      obtain ⟨x, xs, hcontents, hx, hxs⟩ := List.map_eq_cons_iff.mp hresponses
      obtain ⟨queue', hdequeue, hsettled, hcontents'⟩ := h.settled.dequeue_cons hcontents
      simp only [takeWorkerResponseQueue, hdequeue, Option.map_some]
      refine .some { h with
        settled := hsettled
        responses := by rw [hcontents']; exact hxs
        taken := ?_ }
      rw [Option.map_some, Option.map_some, taggedResponse_copy, hx]

theorem carries_reply (hnet : net.Reliable) (h : Carries s g) (hsound : g.Sound) :
    Option.Rel Carries (s.step net .reply) (g.step .reply) := by
  have htaken := h.taken
  simp only [Service.step, Service.replyStep, Stages.step]
  cases hg : g.taken with
  | none =>
    rw [hg] at htaken
    have hresponse := Option.map_eq_none_iff.mp htaken
    simp only [hresponse]
    exact .none
  | some reply =>
    rw [hg] at htaken
    obtain ⟨x, hx, htagged⟩ := Option.map_eq_some_iff.mp htaken
    obtain ⟨hid, hmessage⟩ := Prod.mk.inj htagged
    obtain ⟨⟨hvalid, hclient, hclientId⟩, htold⟩ := known_of_taken hsound hg
    have hlookup := h.pool.getClientSocket hclient
    rw [← hclientId, ← hid] at hlookup
    have hresponse := responseMessage_message hvalid htold hmessage
    obtain ⟨calls, hsend⟩ := protocolSend_healthy (hnet.toClient reply.1.clientSocket)
      (hvalid.toClient htold).length_payload (s.toClients reply.1.clientSocket)
    simp only [hx, hlookup, Option.getD_some, Service.sendToClient, hresponse, sendMessage, hsend,
      Option.toList_some, List.map_cons, List.map_nil]
    refine .some { h with
      taken := rfl
      replies := by
        rw [h.replies, List.map_append]
        rfl
      toClients := ?_ }
    intro socket
    rw [List.filter_append, List.map_append]
    by_cases hsocket : socket = reply.1.clientSocket
    · subst hsocket
      simp only [Function.update_self, decide_true, List.filter_cons_of_pos, List.filter_nil,
        List.map_cons, List.map_nil]
      exact (h.toClients _).append _
    · have hne : ¬ reply.1.clientSocket = socket := fun h => hsocket h.symm
      simp only [Function.update_of_ne hsocket, hne, decide_false, Bool.false_eq_true,
        not_false_eq_true, List.filter_cons_of_neg, List.filter_nil, List.map_nil,
        List.append_nil]
      exact h.toClients socket

/-! ## The simulation -/

/-- The service carries the calls of a machine that accounts for them
all. -/
def Refines (s : Service) (g : Stages) : Prop := Carries s g ∧ g.Sound

/-- There is room in both or in neither. -/
theorem room_iff (h : Carries s g) (l : Label) : Room s l ↔ g.Room l := by
  cases l with
  | clientReceiver i =>
    have hlen := congrArg List.length h.queued
    rw [List.length_map, List.length_map] at hlen
    simp only [Room, Stages.Room, BoundedBuffer.count_eq_length, hlen]
  | workerReceiver =>
    have hlen := congrArg List.length h.responses
    rw [List.length_map, List.length_map] at hlen
    simp only [Room, Stages.Room, BoundedBuffer.count_eq_length, hlen]
  | _ => exact Iff.rfl

/-- **Simulation.** With room, both refuse a step or both take it. -/
theorem carries_step (hnet : net.Reliable) (h : Carries s g) (hsound : g.Sound) (l : Label)
    (hroom : Room s l) : Option.Rel Carries (s.step net l) (g.step l) := by
  cases l with
  | connect clientSocket => exact carries_connect h clientSocket
  | clientSend i request => exact carries_clientSend hnet h i request
  | clientReceiver i => exact carries_clientReceiver hnet h hsound i hroom
  | takeRequest => exact carries_takeRequest h
  | dispatch => exact carries_dispatch hnet h hsound
  | worker => exact carries_worker hnet h hsound
  | workerReceiver => exact carries_workerReceiver hnet h hsound hroom
  | takeResponse => exact carries_takeResponse h
  | reply => exact carries_reply hnet h hsound

/-- **Step lemma.** -/
theorem refines_step (hnet : net.Reliable) (s : Service) (g : Stages) (l : Label)
    (h : Refines s g) (hroom : Room s l) : Option.Rel Refines (s.step net l) (g.step l) := by
  have hstep := carries_step hnet h.1 h.2 l hroom
  cases hs : s.step net l with
  | none =>
    cases hg : g.step l with
    | none => exact .none
    | some g' => rw [hs, hg] at hstep; cases hstep
  | some s' =>
    cases hg : g.step l with
    | none => rw [hs, hg] at hstep; cases hstep
    | some g' =>
      rw [hs, hg] at hstep
      cases hstep with
      | some hcarries => exact .some ⟨hcarries, Stages.sound_step h.2 hg⟩

/-- The service's threads have nothing to do exactly when the machine's
have not. -/
theorem idle_iff (hnet : net.Reliable) (h : Refines s g) :
    (∀ l : Label, l.internal = true → s.step net l = none) ↔ g.Idle := by
  constructor
  · intro hidle
    by_contra hbusy
    obtain ⟨l, g', hl, hroom, hg⟩ := Stages.exists_step hbusy
    have hstep := refines_step hnet s g l h ((room_iff h.1 l).mpr hroom)
    rw [hidle l hl, hg] at hstep
    cases hstep
  · intro hidle l hl
    have hstep := refines_step hnet s g l h ((room_iff h.1 l).mpr (Stages.room_of_idle hidle l))
    rw [hidle l hl] at hstep
    cases hs : s.step net l with
    | none => rfl
    | some s' => rw [hs] at hstep; cases hstep

end Steps

/-! ## The service as one map -/

/-- What one map, asked the calls in this order, has the clients told. -/
def expectedReplies (calls : List Call) : List (Socket × Message) :=
  (serve Call.request [] calls).map Reply.toClient

/-- The calls of the client in a slot. -/
def callsOf (i : Nat) (calls : List Call) : List Call := calls.filter fun call => call.slot = i

namespace Service

/-- The service's threads have nothing to do. -/
def Idle (net : Network) (s : Service) : Prop :=
  ∀ l : Label, l.internal = true → s.step net l = none

/-- The threads run on, no client does anything and no queue fills. -/
def RunsOn (net : Network) (s : Service) (ls : List Label) (t : Service) : Prop :=
  (∀ l ∈ ls, l.internal = true) ∧ Along (step net) Room s ls ∧ exec (step net) s ls = some t

/-- The replies are the first that one map gives to the calls in the order
they entered, each sent to the client in the call's slot. -/
structure AnswersAsOneMap (s : Service) : Prop where
  replies : s.replies <+: expectedReplies s.entered
  toClients : ∀ socket, OnWire (s.toClients socket).wire
    ((s.replies.filter fun reply => reply.1 = socket).map Prod.snd)
  slots : ∀ call ∈ s.entered,
    s.pool.slots[call.slot]? = some (ClientSlot.taken true call.clientSocket call.clientId)
  order : ∀ i, (callsOf i s.entered).map Call.request <+: s.sent i

/-- Every request has entered, and every call is replied to. -/
structure AllAnswered (s : Service) : Prop where
  entered : ∀ i, (callsOf i s.entered).map Call.request = s.sent i
  replies : s.replies = expectedReplies s.entered

section Refined

variable {net : Network} {s : Service} {g : Stages}

theorem answersAsOneMap_of_refines (h : Refines s g) : s.AnswersAsOneMap := by
  obtain ⟨hcarries, hsound⟩ := h
  constructor
  · rw [hcarries.replies, hcarries.entered]
    exact hsound.done_prefix.map _
  · exact hcarries.toClients
  · intro call hcall
    rw [hcarries.entered] at hcall
    obtain ⟨-, hclient, hid⟩ := hsound.known call hcall
    rw [hid]
    exact hcarries.pool.taken call.slot call.clientSocket hclient
  · intro i
    rw [hcarries.sent, hcarries.entered, hsound.sent i]
    exact List.prefix_append _ _

theorem allAnswered_of_refines (hnet : net.Reliable) (h : Refines s g) (hidle : s.Idle net) :
    s.AllAnswered := by
  obtain ⟨hdone, hinbound⟩ := h.2.done_of_idle ((idle_iff hnet h).mp hidle)
  obtain ⟨hcarries, hsound⟩ := h
  constructor
  · intro i
    rw [hcarries.sent, hcarries.entered, hsound.sent i, hinbound i, List.append_nil]
    rfl
  · rw [hcarries.replies, hcarries.entered, hdone]
    rfl

/-- Runs of the service and of the machine correspond. -/
theorem exists_refines_of_exec (hnet : net.Reliable) (h : Refines s g) {ls : List Label}
    {t : Service} (hroom : Along (step net) Room s ls) (hrun : exec (step net) s ls = some t) :
    ∃ g', exec Stages.step g ls = some g' ∧ Refines t g' := by
  have hrel : Option.Rel Refines (exec (step net) s ls) (exec Stages.step g ls) :=
    exec_rel_along (refines_step hnet) h hroom
  rw [hrun] at hrel
  cases hg : exec Stages.step g ls with
  | none => rw [hg] at hrel; cases hrel
  | some g' =>
    rw [hg] at hrel
    cases hrel with
    | some h' => exact ⟨g', rfl, h'⟩

/-- And every run of the machine is one of the service. -/
theorem exists_exec_of_refines (hnet : net.Reliable) (h : Refines s g) {ls : List Label}
    {g' : Stages} (hroom : Along Stages.step Stages.Room g ls)
    (hrun : exec Stages.step g ls = some g') :
    Along (step net) Room s ls ∧ ∃ t, exec (step net) s ls = some t ∧ Refines t g' := by
  have halong : Along (step net) Room s ls ↔ Along Stages.step Stages.Room g ls :=
    along_iff_of_rel (fun _ _ l h => room_iff h.1 l) (refines_step hnet) h
  have hroom' := halong.mpr hroom
  have hrel : Option.Rel Refines (exec (step net) s ls) (exec Stages.step g ls) :=
    exec_rel_along (refines_step hnet) h hroom'
  rw [hrun] at hrel
  cases ht : exec (step net) s ls with
  | none => rw [ht] at hrel; cases hrel
  | some t =>
    rw [ht] at hrel
    cases hrel with
    | some h' => exact ⟨hroom', t, rfl, h'⟩

end Refined

/-- **The service refines one key-value map.** In every run in which no
queue fills, the replies so far are the first that one map gives to the
calls in the order they entered, and a service whose threads are idle has
answered all. The threads become idle: from every state they run on for a
bounded number of steps only, and can run on until they are. -/
theorem refines_map {net : Network} (hnet : net.Reliable) {workerSocket : Socket}
    {workerId peerPort : Int32} {address : CString} {requestSlots : Nat → ClientRequest}
    {responseSlots : Nat → WorkerResponse} {ls : List Label} {s : Service}
    (hroom : Along (step net) Room
      (start workerSocket workerId address peerPort requestSlots responseSlots) ls)
    (hrun : exec (step net)
      (start workerSocket workerId address peerPort requestSlots responseSlots) ls = some s) :
    s.AnswersAsOneMap ∧ (s.Idle net → s.AllAnswered) ∧
      (∃ n, ∀ more t, RunsOn net s more t → more.length ≤ n) ∧
      ∃ more t, RunsOn net s more t ∧ t.Idle net := by
  have hstart : Refines
      (start workerSocket workerId address peerPort requestSlots responseSlots) Stages.start :=
    ⟨carries_start .., Stages.sound_start⟩
  obtain ⟨g, -, h⟩ := exists_refines_of_exec hnet hstart hroom hrun
  refine ⟨answersAsOneMap_of_refines h, allAnswered_of_refines hnet h, ⟨g.work, ?_⟩, ?_⟩
  · rintro more t ⟨hinternal, hroom', hrun'⟩
    obtain ⟨g', hg', -⟩ := exists_refines_of_exec hnet h hroom' hrun'
    have hlen := exec_length_le (μ := Stages.work) (Q := fun l => Label.internal l = true)
      (fun _ _ _ hl hs => by have hwork := Stages.work_step hl hs; omega) hinternal hg'
    omega
  · obtain ⟨more, g', hinternal, hroom', hg', hidle⟩ := Stages.exists_run_to_idle g
    obtain ⟨halong, t, ht, h'⟩ := exists_exec_of_refines hnet h hroom' hg'
    exact ⟨more, t, ⟨hinternal, halong, ht⟩, (idle_iff hnet h').mpr hidle⟩

/-! ## A run -/

/-- Connections that move one byte at a time, with a stall before each. -/
def stutteringNetwork : Network :=
  let answers : Nat → SocketAnswer := fun k => if k % 2 = 0 then .error .wouldBlock else .count 1
  { fromClient := fun _ => ⟨answers, answers⟩
    toWorker := fun _ => answers
    atWorker := answers
    fromWorker := ⟨answers, answers⟩
    toClient := fun _ => answers }

theorem reliable_stutteringNetwork : stutteringNetwork.Reliable where
  fromClient := by intro i; exact ⟨healthy_stutter, healthy_stutter⟩
  toWorker := by intro socket; exact healthy_stutter
  atWorker := healthy_stutter
  fromWorker := ⟨healthy_stutter, healthy_stutter⟩
  toClient := by intro socket; exact healthy_stutter

/-- One client stores a value and another asks for it, both requests on
their way at once. -/
def putThenGet : List Label :=
  [.connect 11, .connect 12, .clientSend 0 (.put (CString.ofString "k") (CString.ofString "v")),
    .clientSend 1 (.get (CString.ofString "k")), .clientReceiver 0, .clientReceiver 1,
    .takeRequest, .dispatch, .takeRequest, .worker, .dispatch, .worker, .workerReceiver,
    .takeResponse, .workerReceiver, .reply, .takeResponse, .reply]

theorem refines_map_putThenGet :
    ∃ s, exec (step stutteringNetwork)
        (start 5 1 (CString.ofString "127.0.0.1") 5059 (fun _ => ClientRequest.zero)
          (fun _ => WorkerResponse.zero)) putThenGet = some s ∧
      s.AnswersAsOneMap ∧
      s.replies =
        [(11, (Fields.putResponse ErrorCode.none.value (CString.ofString "k")).message),
          (12, (Fields.getResponse ErrorCode.none.value (CString.ofString "k")
            (CString.ofString "v")).message)] := by
  have hdone : (exec Stages.step Stages.start putThenGet).map Stages.done
      = some [(callOf 0 11 (.put (CString.ofString "k") (CString.ofString "v")), .stored),
          (callOf 1 12 (.get (CString.ofString "k")), .found (CString.ofString "v"))] := by decide
  obtain ⟨g, hg, hreplies⟩ := Option.map_eq_some_iff.mp hdone
  obtain ⟨hroom, s, hs, hcarries, -⟩ := exists_exec_of_refines reliable_stutteringNetwork
    ⟨carries_start .., Stages.sound_start⟩ (by decide) hg
  refine ⟨s, hs, (refines_map reliable_stutteringNetwork hroom hs).1, ?_⟩
  rw [hcarries.replies, hreplies]
  rfl

end Service

end LoadBalancing.Pipeline
