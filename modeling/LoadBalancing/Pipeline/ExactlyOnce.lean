/-
LoadBalancing.Pipeline.ExactlyOnce — where every request has gone.

`Pipeline.AtMostOnce` bounds the answers, whatever is lost. Here is the
other half. A request that is let in is in one of the places, or it has
been answered, or it was lost in a step of one of a few kinds: `Kept` says
of a step that it is none of them, each in terms of what the environment
does and of the room in the queues. So along runs of such steps the answers
and what is underway are as many as the requests let in, question by
question, and at rest each request has been answered once
(`answered_exactly_once`).

The code loses nothing else. That takes an invariant of what is underway:
the requests decode, what goes between the load balancer and the workers
was made by an encoder and is in its domain, and so is what the workers
hold; no receiver has to leave a message unanswered, then.

No `sorry`, no `axiom`, no `native_decide`.
-/
import LoadBalancing.Pipeline.AtMostOnce

namespace LoadBalancing.Pipeline.Fleet

open LoadBalancing.Base LoadBalancing.Lib LoadBalancing.LoadBalancer LoadBalancing.Worker

section Steps

variable {d : Worker.Delivery} {s t : State} {l : Label}

/-! ## The queues -/

theorem called_enqueueRequest (workerCount : Nat) (queue : ClientRequestQueue)
    (request : ClientRequest) : queue.Called (enqueueRequest workerCount queue request).queue := by
  have hput : queue.Called (putClientRequestQueue queue request).2 := by
    unfold putClientRequestQueue
    split
    · exact .none
    · exact .enqueue _
  unfold enqueueRequest
  split
  · exact .none
  · simp only
    split
    · exact hput
    · split
      · exact hput
      · exact hput

theorem called_receiveFromClient (workerCount : Nat) (queue : ClientRequestQueue)
    (clientSocket : Socket) (clientId : Int32) (message : Message) :
    queue.Called (receiveFromClient workerCount queue clientSocket clientId message).queue := by
  unfold receiveFromClient
  split
  · split
    · exact called_enqueueRequest _ _ _
    · exact .none
  · split
    · exact called_enqueueRequest _ _ _
    · exact .none
  · exact .none

theorem called_receiveFromWorker (queue : WorkerResponseQueue) (workerSocket : Socket)
    (workerId : Int32) (message : Message) :
    queue.Called (receiveFromWorker queue workerSocket workerId message).queue := by
  have henqueue : ∀ response, queue.Called (enqueueResponse queue response).queue := by
    intro response
    have hput : queue.Called (putWorkerResponseQueue queue response).2 := by
      unfold putWorkerResponseQueue
      split
      · exact .none
      · exact .enqueue _
    unfold enqueueResponse
    simp only
    split
    · exact hput
    · split
      · exact hput
      · exact hput
  rw [receiveFromWorker_eq]
  cases responseClientId message with
  | none => exact .none
  | some clientId => exact henqueue _

@[simp] theorem queue_putToWorker (s : State) (w : Option Nat) (message : Message) :
    (s.putToWorker w message).queue = s.queue := by
  unfold State.putToWorker
  cases w with
  | none => rfl
  | some w =>
    rw [Option.elim_some]
    split <;> rfl

@[simp] theorem responses_putToWorker (s : State) (w : Option Nat) (message : Message) :
    (s.putToWorker w message).responses = s.responses := by
  unfold State.putToWorker
  cases w with
  | none => rfl
  | some w =>
    rw [Option.elim_some]
    split <;> rfl

theorem dispatch_queues {sendResult : Int} (h : s.dispatchStep sendResult = some t) :
    s.queue.Called t.queue ∧ t.responses = s.responses := by
  unfold State.dispatchStep at h
  split at h
  · split at h
    · cases h
      exact ⟨.none, rfl⟩
    · cases h
      exact ⟨.none, rfl⟩
    · cases h
      exact ⟨.enqueue _, rfl⟩
    · split at h
      · cases h
        rw [queue_putToWorker, responses_putToWorker]
        exact ⟨.none, rfl⟩
      · split at h
        · cases h
          exact ⟨.enqueue _, rfl⟩
        · cases h
          exact ⟨.enqueue _, rfl⟩
  · cases h

/-- **The queues of a step.** No step does more to a queue than one call. -/
theorem step_queues (hl : l.framed) (h : step d s l = some t) :
    s.queue.Called t.queue ∧ s.responses.Called t.responses := by
  cases l with
  | connect | changeWorkers | rewire | exportFails | breakPeers =>
    cases h
    exact ⟨.none, .none⟩
  | endWorker w | breakFromWorker w =>
    simp only [step, State.endWorkerStep, State.breakFromWorkerStep] at h
    split at h
    · cases h
      exact ⟨.none, .none⟩
    · cases h
  | disconnect i | clientSend i message =>
    simp only [step, State.disconnectStep, State.clientSendStep] at h
    split at h
    · split at h
      · cases h
        exact ⟨.none, .none⟩
      · cases h
    · cases h
  | clientReceiver i =>
    simp only [step, State.clientReceiverStep] at h
    split at h
    · split at h
      · split at h
        · cases h
          exact ⟨called_receiveFromClient _ _ _ _ _, .none⟩
        · cases h
          exact ⟨called_receiveFromClient _ _ _ _ _, .none⟩
      · cases h
    · cases h
  | announce w message =>
    simp only [step] at h
    split at h
    · cases h
      rw [queue_putToWorker, responses_putToWorker]
      exact ⟨.none, .none⟩
    · cases h
  | takeRequest =>
    simp only [step, State.takeRequestStep] at h
    split at h
    · cases h
    · cases h
      exact ⟨.dequeue, .none⟩
  | pickWorker =>
    simp only [step, State.pickWorkerStep] at h
    split at h
    · split at h
      · cases h
        exact ⟨.none, .none⟩
      · cases h
        exact ⟨.none, .none⟩
    · cases h
  | dispatch sendResult =>
    obtain ⟨hcalled, hresponses⟩ := dispatch_queues h
    rw [hresponses]
    exact ⟨hcalled, .none⟩
  | worker w allocated connected =>
    obtain ⟨message, rest, cluster, reply, log, -, -, -, -, rfl⟩ := workerStep_turn h
    exact ⟨.none, .none⟩
  | respond w sendResult =>
    simp only [step, State.respondStep] at h
    split at h
    · cases h
    · split at h
      · split at h
        · cases h
          exact ⟨.none, .none⟩
        · cases h
          exact ⟨.none, .none⟩
      · cases h
  | work l =>
    cases l with
    | receive => cases h
    | notify | accept | read | hangUp | storePeerData | runExport =>
      simp only [step] at h
      split at h
      · obtain ⟨cluster, -, rfl⟩ := Option.map_eq_some_iff.mp h
        exact ⟨.none, .none⟩
      · cases h
  | notifyFails w =>
    simp only [step, State.notifyFailsStep] at h
    split at h
    · cases h
      exact ⟨.none, .none⟩
    · cases h
  | workerReceiver w =>
    simp only [step, State.workerReceiverStep] at h
    split at h
    · cases h
    · split at h
      · split at h
        · cases h
          rw [queue_putToWorker, responses_putToWorker]
          exact ⟨.none, called_receiveFromWorker _ _ _ _⟩
        · cases h
          exact ⟨.none, called_receiveFromWorker _ _ _ _⟩
      · cases h
  | takeResponse =>
    simp only [step, State.takeResponseStep] at h
    split at h
    · cases h
    · cases h
      exact ⟨.none, .dequeue⟩
  | reply sendResult =>
    simp only [step, State.replyStep] at h
    split at h
    · cases h
    · split at h
      · cases h
        exact ⟨.none, .none⟩
      · split at h
        · cases h
          exact ⟨.none, .none⟩
        · cases h
          exact ⟨.none, .none⟩
  | garble => cases hl

/-! ## What is underway -/

/-- A message of one of these kinds, as an encoder makes it. -/
def IsEncoded (types : List MessageType) (message : Message) : Prop :=
  ∃ fields : Fields CString, fields.type ∈ types ∧ fields.InDomain ∧ message = fields.message

theorem isEncoded_of_encode {types : List MessageType} {F : Fields CString} {message : Message}
    (hkind : F.type ∈ types) (hentry : MessageType.workerEntry ∉ types)
    (h : encode F = some message) : IsEncoded types message := by
  have hdomain := inDomain_of_encode (fun heq => hentry (heq ▸ hkind)) h
  rw [hdomain.encode, Option.some.injEq] at h
  exact ⟨F, hkind, hdomain, h.symm⟩

/-- What each place has in it. -/
def Item.WellFormed : Item → Prop
  | .request r => accepts r = true
  | .toWorker _ message => IsEncoded [.storeRequest, .retrieveRequest] message ∨
      message.type = MessageType.workerEntry.value ∨ message.type = MessageType.error.value
  | .replying _ message | .fromWorker _ message =>
    IsEncoded [.storeResponse, .retrieveResponse] message
  | .response r => IsEncoded [.storeResponse, .retrieveResponse] (workerMessage r)
  | .delivered _ => True

theorem wellFormed_next {x y : Item} (h : Next s t x y) (hx : x.WellFormed) : y.WellFormed := by
  cases h with
  | copied hsame => exact (accepts_of_same hsame).trans hx
  | @dispatched request message w hw htranslate =>
    refine Or.inl ?_
    unfold LoadBalancer.translate at htranslate
    split at htranslate
    · split at htranslate
      · exact isEncoded_of_encode (F := .storeRequest _ _ _) (by simp [Fields.type])
          (by simp) (Translation.encoded.inj htranslate)
      · cases htranslate
    · split at htranslate
      · exact isEncoded_of_encode (F := .retrieveRequest _ _) (by simp [Fields.type])
          (by simp) (Translation.encoded.inj htranslate)
      · cases htranslate
    · cases htranslate
  | stored hw htype hdecode hlog hreply =>
    unfold storeResponse at hreply
    split at hreply
    · exact isEncoded_of_encode (F := .storeResponse _ _ _) (by simp [Fields.type])
        (by simp) hreply
    · exact isEncoded_of_encode (F := .storeResponse _ _ _) (by simp [Fields.type])
        (by simp) hreply
  | @retrieved w message reply request allocated value hw htype hdecode hget hreply =>
    cases value with
    | none | some =>
      exact isEncoded_of_encode (F := .retrieveResponse _ _ _ _) (by simp [Fields.type])
        (by simp) hreply
  | responded w message => exact hx
  | received hmessage hclient hresponse =>
    rw [Item.WellFormed, hmessage]
    exact hx
  | @copiedResponse response copy hsame =>
    obtain ⟨-, -, -, htype, -, hcontent⟩ := hsame
    rw [Item.WellFormed, workerMessage, htype, hcontent]
    exact hx
  | replied clientSocket hmessage => trivial

theorem wellFormed_new {y : Item} (h : New s t y) : y.WellFormed := by
  cases h with
  | entered hsame haccepts hsent hentered => exact (accepts_of_same hsame).trans haccepts
  | told hw htype => exact Or.inr htype
  | refused htype => trivial

/-! ## What the threads answer -/

/-- The response dispatcher reads whose response it is. -/
theorem responseClientId_of_isEncoded {message : Message}
    (h : IsEncoded [.storeResponse, .retrieveResponse] message) :
    ∃ clientId, responseClientId message = some clientId := by
  obtain ⟨fields, hkind, hdomain, rfl⟩ := h
  cases fields with
  | storeResponse result clientId key =>
    refine ⟨clientId, ?_⟩
    simp only [responseClientId, Fields.message_type, Fields.type, MessageType.ofValue?_value,
      receiveStoreResponse_message hdomain]
  | retrieveResponse result clientId key value =>
    refine ⟨clientId, ?_⟩
    simp only [responseClientId, Fields.message_type, Fields.type, MessageType.ofValue?_value,
      receiveRetrieveResponse_message hdomain]
  | _ => simp [Fields.type] at hkind

/-- And it has an answer for the client. -/
theorem responseMessage_of_isEncoded {response : WorkerResponse}
    (h : IsEncoded [.storeResponse, .retrieveResponse] (workerMessage response)) :
    ∃ message, responseMessage response = some message ∧ fieldsOf message ≠ none := by
  obtain ⟨fields, hkind, hdomain, hmessage⟩ := h
  obtain ⟨htype, hcontent⟩ := Message.mk.inj hmessage
  have hsent : ∀ F : Fields CString, F.type ≠ .workerEntry → F.InDomain →
      encode F = some F.message ∧ fieldsOf F.message ≠ none := by
    intro F hentry hF
    refine ⟨hF.encode, ?_⟩
    rw [fieldsOf_encode F hentry hF.encode]
    exact Option.some_ne_none _
  cases fields with
  | storeResponse result clientId key =>
    have hdecode := receiveStoreResponse_message hdomain
    obtain ⟨hencode, hread⟩ := hsent (.putResponse result key) (by simp [Fields.type]) hdomain
    refine ⟨_, ?_, hread⟩
    rw [← hencode]
    simp only [Fields.type] at htype
    simp only [Fields.message] at hdecode
    simp only [responseMessage, htype, MessageType.ofValue?_value, hcontent, hdecode,
      CString.ofBuffer_bytes, encode]
  | retrieveResponse result clientId key value =>
    have hdecode := receiveRetrieveResponse_message hdomain
    have hvalue : (if result = ErrorCode.none.value then value
        else CString.empty).bytes.length ≤ maxValueSize := by
      split
      · exact hdomain.2
      · exact Nat.zero_le _
    obtain ⟨hencode, hread⟩ := hsent (.getResponse result key _) (by simp [Fields.type])
      ⟨hdomain.1, hvalue⟩
    refine ⟨_, ?_, hread⟩
    rw [← hencode]
    simp only [Fields.type] at htype
    simp only [Fields.message] at hdecode
    simp only [responseMessage, htype, MessageType.ofValue?_value, hcontent, hdecode,
      CString.ofBuffer_bytes, encode]
  | _ => simp [Fields.type] at hkind

/-- Values that fit a message. -/
def Fits (_ value : CString) : Prop := value.bytes.length ≤ maxValueSize

/-- A worker that has no reply to a message was not asked anything. -/
theorem question_of_no_reply {w : Nat} {message : Message} {cluster : Cluster}
    {log : List (Nat × CString)} (hturn : WorkerTurn d s w message cluster none log)
    (hmessage : (Item.toWorker w message).WellFormed) (hholds : Cluster.Holds Fits s.cluster) :
    workerQuestionOf message = none := by
  rcases hmessage with ⟨fields, hkind, hdomain, rfl⟩ | htold
  · exfalso
    have htype := MessageType.ofValue?_value fields.type
    rw [← Fields.message_type] at htype
    generalize hnone : none = reply at hturn
    cases fields with
    | storeRequest clientId key value =>
      obtain ⟨-, hrequest⟩ := storeRequest?_sendStoreRequest hdomain.encode
      cases hturn with
      | dropped hdrop =>
        rcases hdrop with ⟨-, hdecode⟩ | ⟨hother, -⟩
        · rw [hrequest] at hdecode
          cases hdecode
        · rw [htype] at hother
          cases hother
      | stored hstore hdecode hstep =>
        rw [hrequest, Option.some.injEq] at hdecode
        subst hdecode
        have hreply : ∀ result, sendStoreResponse result clientId key ≠ none := by
          intro result heq
          have hresponse : (Fields.storeResponse result clientId key).InDomain := hdomain.1
          rw [show sendStoreResponse result clientId key = _ from hresponse.encode] at heq
          cases heq
        unfold storeResponse at hnone
        split at hnone
        · exact hreply _ hnone.symm
        · exact hreply _ hnone.symm
      | retrieved hretrieve hdecode hget =>
        rw [htype] at hretrieve
        cases hretrieve
      | other connected hstore hretrieve => exact hstore htype
    | retrieveRequest clientId key =>
      obtain ⟨-, hrequest⟩ := retrieveRequest?_sendRetrieveRequest hdomain.encode
      cases hturn with
      | dropped hdrop =>
        rcases hdrop with ⟨hother, -⟩ | ⟨-, hdecode⟩
        · rw [htype] at hother
          cases hother
        · rw [hrequest] at hdecode
          cases hdecode
      | stored hstore hdecode hstep =>
        rw [htype] at hstore
        cases hstore
      | @retrieved request allocated value hretrieve hdecode hget =>
        rw [hrequest, Option.some.injEq] at hdecode
        subst hdecode
        have hreply : ∀ result value, value.bytes.length ≤ maxValueSize →
            sendRetrieveResponse result clientId key value ≠ none := by
          intro result value hvalue heq
          have hresponse : (Fields.retrieveResponse result clientId key value).InDomain :=
            ⟨hdomain, hvalue⟩
          rw [show sendRetrieveResponse result clientId key value = _ from hresponse.encode] at heq
          cases heq
        cases value with
        | none => exact hreply _ CString.empty (Nat.zero_le _) hnone.symm
        | some value =>
          rcases hget with hget | hget
          · cases hget
          · exact hreply _ value ((hholds.nodes w).table key value (lookup_of_getHashTable hget))
              hnone.symm
      | other connected hstore hretrieve => exact hretrieve htype
    | _ => simp [Fields.type] at hkind
  · exact workerQuestionOf_told htold

/-! ## Steps that lose nothing -/

/-- A step that loses no request and no answer. A request that is sent comes
to a worker, and the queue has room for one that is not; a worker's reply is
sent, and the response queue has room for it; the client of an answer is
connected, and is sent the answer; no worker ends with messages in its
hands, and no connection from one is lost with messages on it; and frames
arrive whole. -/
def Kept (s : State) : Label → Prop
  | .dispatch sendResult =>
    (∀ worker ∈ s.worker, 0 < sendResult →
      ∃ w ∈ worker.workerSocket.bind s.net.workerOn, s.Running w) ∧
    ∀ request ∈ s.request,
      (sendResult ≤ 0 ∨ LoadBalancer.translate request = .encoded none) →
        s.queue.contents.length < clientRequestQueueCapacity
  | .respond _ sendResult => 0 < sendResult
  | .endWorker w => s.toWorker w = [] ∧ s.replying w = []
  | .breakFromWorker w => s.fromWorker w = []
  | .workerReceiver _ => s.responses.contents.length < workerResponseQueueCapacity
  | .reply sendResult => 0 < sendResult ∧
    ∀ response ∈ s.response, (s.pool.getClientSocketByClientId response.clientId).join ≠ none
  | .garble .. => False
  | _ => True

theorem framed_of_kept (h : Kept s l) : l.framed := by
  cases l with
  | garble => exact h.elim
  | _ => rfl

/-- What is on its way to a worker, or in its hands, is with one that has
not ended. -/
def Item.Housed (s : State) : Item → Prop
  | .toWorker w _ | .replying w _ => s.stopped w = false
  | _ => True

/-- What the places have in them, in every state that is reached. -/
structure InOrder (s : State) : Prop where
  items : ∀ x ∈ s.items, x.WellFormed
  housed : ∀ x ∈ s.items, x.Housed s
  cluster : Cluster.Holds Fits s.cluster
  queue : s.queue.Settled
  responses : s.responses.Settled

/-- A value that a worker is asked to store fits. -/
theorem fits_of_wellFormed {w : Nat} {message : Message} {request : StoreRequest}
    (h : (Item.toWorker w message).WellFormed)
    (htype : MessageType.ofValue? message.type = some .storeRequest)
    (hdecode : storeRequest? message.payload = some request) :
    Fits request.key request.value := by
  rcases h with ⟨fields, hkind, hdomain, rfl⟩ | htold
  · have hread := fieldsOf_storeRequest htype hdecode
    rw [Fields.message_type, MessageType.ofValue?_value, Option.some.injEq] at htype
    rw [fieldsOf_encode fields (by rw [htype]; simp) hdomain.encode, Option.some.injEq] at hread
    cases fields with
    | storeRequest clientId key value =>
      cases hread
      exact hdomain.2
    | _ => simp [Fields.type] at htype
  · have hstore := value_of_ofValue? htype
    rw [← hstore] at htold
    exact absurd htold (by decide)

theorem housed_next {x y : Item} (h : Next s t x y) : y.Housed s := by
  cases h with
  | dispatched hw | stored hw | retrieved hw => exact hw
  | _ => trivial

theorem housed_new {y : Item} (h : New s t y) : y.Housed s := by
  cases h with
  | told hw => exact hw
  | _ => trivial

/-- A worker that ends leaves nothing in its places. -/
theorem housed_ended {w : Nat} (h : ∀ x ∈ s.items, x.Housed s)
    (hstopped : t.stopped = Function.update s.stopped w true) (htoWorker : t.toWorker w = [])
    (hreplying : t.replying w = []) (hitems : t.items ≤ s.items) : ∀ x ∈ t.items, x.Housed t := by
  intro x hx
  have hold := h x (Multiset.mem_of_le hitems hx)
  have hothers : ∀ v, v ≠ w → s.stopped v = false → t.stopped v = false := by
    intro v hv hgoes
    rw [hstopped, Function.update_of_ne hv, hgoes]
  cases x with
  | toWorker v message =>
    refine hothers v ?_ hold
    rintro rfl
    simp [State.items, mem_pile, mem_gather, htoWorker] at hx
  | replying v message =>
    refine hothers v ?_ hold
    rintro rfl
    simp [State.items, mem_pile, mem_gather, hreplying] at hx
  | _ => trivial

theorem housed_step (h : ∀ x ∈ s.items, x.Housed s) (hl : l.framed)
    (hstep : step d s l = some t) : ∀ x ∈ t.items, x.Housed t := by
  have hgo : t.stopped = s.stopped → ∀ x ∈ t.items, x.Housed t := by
    intro hsame x hx
    have hhoused : x.Housed s := (step_transfer hl hstep).forall_mem h
      (fun _ _ _ hnext => housed_next hnext) (fun _ hnew => housed_new hnew) x hx
    cases x with
    | toWorker v message | replying v message => exact (congrFun hsame v).trans hhoused
    | _ => trivial
  cases step_cluster hl hstep with
  | quiet hmove hstopped => exact hgo hstopped
  | stored hmem hw htype hdecode hmove hstopped => exact hgo hstopped
  | ended w hcluster hstopped hstored htoWorker hreplying hitems =>
    exact housed_ended h hstopped htoWorker hreplying hitems

theorem inOrder_step (h : InOrder s) (hl : l.framed) (hstep : step d s l = some t) :
    InOrder t := by
  obtain ⟨hqueue, hresponses⟩ := step_queues hl hstep
  refine ⟨?_, housed_step h.housed hl hstep, ?_, h.queue.called hqueue,
    h.responses.called hresponses⟩
  · exact (step_transfer hl hstep).forall_mem h.items
      (fun x y hx hnext => wellFormed_next hnext hx) fun y hnew => wellFormed_new hnew
  · refine holds_cluster h.cluster (step_cluster hl hstep) ?_
    intro w message request hmem htype hdecode
    exact fits_of_wellFormed (h.items _ hmem) htype hdecode

/-- **Nothing else is lost.** What such a step loses was no request and no
answer. -/
theorem question_of_lost (h : InOrder s) (hkept : Kept s l) {x : Item} (hx : x.WellFormed)
    (hlost : Lost d s l x) : x.question = none := by
  have hroom : ∀ {capacity : Nat} {α : Type} {b : BoundedBuffer α capacity} {write : α → α},
      b.Settled → b.contents.length < capacity → (b.enqueue write).1 ≠ 0 := by
    intro capacity α b write hsettled hlength hzero
    rw [← BoundedBuffer.count_eq_length] at hlength
    obtain ⟨slot, b', hb, -, -⟩ := hsettled.enqueue hlength write
    rw [hb] at hzero
    cases hzero
  cases hlost with
  | unparsed sendResult htranslate =>
    obtain ⟨message, hencoded, -⟩ := translate_of_accepts hx
    rw [hencoded] at htranslate
    cases htranslate
  | noRoom hrequest hback hfull =>
    exact absurd hfull (hroom h.queue (hkept.2 _ hrequest hback))
  | noWorker request hworker hsent hnone =>
    obtain ⟨w, hw, hrunning⟩ := hkept.1 _ hworker hsent
    exact absurd hrunning (hnone w hw)
  | unanswered allocated connected hturn => exact question_of_no_reply hturn hx h.cluster
  | notResponded message hfails => exact absurd hkept (Int.not_lt.mpr hfails)
  | endedUnread hmem =>
    rw [show s.toWorker _ = [] from hkept.1] at hmem
    cases hmem
  | endedUnanswered hmem =>
    rw [show s.replying _ = [] from hkept.2] at hmem
    cases hmem
  | brokenFromWorker hmem =>
    rw [show s.fromWorker _ = [] from hkept] at hmem
    cases hmem
  | ignored hclient =>
    obtain ⟨clientId, hsome⟩ := responseClientId_of_isEncoded hx
    rw [hsome] at hclient
    cases hclient
  | refused w message hfull => exact absurd hfull (hroom h.responses hkept)
  | noClient sendResult hresponse hnone => exact absurd hnone (hkept.2 _ hresponse)
  | notReplied response hfails => exact absurd hkept.1 (Int.not_lt.mpr hfails)
  | unreadable sendResult hnone =>
    obtain ⟨message, hsome, -⟩ := responseMessage_of_isEncoded hx
    rw [hsome] at hnone
    cases hnone

/-- A hop keeps the question. -/
theorem question_kept {x y : Item} (h : Next s t x y) (hx : x.WellFormed) :
    y.question = x.question := by
  rcases question_next h with heq | ⟨response, delivery, rfl, -, hmessage, hnone⟩
  · exact heq
  · obtain ⟨message, hsome, hread⟩ := responseMessage_of_isEncoded hx
    rw [hmessage, Option.some.injEq] at hsome
    subst hsome
    exact absurd hnone hread

/-! ## Counting -/

/-- The requests and answers that are not with their clients yet. -/
def State.underway (s : State) : Multiset Item :=
  { s with toClients := [] }.items

theorem items_eq_underway (s : State) :
    s.items = s.underway + pile Item.delivered s.toClients := by
  rw [State.underway, State.items, State.items, pile_nil, add_zero]

/-- As many items of a question as requests let in. -/
theorem asked_le_items (h : InOrder s) (hcounted : ∀ q, s.asked q ≤
      s.items.countP (fun x => x.question = some q)) (hkept : Kept s l)
    (hstep : step d s l = some t) :
    ∀ q, t.asked q ≤ t.items.countP (fun x => x.question = some q) := by
  intro q
  have hl : l.framed := framed_of_kept hkept
  have hle : s.items.countP (fun x => x.question = some q) ≤
      t.items.countP (fun x => x.question = some q) := by
    refine (step_transfer hl hstep).le_countP (fun x hx y hnext hq => ?_) fun x hx hlost hq => ?_
    · exact (question_kept hnext (h.items x hx)).trans hq
    · rw [question_of_lost h hkept (h.items x hx) hlost] at hq
      cases hq
  have hsame : t.entered = s.entered → t.asked q ≤
      t.items.countP (fun x => x.question = some q) := by
    intro hentered
    rw [State.asked, hentered]
    exact (hcounted q).trans hle
  cases step_clients hl hstep with
  | none hfrom hsent hentered | sent i message hfrom hsent hentered
  | left i hfrom hsent hentered => exact hsame hentered
  | read hunread hfrom hsent hentered =>
    rcases hentered with hentered | ⟨request, copy, ⟨-, hid, htype, -, hcontent⟩, -, hentered,
      hitems⟩
    · exact hsame hentered
    · -- the request is asked, and its copy is there
      have hquestion : (Item.request copy).question
          = questionOf request.clientId (requestMessage request) := by
        simp only [Item.question, requestMessage, hid, htype, hcontent]
      rw [State.asked, hentered, List.countP_append, List.countP_singleton, hitems,
        Multiset.countP_cons, hquestion]
      simp only [decide_eq_true_eq]
      exact Nat.add_le_add_right (hcounted q) _

end Steps

/-! ## Runs -/

/-- Nothing is left in the places between the clients. -/
def State.AtRest (s : State) : Prop :=
  s.queue.contents = [] ∧ s.request = none ∧
    (∀ w < s.cluster.size, s.toWorker w = [] ∧ s.replying w = [] ∧ s.fromWorker w = []) ∧
    s.responses.contents = [] ∧ s.response = none

instance decidableKept (s : State) : ∀ l, Decidable (Kept s l)
  | .dispatch _ => inferInstanceAs (Decidable (_ ∧ _))
  | .respond _ _ => inferInstanceAs (Decidable (_ < _))
  | .endWorker _ => inferInstanceAs (Decidable (_ ∧ _))
  | .breakFromWorker _ => inferInstanceAs (Decidable (_ = _))
  | .workerReceiver _ => inferInstanceAs (Decidable (_ < _))
  | .reply _ => inferInstanceAs (Decidable (_ ∧ _))
  | .garble .. => inferInstanceAs (Decidable False)
  | .connect .. | .disconnect _ | .clientSend .. | .clientReceiver _ | .changeWorkers _
  | .rewire _ | .announce .. | .takeRequest | .pickWorker | .worker .. | .work _ | .notifyFails _
  | .exportFails _ | .breakPeers _ | .takeResponse => inferInstanceAs (Decidable True)

instance decidableAtRest (s : State) : Decidable s.AtRest :=
  inferInstanceAs (Decidable (_ ∧ _ ∧ _ ∧ _ ∧ _))

theorem underway_of_atRest {s : State} (h : s.AtRest) : s.underway = 0 := by
  obtain ⟨hqueue, hrequest, hplaces, hresponses, hresponse⟩ := h
  simp only [State.underway, State.items, hqueue, hrequest, hresponses, hresponse,
    gather_eq_zero fun w hw => (hplaces w hw).1, gather_eq_zero fun w hw => (hplaces w hw).2.1,
    gather_eq_zero fun w hw => (hplaces w hw).2.2, pile_nil, Option.toList_none, add_zero]

section Runs

variable {net : Wiring} {d : Worker.Delivery} {n : Nat} {requestSlots : Nat → ClientRequest}
  {responseSlots : Nat → WorkerResponse} {ls : List Label} {t : State}

theorem inOrder_start (n : Nat) (net : Wiring) (requestSlots : Nat → ClientRequest)
    (responseSlots : Nat → WorkerResponse) : InOrder (start n net requestSlots responseSlots) := by
  refine ⟨fun x hx => ?_, fun x hx => ?_, Cluster.holds_start _ n, BoundedBuffer.settled_new _ _,
    BoundedBuffer.settled_new _ _⟩
  · rw [items_start] at hx
    exact absurd hx (Multiset.notMem_zero x)
  · rw [items_start] at hx
    exact absurd hx (Multiset.notMem_zero x)

theorem asked_run (hrun : exec (step d) (start n net requestSlots responseSlots) ls = some t)
    (hkept : Along (step d) Kept (start n net requestSlots responseSlots) ls) :
    ∀ q, t.asked q ≤ t.items.countP (fun x => x.question = some q) := by
  refine (exec_invariant_along (I := fun s => InOrder s ∧ ∀ q, s.asked q ≤
    s.items.countP (fun x => x.question = some q)) ?_ ⟨inOrder_start _ _ _ _, fun q => ?_⟩
    hkept hrun).2
  · intro s l u h hkept hstep
    exact ⟨inOrder_step h.1 (framed_of_kept hkept) hstep, asked_le_items h.1 h.2 hkept hstep⟩
  · exact Nat.zero_le _

/-- **Exactly once.** In every run whose steps lose nothing, the answers to a
question that clients have been sent and the requests and answers of it that
are underway are as many as the requests of it that were let in. So at rest
each of these has been answered, and once. -/
theorem answered_exactly_once
    (hrun : exec (step d) (start n net requestSlots responseSlots) ls = some t)
    (hkept : Along (step d) Kept (start n net requestSlots responseSlots) ls) :
    (∀ q, t.answered q + t.underway.countP (fun x => x.question = some q) = t.asked q) ∧
      (t.AtRest → ∀ q, t.answered q = t.asked q) := by
  have hframed : ∀ l ∈ ls, l.framed :=
    (along_label_iff hrun).mp (hkept.imp_of_exec (fun _ _ _ _ h => framed_of_kept h) hrun)
  have hcount : ∀ q, t.answered q + t.underway.countP (fun x => x.question = some q)
      = t.asked q := by
    intro q
    have hsplit : t.items.countP (fun x => x.question = some q)
        = t.underway.countP (fun x => x.question = some q) + t.answered q := by
      rw [items_eq_underway, Multiset.countP_add, pile, Multiset.coe_countP, List.countP_map]
      rfl
    have hle := (counted_run hframed hrun).items q
    have hge := asked_run hrun hkept q
    omega
  refine ⟨hcount, fun hrest q => ?_⟩
  have hnone := hcount q
  rwa [underway_of_atRest hrest, Multiset.countP_zero, Nat.add_zero] at hnone

/-- The run of a PUT and a GET loses nothing and comes to rest. -/
theorem answered_exactly_once_putAndGet :
    ∃ t, exec (step .firstAccepted) oneWorkerStart
        (putAndGet (CString.ofString "k") (CString.ofString "v")) = some t ∧
      t.asked ⟨1, false, CString.ofString "k"⟩ = 1 ∧
      t.answered ⟨1, false, CString.ofString "k"⟩ = t.asked ⟨1, false, CString.ofString "k"⟩ := by
  have hrun : (exec (step .firstAccepted) oneWorkerStart
      (putAndGet (CString.ofString "k") (CString.ofString "v"))).map (fun t =>
        (decide t.AtRest, t.asked ⟨1, false, CString.ofString "k"⟩)) = some (true, 1) := by
    decide +kernel
  have hkept : Along (step .firstAccepted) Kept oneWorkerStart
      (putAndGet (CString.ofString "k") (CString.ofString "v")) := by decide +kernel
  obtain ⟨t, ht, hends⟩ := Option.map_eq_some_iff.mp hrun
  obtain ⟨hrest, hasked⟩ := Prod.mk.inj hends
  exact ⟨t, ht, hasked, (answered_exactly_once ht hkept).2 (of_decide_eq_true hrest) _⟩

end Runs

end LoadBalancing.Pipeline.Fleet
