/-
LoadBalancing.Pipeline.Hops — a request and its reply at each hop.

A call is spelled three ways on its way to the worker and its answer three
ways on the way back. Each hop decodes one spelling and encodes the next;
a lemma for each hop says that it does so without loss. The worker's hop
also changes its table, which represents the map behind the calls it has
handled.

No `sorry`, no `axiom`, no `native_decide`.
-/
import LoadBalancing.Pipeline.Service

namespace LoadBalancing.Pipeline

open LoadBalancing.Base LoadBalancing.Lib LoadBalancing.LoadBalancer LoadBalancing.Worker

/-! ## Spellings -/

/-- The fields a client's message spells. -/
def Request.fields : Request → Fields CString
  | .put key value => .put key value
  | .get key => .get key

/-- A key of 1 to 256 bytes, and a value of at most 256. -/
def Request.Valid (request : Request) : Prop := request.fields.InDomain

instance : DecidablePred Request.Valid
  | .put key value =>
    inferInstanceAs (Decidable
      ((1 ≤ key.bytes.length ∧ key.bytes.length ≤ maxKeySize) ∧
        value.bytes.length ≤ maxValueSize))
  | .get key =>
    inferInstanceAs (Decidable (1 ≤ key.bytes.length ∧ key.bytes.length ≤ maxKeySize))

/-- The fields the load balancer sends the worker for a call. -/
def Call.toWorker (call : Call) : Fields CString :=
  match call.request with
  | .put key value => .storeRequest call.clientId.toUInt32 key value
  | .get key => .retrieveRequest call.clientId.toUInt32 key

/-- The fields the worker answers with. -/
def Call.fromWorker (call : Call) (told : Answer CString) : Fields CString :=
  match call.request, told with
  | .put key _, _ => .storeResponse ErrorCode.none.value call.clientId.toUInt32 key
  | .get key, .found value =>
    .retrieveResponse ErrorCode.none.value call.clientId.toUInt32 key value
  | .get key, _ =>
    .retrieveResponse ErrorCode.keyNotFound.value call.clientId.toUInt32 key CString.empty

/-- The fields the client is answered with: the key it asked for, with
`ERR_NONE` for a PUT, with `ERR_NONE` and the value for a GET that found
one, and with `ERR_KEY_NOT_FOUND` and the empty value for a GET that found
none. -/
def Call.toClient (call : Call) (told : Answer CString) : Fields CString :=
  match call.request, told with
  | .put key _, _ => .putResponse ErrorCode.none.value key
  | .get key, .found value => .getResponse ErrorCode.none.value key value
  | .get key, _ => .getResponse ErrorCode.keyNotFound.value key CString.empty

/-- A value that is told is one a client could have stored. -/
def ValidAnswer : Answer CString → Prop
  | .found value => value.bytes.length ≤ maxValueSize
  | _ => True

/-- A call is valid when its request is. -/
def Call.Valid (call : Call) : Prop := call.request.Valid

section Domain

variable {call : Call} {told : Answer CString}

theorem Call.Valid.toWorker (h : call.Valid) : call.toWorker.InDomain := by
  unfold Call.Valid Request.Valid at h
  unfold Call.toWorker
  cases hrequest : call.request with
  | put key value =>
    rw [hrequest] at h
    exact h
  | get key =>
    rw [hrequest] at h
    exact h

theorem Call.Valid.fromWorker (h : call.Valid) (htold : ValidAnswer told) :
    (call.fromWorker told).InDomain := by
  unfold Call.Valid Request.Valid at h
  unfold Call.fromWorker
  cases hrequest : call.request with
  | put key value =>
    rw [hrequest] at h
    exact h.1
  | get key =>
    rw [hrequest] at h
    cases told with
    | found value => exact ⟨h, htold⟩
    | stored | missing => exact ⟨h, Nat.zero_le _⟩

theorem Call.Valid.toClient (h : call.Valid) (htold : ValidAnswer told) :
    (call.toClient told).InDomain := by
  unfold Call.Valid Request.Valid at h
  unfold Call.toClient
  cases hrequest : call.request with
  | put key value =>
    rw [hrequest] at h
    exact h.1
  | get key =>
    rw [hrequest] at h
    cases told with
    | found value => exact ⟨h, htold⟩
    | stored | missing => exact ⟨h, Nat.zero_le _⟩

end Domain

/-! ## From the client -/

/-- `SendPut` and `SendGet` send exactly the valid requests. -/
theorem Request.message_eq_some {request : Request} {m : Message} :
    request.message = some m ↔ request.Valid ∧ m = request.fields.message := by
  constructor
  · intro h
    have hvalid : request.Valid := by
      cases request with
      | put key value =>
        simp only [Request.message, sendPut] at h
        split at h
        · cases h
        · rename_i hcond
          simp only [Bool.or_eq_true, Bool.not_eq_true', not_or, Bool.not_eq_false] at hcond
          exact ⟨(validateKey_iff key).mp hcond.1, (validateValue_iff value).mp hcond.2⟩
      | get key =>
        simp only [Request.message, sendGet] at h
        split at h
        · cases h
        · rename_i hcond
          simp only [Bool.not_eq_true', Bool.not_eq_false] at hcond
          exact (validateKey_iff key).mp hcond
    have hencode : request.message = some request.fields.message := by
      cases request <;> exact Fields.InDomain.encode hvalid
    rw [hencode] at h
    exact ⟨hvalid, (Option.some.inj h).symm⟩
  · rintro ⟨hvalid, rfl⟩
    cases request <;> exact Fields.InDomain.encode hvalid

theorem receivePut_message {key value : CString} (h : (Fields.put key value).InDomain) :
    receivePut (Fields.put key value).message.payload = .accept (key.bytes, value.bytes) :=
  (receivePut_eq_accept _ _ _).mpr ⟨h.1.2, h.2, List.prefix_refl _⟩

theorem receiveGet_message {key : CString} (h : (Fields.get key).InDomain) :
    receiveGet (Fields.get key).message.payload = .accept key.bytes :=
  (receiveGet_eq_accept _ _).mpr ⟨h.2, List.prefix_refl _⟩

/-- **The client's receiver thread** decodes the request that was sent. -/
theorem requestOf_message {request : Request} (h : request.Valid) :
    requestOf request.fields.message = some request := by
  cases request with
  | put key value =>
    have hdec := receivePut_message h
    simp only [Request.fields] at hdec ⊢
    simp only [requestOf, Fields.message, Fields.type, MessageType.ofValue?_value] at hdec ⊢
    rw [hdec]
    simp only [CString.ofBuffer_bytes]
  | get key =>
    have hdec := receiveGet_message h
    simp only [Request.fields] at hdec ⊢
    simp only [requestOf, Fields.message, Fields.type, MessageType.ofValue?_value] at hdec ⊢
    rw [hdec]
    simp only [CString.ofBuffer_bytes]

/-- It hands the message on as it is. -/
theorem receiveFromClient_message {request : Request} (h : request.Valid) (workerCount : Nat)
    (queue : ClientRequestQueue) (clientSocket : Socket) (clientId : Int32) :
    receiveFromClient workerCount queue clientSocket clientId request.fields.message
      = enqueueRequest workerCount queue
          { Payload.ofMessage request.fields.message.type request.fields.message.payload with
            clientSocket := some clientSocket
            clientId := clientId } := by
  cases request with
  | put key value =>
    have hdec := receivePut_message h
    have htype : MessageType.ofValue? (Fields.put key value).message.type = some .put :=
      MessageType.ofValue?_value .put
    simp only [receiveFromClient, Request.fields, htype, hdec]
  | get key =>
    have hdec := receiveGet_message h
    have htype : MessageType.ofValue? (Fields.get key).message.type = some .get :=
      MessageType.ofValue?_value .get
    simp only [receiveFromClient, Request.fields, htype, hdec]

/-! ## To the worker -/

/-- **The request dispatcher** encodes the call it decodes. -/
theorem translate_message {call : Call} (h : call.Valid) {x : ClientRequest}
    (hid : x.clientId = call.clientId)
    (hmessage : (⟨x.messageType, x.content⟩ : Message) = call.request.fields.message) :
    LoadBalancer.translate x = .encoded (some call.toWorker.message) := by
  obtain ⟨htype, hcontent⟩ := Message.mk.inj hmessage
  have hencode := Fields.InDomain.encode h.toWorker
  unfold Call.Valid Request.Valid at h
  unfold Call.toWorker at hencode ⊢
  cases hrequest : call.request with
  | put key value =>
    rw [hrequest] at h htype hcontent hencode
    have hdec := receivePut_message h
    simp only [Request.fields, Fields.type] at htype hcontent
    simp only [LoadBalancer.translate, htype, MessageType.ofValue?_value, hcontent]
    simp only [Fields.message] at hdec
    rw [hdec]
    simp only [CString.ofBuffer_bytes, hid]
    exact congrArg Translation.encoded hencode
  | get key =>
    rw [hrequest] at h htype hcontent hencode
    have hdec := receiveGet_message h
    simp only [Request.fields, Fields.type] at htype hcontent
    simp only [LoadBalancer.translate, htype, MessageType.ofValue?_value, hcontent]
    simp only [Fields.message] at hdec
    rw [hdec]
    simp only [CString.ofBuffer_bytes, hid]
    exact congrArg Translation.encoded hencode

/-! ## At the worker -/

/-- A table represents the map behind some requests. -/
def Represents (table : HashTable) (requests : List Request) : Prop :=
  ∀ key, lookup table key = (latest key requests).map some

theorem represents_initializeHashTable : Represents initializeHashTable [] := by
  intro key
  rfl

/-- What is found was stored by one of the requests. -/
theorem validAnswer_answer {requests : List Request} (hvalid : ∀ r ∈ requests, r.Valid)
    (request : Request) : ValidAnswer (answer requests request) := by
  cases request with
  | put key value => exact trivial
  | get key =>
    simp only [answer]
    cases hlatest : latest key requests with
    | none => exact trivial
    | some value => exact (hvalid _ (put_of_latest hlatest)).2

/-- A key in the domain is not the empty string. -/
theorem ne_empty_of_length {key : CString} (h : 1 ≤ key.bytes.length) : key ≠ CString.empty := by
  intro heq
  rw [heq] at h
  exact absurd h (by simp)

/-- **The worker** answers a call from the map its table represents, and
its table represents the map behind one call more. -/
theorem handleMessage_message {call : Call} (h : call.Valid) {table : HashTable}
    {requests : List Request} (htable : Represents table requests)
    (hvalid : ∀ r ∈ requests, r.Valid) :
    ∃ table', handleMessage table call.toWorker.message true
        = .accept (table', some (call.fromWorker (answer requests call.request)).message) ∧
      Represents table' (requests ++ [call.request]) := by
  have hrequest := h.toWorker.encode
  have hresponse := (h.fromWorker (validAnswer_answer hvalid call.request)).encode
  unfold Call.Valid Request.Valid at h
  unfold Call.toWorker at hrequest ⊢
  unfold Call.fromWorker at hresponse ⊢
  cases hcall : call.request with
  | put key value =>
    rw [hcall] at h hrequest hresponse
    have hkey := ne_empty_of_length h.1.1
    obtain ⟨htype, hdec⟩ := storeRequest?_sendStoreRequest hrequest
    refine ⟨(setHashTable table key value true).2, ?_, ?_⟩
    · have hset : (setHashTable table key value true).1 = 1 :=
        setHashTable_eq_one.mpr ⟨hkey, rfl⟩
      simp only [handleMessage, htype, MessageType.ofValue?_value, hdec, storeResponse, hset,
        if_true]
      rw [show sendStoreResponse _ _ _ = _ from hresponse]
    · intro k
      rw [lookup_setHashTable hkey, latest_append_put, htable k]
      split <;> rfl
  | get key =>
    rw [hcall] at h hrequest hresponse
    have hkey := ne_empty_of_length h.1
    obtain ⟨htype, hdec⟩ := retrieveRequest?_sendRetrieveRequest hrequest
    refine ⟨table, ?_, ?_⟩
    · have hget : getHashTable table key true = _ := getHashTable_allocated hkey
      rw [htable key] at hget
      simp only [answer] at hresponse ⊢
      cases hlatest : latest key requests with
      | none =>
        rw [hlatest] at hget hresponse
        simp only [Option.map_none] at hget
        simp only [handleMessage, htype, MessageType.ofValue?_value, hdec, hget, retrieveResponse]
        rw [show sendRetrieveResponse _ _ _ _ = _ from hresponse]
      | some value =>
        rw [hlatest] at hget hresponse
        simp only [Option.map_some] at hget
        simp only [handleMessage, htype, MessageType.ofValue?_value, hdec, hget, retrieveResponse]
        rw [show sendRetrieveResponse _ _ _ _ = _ from hresponse]
    · intro k
      rw [latest_append_get, htable k]

/-! ## Back to the client -/

theorem receiveStoreResponse_message {result : UInt8} {clientId : UInt32} {key : CString}
    (h : (Fields.storeResponse result clientId key).InDomain) :
    receiveStoreResponse (Fields.storeResponse result clientId key).message.payload
      = .accept (result, clientId, key.bytes) :=
  (receiveStoreResponse_eq_accept _ _ _ _).mpr ⟨h.2, List.prefix_refl _⟩

theorem receiveRetrieveResponse_message {result : UInt8} {clientId : UInt32}
    {key value : CString} (h : (Fields.retrieveResponse result clientId key value).InDomain) :
    receiveRetrieveResponse (Fields.retrieveResponse result clientId key value).message.payload
      = .accept (result, clientId, key.bytes,
          (if result = ErrorCode.none.value then value else CString.empty).bytes) :=
  (receiveRetrieveResponse_eq_accept _ _ _ _ _).mpr
    ⟨h.1.2, h.decodable.2, List.prefix_refl _⟩

/-- **The worker's receiver thread** hands the response on as it is, for
the client the request was from. -/
theorem receiveFromWorker_message {call : Call} {told : Answer CString} (h : call.Valid)
    (htold : ValidAnswer told) (queue : WorkerResponseQueue) (workerSocket : Socket)
    (workerId : Int32) :
    receiveFromWorker queue workerSocket workerId (call.fromWorker told).message
      = enqueueResponse queue
          { Payload.ofMessage (call.fromWorker told).message.type
              (call.fromWorker told).message.payload with
            workerSocket := some workerSocket
            workerId := workerId
            clientId := call.clientId } := by
  have hdomain := h.fromWorker htold
  unfold Call.fromWorker at hdomain ⊢
  cases hcall : call.request with
  | put key value =>
    rw [hcall] at hdomain
    have hdec := receiveStoreResponse_message hdomain
    simp only [receiveFromWorker, Fields.message, Fields.type, MessageType.ofValue?_value] at hdec ⊢
    simp only [hdec, Int32.toInt32_toUInt32]
  | get key =>
    rw [hcall] at hdomain
    cases told with
    | found value =>
      have hdec := receiveRetrieveResponse_message hdomain
      simp only [receiveFromWorker, Fields.message, Fields.type, MessageType.ofValue?_value]
        at hdec ⊢
      simp only [hdec, Int32.toInt32_toUInt32]
    | stored | missing =>
      have hdec := receiveRetrieveResponse_message hdomain
      simp only [receiveFromWorker, Fields.message, Fields.type, MessageType.ofValue?_value]
        at hdec ⊢
      simp only [hdec, Int32.toInt32_toUInt32]

/-- **The response dispatcher** encodes the answer it decodes. -/
theorem responseMessage_message {call : Call} {told : Answer CString} (h : call.Valid)
    (htold : ValidAnswer told) {x : WorkerResponse}
    (hmessage : (⟨x.messageType, x.content⟩ : Message) = (call.fromWorker told).message) :
    responseMessage x = some (call.toClient told).message := by
  have htype : x.messageType = (call.fromWorker told).message.type :=
    congrArg Message.type hmessage
  have hcontent : x.content = (call.fromWorker told).message.payload :=
    congrArg Message.payload hmessage
  have hdomain := h.fromWorker htold
  have hencode := (h.toClient htold).encode
  unfold Call.fromWorker at hdomain htype hcontent
  unfold Call.toClient at hencode ⊢
  cases hcall : call.request with
  | put key value =>
    rw [hcall] at hdomain htype hcontent hencode
    have hdec := receiveStoreResponse_message hdomain
    simp only [Fields.message_type, Fields.type] at htype
    simp only [responseMessage, htype, MessageType.ofValue?_value, hcontent, hdec,
      CString.ofBuffer_bytes]
    exact hencode
  | get key =>
    rw [hcall] at hdomain htype hcontent hencode
    cases told with
    | found value =>
      have hdec := receiveRetrieveResponse_message hdomain
      simp only [Fields.message_type, Fields.type] at htype
      simp only [responseMessage, htype, MessageType.ofValue?_value, hcontent, hdec,
        CString.ofBuffer_bytes, if_true]
      exact hencode
    | stored | missing =>
      have hdec := receiveRetrieveResponse_message hdomain
      simp only [Fields.message_type, Fields.type] at htype
      simp only [responseMessage, htype, MessageType.ofValue?_value, hcontent, hdec,
        CString.ofBuffer_bytes, ite_self]
      exact hencode

end LoadBalancing.Pipeline
