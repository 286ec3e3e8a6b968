/-
LoadBalancing.Pipeline.Readings — what the messages of a request and of
its answer say.

`fieldsOf` reads any message by its type, as the decoders do, and cuts its
strings at the first NUL, as their callers do. The load balancer and the
workers turn one message into the next; the lemmas here say, for each of
these, how the two readings go together: same client id, same key, same
value.

No `sorry`, no `axiom`, no `native_decide`.
-/
import LoadBalancing.Pipeline.FleetPlaces
import LoadBalancing.Pipeline.Hops

namespace LoadBalancing.Pipeline

open LoadBalancing.Base LoadBalancing.Lib LoadBalancing.LoadBalancer LoadBalancing.Worker

/-! ## Reading a message -/

/-- The fields of a message, with its strings as strings. -/
def fieldsOf (message : Message) : Option (Fields CString) :=
  match MessageType.ofValue? message.type with
  | some type =>
    match decode type message.payload with
    | .accept fields => some (fields.map CString.ofBuffer)
    | _ => none
  | none => none

/-- A type byte that is recognized is the value of its type. -/
theorem value_of_ofValue? {b : UInt8} {type : MessageType}
    (h : MessageType.ofValue? b = some type) : type.value = b := by
  unfold MessageType.ofValue? at h
  have hvalue := List.find?_some h
  exact beq_iff_eq.mp hvalue

theorem fieldsOf_eq_some {message : Message} {type : MessageType}
    (fields : Fields (List UInt8)) (htype : MessageType.ofValue? message.type = some type)
    (hdecode : decode type message.payload = .accept fields) :
    fieldsOf message = some (fields.map CString.ofBuffer) := by
  simp only [fieldsOf, htype, hdecode]

/-- What the fields are is what the type says. -/
theorem type_of_fieldsOf {message : Message} {type : MessageType} {fields : Fields CString}
    (htype : MessageType.ofValue? message.type = some type) (h : fieldsOf message = some fields) :
    fields.type = type := by
  simp only [fieldsOf, htype] at h
  split at h
  · rename_i raw hdecode
    cases h
    rw [Fields.type_map]
    exact ((decode_eq_accept _ _ _).mp hdecode).1
  · cases h

/-- An error has no fields. -/
theorem fieldsOf_error {message : Message} (h : message.type = MessageType.error.value) :
    fieldsOf message = none := by
  simp only [fieldsOf, h, MessageType.ofValue?_value]
  rfl

/-- Of the kinds with a key only what is in the domain is sent. -/
theorem inDomain_of_encode {fields : Fields CString} {message : Message}
    (hkind : fields.type ≠ .workerEntry) (h : encode fields = some message) :
    fields.InDomain := by
  have hvalid : ∀ b : Bool, ∀ m : Message, (if !b then none else some m) = some message →
      b = true := by
    intro b m hm
    cases b
    · cases hm
    · rfl
  cases fields with
  | workerEntry => exact absurd rfl hkind
  | workerReady | dataExportStart => trivial
  | putResponse | get | storeResponse | retrieveRequest =>
    exact (validateKey_iff _).mp (hvalid _ _ h)
  | put | getResponse | storeRequest | retrieveResponse | dataEntry | peerNotify =>
    have hboth := hvalid (_ && _) _ ((by rw [Bool.not_and]; exact h))
    rw [Bool.and_eq_true] at hboth
    exact ⟨(validateKey_iff _).mp hboth.1, (validateValue_iff _).mp hboth.2⟩

/-- What is sent reads as what was to be sent, but for the value of a
failed lookup. -/
theorem fieldsOf_encode (fields : Fields CString) {message : Message}
    (hkind : fields.type ≠ .workerEntry) (h : encode fields = some message) :
    fieldsOf message = some (fields.withFailureValue CString.empty) := by
  obtain ⟨payload, hencode, hdecode⟩ := decode_encode (inDomain_of_encode hkind h)
  rw [hencode, Option.some.injEq] at h
  subst h
  rw [fieldsOf_eq_some _ (MessageType.ofValue?_value _) hdecode]
  cases fields <;> simp [Fields.withFailureValue, Fields.map, CString.ofBuffer_bytes]

/-! ## From the client to a worker -/

/-- The request dispatcher passes on what a client asked for, under the
client's id. -/
theorem translate_readings {request : ClientRequest} {message : Message}
    (h : LoadBalancer.translate request = .encoded (some message)) :
    (∃ key value, fieldsOf (Fleet.requestMessage request) = some (.put key value) ∧
        fieldsOf message = some (.storeRequest request.clientId.toUInt32 key value)) ∨
      ∃ key, fieldsOf (Fleet.requestMessage request) = some (.get key) ∧
        fieldsOf message = some (.retrieveRequest request.clientId.toUInt32 key) := by
  unfold LoadBalancer.translate at h
  split at h
  · rename_i htype
    split at h
    · rename_i key value hdecode
      refine Or.inl ⟨CString.ofBuffer key, CString.ofBuffer value, ?_, ?_⟩
      · exact fieldsOf_eq_some (.put key value) htype
          (by simp only [Fleet.requestMessage, decode, hdecode, Outcome.map])
      · exact fieldsOf_encode (.storeRequest _ _ _) (by simp [Fields.type])
          (Translation.encoded.inj h)
    · cases h
  · rename_i htype
    split at h
    · rename_i key hdecode
      refine Or.inr ⟨CString.ofBuffer key, ?_, ?_⟩
      · exact fieldsOf_eq_some (.get key) htype
          (by simp only [Fleet.requestMessage, decode, hdecode, Outcome.map])
      · exact fieldsOf_encode (.retrieveRequest _ _) (by simp [Fields.type])
          (Translation.encoded.inj h)
    · cases h
  · cases h

/-- A worker reads the store that is sent to it. -/
theorem fieldsOf_storeRequest {message : Message} {request : StoreRequest}
    (htype : MessageType.ofValue? message.type = some .storeRequest)
    (hdecode : storeRequest? message.payload = some request) :
    fieldsOf message = some (.storeRequest request.clientId request.key request.value) := by
  unfold storeRequest? at hdecode
  split at hdecode
  · rename_i clientId key value hreceive
    cases hdecode
    exact fieldsOf_eq_some (.storeRequest clientId key value) htype
      (by simp only [decode, hreceive, Outcome.map])
  · cases hdecode

/-- And the lookup. -/
theorem fieldsOf_retrieveRequest {message : Message} {request : RetrieveRequest}
    (htype : MessageType.ofValue? message.type = some .retrieveRequest)
    (hdecode : retrieveRequest? message.payload = some request) :
    fieldsOf message = some (.retrieveRequest request.clientId request.key) := by
  unfold retrieveRequest? at hdecode
  split at hdecode
  · rename_i clientId key hreceive
    cases hdecode
    exact fieldsOf_eq_some (.retrieveRequest clientId key) htype
      (by simp only [decode, hreceive, Outcome.map])
  · cases hdecode

/-! ## From a worker to the client -/

theorem fieldsOf_storeResponse {request : StoreRequest} {result : Int} {reply : Message}
    (h : storeResponse request result = some reply) :
    fieldsOf reply = some (.storeResponse
      (if result = 1 then ErrorCode.none.value else ErrorCode.networkError.value)
      request.clientId request.key) := by
  unfold storeResponse at h
  split at h
  · rename_i hresult
    rw [if_pos hresult]
    exact fieldsOf_encode (.storeResponse _ _ _) (by simp [Fields.type]) h
  · rename_i hresult
    rw [if_neg hresult]
    exact fieldsOf_encode (.storeResponse _ _ _) (by simp [Fields.type]) h

theorem fieldsOf_retrieveResponse {request : RetrieveRequest} {value : Option CString}
    {reply : Message} (h : retrieveResponse request value = some reply) :
    fieldsOf reply = some (match value with
      | some value =>
        .retrieveResponse ErrorCode.none.value request.clientId request.key value
      | none =>
        .retrieveResponse ErrorCode.keyNotFound.value request.clientId request.key
          CString.empty) := by
  cases value with
  | some value =>
    exact fieldsOf_encode (.retrieveResponse _ _ _ _) (by simp [Fields.type]) h
  | none =>
    have hread := fieldsOf_encode (.retrieveResponse _ _ _ _) (by simp [Fields.type]) h
    rw [hread]
    simp [Fields.withFailureValue]

/-- The response dispatcher passes on what a worker answered, or an
error. -/
theorem responseMessage_readings {response : WorkerResponse} {message : Message}
    (h : responseMessage response = some message) :
    (∃ result clientId key,
        fieldsOf (Fleet.workerMessage response) = some (.storeResponse result clientId key) ∧
        fieldsOf message = some (.putResponse result key)) ∨
      (∃ result clientId key value, fieldsOf (Fleet.workerMessage response)
          = some (.retrieveResponse result clientId key value) ∧
        fieldsOf message = some ((Fields.getResponse result key value).withFailureValue
          CString.empty)) ∨
      fieldsOf message = none := by
  have herror : ∀ {code : UInt8} {text : Option CString},
      sendError code text = some message → fieldsOf message = none := by
    intro code text hsend
    cases hsend
    exact fieldsOf_error rfl
  unfold responseMessage at h
  split at h
  · rename_i htype
    split at h
    · rename_i result clientId key hdecode
      refine Or.inl ⟨result, clientId, CString.ofBuffer key, ?_, ?_⟩
      · exact fieldsOf_eq_some (.storeResponse result clientId key) htype
          (by simp only [Fleet.workerMessage, decode, hdecode, Outcome.map])
      · exact fieldsOf_encode (.putResponse _ _) (by simp [Fields.type]) h
    · exact Or.inr (Or.inr (herror h))
  · rename_i htype
    split at h
    · rename_i result clientId key value hdecode
      refine Or.inr (Or.inl ⟨result, clientId, CString.ofBuffer key, CString.ofBuffer value,
        ?_, ?_⟩)
      · exact fieldsOf_eq_some (.retrieveResponse result clientId key value) htype
          (by simp only [Fleet.workerMessage, decode, hdecode, Outcome.map])
      · exact fieldsOf_encode (.getResponse _ _ _) (by simp [Fields.type]) h
    · exact Or.inr (Or.inr (herror h))
  · exact Or.inr (Or.inr (herror h))

/-- The client id in a response is in its fields. -/
theorem fieldsOf_of_responseClientId {message : Message} {clientId : UInt32}
    (h : Fleet.responseClientId message = some clientId) :
    (∃ result key, fieldsOf message = some (.storeResponse result clientId key)) ∨
      ∃ result key value,
        fieldsOf message = some (.retrieveResponse result clientId key value) := by
  unfold Fleet.responseClientId at h
  split at h
  · rename_i htype
    split at h
    · rename_i result id key hdecode
      cases h
      exact Or.inl ⟨result, CString.ofBuffer key,
        fieldsOf_eq_some (.storeResponse result clientId key) htype
          (by simp only [decode, hdecode, Outcome.map])⟩
    · cases h
  · rename_i htype
    split at h
    · rename_i result id key value hdecode
      cases h
      exact Or.inr ⟨result, CString.ofBuffer key, CString.ofBuffer value,
        fieldsOf_eq_some (.retrieveResponse result clientId key value) htype
          (by simp only [decode, hdecode, Outcome.map])⟩
    · cases h
  · cases h

end LoadBalancing.Pipeline
