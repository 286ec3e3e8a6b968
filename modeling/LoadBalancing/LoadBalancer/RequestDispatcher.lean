/-
LoadBalancing.LoadBalancer.RequestDispatcher — one iteration of
`WorkerClientRequestDispatcherThread`, and which requests it can pass on.

`translate` is the decoding and re-encoding of a request, and
`dispatcherIteration` the loop body between two polls of the finish
signal, run without other threads. Sends go to sockets that answer as
`Lib.NetworkLib` says.

The client receiver threads accept a request when `ReceivePut` or
`ReceiveGet` does, and those check lengths on the wire; `SendStoreRequest`
and `SendRetrieveRequest` check the strings, and a string ends at its
first NUL. `HasKey` is the gap between the two. A request in the gap is
returned to the queue on every iteration.

Out of scope: the log output and the sleeps.

No `sorry`, no `axiom`, no `native_decide`.
-/
import LoadBalancing.Lib.StreamReassembly
import LoadBalancing.LoadBalancer.Queues
import LoadBalancing.LoadBalancer.WorkerList

namespace LoadBalancing.LoadBalancer

open LoadBalancing.Base LoadBalancing.Lib

/-! ## Translation -/

/-- What the dispatcher makes of a request: its data does not parse, its
type has no branch, or it goes to the encoder, which may refuse it. -/
inductive Translation where
  | unparsed
  | unsupported
  | encoded (message : Option Message)
  deriving DecidableEq

/-- Decode a client's request and encode the worker's. -/
def translate (request : ClientRequest) : Translation :=
  match MessageType.ofValue? request.messageType with
  | some .put =>
    match receivePut request.content with
    | .accept (key, value) =>
      .encoded (sendStoreRequest request.clientId.toUInt32 (CString.ofBuffer key)
        (CString.ofBuffer value))
    | _ => .unparsed
  | some .get =>
    match receiveGet request.content with
    | .accept key =>
      .encoded (sendRetrieveRequest request.clientId.toUInt32 (CString.ofBuffer key))
    | _ => .unparsed
  | _ => .unsupported

/-- `ClientDataReceiverThread` passes this request on. -/
def accepts (request : ClientRequest) : Bool :=
  match MessageType.ofValue? request.messageType with
  | some .put => match receivePut request.content with
    | .accept _ => true
    | _ => false
  | some .get => match receiveGet request.content with
    | .accept _ => true
    | _ => false
  | _ => false

/-! ## The loop body -/

/-- The queue, the registry, the wires of the worker sockets, and the
thread's two locals: `none` when `hasRequest` or `hasWorker` is not
set. -/
structure DispatcherState where
  queue : ClientRequestQueue
  workerList : WorkerList
  wires : Socket → SendSide
  request : Option ClientRequest
  worker : Option WorkerNode

/-- A `Send…` function on a socket: -1 for a message its checks refuse or
an invalid socket, else the result of `ProtocolSend`. -/
def sendMessage (answers : Socket → Nat → SocketAnswer) (wires : Socket → SendSide)
    (socket : Option Socket) (message : Option Message) : Int × (Socket → SendSide) :=
  match message, socket with
  | some m, some socket =>
    let sent := protocolSend (answers socket) m (wires socket)
    (sent.1, Function.update wires socket sent.2)
  | _, _ => (-1, wires)

/-- The branches behind a send: done, connection lost, failed. -/
def afterSend (s : DispatcherState) (request : ClientRequest) (worker : WorkerNode)
    (sendResult : Int) : DispatcherState :=
  if 0 < sendResult then { s with request := none, worker := none }
  else if sendResult = -2 ∨ sendResult = -3 then
    { s with
      workerList := (s.workerList.removeWorker worker.workerId).2
      queue := (returnClientRequestQueue s.queue request).2
      request := none
      worker := none }
  else
    { s with
      queue := (returnClientRequestQueue s.queue request).2
      request := none
      worker := none }

/-- `hasRequest && hasWorker`. -/
def dispatch (answers : Socket → Nat → SocketAnswer) (s : DispatcherState)
    (request : ClientRequest) (worker : WorkerNode) : DispatcherState :=
  match translate request with
  | .unparsed => { s with request := none, worker := some worker }
  | .unsupported => { s with request := some request, worker := some worker }
  | .encoded message =>
    let sent := sendMessage answers s.wires worker.workerSocket message
    afterSend { s with wires := sent.2 } request worker sent.1

/-- Behind `hasRequest`: get a worker unless there is one, and
dispatch. -/
def dispatchHeld (answers : Socket → Nat → SocketAnswer) (s : DispatcherState)
    (request : ClientRequest) : DispatcherState :=
  match s.worker with
  | some worker => dispatch answers s request worker
  | none =>
    match s.workerList.getNextWorker with
    | none => { s with request := some request }
    | some (worker, list) => dispatch answers { s with workerList := list } request worker

/-- One iteration of the loop. -/
def dispatcherIteration (answers : Socket → Nat → SocketAnswer) (s : DispatcherState) :
    DispatcherState :=
  match s.request with
  | some request => dispatchHeld answers s request
  | none =>
    match takeClientRequestQueue s.queue ClientRequest.zero with
    | (none, queue) => { s with queue := queue }
    | (some request, queue) => dispatchHeld answers { s with queue := queue } request

/-! ## Which requests can be translated -/

/-- The key field of a payload: a length that is not 0, and a first byte
that is not NUL. -/
def HasKey (payload : List UInt8) : Prop := payload.take 2 ≠ [0, 0] ∧ payload[2]? ≠ some 0

instance (payload : List UInt8) : Decidable (HasKey payload) :=
  inferInstanceAs (Decidable (_ ∧ _))

/-- On a payload that starts with a key field, `HasKey` says that the key
read as a string is not empty. -/
theorem hasKey_iff {key payload : List UInt8} (hlen : key.length ≤ maxKeySize)
    (hpre : lengthPrefixed key <+: payload) :
    HasKey payload ↔ (CString.ofBuffer key).strlen ≠ 0 := by
  obtain ⟨rest, rfl⟩ := hpre
  have hsize : (UInt16.ofNat key.length).toNat = key.length := by
    rw [UInt16.toNat_ofNat_of_lt']
    simp only [maxKeySize] at hlen
    simp only [UInt16.size]
    omega
  have htake : (lengthPrefixed key ++ rest).take 2 = writeUInt16 (UInt16.ofNat key.length) := by
    rw [lengthPrefixed, List.append_assoc]
    exact List.take_left' (by simp [writeUInt16])
  have hget : (lengthPrefixed key ++ rest)[2]? = (key ++ rest)[0]? := by
    rw [lengthPrefixed, List.append_assoc, List.getElem?_append_right (by simp [writeUInt16])]
    simp [writeUInt16]
  rw [HasKey, htake, hget, Ne, Ne, Ne, CString.strlen_ofBuffer_eq_zero]
  cases key with
  | nil => simp [writeUInt16, toBigEndian]
  | cons b bs =>
    have hne : writeUInt16 (UInt16.ofNat (b :: bs).length) ≠ [0, 0] := by
      intro hzero
      have hval := congrArg ofBigEndian hzero
      rw [writeUInt16, ofBigEndian_toBigEndian 2 _ (UInt16.toNat_lt _), hsize] at hval
      simp [ofBigEndian] at hval
    refine ⟨fun h hkey => ?_, fun h => ⟨hne, fun hb => h (Or.inr hb)⟩⟩
    rcases hkey with hnil | hb
    · cases hnil
    · exact h.2 hb

/-- **The gap between decoder and encoder.** An accepted request is
re-encoded exactly when it has a key. -/
theorem translate_of_accepts {request : ClientRequest} (h : accepts request = true) :
    ∃ message, translate request = .encoded message ∧
      (message = none ↔ ¬ HasKey request.content) ∧
      ∀ m, message = some m → (m.type = MessageType.storeRequest.value ∨
        m.type = MessageType.retrieveRequest.value) ∧ m.payload.length ≤ maxMessageSize := by
  unfold accepts at h
  split at h
  · rename_i htype
    split at h
    · rename_i kv hdec
      obtain ⟨key, value⟩ := kv
      obtain ⟨hkey, hvalue, hpre⟩ := (receivePut_eq_accept _ _ _).mp hdec
      have hiff := hasKey_iff hkey ((List.prefix_append _ _).trans hpre)
      have hvalidKey := validateKey_ofBuffer hkey
      have hvalidValue := validateValue_ofBuffer hvalue
      refine ⟨_, by simp [translate, htype, hdec]; rfl, ?_, ?_⟩
      · rw [hiff, ← hvalidKey]
        simp [sendStoreRequest, hvalidValue]
      · intro m hm
        have hk := CString.strlen_ofBuffer_le key
        have hv := CString.strlen_ofBuffer_le value
        simp only [CString.strlen, maxKeySize, maxValueSize] at hk hv hkey hvalue
        simp only [sendStoreRequest] at hm
        split at hm
        · cases hm
        · cases hm
          refine ⟨Or.inl rfl, ?_⟩
          simp [writeUInt32, writeUInt16, lengthPrefixed, maxMessageSize]
          omega
    · cases h
  · rename_i htype
    split at h
    · rename_i key hdec
      obtain ⟨hkey, hpre⟩ := (receiveGet_eq_accept _ _).mp hdec
      have hiff := hasKey_iff hkey hpre
      have hvalidKey := validateKey_ofBuffer hkey
      refine ⟨_, by simp [translate, htype, hdec]; rfl, ?_, ?_⟩
      · rw [hiff, ← hvalidKey]
        simp [sendRetrieveRequest]
      · intro m hm
        have hk := CString.strlen_ofBuffer_le key
        simp only [CString.strlen, maxKeySize] at hk hkey
        simp only [sendRetrieveRequest] at hm
        split at hm
        · cases hm
        · cases hm
          refine ⟨Or.inr rfl, ?_⟩
          simp [writeUInt32, writeUInt16, lengthPrefixed, maxMessageSize]
          omega
    · cases h
  · cases h

/-! ## Iterations against healthy workers -/

/-- The requests the dispatcher has still to deal with, in order. -/
def DispatcherState.pending (s : DispatcherState) : List ClientRequest :=
  s.request.toList ++ s.queue.contents

/-- A worker whose socket takes every byte. -/
def TakesAll (answers : Socket → Nat → SocketAnswer) (worker : WorkerNode) : Prop :=
  ∃ socket, worker.workerSocket = some socket ∧ Healthy (answers socket)

/-- The queue is between calls and holds accepted requests, the registry
lists a ready worker, and the socket of every worker takes every byte. -/
structure Ready (answers : Socket → Nat → SocketAnswer) (s : DispatcherState) : Prop where
  settled : s.queue.Settled
  accepted : ∀ r ∈ s.pending, accepts r = true
  count_eq : s.workerList.count = s.workerList.nodes.length
  selectable : ∃ node ∈ s.workerList.nodes, node.selectable = true
  healthy : ∀ node ∈ s.workerList.nodes, TakesAll answers node
  worker : ∀ node, s.worker = some node → TakesAll answers node

/-- The iteration sends one complete STORE_REQUEST or RETRIEVE_REQUEST,
clears the request and leaves the rest of the queue as it is. -/
def PassesOn (s s' : DispatcherState) (rest : List ClientRequest) : Prop :=
  (∃ socket calls, ∃ m : Message, (m.type = MessageType.storeRequest.value ∨
      m.type = MessageType.retrieveRequest.value) ∧
    s'.wires = Function.update s.wires socket ⟨calls, (s.wires socket).wire ++ m.frame⟩) ∧
  s'.request = none ∧ s'.queue.contents = rest

theorem accepts_of_same {a b : ClientRequest} (h : a.Same b) : accepts a = accepts b := by
  obtain ⟨-, -, htype, -, hcontent⟩ := h
  rw [accepts, accepts, htype, hcontent]

/-- What `dispatch` does with an accepted request that has a key: the
frame goes out, the locals are cleared. -/
theorem dispatch_of_hasKey {answers : Socket → Nat → SocketAnswer} {s : DispatcherState}
    {request : ClientRequest} {worker : WorkerNode} (hacc : accepts request = true)
    (hworker : TakesAll answers worker) (hkey : HasKey request.content) :
    ∃ socket calls, ∃ m : Message, (m.type = MessageType.storeRequest.value ∨
        m.type = MessageType.retrieveRequest.value) ∧
      dispatch answers s request worker = { s with
        wires := Function.update s.wires socket ⟨calls, (s.wires socket).wire ++ m.frame⟩
        request := none
        worker := none } := by
  obtain ⟨message, htranslate, hnone, hmessage⟩ := translate_of_accepts hacc
  obtain ⟨socket, hsocket, hhealthy⟩ := hworker
  cases message with
  | none => exact absurd hkey (hnone.mp rfl)
  | some m =>
    obtain ⟨htype, hsize⟩ := hmessage m rfl
    obtain ⟨calls, hsend⟩ := protocolSend_healthy hhealthy hsize (s.wires socket)
    refine ⟨socket, calls, m, htype, ?_⟩
    have hpos : (0 : Int) < ((headerSize + m.payload.length : Nat) : Int) := by
      simp only [headerSize]; omega
    simp only [dispatch, htranslate, hsocket, sendMessage, hsend, afterSend, if_pos hpos]

/-- What it does with one that has none: nothing is sent, and the request
goes back to the queue. -/
theorem dispatch_of_not_hasKey {answers : Socket → Nat → SocketAnswer} {s : DispatcherState}
    {request : ClientRequest} {worker : WorkerNode} (hacc : accepts request = true)
    (hkey : ¬ HasKey request.content) :
    dispatch answers s request worker = { s with
      queue := (returnClientRequestQueue s.queue request).2
      request := none
      worker := none } := by
  obtain ⟨message, htranslate, hnone, -⟩ := translate_of_accepts hacc
  obtain rfl := hnone.mpr hkey
  simp [dispatch, htranslate, sendMessage, afterSend]

/-- `dispatchHeld` dispatches: a ready state always has a worker. -/
theorem dispatchHeld_of_ready {answers : Socket → Nat → SocketAnswer} {s : DispatcherState}
    (h : Ready answers s) (request : ClientRequest) :
    ∃ worker current, TakesAll answers worker ∧
      dispatchHeld answers s request = dispatch answers
        { s with workerList := { s.workerList with current := current } } request worker := by
  unfold dispatchHeld
  cases hworker : s.worker with
  | some worker => exact ⟨worker, s.workerList.current, h.worker worker hworker, rfl⟩
  | none =>
    obtain ⟨node, hmem, hready⟩ := h.selectable
    obtain ⟨chosen, current, hnext, hchosen, -⟩ :=
      WorkerList.getNextWorker_of_selectable h.count_eq hmem hready
    refine ⟨chosen, current, h.healthy chosen hchosen, ?_⟩
    simp only [hnext]

/-- Every iteration of a ready state with something to do takes up its
first request. -/
theorem dispatcherIteration_of_ready {answers : Socket → Nat → SocketAnswer}
    {s : DispatcherState} (h : Ready answers s) {r : ClientRequest} {rest : List ClientRequest}
    (hpending : s.pending = r :: rest) :
    ∃ request worker current queue, request.Same r ∧ TakesAll answers worker ∧
      queue.Settled ∧ queue.contents = rest ∧
      (s.request = none → queue.ring.count < clientRequestQueueCapacity) ∧
      dispatcherIteration answers s = dispatch answers
        { s with queue := queue, workerList := { s.workerList with current := current } }
        request worker := by
  unfold dispatcherIteration
  cases hrequest : s.request with
  | some request =>
    rw [DispatcherState.pending, hrequest] at hpending
    obtain ⟨rfl, hrest⟩ := List.cons.inj hpending
    obtain ⟨worker, current, htakes, hdispatch⟩ := dispatchHeld_of_ready h request
    exact ⟨request, worker, current, s.queue, ⟨rfl, rfl, rfl, rfl, rfl⟩, htakes, h.settled, hrest,
      fun h0 => absurd h0 (by simp), hdispatch⟩
  | none =>
    rw [DispatcherState.pending, hrequest] at hpending
    obtain ⟨queue, hdequeue, hsettled, hcontents⟩ := h.settled.dequeue_cons hpending
    have hroom : queue.ring.count < clientRequestQueueCapacity := by
      have hle := s.queue.ring.count_le
      rw [s.queue.count_eq_length, show s.queue.contents = r :: rest from hpending] at hle
      rw [queue.count_eq_length, hcontents]
      rw [List.length_cons] at hle
      omega
    have h' : Ready answers { s with queue := queue } := by
      refine ⟨hsettled, fun x hx => h.accepted x ?_, h.count_eq, h.selectable, h.healthy,
        h.worker⟩
      rw [DispatcherState.pending, hrequest] at hx ⊢
      rw [show s.queue.contents = r :: rest from hpending]
      rw [hcontents] at hx
      simpa using Or.inr (by simpa using hx)
    obtain ⟨worker, current, htakes, hdispatch⟩ :=
      dispatchHeld_of_ready h' (r.copy ClientRequest.zero)
    refine ⟨r.copy ClientRequest.zero, worker, current, queue, r.same_copy _, htakes, hsettled,
      hcontents, fun _ => hroom, ?_⟩
    simp only [takeClientRequestQueue, hdequeue, Option.map_some]
    exact hdispatch

/-- An iteration on a request with a key sends it and leaves a ready
state. -/
theorem iteration_of_hasKey {answers : Socket → Nat → SocketAnswer} {s : DispatcherState}
    (h : Ready answers s) {r : ClientRequest} {rest : List ClientRequest}
    (hpending : s.pending = r :: rest) (hkey : HasKey r.content) :
    PassesOn s (dispatcherIteration answers s) rest ∧
      Ready answers (dispatcherIteration answers s) := by
  have hacc := h.accepted r (by rw [hpending]; simp)
  obtain ⟨request, worker, current, queue, hsame, htakes, hsettled, hcontents, -, hiter⟩ :=
    dispatcherIteration_of_ready h hpending
  obtain ⟨socket, calls, m, htype, hdispatch⟩ := dispatch_of_hasKey
    (s := { s with queue := queue, workerList := { s.workerList with current := current } })
    ((accepts_of_same hsame).trans hacc) htakes (hsame.2.2.2.2 ▸ hkey)
  rw [hiter, hdispatch]
  refine ⟨⟨⟨socket, calls, m, htype, rfl⟩, rfl, hcontents⟩, hsettled, fun x hx => ?_, h.count_eq,
    h.selectable, h.healthy, fun node hnode => by cases hnode⟩
  refine h.accepted x ?_
  rw [hpending]
  have hx' : x ∈ queue.contents := hx
  rw [hcontents] at hx'
  simp [hx']

/-- An iteration on a request without a key sends nothing; with room in
the queue the request is behind the others again. -/
theorem iteration_of_not_hasKey {answers : Socket → Nat → SocketAnswer} {s : DispatcherState}
    (h : Ready answers s) {r : ClientRequest} {rest : List ClientRequest}
    (hpending : s.pending = r :: rest) (hkey : ¬ HasKey r.content) :
    (dispatcherIteration answers s).wires = s.wires ∧
      (s.request = none → (dispatcherIteration answers s).request = none ∧
        (∃ r', r'.Same r ∧ (dispatcherIteration answers s).pending = rest ++ [r']) ∧
        Ready answers (dispatcherIteration answers s)) := by
  have hacc := h.accepted r (by rw [hpending]; simp)
  obtain ⟨request, worker, current, queue, hsame, -, hsettled, hcontents, hroom, hiter⟩ :=
    dispatcherIteration_of_ready h hpending
  have hdispatch : dispatch answers
      { s with queue := queue, workerList := { s.workerList with current := current } }
      request worker = _ :=
    dispatch_of_not_hasKey ((accepts_of_same hsame).trans hacc) (hsame.2.2.2.2 ▸ hkey)
  rw [hiter, hdispatch]
  refine ⟨rfl, fun hnone => ?_⟩
  obtain ⟨slot, queue', hput, hsettled', hcontents'⟩ := hsettled.enqueue (hroom hnone) request.copy
  have hqueue : (returnClientRequestQueue queue request).2 = queue' := by
    rw [returnClientRequestQueue, hput]
  have hsame' : (request.copy slot).Same r := (request.same_copy slot).trans hsame
  rw [hcontents] at hcontents'
  simp only [hqueue]
  refine ⟨trivial, ⟨request.copy slot, hsame', hcontents'⟩, hsettled', fun x hx => ?_, h.count_eq,
    h.selectable, h.healthy, fun node hnode => by cases hnode⟩
  have hx' : x ∈ rest ++ [request.copy slot] := hcontents' ▸ hx
  rcases List.mem_append.mp hx' with hx' | hx'
  · exact h.accepted x (by rw [hpending]; simp [hx'])
  · rw [List.mem_singleton.mp hx']
    exact (accepts_of_same hsame').trans hacc

/-- Requests with keys are all passed on, one an iteration. -/
theorem drains_of_hasKey {answers : Socket → Nat → SocketAnswer} {s : DispatcherState}
    (h : Ready answers s) (hkeys : ∀ r ∈ s.pending, HasKey r.content) :
    ∃ n, ((dispatcherIteration answers)^[n] s).pending = [] := by
  generalize hpending : s.pending = requests
  induction requests generalizing s with
  | nil => exact ⟨0, hpending⟩
  | cons r rest ih =>
    obtain ⟨⟨-, hnone, hcontents⟩, hready⟩ :=
      iteration_of_hasKey h hpending (hkeys r (by rw [hpending]; simp))
    have hnext : (dispatcherIteration answers s).pending = rest := by
      rw [DispatcherState.pending, hnone, hcontents]; rfl
    obtain ⟨n, hn⟩ := ih hready (fun x hx => hkeys x (by
      rw [hnext] at hx; rw [hpending]; simp [hx])) hnext
    exact ⟨n + 1, by rwa [Function.iterate_succ_apply]⟩

/-- A request without a key never leaves. -/
theorem keyless_stays {answers : Socket → Nat → SocketAnswer} (n : Nat) {s : DispatcherState}
    (h : Ready answers s) (hnone : s.request = none)
    (hpoison : ∃ r ∈ s.pending, ¬ HasKey r.content) :
    ∃ r ∈ ((dispatcherIteration answers)^[n] s).pending, ¬ HasKey r.content := by
  induction n generalizing s with
  | zero => exact hpoison
  | succ n ih =>
    rw [Function.iterate_succ_apply]
    obtain ⟨p, hp, hpkey⟩ := hpoison
    cases hpending : s.pending with
    | nil => rw [hpending] at hp; cases hp
    | cons r rest =>
      rw [hpending] at hp
      by_cases hkey : HasKey r.content
      · obtain ⟨⟨-, hnone', hcontents⟩, hready⟩ := iteration_of_hasKey h hpending hkey
        refine ih hready hnone' ⟨p, ?_, hpkey⟩
        rw [DispatcherState.pending, hnone', hcontents]
        rcases List.mem_cons.mp hp with rfl | hp
        · exact absurd hkey hpkey
        · simpa using hp
      · obtain ⟨-, hrest⟩ := iteration_of_not_hasKey h hpending hkey
        obtain ⟨hnone', ⟨r', hsame, hback⟩, hready⟩ := hrest hnone
        refine ih hready hnone' ?_
        rw [hback]
        rcases List.mem_cons.mp hp with rfl | hp
        · exact ⟨r', by simp, hsame.2.2.2.2 ▸ hpkey⟩
        · exact ⟨p, by simp [hp], hpkey⟩

/-- **Which accepted requests the dispatcher passes on.** Against workers
that take every byte, the next iteration sends an accepted request on
exactly when its key is not empty, and a dispatcher that holds no request
empties its queue in finitely many iterations exactly when no request in
it has an empty key. -/
theorem passesOn_iff_hasKey (answers : Socket → Nat → SocketAnswer) :
    (∀ (s : DispatcherState) (r : ClientRequest) (rest : List ClientRequest), Ready answers s →
      s.pending = r :: rest →
      (PassesOn s (dispatcherIteration answers s) rest ↔ HasKey r.content)) ∧
    (∀ s : DispatcherState, Ready answers s → s.request = none →
      ((∃ n, ((dispatcherIteration answers)^[n] s).pending = []) ↔
        ∀ r ∈ s.pending, HasKey r.content)) := by
  refine ⟨fun s r rest h hpending => ⟨fun hpasses => ?_, fun hkey => ?_⟩,
    fun s h hnone => ⟨fun hdrains r hr => ?_, fun hkeys => drains_of_hasKey h hkeys⟩⟩
  · by_contra hkey
    obtain ⟨⟨socket, calls, m, -, hwires⟩, -⟩ := hpasses
    rw [(iteration_of_not_hasKey h hpending hkey).1] at hwires
    have hwire := congrArg SendSide.wire (congrFun hwires socket)
    rw [Function.update_self] at hwire
    have hlen := congrArg List.length hwire
    simp [Message.frame, headerSize] at hlen
  · exact (iteration_of_hasKey h hpending hkey).1
  · by_contra hkey
    obtain ⟨n, hn⟩ := hdrains
    obtain ⟨x, hx, -⟩ := keyless_stays n h hnone ⟨r, hr, hkey⟩
    rw [hn] at hx
    cases hx

/-! ## One queued GET -/

/-- A GET of client 1 with this payload. -/
def getRequest (payload : List UInt8) : ClientRequest :=
  { Payload.ofMessage MessageType.get.value payload with clientSocket := some 7, clientId := 1 }

/-- The registry after worker 1 has connected and announced itself. -/
def oneWorkerList : WorkerList :=
  ((initializeWorkerList.addWorker ⟨some 1, 1, CString.empty, 5000⟩ true).2.setWorkerReady 1).2

/-- The dispatcher in front of a queue with one GET. -/
def oneGet (payload : List UInt8) : DispatcherState where
  queue := (putClientRequestQueue
    (initializeClientRequestQueue fun _ => ClientRequest.zero) (getRequest payload)).2
  workerList := oneWorkerList
  wires := fun _ => ⟨0, []⟩
  request := none
  worker := none

/-- Sockets that take one byte a call. -/
def byteByByte : Socket → Nat → SocketAnswer := fun _ _ => .count 1

theorem healthy_byteByByte (socket : Socket) : Healthy (byteByByte socket) :=
  ⟨fun _ => Or.inr ⟨1, by decide, rfl⟩, fun _ => ⟨0, by decide, by simp [byteByByte]⟩⟩

theorem oneGet_pending (payload : List UInt8) :
    (oneGet payload).pending = [(getRequest payload).copy ClientRequest.zero] := rfl

theorem accepts_oneGet {payload : List UInt8} (hacc : accepts (getRequest payload) = true) :
    ∀ r ∈ (oneGet payload).pending, accepts r = true := by
  intro r hr
  rw [oneGet_pending, List.mem_singleton] at hr
  rw [hr]
  exact (accepts_of_same (ClientRequest.same_copy _ _)).trans hacc

theorem ready_oneGet {payload : List UInt8} (hacc : accepts (getRequest payload) = true) :
    Ready byteByByte (oneGet payload) := by
  refine ⟨⟨rfl, rfl⟩, accepts_oneGet hacc, rfl, ⟨_, List.mem_singleton.mpr rfl, rfl⟩, ?_,
    fun node hnode => by cases hnode⟩
  intro node hnode
  have hnode' := List.mem_singleton.mp hnode
  exact ⟨1, by rw [hnode']; rfl, healthy_byteByByte 1⟩

theorem passesOn_iff_hasKey_oneGet :
    PassesOn (oneGet [0, 1, 107]) (dispatcherIteration byteByByte (oneGet [0, 1, 107])) [] ∧
      ∃ n, ((dispatcherIteration byteByByte)^[n] (oneGet [0, 1, 107])).pending = [] := by
  have hready : Ready byteByByte (oneGet [0, 1, 107]) := ready_oneGet (by decide)
  refine ⟨((passesOn_iff_hasKey byteByByte).1 _ _ _ hready (oneGet_pending _)).mpr (by decide),
    ((passesOn_iff_hasKey byteByByte).2 _ hready rfl).mpr fun r hr => ?_⟩
  rw [oneGet_pending, List.mem_singleton] at hr
  rw [hr]
  decide

/-- **A GET of the empty key is accepted and never passed on**: every
iteration puts it back. -/
theorem empty_key_poisons :
    accepts (getRequest [0, 0]) = true ∧
    ¬ ((∀ (s : DispatcherState) (r : ClientRequest) (rest : List ClientRequest),
        Ready byteByByte s → s.pending = r :: rest →
        PassesOn s (dispatcherIteration byteByByte s) rest) ∧
      ∀ s : DispatcherState, Ready byteByByte s → s.request = none →
        ∃ n, ((dispatcherIteration byteByByte)^[n] s).pending = []) := by
  refine ⟨by decide, fun hall => ?_⟩
  have hready : Ready byteByByte (oneGet [0, 0]) := ready_oneGet (by decide)
  obtain ⟨n, hn⟩ := hall.2 _ hready rfl
  have hpoison : ∃ r ∈ (oneGet [0, 0]).pending, ¬ HasKey r.content :=
    ⟨_, by rw [oneGet_pending]; exact List.mem_singleton.mpr rfl, by decide⟩
  obtain ⟨x, hx, -⟩ := keyless_stays n hready rfl hpoison
  rw [hn] at hx
  cases hx

end LoadBalancing.LoadBalancer
