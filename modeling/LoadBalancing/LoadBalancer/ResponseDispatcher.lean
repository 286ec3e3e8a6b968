/-
LoadBalancing.LoadBalancer.ResponseDispatcher — to which socket
`ClientWorkerResponseDispatcherThread` sends a worker's response.

The thread's `clientSocket` lives across iterations, and the result of
`GetClientSocketByClientId` is not looked at: a lookup that finds nothing
leaves the socket of the response before. The lookup scans the pool
without its lock, so each comparison and the read behind a match are
steps of their own, between which clients connect and leave.

`deliveries_right_of_undisturbed`: every delivery goes to the socket the
pool holds for the client as long as no lookup fails over a leftover
socket and no client leaves between its match and its delivery.
`stale_socket_leaks` is a run in which one client gets another's
response.

Out of scope: the queue the responses come from (any sequence of
responses is taken), and sends that fail.

No `sorry`, no `axiom`, no `native_decide`.
-/
import LoadBalancing.Base.Transition
import LoadBalancing.Lib.Protocol
import LoadBalancing.LoadBalancer.ClientThreadPool

namespace LoadBalancing.LoadBalancer

open LoadBalancing.Base LoadBalancing.Lib

/-- `"Invalid worker response"`. -/
def invalidWorkerResponse : CString := CString.ofString "Invalid worker response"

/-- `"Unsupported response type"`. -/
def unsupportedResponseType : CString := CString.ofString "Unsupported response type"

/-- The `switch` on the response type: the message for the client, `none`
when the encoder refuses it. -/
def responseMessage (response : WorkerResponse) : Option Message :=
  match MessageType.ofValue? response.messageType with
  | some .storeResponse =>
    match receiveStoreResponse response.content with
    | .accept (result, _, key) => sendPutResponse result (CString.ofBuffer key)
    | _ => sendError ErrorCode.protocolError.value (some invalidWorkerResponse)
  | some .retrieveResponse =>
    match receiveRetrieveResponse response.content with
    | .accept (result, _, key, value) =>
      sendGetResponse result (CString.ofBuffer key) (CString.ofBuffer value)
    | _ => sendError ErrorCode.protocolError.value (some invalidWorkerResponse)
  | _ => sendError ErrorCode.protocolError.value (some unsupportedResponseType)

namespace ResponseDispatcher

/-! ## The dispatcher and the pool -/

/-- Where the thread stands: in front of `TakeWorkerResponseQueue`, about
to compare slot `i`, about to read the socket of slot `i` behind a match,
and behind the lookup. -/
inductive DispatcherAt where
  | idle
  | scanning (response : WorkerResponse) (i : Nat)
  | matched (response : WorkerResponse) (i : Nat)
  | lookedUp (response : WorkerResponse)

/-- A message sent: for which client id, to which socket, and the pool at
that moment. -/
structure Delivery where
  clientId : Int32
  clientSocket : Socket
  message : Message
  pool : ClientThreadPool

/-- The pool, the id of the next client, the thread with its socket
variable, and the messages it has sent. -/
structure State where
  pool : ClientThreadPool
  nextClientId : Int32
  dispatcher : DispatcherAt
  clientSocket : Option Socket
  deliveries : List Delivery

/-- One step: a client connects, a client's receiver thread ends, or the
dispatcher takes a response, compares, reads the socket, or sends. -/
inductive Label where
  | connect (clientSocket : Socket) (start : ThreadStart)
  | disconnect (threadIndex : Nat)
  | take (response : WorkerResponse)
  | compare
  | readSocket
  | send

/-- One step. -/
def step (s : State) : Label → Option State
  | .connect clientSocket start =>
    let (pool, nextClientId) := s.pool.acceptClient s.nextClientId clientSocket start
    some { s with pool := pool, nextClientId := nextClientId }
  | .disconnect threadIndex =>
    match s.pool.slots[threadIndex]? with
    | some slot =>
      if slot.hasThread then
        some { s with pool := s.pool.returnClientDataReceiverThread threadIndex }
      else none
    | none => none
  | .take response =>
    match s.dispatcher with
    | .idle =>
      if response.clientId < 0 then some { s with dispatcher := .lookedUp response }
      else some { s with dispatcher := .scanning response 0 }
    | _ => none
  | .compare =>
    match s.dispatcher with
    | .scanning response i =>
      match s.pool.slots[i]? with
      | some slot =>
        if slot.clientId = response.clientId then
          some { s with dispatcher := .matched response i }
        else some { s with dispatcher := .scanning response (i + 1) }
      | none => some { s with dispatcher := .lookedUp response }
    | _ => none
  | .readSocket =>
    match s.dispatcher with
    | .matched response i =>
      match s.pool.slots[i]? with
      | some slot =>
        some { s with dispatcher := .lookedUp response, clientSocket := slot.clientSocket }
      | none => none
    | _ => none
  | .send =>
    match s.dispatcher with
    | .lookedUp response =>
      match s.clientSocket, responseMessage response with
      | some clientSocket, some message =>
        some { s with
          dispatcher := .idle
          deliveries := s.deliveries ++
            [⟨response.clientId, clientSocket, message, s.pool⟩] }
      | _, _ => some { s with dispatcher := .idle }
    | _ => none

/-- The load balancer before the first client. -/
def init : State := ⟨ClientThreadPool.initializePool, 1, .idle, none, []⟩

/-- Every message went to the socket the pool held for the response's
client. -/
def State.RightDeliveries (s : State) : Prop :=
  ∀ d ∈ s.deliveries, d.pool.Holds d.clientId d.clientSocket

/-- The condition on a step. A lookup that finds nothing (a negative id,
or a scan that reaches the end of the pool) happens only while the socket
variable is still invalid; and no client leaves between the match of its
response and the delivery. -/
def Undisturbed (s : State) : Label → Prop
  | .take response => response.clientId < 0 → s.clientSocket = none
  | .compare =>
    match s.dispatcher with
    | .scanning _ i => s.pool.slots[i]? = none → s.clientSocket = none
    | _ => True
  | .disconnect threadIndex =>
    match s.dispatcher with
    | .matched _ i => threadIndex ≠ i
    | .lookedUp response =>
      (s.pool.slots[threadIndex]?).all fun slot => slot.clientId != response.clientId
    | _ => True
  | _ => True

instance (s : State) (l : Label) : Decidable (Undisturbed s l) := by
  cases l with
  | take | connect | readSocket | send => simp only [Undisturbed]; infer_instance
  | compare => simp only [Undisturbed]; split <;> infer_instance
  | disconnect => simp only [Undisturbed]; split <;> infer_instance

/-! ## The invariant -/

/-- What the thread knows: a scan is for an id that is not negative, a
match still holds, and behind the lookup the socket variable is invalid or
the one the pool holds. -/
def DispatcherAt.Knows (pool : ClientThreadPool) (clientSocket : Option Socket) :
    DispatcherAt → Prop
  | .idle => True
  | .scanning response _ => 0 ≤ response.clientId
  | .matched response i =>
    0 ≤ response.clientId ∧ ∃ slot, pool.slots[i]? = some slot ∧ slot.clientId = response.clientId
  | .lookedUp response =>
    ∀ socket, clientSocket = some socket → 0 ≤ response.clientId ∧
      pool.Holds response.clientId socket

/-- The thread's knowledge is right, and so are the deliveries made. -/
structure Right (s : State) : Prop where
  knows : s.dispatcher.Knows s.pool s.clientSocket
  deliveries : s.RightDeliveries

theorem right_init : Right init := ⟨trivial, fun _ h => by cases h⟩

section Steps

variable {s t : State}

/-- Connecting a client changes no slot that has a client. -/
theorem holds_accept {pool : ClientThreadPool} {clientId : Int32} {socket : Socket}
    (hid : 0 ≤ clientId) (h : pool.Holds clientId socket) (newId : Int32) (newSocket : Socket)
    (start : ThreadStart) : (pool.acceptClient newId newSocket start).1.Holds clientId socket := by
  obtain ⟨slot, hmem, hslotId, hsocket⟩ := h
  obtain ⟨i, hi⟩ := List.mem_iff_getElem?.mp hmem
  exact ⟨slot, List.mem_of_getElem? (ClientThreadPool.accept_keeps hi (by rwa [hslotId])),
    hslotId, hsocket⟩

theorem right_connect {clientSocket : Socket} {start : ThreadStart} (hI : Right s)
    (h : step s (.connect clientSocket start) = some t) : Right t := by
  cases h
  refine ⟨?_, hI.deliveries⟩
  have hknows := hI.knows
  cases hd : s.dispatcher with
  | idle => exact trivial
  | scanning response i =>
    rw [hd] at hknows
    exact hknows
  | matched response i =>
    rw [hd] at hknows
    obtain ⟨hid, slot, hslot, hslotId⟩ := hknows
    exact ⟨hid, slot, ClientThreadPool.accept_keeps hslot (by rwa [hslotId]), hslotId⟩
  | lookedUp response =>
    rw [hd] at hknows
    intro socket hsocket
    obtain ⟨hid, hholds⟩ := hknows socket hsocket
    exact ⟨hid, holds_accept hid hholds _ _ _⟩

theorem right_disconnect {threadIndex : Nat} (hI : Right s)
    (hP : Undisturbed s (.disconnect threadIndex))
    (h : step s (.disconnect threadIndex) = some t) : Right t := by
  simp only [step] at h
  split at h
  · rename_i slot hslot
    split at h
    · cases h
      refine ⟨?_, hI.deliveries⟩
      have hknows := hI.knows
      cases hd : s.dispatcher with
      | idle => exact trivial
      | scanning response i =>
        rw [hd] at hknows
        exact hknows
      | matched response i =>
        rw [hd] at hknows
        simp only [Undisturbed, hd] at hP
        obtain ⟨hid, slot', hslot', hslotId⟩ := hknows
        exact ⟨hid, slot', ClientThreadPool.return_keeps hslot' hP, hslotId⟩
      | lookedUp response =>
        rw [hd] at hknows
        simp only [Undisturbed, hd] at hP
        intro socket hsocket
        obtain ⟨hid, slot', hmem, hslotId, hsock⟩ := hknows socket hsocket
        obtain ⟨i, hi⟩ := List.mem_iff_getElem?.mp hmem
        have hne : threadIndex ≠ i := by
          intro heq
          rw [heq, hi] at hP
          simp [hslotId] at hP
        exact ⟨hid, slot', List.mem_of_getElem? (ClientThreadPool.return_keeps hi hne), hslotId,
          hsock⟩
    · cases h
  · cases h

theorem right_take {response : WorkerResponse} (hI : Right s)
    (hP : Undisturbed s (.take response)) (h : step s (.take response) = some t) : Right t := by
  simp only [step] at h
  split at h
  · split at h
    · rename_i hneg
      cases h
      refine ⟨fun socket hsocket => ?_, hI.deliveries⟩
      have hnone := hP hneg
      simp only at hsocket
      rw [hnone] at hsocket
      cases hsocket
    · rename_i hpos
      cases h
      exact ⟨Int32.not_lt.mp hpos, hI.deliveries⟩
  · cases h

theorem right_compare (hI : Right s) (hP : Undisturbed s .compare)
    (h : step s .compare = some t) : Right t := by
  simp only [step] at h
  split at h
  · rename_i response i hd
    have hid : 0 ≤ response.clientId := by
      have hknows := hI.knows
      rw [hd] at hknows
      exact hknows
    split at h
    · rename_i slot hslot
      split at h
      · rename_i hmatch
        cases h
        exact ⟨⟨hid, slot, hslot, hmatch⟩, hI.deliveries⟩
      · cases h
        exact ⟨hid, hI.deliveries⟩
    · rename_i hend
      cases h
      simp only [Undisturbed, hd] at hP
      refine ⟨fun socket hsocket => ?_, hI.deliveries⟩
      simp only at hsocket
      rw [hP hend] at hsocket
      cases hsocket
  · cases h

theorem right_readSocket (hI : Right s) (h : step s .readSocket = some t) : Right t := by
  simp only [step] at h
  split at h
  · rename_i response i hd
    have hknows := hI.knows
    rw [hd] at hknows
    obtain ⟨hid, slot, hslot, hslotId⟩ := hknows
    rw [hslot] at h
    cases h
    exact ⟨fun socket hsocket => ⟨hid, slot, List.mem_of_getElem? hslot, hslotId, hsocket⟩,
      hI.deliveries⟩
  · cases h

theorem right_send (hI : Right s) (h : step s .send = some t) : Right t := by
  simp only [step] at h
  split at h
  · rename_i response hd
    have hknows := hI.knows
    rw [hd] at hknows
    split at h
    · rename_i socket message hsocket hmessage
      cases h
      refine ⟨trivial, fun d hmem => ?_⟩
      rcases List.mem_append.mp hmem with hmem | hmem
      · exact hI.deliveries d hmem
      · rw [List.mem_singleton.mp hmem]
        exact (hknows socket hsocket).2
    · cases h
      exact ⟨trivial, hI.deliveries⟩
  · cases h

end Steps

/-- **Step lemma.** -/
theorem right_step {s t : State} {l : Label} (hI : Right s) (hP : Undisturbed s l)
    (h : step s l = some t) : Right t := by
  cases l with
  | connect clientSocket start => exact right_connect hI h
  | disconnect threadIndex => exact right_disconnect hI hP h
  | take response => exact right_take hI hP h
  | compare => exact right_compare hI hP h
  | readSocket => exact right_readSocket hI h
  | send => exact right_send hI h

/-- **Deliveries of undisturbed runs go to the right client.** -/
theorem deliveries_right_of_undisturbed {ls : List Label} {s : State}
    (hP : Along step Undisturbed init ls) (h : exec step init ls = some s) :
    s.RightDeliveries := by
  have hI : Right s :=
    exec_invariant_along (fun _ _ _ hI hP hs => right_step hI hP hs) right_init hP h
  exact hI.deliveries

/-! ## A leaked response -/

/-- A worker's answer to a PUT of a client. -/
def putAnswer (clientId : Int32) : WorkerResponse :=
  { Payload.ofMessage MessageType.storeResponse.value [0, 0, 0, 0, 1, 0, 1, 107] with
    workerSocket := some 5, workerId := 1, clientId := clientId }

/-- Clients 1 and 2 connect on sockets 11 and 12, and client 1 gets its
answer. -/
def answeredRun : List Label :=
  [.connect 11 .started, .connect 12 .started, .take (putAnswer 1), .compare, .readSocket, .send]

/-- Client 2 leaves before its answer comes. -/
def staleRun : List Label :=
  answeredRun ++ [.disconnect 1, .take (putAnswer 2)] ++
    List.replicate (maxClients + 1) .compare ++ [.send]

theorem deliveries_right_of_undisturbed_answeredRun :
    ∃ s, exec step init answeredRun = some s ∧ s.RightDeliveries := by
  have hrun : (exec step init answeredRun).isSome = true := by decide
  obtain ⟨s, hs⟩ := Option.isSome_iff_exists.mp hrun
  exact ⟨s, hs, deliveries_right_of_undisturbed (by decide) hs⟩

/-- **One client gets another's response**: client 2 has left, its answer
goes to the socket of client 1. -/
theorem stale_socket_leaks :
    ¬ ∀ (ls : List Label) (s : State), exec step init ls = some s → s.RightDeliveries := by
  intro hall
  have hrun : (exec step init staleRun).map (fun s => s.deliveries.map fun d =>
      (d.clientId, d.clientSocket, decide (d.pool.Holds d.clientId d.clientSocket)))
        = some [(1, 11, true), (2, 11, false)] := by decide
  obtain ⟨s, hs, hvalues⟩ := Option.map_eq_some_iff.mp hrun
  have hmem : (2, 11, false) ∈ s.deliveries.map fun d =>
      (d.clientId, d.clientSocket, decide (d.pool.Holds d.clientId d.clientSocket)) := by
    rw [hvalues]; simp
  obtain ⟨d, hd, heq⟩ := List.mem_map.mp hmem
  have hholds := hall staleRun s hs d hd
  have hfalse := (Prod.mk.inj (Prod.mk.inj heq).2).2
  exact of_decide_eq_false hfalse hholds

end ResponseDispatcher

end LoadBalancing.LoadBalancer
