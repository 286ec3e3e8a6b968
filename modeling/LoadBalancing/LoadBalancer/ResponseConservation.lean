/-
LoadBalancing.LoadBalancer.ResponseConservation — where a worker's answer
can be between the worker receiver threads and the client it is for.

The worker receiver threads, the response queue and
`ClientWorkerResponseDispatcherThread` move one semaphore wait, critical
section, release, comparison or send at a time, in any interleaving, while
clients come and go. Every response a receiver thread reads gets a ticket,
a number no step looks at. A response for a connected client is owed to it
until that client leaves.

A receiver thread that finds the queue full answers the worker, not the
client, and forgets the response; and the dispatcher forgets one whose key
the encoders refuse, and one whose send fails. The invariant `Keeps`
survives every other step; `answers_kept` is the run theorem and
`full_queue_loses_answer` has the runs that lose an answer.

Out of scope: shutdown, and an overflow of the counter of client ids, in
front of which the model stops.

No `sorry`, no `axiom`, no `native_decide`.
-/
import LoadBalancing.Base.Threads
import LoadBalancing.LoadBalancer.DataReceivers
import LoadBalancing.LoadBalancer.ResponseDispatcher

namespace LoadBalancing.LoadBalancer.ResponseConservation

open LoadBalancing.Base LoadBalancing.Lib

/-! ## Threads and state -/

/-- A response and its ticket. -/
structure Ticketed where
  response : WorkerResponse
  ticket : Nat

/-- Copy a response over a slot; the ticket goes along. -/
def Ticketed.copy (src dst : Ticketed) : Ticketed := ⟨src.response.copy dst.response, src.ticket⟩

/-- Where a `WorkerDataReceiverThread` stands: in `ProtocolReceive`, behind
a successful decode, and inside `PutWorkerResponseQueue` behind the wait
and behind the critical section. -/
inductive ReceiverAt where
  | receiving
  | decoded (x : Ticketed)
  | putWaited (x : Ticketed)
  | putDone

/-- The response a receiver thread has in its hands. -/
@[simp] def ReceiverAt.hand : ReceiverAt → Option Ticketed
  | .decoded x | .putWaited x => some x
  | _ => none

/-- A worker receiver thread with its connection. -/
structure Receiver where
  workerSocket : Socket
  workerId : Int32
  pc : ReceiverAt

/-- Where the dispatcher stands: without a response, inside
`TakeWorkerResponseQueue`, in the lookup as in `ResponseDispatcher`, and
behind it. -/
inductive DispatcherAt where
  | idle
  | takeWaited
  | takeDone (x : Ticketed)
  | scanning (x : Ticketed) (i : Nat)
  | matched (x : Ticketed) (i : Nat)
  | lookedUp (x : Ticketed)

/-- The response the dispatcher holds. -/
@[simp] def DispatcherAt.held : DispatcherAt → Option Ticketed
  | .takeDone x | .scanning x _ | .matched x _ | .lookedUp x => some x
  | _ => none

/-- A response owed to a client: its ticket, and the client's slot in the
pool and socket. -/
structure Owed where
  ticket : Nat
  threadIndex : Nat
  clientSocket : Socket

/-- A message sent to a client for a response. -/
structure Sent where
  ticket : Nat
  clientSocket : Socket
  message : Message

/-- The load balancer, with the responses owed to connected clients, the
messages sent to clients, and the errors sent to workers. -/
structure State where
  pool : ClientThreadPool
  nextClientId : Int32
  receivers : List Receiver
  queue : BoundedBuffer Ticketed workerResponseQueueCapacity
  dispatcher : DispatcherAt
  clientSocket : Option Socket
  nextTicket : Nat
  owed : List Owed
  sent : List Sent
  workerErrors : List (Socket × Option Message)

/-- One step: a client or a worker connects, a client's thread ends, a
worker receiver thread moves, or the dispatcher moves. -/
inductive Label where
  | connect (clientSocket : Socket) (start : ThreadStart)
  | disconnect (threadIndex : Nat)
  | workerConnect (workerSocket : Socket) (workerId : Int32)
  | receive (w : Nat) (message : Message)
  | putWait (w : Nat)
  | putSection (w : Nat)
  | putRelease (w : Nat)
  | takeWait
  | takeSection
  | takeRelease
  | compare
  | readSocket
  | send (sendResult : Int)

/-- The response a receiver thread makes of a message that it can decode. -/
def Receiver.response? (r : Receiver) (message : Message) : Option WorkerResponse :=
  let response (clientId : UInt32) : WorkerResponse :=
    { Payload.ofMessage message.type message.payload with
      workerSocket := some r.workerSocket
      workerId := r.workerId
      clientId := clientId.toInt32 }
  match MessageType.ofValue? message.type with
  | some .storeResponse =>
    match receiveStoreResponse message.payload with
    | .accept (_, clientId, _) => some (response clientId)
    | _ => none
  | some .retrieveResponse =>
    match receiveRetrieveResponse message.payload with
    | .accept (_, clientId, _, _) => some (response clientId)
    | _ => none
  | _ => none

/-- The connected client at index `i`, if it has this id. -/
def ownerAt (pool : ClientThreadPool) (clientId : Int32) (ticket i : Nat) : Option Owed :=
  match pool.slots[i]? with
  | some slot =>
    if slot.hasThread ∧ slot.clientId = clientId then slot.clientSocket.map fun socket =>
      ⟨ticket, i, socket⟩
    else none
  | none => none

/-- The connected clients a response is owed to. -/
def owners (pool : ClientThreadPool) (clientId : Int32) (ticket : Nat) : List Owed :=
  (List.range maxClients).filterMap (ownerAt pool clientId ticket)

/-- Move receiver thread `w`. -/
def State.setReceiver (s : State) (w : Nat) (r : Receiver) (pc : ReceiverAt) : State :=
  { s with receivers := s.receivers.set w { r with pc := pc } }

/-- `PutWorkerResponseQueue` has returned 0: the error goes to the worker. -/
def State.refuse (s : State) (w : Nat) (r : Receiver) : State :=
  { s.setReceiver w r .receiving with
    workerErrors := s.workerErrors ++
      [(r.workerSocket, sendError ErrorCode.serverBusy.value (some serverIsBusy))] }

/-- `ProtocolReceive` and the decoder. -/
def receiveStep (s : State) (w : Nat) (r : Receiver) (message : Message) : Option State :=
  match r.pc with
  | .receiving =>
    match r.response? message with
    | some response =>
      some { s.setReceiver w r (.decoded ⟨response, s.nextTicket⟩) with
        nextTicket := s.nextTicket + 1
        owed := s.owed ++ owners s.pool response.clientId s.nextTicket }
    | none => some s
  | _ => none

/-- The wait of `PutWorkerResponseQueue`. -/
def putWaitStep (s : State) (w : Nat) (r : Receiver) : Option State :=
  match r.pc with
  | .decoded x =>
    match s.queue.waitNotFull with
    | none => some (s.refuse w r)
    | some queue => some { s.setReceiver w r (.putWaited x) with queue := queue }
  | _ => none

/-- The critical section of `PutWorkerResponseQueue`. -/
def putSectionStep (s : State) (w : Nat) (r : Receiver) : Option State :=
  match r.pc with
  | .putWaited x =>
    match s.queue.put x.copy with
    | none => some (s.refuse w r)
    | some queue => some { s.setReceiver w r .putDone with queue := queue }
  | _ => none

/-- The release of `PutWorkerResponseQueue`. -/
def putReleaseStep (s : State) (w : Nat) (r : Receiver) : Option State :=
  match r.pc with
  | .putDone => some { s.setReceiver w r .receiving with queue := s.queue.releaseNotEmpty }
  | _ => none

/-- The wait of `TakeWorkerResponseQueue`. -/
def takeWaitStep (s : State) : Option State :=
  match s.dispatcher with
  | .idle =>
    match s.queue.waitNotEmpty with
    | none => some s
    | some queue => some { s with queue := queue, dispatcher := .takeWaited }
  | _ => none

/-- The critical section of `TakeWorkerResponseQueue`. -/
def takeSectionStep (s : State) : Option State :=
  match s.dispatcher with
  | .takeWaited =>
    match s.queue.take with
    | none => some { s with dispatcher := .idle }
    | some (slot, queue) =>
      some { s with
        queue := queue
        dispatcher := .takeDone (slot.copy ⟨WorkerResponse.zero, 0⟩) }
  | _ => none

/-- The release of `TakeWorkerResponseQueue` and the start of the lookup. -/
def takeReleaseStep (s : State) : Option State :=
  match s.dispatcher with
  | .takeDone x =>
    some { s with
      queue := s.queue.releaseNotFull
      dispatcher := if x.response.clientId < 0 then .lookedUp x else .scanning x 0 }
  | _ => none

/-- One comparison of `GetClientSocketByClientId`. -/
def compareStep (s : State) : Option State :=
  match s.dispatcher with
  | .scanning x i =>
    match s.pool.slots[i]? with
    | some slot =>
      if slot.clientId = x.response.clientId then some { s with dispatcher := .matched x i }
      else some { s with dispatcher := .scanning x (i + 1) }
    | none => some { s with dispatcher := .lookedUp x }
  | _ => none

/-- The read of the socket behind a match. -/
def readSocketStep (s : State) : Option State :=
  match s.dispatcher with
  | .matched x i =>
    match s.pool.slots[i]? with
    | some slot =>
      some { s with dispatcher := .lookedUp x, clientSocket := slot.clientSocket }
    | none => none
  | _ => none

/-- The `switch` on the response type. A send that fails is only logged. -/
def sendStep (s : State) (sendResult : Int) : Option State :=
  match s.dispatcher with
  | .lookedUp x =>
    match s.clientSocket, responseMessage x.response with
    | some clientSocket, some message =>
      if 0 < sendResult then
        some { s with
          dispatcher := .idle
          sent := s.sent ++ [⟨x.ticket, clientSocket, message⟩] }
      else some { s with dispatcher := .idle }
    | _, _ => some { s with dispatcher := .idle }
  | _ => none

/-- One step. -/
def step (s : State) : Label → Option State
  | .connect clientSocket start =>
    if s.nextClientId < Int32.maxValue then
      some { s with
        pool := (s.pool.acceptClient s.nextClientId clientSocket start).1
        nextClientId := (s.pool.acceptClient s.nextClientId clientSocket start).2 }
    else none
  | .disconnect threadIndex =>
    match s.pool.slots[threadIndex]? with
    | some slot =>
      if slot.hasThread then
        some { s with
          pool := s.pool.returnClientDataReceiverThread threadIndex
          owed := s.owed.filter fun o => o.threadIndex != threadIndex }
      else none
    | none => none
  | .workerConnect workerSocket workerId =>
    some { s with receivers := s.receivers ++ [⟨workerSocket, workerId, .receiving⟩] }
  | .receive w message => (s.receivers[w]?).bind fun r => receiveStep s w r message
  | .putWait w => (s.receivers[w]?).bind fun r => putWaitStep s w r
  | .putSection w => (s.receivers[w]?).bind fun r => putSectionStep s w r
  | .putRelease w => (s.receivers[w]?).bind fun r => putReleaseStep s w r
  | .takeWait => takeWaitStep s
  | .takeSection => takeSectionStep s
  | .takeRelease => takeReleaseStep s
  | .compare => compareStep s
  | .readSocket => readSocketStep s
  | .send sendResult => sendStep s sendResult

/-- The load balancer as it starts, over whatever the slots hold. -/
def init (slots : Nat → Ticketed) : State where
  pool := ClientThreadPool.initializePool
  nextClientId := 1
  receivers := []
  queue := BoundedBuffer.new slots workerResponseQueueCapacity_pos
  dispatcher := .idle
  clientSocket := none
  nextTicket := 0
  owed := []
  sent := []
  workerErrors := []

/-- The responses in the hands of the receiver threads. -/
def State.hands (s : State) : List Ticketed := s.receivers.filterMap fun r => r.pc.hand

/-- An owed response is still with the receiver thread that read it, in the
queue, held by the dispatcher, or its client has been sent a message for
it. -/
def State.Accounted (s : State) (o : Owed) : Prop :=
  o.ticket ∈ s.hands.map Ticketed.ticket ∨ o.ticket ∈ s.queue.contents.map Ticketed.ticket ∨
    s.dispatcher.held.map Ticketed.ticket = some o.ticket ∨
    (o.ticket, o.clientSocket) ∈ s.sent.map fun d => (d.ticket, d.clientSocket)

instance (s : State) (o : Owed) : Decidable (s.Accounted o) :=
  inferInstanceAs (Decidable (_ ∨ _ ∨ _ ∨ _))

/-- No owed response is lost. -/
def State.NothingLost (s : State) : Prop := ∀ o ∈ s.owed, s.Accounted o

/-- The response is owed to somebody. -/
def State.Owes (s : State) (ticket : Nat) : Prop := ∃ o ∈ s.owed, o.ticket = ticket

instance (s : State) (ticket : Nat) : Decidable (s.Owes ticket) :=
  inferInstanceAs (Decidable (∃ o ∈ s.owed, _))

/-- The key of a response, as a string, is not empty. -/
def HasKey (message : Message) : Bool :=
  match MessageType.ofValue? message.type with
  | some .storeResponse =>
    match receiveStoreResponse message.payload with
    | .accept (_, _, key) => (CString.ofBuffer key).strlen != 0
    | _ => true
  | some .retrieveResponse =>
    match receiveRetrieveResponse message.payload with
    | .accept (_, _, key, _) => (CString.ofBuffer key).strlen != 0
    | _ => true
  | _ => true

/-- The condition on a step. A response for a connected client has a key,
finds a permit of `notFull` when its thread waits, and the send of it does
not fail. -/
def Answerable (s : State) : Label → Prop
  | .receive w message =>
    HasKey message = true ∨ ((s.receivers[w]?).all fun r =>
      (r.response? message).all fun response =>
        (owners s.pool response.clientId s.nextTicket).isEmpty) = true
  | .putWait w =>
    0 < s.queue.notFull.value ∨ ((s.receivers[w]?).all fun r => r.pc.hand.all fun x =>
      !decide (s.Owes x.ticket)) = true
  | .send sendResult =>
    0 < sendResult ∨ (s.dispatcher.held.all fun x => !decide (s.Owes x.ticket)) = true
  | _ => True

instance (s : State) (l : Label) : Decidable (Answerable s l) := by
  cases l <;> simp only [Answerable] <;> infer_instance

/-! ## What a step does -/

/-- The steps, with a constructor for each way through the code. -/
inductive Move (s : State) : Label → State → Prop
  | connected (clientSocket : Socket) (start : ThreadStart)
      (hnext : s.nextClientId < Int32.maxValue) :
      Move s (.connect clientSocket start) { s with
        pool := (s.pool.acceptClient s.nextClientId clientSocket start).1
        nextClientId := (s.pool.acceptClient s.nextClientId clientSocket start).2 }
  | disconnected (threadIndex : Nat) :
      Move s (.disconnect threadIndex) { s with
        pool := s.pool.returnClientDataReceiverThread threadIndex
        owed := s.owed.filter fun o => o.threadIndex != threadIndex }
  | workerConnected (workerSocket : Socket) (workerId : Int32) :
      Move s (.workerConnect workerSocket workerId)
        { s with receivers := s.receivers ++ [⟨workerSocket, workerId, .receiving⟩] }
  | received {w : Nat} {r : Receiver} {message : Message} {response : WorkerResponse}
      (hr : s.receivers[w]? = some r) (hpc : r.pc = .receiving)
      (hresponse : r.response? message = some response) :
      Move s (.receive w message)
        { s.setReceiver w r (.decoded ⟨response, s.nextTicket⟩) with
          nextTicket := s.nextTicket + 1
          owed := s.owed ++ owners s.pool response.clientId s.nextTicket }
  | ignored (w : Nat) (message : Message) : Move s (.receive w message) s
  | putTimesOut {w : Nat} {r : Receiver} {x : Ticketed} (hr : s.receivers[w]? = some r)
      (hpc : r.pc = .decoded x) (hwait : s.queue.waitNotFull = none) :
      Move s (.putWait w) (s.refuse w r)
  | putWaits {w : Nat} {r : Receiver} {x : Ticketed}
      {queue : BoundedBuffer Ticketed workerResponseQueueCapacity}
      (hr : s.receivers[w]? = some r) (hpc : r.pc = .decoded x)
      (hwait : s.queue.waitNotFull = some queue) :
      Move s (.putWait w) { s.setReceiver w r (.putWaited x) with queue := queue }
  | putFails {w : Nat} {r : Receiver} {x : Ticketed} (hr : s.receivers[w]? = some r)
      (hpc : r.pc = .putWaited x) (hput : s.queue.put x.copy = none) :
      Move s (.putSection w) (s.refuse w r)
  | puts {w : Nat} {r : Receiver} {x : Ticketed}
      {queue : BoundedBuffer Ticketed workerResponseQueueCapacity}
      (hr : s.receivers[w]? = some r) (hpc : r.pc = .putWaited x)
      (hput : s.queue.put x.copy = some queue) :
      Move s (.putSection w) { s.setReceiver w r .putDone with queue := queue }
  | putReturns {w : Nat} {r : Receiver} (hr : s.receivers[w]? = some r) (hpc : r.pc = .putDone) :
      Move s (.putRelease w)
        { s.setReceiver w r .receiving with queue := s.queue.releaseNotEmpty }
  | takeTimesOut : Move s .takeWait s
  | takeWaits {queue : BoundedBuffer Ticketed workerResponseQueueCapacity}
      (hd : s.dispatcher = .idle) (hwait : s.queue.waitNotEmpty = some queue) :
      Move s .takeWait { s with queue := queue, dispatcher := .takeWaited }
  | takeFails (hd : s.dispatcher = .takeWaited) (htake : s.queue.take = none) :
      Move s .takeSection { s with dispatcher := .idle }
  | takes {slot : Ticketed} {queue : BoundedBuffer Ticketed workerResponseQueueCapacity}
      (hd : s.dispatcher = .takeWaited) (htake : s.queue.take = some (slot, queue)) :
      Move s .takeSection { s with
        queue := queue
        dispatcher := .takeDone (slot.copy ⟨WorkerResponse.zero, 0⟩) }
  | takeReturns {x : Ticketed} (hd : s.dispatcher = .takeDone x) :
      Move s .takeRelease { s with
        queue := s.queue.releaseNotFull
        dispatcher := if x.response.clientId < 0 then .lookedUp x else .scanning x 0 }
  | slotMatches {x : Ticketed} {i : Nat} {slot : ClientSlot} (hd : s.dispatcher = .scanning x i)
      (hslot : s.pool.slots[i]? = some slot) (hid : slot.clientId = x.response.clientId) :
      Move s .compare { s with dispatcher := .matched x i }
  | differs {x : Ticketed} {i : Nat} {slot : ClientSlot} (hd : s.dispatcher = .scanning x i)
      (hslot : s.pool.slots[i]? = some slot) (hid : slot.clientId ≠ x.response.clientId) :
      Move s .compare { s with dispatcher := .scanning x (i + 1) }
  | notFound {x : Ticketed} {i : Nat} (hd : s.dispatcher = .scanning x i)
      (hslot : s.pool.slots[i]? = none) :
      Move s .compare { s with dispatcher := .lookedUp x }
  | socketRead {x : Ticketed} {i : Nat} {slot : ClientSlot} (hd : s.dispatcher = .matched x i)
      (hslot : s.pool.slots[i]? = some slot) :
      Move s .readSocket
        { s with dispatcher := .lookedUp x, clientSocket := slot.clientSocket }
  | sent {x : Ticketed} {clientSocket : Socket} {message : Message} {sendResult : Int}
      (hd : s.dispatcher = .lookedUp x) (hsocket : s.clientSocket = some clientSocket)
      (hmessage : responseMessage x.response = some message) (hsent : 0 < sendResult) :
      Move s (.send sendResult) { s with
        dispatcher := .idle
        sent := s.sent ++ [⟨x.ticket, clientSocket, message⟩] }
  | notSent {x : Ticketed} (sendResult : Int) (hd : s.dispatcher = .lookedUp x)
      (hnone : s.clientSocket = none ∨ responseMessage x.response = none) :
      Move s (.send sendResult) { s with dispatcher := .idle }
  | sendFails {x : Ticketed} {sendResult : Int} (hd : s.dispatcher = .lookedUp x)
      (hfails : ¬ 0 < sendResult) : Move s (.send sendResult) { s with dispatcher := .idle }

theorem receiveStep_move {s t : State} {w : Nat} {r : Receiver} {message : Message}
    (hr : s.receivers[w]? = some r) (h : receiveStep s w r message = some t) :
    Move s (.receive w message) t := by
  unfold receiveStep at h
  split at h
  · rename_i hpc
    cases hresponse : r.response? message with
    | none =>
      rw [hresponse] at h
      cases h
      exact .ignored w message
    | some response =>
      rw [hresponse] at h
      cases h
      exact .received hr hpc hresponse
  · cases h

theorem putWaitStep_move {s t : State} {w : Nat} {r : Receiver} (hr : s.receivers[w]? = some r)
    (h : putWaitStep s w r = some t) : Move s (.putWait w) t := by
  unfold putWaitStep at h
  split at h
  · rename_i x hpc
    split at h
    · rename_i hwait
      cases h
      exact .putTimesOut hr hpc hwait
    · rename_i queue hwait
      cases h
      exact .putWaits hr hpc hwait
  · cases h

theorem putSectionStep_move {s t : State} {w : Nat} {r : Receiver}
    (hr : s.receivers[w]? = some r) (h : putSectionStep s w r = some t) :
    Move s (.putSection w) t := by
  unfold putSectionStep at h
  split at h
  · rename_i x hpc
    split at h
    · rename_i hput
      cases h
      exact .putFails hr hpc hput
    · rename_i queue hput
      cases h
      exact .puts hr hpc hput
  · cases h

theorem putReleaseStep_move {s t : State} {w : Nat} {r : Receiver}
    (hr : s.receivers[w]? = some r) (h : putReleaseStep s w r = some t) :
    Move s (.putRelease w) t := by
  unfold putReleaseStep at h
  split at h
  · rename_i hpc
    cases h
    exact .putReturns hr hpc
  · cases h

theorem takeWaitStep_move {s t : State} (h : takeWaitStep s = some t) : Move s .takeWait t := by
  unfold takeWaitStep at h
  split at h
  · rename_i hd
    split at h
    · cases h
      exact .takeTimesOut
    · rename_i queue hwait
      cases h
      exact .takeWaits hd hwait
  · cases h

theorem takeSectionStep_move {s t : State} (h : takeSectionStep s = some t) :
    Move s .takeSection t := by
  unfold takeSectionStep at h
  split at h
  · rename_i hd
    split at h
    · rename_i htake
      cases h
      exact .takeFails hd htake
    · rename_i slot queue htake
      cases h
      exact .takes hd htake
  · cases h

theorem compareStep_move {s t : State} (h : compareStep s = some t) : Move s .compare t := by
  unfold compareStep at h
  split at h
  · rename_i x i hd
    split at h
    · rename_i slot hslot
      split at h
      · rename_i hid
        cases h
        exact .slotMatches hd hslot hid
      · rename_i hid
        cases h
        exact .differs hd hslot hid
    · rename_i hslot
      cases h
      exact .notFound hd hslot
  · cases h

theorem sendStep_move {s t : State} {sendResult : Int} (h : sendStep s sendResult = some t) :
    Move s (.send sendResult) t := by
  unfold sendStep at h
  split at h
  · rename_i x hd
    split at h
    · rename_i clientSocket message hsocket hmessage
      split at h
      · rename_i hsent
        cases h
        exact .sent hd hsocket hmessage hsent
      · rename_i hfails
        cases h
        exact .sendFails hd hfails
    · rename_i hboth
      cases h
      refine .notSent sendResult hd ?_
      cases hsocket : s.clientSocket with
      | none => exact Or.inl rfl
      | some clientSocket =>
        cases hmessage : responseMessage x.response with
        | none => exact Or.inr rfl
        | some message => exact absurd hmessage (hboth clientSocket message hsocket)
  · cases h

/-- **Inversion.** A step is one of the moves. -/
theorem step_move {s t : State} {l : Label} (h : step s l = some t) : Move s l t := by
  cases l with
  | connect clientSocket start =>
    simp only [step] at h
    split at h
    · rename_i hnext
      cases h
      exact .connected clientSocket start hnext
    · cases h
  | disconnect threadIndex =>
    simp only [step] at h
    split at h
    · split at h
      · cases h
        exact .disconnected threadIndex
      · cases h
    · cases h
  | workerConnect workerSocket workerId =>
    cases h
    exact .workerConnected workerSocket workerId
  | receive w message =>
    obtain ⟨r, hr, hstep⟩ := Option.bind_eq_some_iff.mp h
    exact receiveStep_move hr hstep
  | putWait w =>
    obtain ⟨r, hr, hstep⟩ := Option.bind_eq_some_iff.mp h
    exact putWaitStep_move hr hstep
  | putSection w =>
    obtain ⟨r, hr, hstep⟩ := Option.bind_eq_some_iff.mp h
    exact putSectionStep_move hr hstep
  | putRelease w =>
    obtain ⟨r, hr, hstep⟩ := Option.bind_eq_some_iff.mp h
    exact putReleaseStep_move hr hstep
  | takeWait => exact takeWaitStep_move h
  | takeSection => exact takeSectionStep_move h
  | takeRelease =>
    simp only [step, takeReleaseStep] at h
    split at h
    · rename_i x hd
      cases h
      exact .takeReturns hd
    · cases h
  | compare => exact compareStep_move h
  | readSocket =>
    simp only [step, readSocketStep] at h
    split at h
    · rename_i x i hd
      split at h
      · rename_i slot hslot
        cases h
        exact .socketRead hd hslot
      · cases h
    · cases h
  | send sendResult => exact sendStep_move h

/-! ## The ids in the pool -/

/-- The counter goes up. -/
theorem lt_succ_of_lt_max {n : Int32} (hn : 0 ≤ n) (hmax : n < Int32.maxValue) :
    0 ≤ n + 1 ∧ n < n + 1 := by
  have hn' : 0 ≤ n.toInt := Int32.le_iff_toInt_le.mp hn
  have hmax' : n.toInt < 2147483647 := Int32.lt_iff_toInt_lt.mp hmax
  have hadd : (n + 1).toInt = n.toInt + 1 := by
    rw [Int32.toInt_add]
    show (n.toInt + 1).bmod _ = _
    rw [Int.bmod_eq_of_le] <;> omega
  rw [Int32.le_iff_toInt_le, Int32.lt_iff_toInt_lt, hadd]
  constructor
  · show (0 : Int) ≤ _
    omega
  · omega

/-- The ids in the pool that are not negative are below the counter and
differ, and a slot with a thread has one. -/
structure Numbered (pool : ClientThreadPool) (nextClientId : Int32) : Prop where
  next : 0 ≤ nextClientId
  below : ∀ (i : Nat) (slot : ClientSlot), pool.slots[i]? = some slot → 0 ≤ slot.clientId →
    slot.clientId < nextClientId
  threads : ∀ (i : Nat) (slot : ClientSlot), pool.slots[i]? = some slot → slot.hasThread = true →
    0 ≤ slot.clientId
  differ : ∀ (i j : Nat) (slot slot' : ClientSlot), pool.slots[i]? = some slot →
    pool.slots[j]? = some slot' → 0 ≤ slot.clientId → slot.clientId = slot'.clientId → i = j

theorem numbered_initializePool : Numbered ClientThreadPool.initializePool 1 := by
  have hempty : ∀ (i : Nat) (slot : ClientSlot),
      ClientThreadPool.initializePool.slots[i]? = some slot → slot = ClientSlot.empty :=
    fun i slot hslot => List.eq_of_mem_replicate (List.mem_of_getElem? hslot)
  constructor
  · decide
  · intro i slot hslot hid
    rw [hempty i slot hslot] at hid
    exact absurd hid (by decide)
  · intro i slot hslot hthread
    rw [hempty i slot hslot] at hthread
    cases hthread
  · intro i j slot slot' hslot _ hid _
    rw [hempty i slot hslot] at hid
    exact absurd hid (by decide)

section Pool

variable {pool pool' : ClientThreadPool} {nextClientId nextClientId' : Int32}

/-- A slot is freed, or the counter moves. -/
theorem Numbered.free (h : Numbered pool nextClientId) {i : Nat}
    (hslots : pool'.slots = pool.slots.set i ClientSlot.empty)
    (hnext : nextClientId ≤ nextClientId') : Numbered pool' nextClientId' := by
  have hold : ∀ (j : Nat) (slot : ClientSlot), pool'.slots[j]? = some slot →
      pool.slots[j]? = some slot ∨ slot = ClientSlot.empty := by
    intro j slot hslot
    rw [hslots] at hslot
    rcases getElem?_set_cases hslot with ⟨-, hkept⟩ | ⟨-, hnew⟩
    · exact Or.inl hkept
    · exact Or.inr hnew
  have hid : ∀ (j : Nat) (slot : ClientSlot), pool'.slots[j]? = some slot → 0 ≤ slot.clientId →
      pool.slots[j]? = some slot := by
    intro j slot hslot hpos
    rcases hold j slot hslot with hslot | rfl
    · exact hslot
    · exact absurd hpos (by decide)
  constructor
  · exact Int32.le_trans h.next hnext
  · intro j slot hslot hpos
    exact Int32.lt_of_lt_of_le (h.below j slot (hid j slot hslot hpos) hpos) hnext
  · intro j slot hslot hthread
    rcases hold j slot hslot with hslot | rfl
    · exact h.threads j slot hslot hthread
    · cases hthread
  · intro j k slot slot' hslot hslot' hpos heq
    exact h.differ j k slot slot' (hid j slot hslot hpos)
      (hid k slot' hslot' (by rwa [← heq])) hpos heq

/-- A slot is taken with the next id. -/
theorem Numbered.take (h : Numbered pool nextClientId) {i : Nat} {hasThread : Bool}
    {clientSocket : Socket}
    (hslots : pool'.slots = pool.slots.set i (ClientSlot.taken hasThread clientSocket nextClientId))
    (hnext : 0 ≤ nextClientId' ∧ nextClientId < nextClientId') : Numbered pool' nextClientId' := by
  have hold : ∀ (j : Nat) (slot : ClientSlot), pool'.slots[j]? = some slot →
      (i ≠ j ∧ pool.slots[j]? = some slot) ∨ (i = j ∧ slot.clientId = nextClientId) := by
    intro j slot hslot
    rw [hslots] at hslot
    rcases getElem?_set_cases hslot with hkept | ⟨hij, hnew⟩
    · exact Or.inl hkept
    · exact Or.inr ⟨hij, congrArg ClientSlot.clientId hnew⟩
  constructor
  · exact hnext.1
  · intro j slot hslot hpos
    rcases hold j slot hslot with ⟨-, hslot⟩ | ⟨-, hid⟩
    · exact Int32.lt_trans (h.below j slot hslot hpos) hnext.2
    · rw [hid]
      exact hnext.2
  · intro j slot hslot hthread
    rcases hold j slot hslot with ⟨-, hslot⟩ | ⟨-, hid⟩
    · exact h.threads j slot hslot hthread
    · rw [hid]
      exact h.next
  · intro j k slot slot' hslot hslot' hpos heq
    rcases hold j slot hslot with ⟨-, hslot⟩ | ⟨hij, hid⟩ <;>
      rcases hold k slot' hslot' with ⟨-, hslot'⟩ | ⟨hik, hid'⟩
    · exact h.differ j k slot slot' hslot hslot' hpos heq
    · have hlt := h.below j slot hslot hpos
      rw [heq, hid'] at hlt
      exact (Int32.lt_irrefl hlt).elim
    · have hlt := h.below k slot' hslot' (by rwa [← heq])
      rw [← heq, hid] at hlt
      exact (Int32.lt_irrefl hlt).elim
    · exact hij.symm.trans hik

theorem Numbered.accept (h : Numbered pool nextClientId) (hmax : nextClientId < Int32.maxValue)
    (clientSocket : Socket) (start : ThreadStart) :
    Numbered (pool.acceptClient nextClientId clientSocket start).1
      (pool.acceptClient nextClientId clientSocket start).2 := by
  have hsucc := lt_succ_of_lt_max h.next hmax
  rcases ClientThreadPool.accept_effect pool nextClientId clientSocket start with
    ⟨hslots, hnext⟩ | ⟨i, slot, hslots, hnext, rfl | ⟨hasThread, rfl⟩⟩
  · have hle : nextClientId ≤ (pool.acceptClient nextClientId clientSocket start).2 := by
      rcases hnext with hnext | hnext
      · rw [hnext]
        exact Int32.le_refl _
      · rw [hnext]
        exact Int32.le_of_lt hsucc.2
    constructor
    · exact Int32.le_trans h.next hle
    · intro i slot hslot hpos
      rw [hslots] at hslot
      exact Int32.lt_of_lt_of_le (h.below i slot hslot hpos) hle
    · rw [hslots]
      exact h.threads
    · rw [hslots]
      exact h.differ
  · exact h.free hslots (by rw [hnext]; exact Int32.le_of_lt hsucc.2)
  · exact h.take hslots (by rw [hnext]; exact hsucc)

end Pool

/-! ## The invariant -/

/-- A response that answers what is owed: its ticket, for the client id,
and the encoders take it. -/
structure Answers (o : Owed) (clientId : Int32) (x : Ticketed) : Prop where
  ticket : x.ticket = o.ticket
  clientId_eq : x.response.clientId = clientId
  encodes : responseMessage x.response ≠ none

/-- The dispatcher has the response, has not passed the client's slot in
its lookup, and takes the client's socket from it. -/
def DispatcherAt.Carries (clientSocket : Option Socket) (o : Owed) (clientId : Int32) :
    DispatcherAt → Prop
  | .takeDone x => Answers o clientId x
  | .scanning x i => Answers o clientId x ∧ i ≤ o.threadIndex
  | .matched x i => Answers o clientId x ∧ i = o.threadIndex
  | .lookedUp x => Answers o clientId x ∧ clientSocket = some o.clientSocket
  | _ => False

/-- Where an owed response is. -/
def State.Traced (s : State) (o : Owed) (clientId : Int32) : Prop :=
  (∃ r ∈ s.receivers, ∃ x, r.pc.hand = some x ∧ Answers o clientId x) ∨
  (∃ x ∈ s.queue.contents, Answers o clientId x) ∨
  s.dispatcher.Carries s.clientSocket o clientId ∨
  (∃ d ∈ s.sent, d.ticket = o.ticket ∧ d.clientSocket = o.clientSocket)

/-- The client a response is owed to is in the pool. -/
def Owed.InPool (o : Owed) (pool : ClientThreadPool) (clientId : Int32) : Prop :=
  ∃ slot, pool.slots[o.threadIndex]? = some slot ∧ 0 ≤ slot.clientId ∧
    slot.clientId = clientId ∧ slot.clientSocket = some o.clientSocket

/-- Receiver threads behind their wait. -/
@[simp] def ReceiverAt.putWaiting : ReceiverAt → Nat
  | .putWaited _ => 1
  | _ => 0

/-- Receiver threads behind their critical section. -/
@[simp] def ReceiverAt.putPending : ReceiverAt → Nat
  | .putDone => 1
  | _ => 0

/-- The dispatcher behind its wait, and behind its critical section. -/
@[simp] def DispatcherAt.permits : DispatcherAt → Nat × Nat
  | .takeWaited => (1, 0)
  | .takeDone _ => (0, 1)
  | _ => (0, 0)

/-- The threads between two steps of a queue call. -/
def State.permits (s : State) : BoundedBuffer.Pending where
  putWaited := total (fun r => r.pc.putWaiting) s.receivers
  putDone := total (fun r => r.pc.putPending) s.receivers
  takeWaited := s.dispatcher.permits.1
  takeDone := s.dispatcher.permits.2

/-- **The invariant.** The semaphores fit the queue, the ids in the pool
differ, and every owed response is for a client in the pool and somewhere
on its way. -/
structure Keeps (s : State) : Prop where
  accounts : s.queue.Accounts s.permits
  numbered : Numbered s.pool s.nextClientId
  traced : ∀ o ∈ s.owed, ∃ clientId, o.InPool s.pool clientId ∧ s.Traced o clientId

theorem keeps_init (slots : Nat → Ticketed) : Keeps (init slots) :=
  ⟨BoundedBuffer.accounts_new slots (by decide), numbered_initializePool, nofun⟩

/-- What is traced is accounted for. -/
theorem Keeps.nothingLost {s : State} (h : Keeps s) : s.NothingLost := by
  intro o ho
  obtain ⟨clientId, -, ⟨r, hr, x, hx, hans⟩ | ⟨x, hx, hans⟩ | hcarries |
    ⟨d, hd, hticket, hsocket⟩⟩ := h.traced o ho
  · exact Or.inl (List.mem_map.mpr ⟨x, List.mem_filterMap.mpr ⟨r, hr, hx⟩, hans.ticket⟩)
  · exact Or.inr (Or.inl (List.mem_map.mpr ⟨x, hx, hans.ticket⟩))
  · refine Or.inr (Or.inr (Or.inl ?_))
    cases hd : s.dispatcher with
    | idle | takeWaited =>
      rw [hd] at hcarries
      exact hcarries.elim
    | takeDone x =>
      rw [hd] at hcarries
      exact congrArg some hcarries.ticket
    | scanning x i | matched x i | lookedUp x =>
      rw [hd] at hcarries
      exact congrArg some hcarries.1.ticket
  · exact Or.inr (Or.inr (Or.inr (List.mem_map.mpr ⟨d, hd, by rw [hticket, hsocket]⟩)))

/-! ## Client steps -/

section Steps

variable {s t : State}

theorem Owed.InPool.accept {o : Owed} {pool : ClientThreadPool} {clientId : Int32}
    (h : o.InPool pool clientId) (nextClientId : Int32) (clientSocket : Socket)
    (start : ThreadStart) :
    o.InPool (pool.acceptClient nextClientId clientSocket start).1 clientId := by
  obtain ⟨slot, hslot, hpos, hid, hsocket⟩ := h
  exact ⟨slot, ClientThreadPool.accept_keeps hslot hpos, hpos, hid, hsocket⟩

theorem keeps_connected {clientSocket : Socket} {start : ThreadStart} (hI : Keeps s)
    (hnext : s.nextClientId < Int32.maxValue) :
    Keeps { s with
      pool := (s.pool.acceptClient s.nextClientId clientSocket start).1
      nextClientId := (s.pool.acceptClient s.nextClientId clientSocket start).2 } := by
  refine ⟨hI.accounts, hI.numbered.accept hnext clientSocket start, fun o ho => ?_⟩
  obtain ⟨clientId, hpool, htraced⟩ := hI.traced o ho
  exact ⟨clientId, hpool.accept _ _ _, htraced⟩

theorem keeps_disconnected (hI : Keeps s) (threadIndex : Nat) :
    Keeps { s with
      pool := s.pool.returnClientDataReceiverThread threadIndex
      owed := s.owed.filter fun o => o.threadIndex != threadIndex } := by
  refine ⟨hI.accounts, hI.numbered.free rfl (Int32.le_refl _), fun o ho => ?_⟩
  obtain ⟨hmem, hne⟩ := List.mem_filter.mp ho
  obtain ⟨clientId, ⟨slot, hslot, hrest⟩, htraced⟩ := hI.traced o hmem
  have hother : threadIndex ≠ o.threadIndex := by
    intro heq
    simp [heq] at hne
  exact ⟨clientId, ⟨slot, ClientThreadPool.return_keeps hslot hother, hrest⟩, htraced⟩

/-! ## Receiver steps -/

/-- A thread whose hands do not change, or are empty before, leaves every
trace. -/
theorem traced_set {w : Nat} {r : Receiver} {pc : ReceiverAt} {o : Owed} {clientId : Int32}
    (hr : s.receivers[w]? = some r)
    (hhand : ∀ x, r.pc.hand = some x → Answers o clientId x →
      pc.hand = some x ∨ ∃ y ∈ t.queue.contents, Answers o clientId y)
    (hreceivers : t.receivers = s.receivers.set w { r with pc := pc })
    (hqueue : ∀ x ∈ s.queue.contents, x ∈ t.queue.contents)
    (hdispatcher : t.dispatcher = s.dispatcher) (hsocket : t.clientSocket = s.clientSocket)
    (hsent : t.sent = s.sent) (h : s.Traced o clientId) : t.Traced o clientId := by
  rcases h with ⟨r', hr', x, hx, hans⟩ | ⟨x, hx, hans⟩ | hcarries | hsent'
  · obtain ⟨j, hj⟩ := List.mem_iff_getElem?.mp hr'
    by_cases hwj : w = j
    · subst hwj
      obtain rfl : r = r' := Option.some.inj (hr.symm.trans hj)
      rcases hhand x hx hans with hpc | hput
      · refine Or.inl ⟨{ r with pc := pc }, ?_, x, hpc, hans⟩
        rw [hreceivers]
        exact List.mem_of_getElem? (by rw [List.getElem?_set_self']; rw [hj]; rfl)
      · exact Or.inr (Or.inl hput)
    · refine Or.inl ⟨r', ?_, x, hx, hans⟩
      rw [hreceivers]
      exact List.mem_of_getElem? (by rw [List.getElem?_set_ne hwj]; exact hj)
  · exact Or.inr (Or.inl ⟨x, hqueue x hx, hans⟩)
  · exact Or.inr (Or.inr (Or.inl (by rwa [hdispatcher, hsocket])))
  · exact Or.inr (Or.inr (Or.inr (by rwa [hsent])))

/-- The permits behind a step of thread `w`. -/
theorem permits_setReceiver {w : Nat} {r : Receiver} (hr : s.receivers[w]? = some r)
    (pc : ReceiverAt) :
    (s.setReceiver w r pc).permits = { s.permits with
      putWaited := s.permits.putWaited + pc.putWaiting - r.pc.putWaiting
      putDone := s.permits.putDone + pc.putPending - r.pc.putPending } := by
  have hwaiting := total_set (fun r => r.pc.putWaiting) hr { r with pc := pc }
  have hpending := total_set (fun r => r.pc.putPending) hr { r with pc := pc }
  exact BoundedBuffer.Pending.ext (Nat.eq_sub_of_add_eq hwaiting)
    (Nat.eq_sub_of_add_eq hpending) rfl rfl

/-- **A thread moves on the queue**: its wait or section is accounted for,
and what it no longer has in its hands is in the queue. -/
theorem keeps_setReceiver {w : Nat} {r : Receiver} {pc : ReceiverAt}
    {queue : BoundedBuffer Ticketed workerResponseQueueCapacity} (hI : Keeps s)
    (hr : s.receivers[w]? = some r) (haccounts : queue.Accounts { s.permits with
      putWaited := s.permits.putWaited + pc.putWaiting - r.pc.putWaiting
      putDone := s.permits.putDone + pc.putPending - r.pc.putPending })
    (hqueue : ∀ x ∈ s.queue.contents, x ∈ queue.contents)
    (hhand : ∀ o ∈ s.owed, ∀ clientId x, r.pc.hand = some x → Answers o clientId x →
      pc.hand = some x ∨ ∃ y ∈ queue.contents, Answers o clientId y) :
    Keeps { s.setReceiver w r pc with queue := queue } := by
  refine ⟨?_, hI.numbered, fun o ho => ?_⟩
  · show queue.Accounts (s.setReceiver w r pc).permits
    rw [permits_setReceiver hr pc]
    exact haccounts
  · obtain ⟨clientId, hpool, htraced⟩ := hI.traced o ho
    exact ⟨clientId, hpool, traced_set hr (hhand o ho clientId) rfl hqueue rfl rfl rfl htraced⟩

/-- The clients a response is owed to are connected under its id. -/
theorem mem_owners {pool : ClientThreadPool} {clientId : Int32} {ticket : Nat} {o : Owed}
    (h : o ∈ owners pool clientId ticket) :
    o.ticket = ticket ∧ ∃ slot, pool.slots[o.threadIndex]? = some slot ∧ slot.hasThread = true ∧
      slot.clientId = clientId ∧ slot.clientSocket = some o.clientSocket := by
  obtain ⟨i, -, hi⟩ := List.mem_filterMap.mp h
  unfold ownerAt at hi
  split at hi
  · rename_i slot hslot
    split at hi
    · rename_i hcond
      obtain ⟨socket, hsocket, rfl⟩ := Option.map_eq_some_iff.mp hi
      exact ⟨rfl, slot, hslot, hcond.1, hcond.2, hsocket⟩
    · cases hi
  · cases hi

/-- A key that the encoders take. -/
theorem validateKey_of_hasKey {key : List UInt8} (hlen : key.length ≤ maxKeySize)
    (hkey : ((CString.ofBuffer key).strlen != 0) = true) :
    validateKey (CString.ofBuffer key) = true :=
  (validateKey_ofBuffer hlen).mpr (by simpa using hkey)

/-- A decodable response with a key can be encoded for its client. -/
theorem responseMessage_of_hasKey {r : Receiver} {message : Message} {response : WorkerResponse}
    (hresponse : r.response? message = some response) (hkey : HasKey message = true) :
    responseMessage response ≠ none := by
  unfold Receiver.response? at hresponse
  unfold HasKey at hkey
  cases htype : MessageType.ofValue? message.type with
  | none => simp [htype] at hresponse
  | some type =>
    simp only [htype] at hresponse hkey
    cases type with
    | storeResponse =>
      cases hdec : receiveStoreResponse message.payload with
      | fault | reject => simp [hdec] at hresponse
      | accept fields =>
        obtain ⟨result, clientId, key⟩ := fields
        simp only [hdec, Option.some.injEq] at hresponse hkey
        subst hresponse
        have hlen := ((receiveStoreResponse_eq_accept _ _ _ _).mp hdec).1
        have hvalid := validateKey_of_hasKey hlen hkey
        simp [responseMessage, htype, hdec, Payload.ofMessage, Payload.content, sendPutResponse,
          hvalid]
    | retrieveResponse =>
      cases hdec : receiveRetrieveResponse message.payload with
      | fault | reject => simp [hdec] at hresponse
      | accept fields =>
        obtain ⟨result, clientId, key, value⟩ := fields
        simp only [hdec, Option.some.injEq] at hresponse hkey
        subst hresponse
        obtain ⟨hlen, hvalueLen, -⟩ := (receiveRetrieveResponse_eq_accept _ _ _ _ _).mp hdec
        have hvalid := validateKey_of_hasKey hlen hkey
        have hvalue := validateValue_ofBuffer hvalueLen
        simp [responseMessage, htype, hdec, Payload.ofMessage, Payload.content, sendGetResponse,
          hvalid, hvalue]
    | _ => simp at hresponse

theorem keeps_received {w : Nat} {r : Receiver} {message : Message} {response : WorkerResponse}
    (hI : Keeps s) (hP : Answerable s (.receive w message)) (hr : s.receivers[w]? = some r)
    (hpc : r.pc = .receiving) (hresponse : r.response? message = some response) :
    Keeps { s.setReceiver w r (.decoded ⟨response, s.nextTicket⟩) with
      nextTicket := s.nextTicket + 1
      owed := s.owed ++ owners s.pool response.clientId s.nextTicket } := by
  refine ⟨?_, hI.numbered, fun o ho => ?_⟩
  · show s.queue.Accounts (s.setReceiver w r (.decoded ⟨response, s.nextTicket⟩)).permits
    rw [permits_setReceiver hr, hpc]
    exact hI.accounts
  · rcases List.mem_append.mp ho with ho | ho
    · obtain ⟨clientId, hpool, htraced⟩ := hI.traced o ho
      exact ⟨clientId, hpool, traced_set hr (by rw [hpc]; nofun) rfl (fun x hx => hx) rfl rfl rfl
        htraced⟩
    · obtain ⟨hticket, slot, hslot, hthread, hid, hsocket⟩ := mem_owners ho
      have hencodes : responseMessage response ≠ none := by
        rcases hP with hkey | howners
        · exact responseMessage_of_hasKey hresponse hkey
        · simp only [hr, hresponse, Option.all_some, List.isEmpty_iff] at howners
          rw [howners] at ho
          cases ho
      refine ⟨response.clientId, ⟨slot, hslot, hI.numbered.threads _ slot hslot hthread, hid,
        hsocket⟩, Or.inl ⟨{ r with pc := .decoded ⟨response, s.nextTicket⟩ }, ?_, _, rfl,
        hticket.symm, rfl, hencodes⟩⟩
      exact List.mem_of_getElem? (by
        show (s.receivers.set w _)[w]? = _
        rw [List.getElem?_set_self', hr]
        rfl)

/-- A response that nobody is owed may be dropped. -/
theorem keeps_putTimesOut {w : Nat} {r : Receiver} {x : Ticketed} (hI : Keeps s)
    (hP : Answerable s (.putWait w)) (hr : s.receivers[w]? = some r) (hpc : r.pc = .decoded x)
    (hwait : s.queue.waitNotFull = none) : Keeps (s.refuse w r) := by
  have hzero := Semaphore.wait_eq_none.mp (Option.map_eq_none_iff.mp hwait)
  have hnot : ¬ s.Owes x.ticket := by
    rcases hP with hpos | hnot
    · omega
    · simpa [hr, hpc] using hnot
  have hmoved : Keeps { s.setReceiver w r .receiving with queue := s.queue } := by
    refine keeps_setReceiver hI hr ?_ (fun y hy => hy) ?_
    · rw [hpc]
      exact hI.accounts
    · intro o ho clientId y hy hans
      rw [hpc] at hy
      cases hy
      exact absurd ⟨o, ho, hans.ticket.symm⟩ hnot
  exact ⟨hmoved.accounts, hmoved.numbered, hmoved.traced⟩

theorem keeps_putWaits {w : Nat} {r : Receiver} {x : Ticketed}
    {queue : BoundedBuffer Ticketed workerResponseQueueCapacity} (hI : Keeps s)
    (hr : s.receivers[w]? = some r) (hpc : r.pc = .decoded x)
    (hwait : s.queue.waitNotFull = some queue) :
    Keeps { s.setReceiver w r (.putWaited x) with queue := queue } := by
  refine keeps_setReceiver hI hr ?_ (fun y hy => ?_) ?_
  · rw [hpc]
    exact hI.accounts.waitNotFull hwait
  · rwa [BoundedBuffer.contents_waitNotFull hwait]
  · intro o ho clientId y hy _
    exact Or.inl (by rwa [hpc] at hy)

theorem Answers.copy {o : Owed} {clientId : Int32} {x : Ticketed} (h : Answers o clientId x)
    (dst : Ticketed) : Answers o clientId (x.copy dst) := by
  refine ⟨h.ticket, h.clientId_eq, ?_⟩
  have hsame : responseMessage (x.copy dst).response = responseMessage x.response := by
    unfold responseMessage Ticketed.copy WorkerResponse.copy
    simp only [Payload.content_copy, Payload.messageType_copy]
  rw [hsame]
  exact h.encodes

/-- A thread behind its wait counts. -/
theorem putWaited_pos {w : Nat} {r : Receiver} {x : Ticketed} (hr : s.receivers[w]? = some r)
    (hpc : r.pc = .putWaited x) : 0 < s.permits.putWaited := by
  have hle := weight_le_total (fun r => r.pc.putWaiting) hr
  simp only [hpc, ReceiverAt.putWaiting] at hle
  exact hle

theorem keeps_puts {w : Nat} {r : Receiver} {x : Ticketed}
    {queue : BoundedBuffer Ticketed workerResponseQueueCapacity} (hI : Keeps s)
    (hr : s.receivers[w]? = some r) (hpc : r.pc = .putWaited x)
    (hput : s.queue.put x.copy = some queue) :
    Keeps { s.setReceiver w r .putDone with queue := queue } := by
  have hpos := putWaited_pos hr hpc
  have hcontents := BoundedBuffer.contents_put hput
  refine keeps_setReceiver hI hr ?_ (fun y hy => ?_) ?_
  · rw [hpc]
    exact hI.accounts.put hpos hput
  · rw [hcontents]
    exact List.mem_append_left _ hy
  · intro o ho clientId y hy hans
    rw [hpc] at hy
    cases hy
    refine Or.inr ⟨x.copy (s.queue.ring.slots s.queue.ring.tail), ?_, hans.copy _⟩
    rw [hcontents]
    exact List.mem_append_right _ (List.mem_singleton_self _)

theorem keeps_putReturns {w : Nat} {r : Receiver} (hI : Keeps s) (hr : s.receivers[w]? = some r)
    (hpc : r.pc = .putDone) :
    Keeps { s.setReceiver w r .receiving with queue := s.queue.releaseNotEmpty } := by
  have hpos : 0 < s.permits.putDone := by
    have hle := weight_le_total (fun r => r.pc.putPending) hr
    simp only [hpc, ReceiverAt.putPending] at hle
    exact hle
  refine keeps_setReceiver hI hr ?_ (fun y hy => hy) ?_
  · rw [hpc]
    exact hI.accounts.releaseNotEmpty hpos
  · rw [hpc]
    nofun

/-! ## Dispatcher steps -/

/-- A step of the dispatcher leaves a trace when it hands on what it takes
from the queue and what it holds. -/
theorem traced_dispatch {o : Owed} {clientId : Int32} (h : s.Traced o clientId)
    (hreceivers : t.receivers = s.receivers)
    (hqueue : ∀ x ∈ s.queue.contents, Answers o clientId x →
      x ∈ t.queue.contents ∨ t.Traced o clientId)
    (hdispatcher : s.dispatcher.Carries s.clientSocket o clientId → t.Traced o clientId)
    (hsent : ∀ d ∈ s.sent, d ∈ t.sent) : t.Traced o clientId := by
  rcases h with ⟨r, hr, hhand⟩ | ⟨x, hx, hans⟩ | hcarries | ⟨d, hd, hfor⟩
  · exact Or.inl ⟨r, hreceivers ▸ hr, hhand⟩
  · rcases hqueue x hx hans with hx | htraced
    · exact Or.inr (Or.inl ⟨x, hx, hans⟩)
    · exact htraced
  · exact hdispatcher hcarries
  · exact Or.inr (Or.inr (Or.inr ⟨d, hsent d hd, hfor⟩))

/-- What a thread without a response carries. -/
theorem not_carries {o : Owed} {clientId : Int32} (hheld : s.dispatcher.held = none) :
    ¬ s.dispatcher.Carries s.clientSocket o clientId := by
  cases hd : s.dispatcher with
  | idle | takeWaited => exact not_false
  | takeDone x | scanning x i | matched x i | lookedUp x =>
    rw [hd] at hheld
    cases hheld

theorem keeps_takeWaits {queue : BoundedBuffer Ticketed workerResponseQueueCapacity}
    (hI : Keeps s) (hd : s.dispatcher = .idle) (hwait : s.queue.waitNotEmpty = some queue) :
    Keeps { s with queue := queue, dispatcher := .takeWaited } := by
  refine ⟨?_, hI.numbered, fun o ho => ?_⟩
  · have hacc := hI.accounts.waitNotEmpty hwait
    simpa [State.permits, hd] using hacc
  · obtain ⟨clientId, hpool, htraced⟩ := hI.traced o ho
    refine ⟨clientId, hpool, traced_dispatch htraced rfl (fun x hx _ => Or.inl ?_)
      (fun hcarries => absurd hcarries (not_carries (by rw [hd]; rfl))) (fun d h => h)⟩
    show x ∈ queue.contents
    rwa [BoundedBuffer.contents_waitNotEmpty hwait]

theorem keeps_takes {slot : Ticketed}
    {queue : BoundedBuffer Ticketed workerResponseQueueCapacity} (hI : Keeps s)
    (hd : s.dispatcher = .takeWaited) (htake : s.queue.take = some (slot, queue)) :
    Keeps { s with
      queue := queue
      dispatcher := .takeDone (slot.copy ⟨WorkerResponse.zero, 0⟩) } := by
  have hcontents := BoundedBuffer.contents_take htake
  refine ⟨?_, hI.numbered, fun o ho => ?_⟩
  · have hacc := hI.accounts.take (by simp [State.permits, hd]) htake
    simpa [State.permits, hd] using hacc
  · obtain ⟨clientId, hpool, htraced⟩ := hI.traced o ho
    refine ⟨clientId, hpool, traced_dispatch htraced rfl (fun x hx hans => ?_)
      (fun hcarries => absurd hcarries (not_carries (by rw [hd]; rfl))) (fun d h => h)⟩
    rw [hcontents] at hx
    rcases List.mem_cons.mp hx with rfl | hx
    · exact Or.inr (Or.inr (Or.inr (Or.inl (hans.copy _))))
    · exact Or.inl hx

theorem keeps_takeReturns {x : Ticketed} (hI : Keeps s) (hd : s.dispatcher = .takeDone x) :
    Keeps { s with
      queue := s.queue.releaseNotFull
      dispatcher := if x.response.clientId < 0 then .lookedUp x else .scanning x 0 } := by
  refine ⟨?_, hI.numbered, fun o ho => ?_⟩
  · have hacc := hI.accounts.releaseNotFull (by simp [State.permits, hd])
    by_cases hneg : x.response.clientId < 0 <;> simpa [State.permits, hd, hneg] using hacc
  · obtain ⟨clientId, hpool, htraced⟩ := hI.traced o ho
    refine ⟨clientId, hpool, traced_dispatch htraced rfl (fun y hy _ => Or.inl hy)
      (fun hcarries => ?_) (fun d h => h)⟩
    rw [hd] at hcarries
    obtain ⟨slot, -, hpos, hid, -⟩ := hpool
    have hnotneg : ¬ x.response.clientId < 0 := by
      rw [hcarries.clientId_eq, ← hid]
      exact Int32.not_lt.mpr hpos
    refine Or.inr (Or.inr (Or.inl ?_))
    simp only [if_neg hnotneg]
    exact ⟨hcarries, Nat.zero_le _⟩

/-- A step of the lookup or the send takes nothing from the queue. -/
theorem keeps_lookup {dispatcher : DispatcherAt} {clientSocket : Option Socket} {sent : List Sent}
    (hI : Keeps s) (hpermits : dispatcher.permits = (0, 0))
    (hbefore : s.dispatcher.permits = (0, 0))
    (hsent : ∀ d ∈ s.sent, d ∈ sent)
    (hcarries : ∀ o clientId, o.InPool s.pool clientId →
      s.dispatcher.Carries s.clientSocket o clientId →
      dispatcher.Carries clientSocket o clientId ∨
        ∃ d ∈ sent, d.ticket = o.ticket ∧ d.clientSocket = o.clientSocket) :
    Keeps { s with dispatcher := dispatcher, clientSocket := clientSocket, sent := sent } := by
  refine ⟨?_, hI.numbered, fun o ho => ?_⟩
  · show s.queue.Accounts ⟨s.permits.putWaited, s.permits.putDone, dispatcher.permits.1,
      dispatcher.permits.2⟩
    rw [hpermits, ← hbefore]
    exact hI.accounts
  · obtain ⟨clientId, hpool, htraced⟩ := hI.traced o ho
    refine ⟨clientId, hpool, traced_dispatch htraced rfl (fun y hy _ => Or.inl hy)
      (fun h => ?_) hsent⟩
    rcases hcarries o clientId hpool h with h | h
    · exact Or.inr (Or.inr (Or.inl h))
    · exact Or.inr (Or.inr (Or.inr h))

theorem keeps_slotMatches {x : Ticketed} {i : Nat} {slot : ClientSlot} (hI : Keeps s)
    (hd : s.dispatcher = .scanning x i) (hslot : s.pool.slots[i]? = some slot)
    (hid : slot.clientId = x.response.clientId) : Keeps { s with dispatcher := .matched x i } := by
  refine keeps_lookup hI rfl (by rw [hd]; rfl) (fun d h => h) fun o clientId hpool hcarries =>
    Or.inl ?_
  rw [hd] at hcarries
  obtain ⟨slot', hslot', hpos, hid', -⟩ := hpool
  have hsame : slot'.clientId = slot.clientId := by
    rw [hid', hid, hcarries.1.clientId_eq]
  exact ⟨hcarries.1, (hI.numbered.differ _ _ slot' slot hslot' hslot hpos hsame).symm⟩

theorem keeps_differs {x : Ticketed} {i : Nat} {slot : ClientSlot} (hI : Keeps s)
    (hd : s.dispatcher = .scanning x i) (hslot : s.pool.slots[i]? = some slot)
    (hid : slot.clientId ≠ x.response.clientId) :
    Keeps { s with dispatcher := .scanning x (i + 1) } := by
  refine keeps_lookup hI rfl (by rw [hd]; rfl) (fun d h => h) fun o clientId hpool hcarries =>
    Or.inl ?_
  rw [hd] at hcarries
  obtain ⟨slot', hslot', -, hid', -⟩ := hpool
  refine ⟨hcarries.1, Nat.lt_of_le_of_ne hcarries.2 fun heq => hid ?_⟩
  rw [heq, hslot', Option.some.injEq] at hslot
  rw [← hslot, hid', hcarries.1.clientId_eq]

theorem keeps_notFound {x : Ticketed} {i : Nat} (hI : Keeps s)
    (hd : s.dispatcher = .scanning x i) (hslot : s.pool.slots[i]? = none) :
    Keeps { s with dispatcher := .lookedUp x } := by
  refine keeps_lookup hI rfl (by rw [hd]; rfl) (fun d h => h) fun o clientId hpool hcarries => ?_
  rw [hd] at hcarries
  obtain ⟨slot', hslot', -⟩ := hpool
  have hlt := (List.getElem?_eq_some_iff.mp hslot').1
  have hle := List.getElem?_eq_none_iff.mp hslot
  have hi := hcarries.2
  omega

theorem keeps_socketRead {x : Ticketed} {i : Nat} {slot : ClientSlot} (hI : Keeps s)
    (hd : s.dispatcher = .matched x i) (hslot : s.pool.slots[i]? = some slot) :
    Keeps { s with dispatcher := .lookedUp x, clientSocket := slot.clientSocket } := by
  refine keeps_lookup hI rfl (by rw [hd]; rfl) (fun d h => h) fun o clientId hpool hcarries =>
    Or.inl ?_
  rw [hd] at hcarries
  obtain ⟨slot', hslot', -, -, hsocket⟩ := hpool
  rw [hcarries.2, hslot', Option.some.injEq] at hslot
  exact ⟨hcarries.1, by rw [← hslot]; exact hsocket⟩

theorem keeps_sent {x : Ticketed} {clientSocket : Socket} {message : Message} (hI : Keeps s)
    (hd : s.dispatcher = .lookedUp x) (hsocket : s.clientSocket = some clientSocket) :
    Keeps { s with
      dispatcher := .idle
      sent := s.sent ++ [⟨x.ticket, clientSocket, message⟩] } := by
  refine keeps_lookup hI rfl (by rw [hd]; rfl) (fun d h => List.mem_append_left _ h)
    fun o clientId _ hcarries => Or.inr ⟨⟨x.ticket, clientSocket, message⟩, by simp, ?_⟩
  rw [hd] at hcarries
  exact ⟨hcarries.1.ticket, Option.some.inj (hsocket.symm.trans hcarries.2)⟩

/-- Only a response that nobody is owed is dropped here. -/
theorem keeps_notSent {x : Ticketed} (hI : Keeps s) (hd : s.dispatcher = .lookedUp x)
    (hnone : s.clientSocket = none ∨ responseMessage x.response = none) :
    Keeps { s with dispatcher := .idle } := by
  refine keeps_lookup hI rfl (by rw [hd]; rfl) (fun d h => h) fun o clientId _ hcarries => ?_
  rw [hd] at hcarries
  rcases hnone with hsocket | hmessage
  · rw [hcarries.2] at hsocket
    cases hsocket
  · exact absurd hmessage hcarries.1.encodes

/-- Nor does a send fail that somebody is owed. -/
theorem keeps_sendFails {x : Ticketed} {sendResult : Int} (hI : Keeps s)
    (hP : Answerable s (.send sendResult)) (hd : s.dispatcher = .lookedUp x)
    (hfails : ¬ 0 < sendResult) : Keeps { s with dispatcher := .idle } := by
  refine ⟨?_, hI.numbered, fun o ho => ?_⟩
  · have hacc := hI.accounts
    simpa [State.permits, hd] using hacc
  · obtain ⟨clientId, hpool, htraced⟩ := hI.traced o ho
    refine ⟨clientId, hpool, traced_dispatch htraced rfl (fun y hy _ => Or.inl hy)
      (fun hcarries => ?_) (fun d h => h)⟩
    rw [hd] at hcarries
    rcases hP with hsent | hnobody
    · exact absurd hsent hfails
    · have howes : s.Owes x.ticket := ⟨o, ho, hcarries.1.ticket.symm⟩
      simp [hd, howes] at hnobody

end Steps

/-! ## Runs -/

theorem keeps_workerConnected {s : State} (hI : Keeps s) (workerSocket : Socket)
    (workerId : Int32) :
    Keeps { s with receivers := s.receivers ++ [⟨workerSocket, workerId, .receiving⟩] } := by
  refine ⟨?_, hI.numbered, fun o ho => ?_⟩
  · have hacc := hI.accounts
    simpa [State.permits] using hacc
  · obtain ⟨clientId, hpool, ⟨r, hr, hhand⟩ | hrest⟩ := hI.traced o ho
    · exact ⟨clientId, hpool, Or.inl ⟨r, List.mem_append_left _ hr, hhand⟩⟩
    · exact ⟨clientId, hpool, Or.inr hrest⟩

/-- **Step lemma.** -/
theorem keeps_step {s t : State} {l : Label} (hI : Keeps s) (hP : Answerable s l)
    (h : step s l = some t) : Keeps t := by
  cases step_move h with
  | connected clientSocket start hnext => exact keeps_connected hI hnext
  | disconnected threadIndex => exact keeps_disconnected hI threadIndex
  | workerConnected workerSocket workerId => exact keeps_workerConnected hI workerSocket workerId
  | received hr hpc hresponse => exact keeps_received hI hP hr hpc hresponse
  | ignored | takeTimesOut => exact hI
  | putTimesOut hr hpc hwait => exact keeps_putTimesOut hI hP hr hpc hwait
  | putWaits hr hpc hwait => exact keeps_putWaits hI hr hpc hwait
  | putFails hr hpc hput => exact absurd hput (hI.accounts.put_ne_none (putWaited_pos hr hpc) _)
  | puts hr hpc hput => exact keeps_puts hI hr hpc hput
  | putReturns hr hpc => exact keeps_putReturns hI hr hpc
  | takeWaits hd hwait => exact keeps_takeWaits hI hd hwait
  | takeFails hd htake =>
    exact absurd htake (hI.accounts.take_ne_none (by simp [State.permits, hd]))
  | takes hd htake => exact keeps_takes hI hd htake
  | takeReturns hd => exact keeps_takeReturns hI hd
  | slotMatches hd hslot hid => exact keeps_slotMatches hI hd hslot hid
  | differs hd hslot hid => exact keeps_differs hI hd hslot hid
  | notFound hd hslot => exact keeps_notFound hI hd hslot
  | socketRead hd hslot => exact keeps_socketRead hI hd hslot
  | sent hd hsocket hmessage hsent => exact keeps_sent hI hd hsocket
  | notSent sendResult hd hnone => exact keeps_notSent hI hd hnone
  | sendFails hd hfails => exact keeps_sendFails hI hP hd hfails

/-- **No answer is lost** in a run in which every response for a connected
client has a key, finds room in the queue and is sent without a failure. -/
theorem answers_kept {slots : Nat → Ticketed} {ls : List Label} {s : State}
    (hP : Along step Answerable (init slots) ls) (h : exec step (init slots) ls = some s) :
    s.NothingLost := by
  have hI : Keeps s :=
    exec_invariant_along (fun _ _ _ hI hP hs => keeps_step hI hP hs) (keeps_init slots) hP h
  exact hI.nothingLost

/-! ## A full queue -/

/-- Slots of zeros. -/
def zeroSlots : Nat → Ticketed := fun _ => ⟨WorkerResponse.zero, 0⟩

/-- A client and a worker connect. -/
def connected : List Label := [.connect 7 .started, .workerConnect 5 1]

/-- A STORE_RESPONSE for client 1. -/
def stored (key : List UInt8) : Message :=
  ⟨MessageType.storeResponse.value, [0, 0, 0, 0, 1] ++ lengthPrefixed key⟩

/-- The worker's thread reads it and puts it into the queue. -/
def putOne : List Label :=
  [.receive 0 (stored [107]), .putWait 0, .putSection 0, .putRelease 0]

/-- The dispatcher takes it and sends it to the client. -/
def answerOne (sendResult : Int) : List Label :=
  [.takeWait, .takeSection, .takeRelease, .compare, .readSocket, .send sendResult]

theorem answers_kept_one :
    ∃ s, exec step (init zeroSlots) (connected ++ putOne ++ answerOne 1) = some s ∧
      s.NothingLost := by
  have hrun : (exec step (init zeroSlots) (connected ++ putOne ++ answerOne 1)).isSome = true := by
    decide +kernel
  obtain ⟨s, hs⟩ := Option.isSome_iff_exists.mp hrun
  exact ⟨s, hs, answers_kept (by decide +kernel) hs⟩

/-- The queue is filled, and one more response comes in. -/
def overfilled : List Label :=
  connected ++ (List.replicate workerResponseQueueCapacity putOne).flatten ++
    [.receive 0 (stored [107]), .putWait 0]

/-- The key of a response is empty. -/
def keyless : List Label :=
  connected ++ [.receive 0 (stored []), .putWait 0, .putSection 0, .putRelease 0] ++ answerOne 1

/-- The send to the client fails. -/
def unsent : List Label := connected ++ putOne ++ answerOne (-1)

/-- **A full queue loses an answer**, and so do an empty key and a send that
fails: the client is still connected and nothing is left of the response. -/
theorem full_queue_loses_answer :
    (∃ s, exec step (init zeroSlots) overfilled = some s ∧ ¬ s.NothingLost) ∧
    (∃ s, exec step (init zeroSlots) keyless = some s ∧ ¬ s.NothingLost) ∧
    (∃ s, exec step (init zeroSlots) unsent = some s ∧ ¬ s.NothingLost) := by
  have hlost : ∀ ls, (exec step (init zeroSlots) ls).any
      (fun s => s.owed.any fun o => !decide (s.Accounted o)) = true →
      ∃ s, exec step (init zeroSlots) ls = some s ∧ ¬ s.NothingLost := by
    intro ls hany
    cases hrun : exec step (init zeroSlots) ls with
    | none =>
      rw [hrun] at hany
      cases hany
    | some s =>
      rw [hrun] at hany
      obtain ⟨o, ho, hnot⟩ := List.any_eq_true.mp hany
      exact ⟨s, rfl, fun hall => absurd (hall o ho) (by simpa using hnot)⟩
  exact ⟨hlost _ (by decide +kernel), hlost _ (by decide +kernel), hlost _ (by decide +kernel)⟩

end LoadBalancing.LoadBalancer.ResponseConservation
