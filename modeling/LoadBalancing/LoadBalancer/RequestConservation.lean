/-
LoadBalancing.LoadBalancer.RequestConservation — where an accepted
request can be between the client receiver threads and the workers.

The receiver threads, the queue and `WorkerClientRequestDispatcherThread`
move one semaphore wait, critical section, release or send at a time, in
any interleaving. Every message a receiver thread reads gets a ticket, a
number no step looks at, so that `places` can say how often a request is
in the queue, held by the dispatcher, sent to a worker or answered.

The dispatcher gives a request back after a failed send without looking
at the result of `ReturnClientRequestQueue`, and clears it. The invariant
`Conserves` survives every step but a give-back that finds the queue
full; `conserved_of_room` is the run theorem and `full_queue_loses` a run
that loses a request.

The registry is changed by other threads at will. Out of scope: shutdown.

No `sorry`, no `axiom`, no `native_decide`.
-/
import LoadBalancing.Base.Threads
import LoadBalancing.Base.Transition
import LoadBalancing.LoadBalancer.RequestDispatcher

namespace LoadBalancing.LoadBalancer.RequestConservation

open LoadBalancing.Base LoadBalancing.Lib

/-! ## Threads and state -/

/-- A request and its ticket. -/
structure Ticketed where
  request : ClientRequest
  ticket : Nat

/-- Copy a request over a slot; the ticket goes along. -/
def Ticketed.copy (src dst : Ticketed) : Ticketed := ⟨src.request.copy dst.request, src.ticket⟩

/-- Where a `ClientDataReceiverThread` stands: in `ProtocolReceive`,
behind a successful decode, behind `GetWorkerCount`, and inside
`PutClientRequestQueue` behind the wait and behind the critical
section. -/
inductive ClientAt where
  | receiving
  | decoded (x : Ticketed)
  | counted (x : Ticketed)
  | putWaited (x : Ticketed)
  | putDone (ticket : Nat)

/-- A client receiver thread with its connection. -/
structure Client where
  clientSocket : Socket
  clientId : Int32
  pc : ClientAt

/-- Where the dispatcher stands: without a request, inside
`TakeClientRequestQueue`, with a request, behind a failed send, and inside
`ReturnClientRequestQueue`. -/
inductive DispatcherAt where
  | idle
  | takeWaited
  | takeDone (x : Ticketed)
  | holding (x : Ticketed)
  | failed (x : Ticketed)
  | returnWaited (x : Ticketed)
  | returnDone

/-- The load balancer, with the tickets for which
`PutClientRequestQueue` has returned 1, the tickets answered with an
error, and the tickets sent with the id of the worker. -/
structure State where
  clients : List Client
  queue : BoundedBuffer Ticketed clientRequestQueueCapacity
  workerList : WorkerList
  dispatcher : DispatcherAt
  worker : Option WorkerNode
  nextTicket : Nat
  accepted : List Nat
  answered : List Nat
  sent : List (Nat × Int32)

/-- One step: a client connects or its thread moves, another thread
changes the registry, or the dispatcher moves. `dispatch` carries the
result of the send. -/
inductive Label where
  | connect (clientSocket : Socket) (clientId : Int32)
  | receive (i : Nat) (messageType : UInt8) (buffer : List UInt8)
  | checkWorkers (i : Nat)
  | putWait (i : Nat)
  | putSection (i : Nat)
  | putRelease (i : Nat)
  | changeWorkers (list : WorkerList)
  | takeWait
  | takeSection
  | takeRelease
  | pickWorker
  | dispatch (sendResult : Int)
  | returnWait
  | returnSection
  | returnRelease

/-- The request a receiver thread makes of a message. -/
def Client.request (c : Client) (messageType : UInt8) (buffer : List UInt8) : ClientRequest :=
  { Payload.ofMessage messageType buffer with
    clientSocket := some c.clientSocket
    clientId := c.clientId }

/-- Move client thread `i`. -/
def State.setClient (s : State) (i : Nat) (c : Client) (pc : ClientAt) : State :=
  { s with clients := s.clients.set i { c with pc := pc } }

/-- `SendError` to the client, which has its answer. -/
def State.answer (s : State) (ticket : Nat) : State :=
  { s with answered := s.answered ++ [ticket] }

/-- The result of the send the dispatcher makes: -1 for a message the
encoder refuses. -/
def effectiveResult (message : Option Message) (sendResult : Int) : Int :=
  if message.isSome then sendResult else -1

/-- One step of client thread `i`. -/
def clientStep (s : State) (i : Nat) (c : Client) : Label → Option State
  | .receive _ messageType buffer =>
    match c.pc with
    | .receiving =>
      if accepts (c.request messageType buffer) then
        some { s.setClient i c (.decoded ⟨c.request messageType buffer, s.nextTicket⟩) with
          nextTicket := s.nextTicket + 1 }
      else if messageType = MessageType.put.value ∨ messageType = MessageType.get.value then
        some { s.answer s.nextTicket with nextTicket := s.nextTicket + 1 }
      else some s
    | _ => none
  | .checkWorkers _ =>
    match c.pc with
    | .decoded x =>
      if s.workerList.getWorkerCount = 0 then some ((s.setClient i c .receiving).answer x.ticket)
      else some (s.setClient i c (.counted x))
    | _ => none
  | .putWait _ =>
    match c.pc with
    | .counted x =>
      match s.queue.waitNotFull with
      | none => some ((s.setClient i c .receiving).answer x.ticket)
      | some queue => some { s.setClient i c (.putWaited x) with queue := queue }
    | _ => none
  | .putSection _ =>
    match c.pc with
    | .putWaited x =>
      match s.queue.put x.copy with
      | none => some ((s.setClient i c .receiving).answer x.ticket)
      | some queue => some { s.setClient i c (.putDone x.ticket) with queue := queue }
    | _ => none
  | .putRelease _ =>
    match c.pc with
    | .putDone ticket =>
      some { s.setClient i c .receiving with
        queue := s.queue.releaseNotEmpty
        accepted := s.accepted ++ [ticket] }
    | _ => none
  | _ => none

/-- One step of the dispatcher. -/
def dispatcherStep (s : State) : Label → Option State
  | .takeWait =>
    match s.dispatcher with
    | .idle =>
      match s.queue.waitNotEmpty with
      | none => some s
      | some queue => some { s with queue := queue, dispatcher := .takeWaited }
    | _ => none
  | .takeSection =>
    match s.dispatcher with
    | .takeWaited =>
      match s.queue.take with
      | none => some { s with dispatcher := .idle }
      | some (slot, queue) =>
        some { s with
          queue := queue
          dispatcher := .takeDone (slot.copy ⟨ClientRequest.zero, 0⟩) }
    | _ => none
  | .takeRelease =>
    match s.dispatcher with
    | .takeDone x => some { s with queue := s.queue.releaseNotFull, dispatcher := .holding x }
    | _ => none
  | .pickWorker =>
    match s.dispatcher, s.worker with
    | .holding _, none =>
      match s.workerList.getNextWorker with
      | none => some s
      | some (worker, list) => some { s with workerList := list, worker := some worker }
    | _, _ => none
  | .dispatch sendResult =>
    match s.dispatcher, s.worker with
    | .holding x, some worker =>
      match translate x.request with
      | .unparsed => some { s with dispatcher := .idle }
      | .unsupported => some s
      | .encoded message =>
        let result := effectiveResult message sendResult
        if 0 < result then
          some { s with
            dispatcher := .idle
            worker := none
            sent := s.sent ++ [(x.ticket, worker.workerId)] }
        else if result = -2 ∨ result = -3 then
          some { s with
            dispatcher := .failed x
            worker := none
            workerList := (s.workerList.removeWorker worker.workerId).2 }
        else some { s with dispatcher := .failed x, worker := none }
    | _, _ => none
  | .returnWait =>
    match s.dispatcher with
    | .failed x =>
      match s.queue.waitNotFull with
      | none => some { s with dispatcher := .idle }
      | some queue => some { s with queue := queue, dispatcher := .returnWaited x }
    | _ => none
  | .returnSection =>
    match s.dispatcher with
    | .returnWaited x =>
      match s.queue.put x.copy with
      | none => some { s with dispatcher := .idle }
      | some queue => some { s with queue := queue, dispatcher := .returnDone }
    | _ => none
  | .returnRelease =>
    match s.dispatcher with
    | .returnDone => some { s with queue := s.queue.releaseNotEmpty, dispatcher := .idle }
    | _ => none
  | _ => none

/-- One step. -/
def step (s : State) : Label → Option State
  | .connect clientSocket clientId =>
    some { s with clients := s.clients ++ [⟨clientSocket, clientId, .receiving⟩] }
  | .changeWorkers list => some { s with workerList := list }
  | .receive i messageType buffer =>
    (s.clients[i]?).bind fun c => clientStep s i c (.receive i messageType buffer)
  | .checkWorkers i => (s.clients[i]?).bind fun c => clientStep s i c (.checkWorkers i)
  | .putWait i => (s.clients[i]?).bind fun c => clientStep s i c (.putWait i)
  | .putSection i => (s.clients[i]?).bind fun c => clientStep s i c (.putSection i)
  | .putRelease i => (s.clients[i]?).bind fun c => clientStep s i c (.putRelease i)
  | l => dispatcherStep s l

/-- The load balancer as it starts, over whatever the slots hold. -/
def init (slots : Nat → Ticketed) : State where
  clients := []
  queue := BoundedBuffer.new slots clientRequestQueueCapacity_pos
  workerList := initializeWorkerList
  dispatcher := .idle
  worker := none
  nextTicket := 0
  accepted := []
  answered := []
  sent := []

/-! ## What a step does -/

/-- The steps, with a constructor for each way through the code. -/
inductive Move (s : State) : Label → State → Prop
  | connected (clientSocket : Socket) (clientId : Int32) :
      Move s (.connect clientSocket clientId)
        { s with clients := s.clients ++ [⟨clientSocket, clientId, .receiving⟩] }
  | workersChanged (list : WorkerList) :
      Move s (.changeWorkers list) { s with workerList := list }
  | decoded {i : Nat} {c : Client} {messageType : UInt8} {buffer : List UInt8}
      (hc : s.clients[i]? = some c) (hpc : c.pc = .receiving)
      (haccepts : accepts (c.request messageType buffer) = true) :
      Move s (.receive i messageType buffer)
        { s.setClient i c (.decoded ⟨c.request messageType buffer, s.nextTicket⟩) with
          nextTicket := s.nextTicket + 1 }
  | undecodable (i : Nat) (messageType : UInt8) (buffer : List UInt8) :
      Move s (.receive i messageType buffer)
        { s.answer s.nextTicket with nextTicket := s.nextTicket + 1 }
  | ignored (i : Nat) (messageType : UInt8) (buffer : List UInt8) :
      Move s (.receive i messageType buffer) s
  | noWorkers {i : Nat} {c : Client} {x : Ticketed} (hc : s.clients[i]? = some c)
      (hpc : c.pc = .decoded x) :
      Move s (.checkWorkers i) ((s.setClient i c .receiving).answer x.ticket)
  | counted {i : Nat} {c : Client} {x : Ticketed} (hc : s.clients[i]? = some c)
      (hpc : c.pc = .decoded x) :
      Move s (.checkWorkers i) (s.setClient i c (.counted x))
  | putTimesOut {i : Nat} {c : Client} {x : Ticketed} (hc : s.clients[i]? = some c)
      (hpc : c.pc = .counted x) :
      Move s (.putWait i) ((s.setClient i c .receiving).answer x.ticket)
  | putWaits {i : Nat} {c : Client} {x : Ticketed}
      {queue : BoundedBuffer Ticketed clientRequestQueueCapacity} (hc : s.clients[i]? = some c)
      (hpc : c.pc = .counted x) (hwait : s.queue.waitNotFull = some queue) :
      Move s (.putWait i) { s.setClient i c (.putWaited x) with queue := queue }
  | putFails {i : Nat} {c : Client} {x : Ticketed} (hc : s.clients[i]? = some c)
      (hpc : c.pc = .putWaited x) (hput : s.queue.put x.copy = none) :
      Move s (.putSection i) ((s.setClient i c .receiving).answer x.ticket)
  | puts {i : Nat} {c : Client} {x : Ticketed}
      {queue : BoundedBuffer Ticketed clientRequestQueueCapacity} (hc : s.clients[i]? = some c)
      (hpc : c.pc = .putWaited x) (hput : s.queue.put x.copy = some queue) :
      Move s (.putSection i) { s.setClient i c (.putDone x.ticket) with queue := queue }
  | putReturns {i : Nat} {c : Client} {ticket : Nat} (hc : s.clients[i]? = some c)
      (hpc : c.pc = .putDone ticket) :
      Move s (.putRelease i) { s.setClient i c .receiving with
        queue := s.queue.releaseNotEmpty
        accepted := s.accepted ++ [ticket] }
  | takeTimesOut : Move s .takeWait s
  | takeWaits {queue : BoundedBuffer Ticketed clientRequestQueueCapacity}
      (hd : s.dispatcher = .idle) (hwait : s.queue.waitNotEmpty = some queue) :
      Move s .takeWait { s with queue := queue, dispatcher := .takeWaited }
  | takeFails (hd : s.dispatcher = .takeWaited) (htake : s.queue.take = none) :
      Move s .takeSection { s with dispatcher := .idle }
  | takes {slot : Ticketed} {queue : BoundedBuffer Ticketed clientRequestQueueCapacity}
      (hd : s.dispatcher = .takeWaited) (htake : s.queue.take = some (slot, queue)) :
      Move s .takeSection { s with
        queue := queue
        dispatcher := .takeDone (slot.copy ⟨ClientRequest.zero, 0⟩) }
  | takeReturns {x : Ticketed} (hd : s.dispatcher = .takeDone x) :
      Move s .takeRelease { s with queue := s.queue.releaseNotFull, dispatcher := .holding x }
  | noWorker : Move s .pickWorker s
  | picked (worker : WorkerNode) (list : WorkerList) :
      Move s .pickWorker { s with workerList := list, worker := some worker }
  | unparsed (sendResult : Int) {x : Ticketed} (hd : s.dispatcher = .holding x)
      (htranslate : translate x.request = .unparsed) :
      Move s (.dispatch sendResult) { s with dispatcher := .idle }
  | unsupported (sendResult : Int) : Move s (.dispatch sendResult) s
  | sent (sendResult : Int) {x : Ticketed} (worker : WorkerNode)
      (hd : s.dispatcher = .holding x) :
      Move s (.dispatch sendResult) { s with
        dispatcher := .idle
        worker := none
        sent := s.sent ++ [(x.ticket, worker.workerId)] }
  | notSent (sendResult : Int) {x : Ticketed} (list : WorkerList)
      (hd : s.dispatcher = .holding x) :
      Move s (.dispatch sendResult)
        { s with dispatcher := .failed x, worker := none, workerList := list }
  | returnTimesOut {x : Ticketed} (hd : s.dispatcher = .failed x)
      (hwait : s.queue.waitNotFull = none) :
      Move s .returnWait { s with dispatcher := .idle }
  | returnWaits {x : Ticketed} {queue : BoundedBuffer Ticketed clientRequestQueueCapacity}
      (hd : s.dispatcher = .failed x) (hwait : s.queue.waitNotFull = some queue) :
      Move s .returnWait { s with queue := queue, dispatcher := .returnWaited x }
  | returnFails {x : Ticketed} (hd : s.dispatcher = .returnWaited x)
      (hput : s.queue.put x.copy = none) :
      Move s .returnSection { s with dispatcher := .idle }
  | returnPuts {x : Ticketed} {queue : BoundedBuffer Ticketed clientRequestQueueCapacity}
      (hd : s.dispatcher = .returnWaited x) (hput : s.queue.put x.copy = some queue) :
      Move s .returnSection { s with queue := queue, dispatcher := .returnDone }
  | returnReturns (hd : s.dispatcher = .returnDone) :
      Move s .returnRelease { s with queue := s.queue.releaseNotEmpty, dispatcher := .idle }

theorem clientStep_move {s t : State} {i : Nat} {c : Client} {l : Label}
    (hc : s.clients[i]? = some c)
    (hl : (∃ messageType buffer, l = .receive i messageType buffer) ∨ l = .checkWorkers i ∨
      l = .putWait i ∨ l = .putSection i ∨ l = .putRelease i)
    (h : clientStep s i c l = some t) : Move s l t := by
  rcases hl with ⟨messageType, buffer, rfl⟩ | rfl | rfl | rfl | rfl
  · simp only [clientStep] at h
    split at h
    · rename_i hpc
      split at h
      · rename_i haccepts
        cases h
        exact .decoded hc hpc haccepts
      · split at h
        · cases h
          exact .undecodable i messageType buffer
        · cases h
          exact .ignored i messageType buffer
    · cases h
  · simp only [clientStep] at h
    split at h
    · rename_i x hpc
      split at h
      · cases h
        exact .noWorkers hc hpc
      · cases h
        exact .counted hc hpc
    · cases h
  · simp only [clientStep] at h
    split at h
    · rename_i x hpc
      split at h
      · cases h
        exact .putTimesOut hc hpc
      · rename_i queue hwait
        cases h
        exact .putWaits hc hpc hwait
    · cases h
  · simp only [clientStep] at h
    split at h
    · rename_i x hpc
      split at h
      · rename_i hput
        cases h
        exact .putFails hc hpc hput
      · rename_i queue hput
        cases h
        exact .puts hc hpc hput
    · cases h
  · simp only [clientStep] at h
    split at h
    · rename_i ticket hpc
      cases h
      exact .putReturns hc hpc
    · cases h

theorem dispatch_move {s t : State} {sendResult : Int}
    (h : dispatcherStep s (.dispatch sendResult) = some t) : Move s (.dispatch sendResult) t := by
  simp only [dispatcherStep] at h
  split at h
  · rename_i x worker hd hworker
    split at h
    · rename_i htranslate
      cases h
      exact .unparsed sendResult hd htranslate
    · cases h
      exact .unsupported sendResult
    · split at h
      · cases h
        exact .sent sendResult worker hd
      · split at h
        · cases h
          exact .notSent sendResult _ hd
        · cases h
          exact .notSent sendResult s.workerList hd
  · cases h

theorem dispatcherStep_move {s t : State} {l : Label} (h : dispatcherStep s l = some t) :
    Move s l t := by
  cases l with
  | takeWait =>
    simp only [dispatcherStep] at h
    split at h
    · rename_i hd
      split at h
      · cases h
        exact .takeTimesOut
      · rename_i queue hwait
        cases h
        exact .takeWaits hd hwait
    · cases h
  | takeSection =>
    simp only [dispatcherStep] at h
    split at h
    · rename_i hd
      split at h
      · rename_i htake
        cases h
        exact .takeFails hd htake
      · rename_i slot queue htake
        cases h
        exact .takes hd htake
    · cases h
  | takeRelease =>
    simp only [dispatcherStep] at h
    split at h
    · rename_i x hd
      cases h
      exact .takeReturns hd
    · cases h
  | pickWorker =>
    simp only [dispatcherStep] at h
    split at h
    · split at h
      · cases h
        exact .noWorker
      · rename_i worker list hnext
        cases h
        exact .picked worker list
    · cases h
  | dispatch sendResult => exact dispatch_move h
  | returnWait =>
    simp only [dispatcherStep] at h
    split at h
    · rename_i x hd
      split at h
      · rename_i hwait
        cases h
        exact .returnTimesOut hd hwait
      · rename_i queue hwait
        cases h
        exact .returnWaits hd hwait
    · cases h
  | returnSection =>
    simp only [dispatcherStep] at h
    split at h
    · rename_i x hd
      split at h
      · rename_i hput
        cases h
        exact .returnFails hd hput
      · rename_i queue hput
        cases h
        exact .returnPuts hd hput
    · cases h
  | returnRelease =>
    simp only [dispatcherStep] at h
    split at h
    · rename_i hd
      cases h
      exact .returnReturns hd
    · cases h
  | _ => cases h

/-- **Every step is one of the moves.** -/
theorem step_move {s t : State} {l : Label} (h : step s l = some t) : Move s l t := by
  cases l with
  | connect clientSocket clientId =>
    cases h
    exact .connected clientSocket clientId
  | changeWorkers list =>
    cases h
    exact .workersChanged list
  | receive i messageType buffer =>
    obtain ⟨c, hc, h⟩ := Option.bind_eq_some_iff.mp h
    exact clientStep_move hc (.inl ⟨messageType, buffer, rfl⟩) h
  | checkWorkers i | putWait i | putSection i | putRelease i =>
    obtain ⟨c, hc, h⟩ := Option.bind_eq_some_iff.mp h
    exact clientStep_move hc (by simp) h
  | takeWait | takeSection | takeRelease | pickWorker | dispatch | returnWait | returnSection
  | returnRelease => exact dispatcherStep_move h

/-! ## The property -/

/-- The request the dispatcher holds. -/
@[simp] def DispatcherAt.requests : DispatcherAt → List Ticketed
  | .takeDone x | .holding x | .failed x | .returnWaited x => [x]
  | .idle | .takeWaited | .returnDone => []

/-- The tickets in the queue, held by the dispatcher, completely sent to a
worker, and answered with an error. -/
def State.places (s : State) : List Nat :=
  (s.queue.contents ++ s.dispatcher.requests).map Ticketed.ticket ++ s.sent.map Prod.fst
    ++ s.answered

/-- Every accepted request is in exactly one place. -/
def State.Conserved (s : State) : Prop := ∀ ticket ∈ s.accepted, s.places.count ticket = 1

/-- If this step is the wait of a give-back, the queue has room. -/
def ReturnFindsRoom (s : State) : Label → Prop
  | .returnWait => 0 < s.queue.notFull.value
  | _ => True

instance (s : State) (l : Label) : Decidable (ReturnFindsRoom s l) := by
  cases l <;> simp only [ReturnFindsRoom] <;> infer_instance

/-! ## Tickets -/

/-- The request a client thread is about to put into the queue. -/
@[simp] def ClientAt.requests : ClientAt → List Ticketed
  | .decoded x | .counted x | .putWaited x => [x]
  | .receiving | .putDone _ => []

/-- How often a client thread holds a ticket not yet in the queue. -/
@[simp] def ClientAt.pendingCount (ticket : Nat) (pc : ClientAt) : Nat :=
  (pc.requests.map Ticketed.ticket).count ticket

/-- How often it is about to report a ticket as accepted. -/
@[simp] def ClientAt.doneCount (ticket : Nat) : ClientAt → Nat
  | .putDone t => [t].count ticket
  | _ => 0

/-- The sum of a weight over the program points of all client threads. -/
def tally (weight : ClientAt → Nat) (clients : List Client) : Nat :=
  total (fun c => weight c.pc) clients

/-- How tickets are spread: `pending` counts them in front of the queue,
`placed` in the four places, `done` in threads that will report them as
accepted. -/
structure Ledger (pending done placed : Nat → Nat) (accepted : List Nat) (next : Nat) :
    Prop where
  once : ∀ t, pending t + placed t ≤ 1
  fresh : ∀ t, next ≤ t → pending t + placed t = 0
  placed_pos : ∀ t, t ∈ accepted ∨ 0 < done t → 0 < placed t

section Ledger

variable {pending done placed pending' done' placed' : Nat → Nat} {accepted accepted' : List Nat}
  {next : Nat}

/-- Tickets move, and none leaves the four places. -/
theorem Ledger.move (h : Ledger pending done placed accepted next)
    (hsum : ∀ t, pending' t + placed' t ≤ pending t + placed t)
    (hkeep : ∀ t, placed t ≤ placed' t)
    (hdone : ∀ t, t ∈ accepted' ∨ 0 < done' t → (t ∈ accepted ∨ 0 < done t) ∨ 0 < placed' t) :
    Ledger pending' done' placed' accepted' next := by
  refine ⟨fun t => Nat.le_trans (hsum t) (h.once t), fun t ht => ?_, fun t ht => ?_⟩
  · have hle := hsum t
    have hzero := h.fresh t ht
    omega
  · rcases hdone t ht with hold | hnew
    · exact Nat.lt_of_lt_of_le (h.placed_pos t hold) (hkeep t)
    · exact hnew

/-- A new ticket is issued. -/
theorem Ledger.issue (h : Ledger pending done placed accepted next)
    (hsum : ∀ t, pending' t + placed' t = pending t + placed t + [next].count t)
    (hkeep : ∀ t, placed t ≤ placed' t) :
    Ledger pending' done placed' accepted (next + 1) := by
  refine ⟨fun t => ?_, fun t ht => ?_, fun t ht => ?_⟩
  · rw [hsum t]
    by_cases heq : t = next
    · have hzero := h.fresh t (by omega)
      have hone : [next].count t ≤ 1 := List.count_le_length
      omega
    · have hone : [next].count t = 0 := List.count_eq_zero.mpr (by simpa using heq)
      have hle := h.once t
      omega
  · have hzero := h.fresh t (by omega)
    have hone : [next].count t = 0 := List.count_eq_zero.mpr (by simp; omega)
    rw [hsum t]
    omega
  · exact Nat.lt_of_lt_of_le (h.placed_pos t ht) (hkeep t)

end Ledger

/-! ## The invariant -/

/-- Threads inside `PutClientRequestQueue` in front of the critical
section. -/
@[simp] def ClientAt.putWaiting : ClientAt → Nat
  | .putWaited _ => 1
  | _ => 0

/-- Threads behind it. -/
@[simp] def ClientAt.putPending : ClientAt → Nat
  | .putDone _ => 1
  | _ => 0

/-- The dispatcher's part in the permits. -/
@[simp] def DispatcherAt.permits : DispatcherAt → BoundedBuffer.Pending
  | .returnWaited _ => ⟨1, 0, 0, 0⟩
  | .returnDone => ⟨0, 1, 0, 0⟩
  | .takeWaited => ⟨0, 0, 1, 0⟩
  | .takeDone _ => ⟨0, 0, 0, 1⟩
  | _ => ⟨0, 0, 0, 0⟩

/-- Who holds a permit between two steps. -/
def State.permits (s : State) : BoundedBuffer.Pending where
  putWaited := tally ClientAt.putWaiting s.clients + s.dispatcher.permits.putWaited
  putDone := tally ClientAt.putPending s.clients + s.dispatcher.permits.putDone
  takeWaited := s.dispatcher.permits.takeWaited
  takeDone := s.dispatcher.permits.takeDone

/-- The tickets of a state as a ledger. -/
def State.Ledgered (s : State) : Prop :=
  Ledger (fun t => tally (ClientAt.pendingCount t) s.clients)
    (fun t => tally (ClientAt.doneCount t) s.clients) (fun t => s.places.count t)
    s.accepted s.nextTicket

/-- The queue's permits are accounted for, everything on its way to a
worker can be decoded, and no ticket is lost or doubled. -/
structure Conserves (s : State) : Prop where
  accounts : s.queue.Accounts s.permits
  decodable : ∀ x ∈ s.queue.contents ++ s.dispatcher.requests, accepts x.request = true
  clients : ∀ c ∈ s.clients, ∀ x ∈ c.pc.requests, accepts x.request = true
  ledger : s.Ledgered

/-- One client thread moves. -/
theorem tally_set {clients : List Client} {i : Nat} {c : Client} (weight : ClientAt → Nat)
    (h : clients[i]? = some c) (pc : ClientAt) :
    tally weight (clients.set i { c with pc := pc }) + weight c.pc
      = tally weight clients + weight pc :=
  total_set (fun c : Client => weight c.pc) h { c with pc := pc }

/-- The weight of one client thread is part of the tally. -/
theorem weight_le_tally {clients : List Client} {i : Nat} {c : Client} (weight : ClientAt → Nat)
    (h : clients[i]? = some c) : weight c.pc ≤ tally weight clients :=
  weight_le_total (fun c : Client => weight c.pc) h

theorem conserves_init (slots : Nat → Ticketed) : Conserves (init slots) := by
  refine ⟨BoundedBuffer.accounts_new slots (by decide), fun x hx => ?_, fun c hc => ?_, ?_⟩
  · cases hx
  · cases hc
  · exact ⟨fun _ => Nat.zero_le _, fun _ _ => rfl, fun t ht => by simp [init, tally] at ht⟩

/-- The requests of the clients after one has moved. -/
theorem clients_set {s : State} {i : Nat} {c : Client} {pc : ClientAt}
    (h : ∀ c ∈ s.clients, ∀ x ∈ c.pc.requests, accepts x.request = true)
    (hpc : ∀ x ∈ pc.requests, accepts x.request = true) :
    ∀ d ∈ s.clients.set i { c with pc := pc }, ∀ x ∈ d.pc.requests, accepts x.request = true := by
  intro d hd
  rcases List.mem_or_eq_of_mem_set hd with hd | rfl
  · exact h d hd
  · exact hpc

/-- A ticket's count over the four places. -/
theorem count_places (s : State) (t : Nat) :
    s.places.count t = (s.queue.contents.map Ticketed.ticket).count t
      + (s.dispatcher.requests.map Ticketed.ticket).count t
      + (s.sent.map Prod.fst).count t + s.answered.count t := by
  simp only [State.places, List.map_append, List.count_append]

/-! ## Client steps -/

section ClientSteps

variable {s t : State} {i : Nat} {c : Client}

/-- The counters of all clients trade those of the one that moves. -/
theorem tallies_set (h : s.clients[i]? = some c) (pc : ClientAt) (ticket : Nat) :
    (tally (ClientAt.pendingCount ticket) (s.clients.set i { c with pc := pc })
        + c.pc.pendingCount ticket
      = tally (ClientAt.pendingCount ticket) s.clients + pc.pendingCount ticket) ∧
    (tally (ClientAt.doneCount ticket) (s.clients.set i { c with pc := pc })
        + c.pc.doneCount ticket
      = tally (ClientAt.doneCount ticket) s.clients + pc.doneCount ticket) :=
  ⟨tally_set _ h pc, tally_set _ h pc⟩

/-- The permits of all threads after a client has moved. -/
theorem permits_setClient (h : s.clients[i]? = some c) (pc : ClientAt) :
    (s.setClient i c pc).permits = { s.permits with
      putWaited := s.permits.putWaited + pc.putWaiting - c.pc.putWaiting
      putDone := s.permits.putDone + pc.putPending - c.pc.putPending } := by
  have h₁ := tally_set ClientAt.putWaiting h pc
  have h₂ := tally_set ClientAt.putPending h pc
  refine BoundedBuffer.Pending.ext ?_ ?_ rfl rfl
  · simp only [State.permits, State.setClient]; omega
  · simp only [State.permits, State.setClient]; omega

/-- A client's answer: its ticket goes from the thread to the answered
ones. -/
theorem ledgered_answer {x : Ticketed} (hledger : s.Ledgered) (h : s.clients[i]? = some c)
    (hpc : c.pc.requests = [x]) (hdone : ∀ ticket, c.pc.doneCount ticket = 0) :
    ((s.setClient i c .receiving).answer x.ticket).Ledgered := by
  refine Ledger.move hledger (fun ticket => ?_) (fun ticket => ?_) (fun ticket hticket => ?_)
  · obtain ⟨h₁, -⟩ := tallies_set h .receiving ticket
    simp only [ClientAt.pendingCount, hpc] at h₁
    simp only [ClientAt.requests, List.map_cons, List.map_nil, List.count_nil] at h₁
    rw [count_places, count_places]
    simp only [State.setClient, State.answer, List.count_append]
    omega
  · rw [count_places, count_places]
    simp only [State.setClient, State.answer, List.count_append]
    omega
  · obtain ⟨-, h₂⟩ := tallies_set h .receiving ticket
    rw [hdone ticket] at h₂
    simp only [ClientAt.doneCount] at h₂
    simp only [State.setClient, State.answer] at hticket
    exact Or.inl (hticket.imp_right fun hpos => by omega)

/-- A step of a client that keeps its request keeps the ledger. -/
theorem ledgered_forward {x : Ticketed} {pc : ClientAt} (hledger : s.Ledgered)
    (h : s.clients[i]? = some c) (hpc : c.pc.requests = [x]) (hpc' : pc.requests = [x])
    (hdone : ∀ ticket, c.pc.doneCount ticket = 0) (hdone' : ∀ ticket, pc.doneCount ticket = 0) :
    (s.setClient i c pc).Ledgered := by
  refine Ledger.move hledger (fun ticket => ?_) (fun ticket => Nat.le_refl _)
    (fun ticket hticket => ?_)
  · obtain ⟨h₁, -⟩ := tallies_set h pc ticket
    simp only [ClientAt.pendingCount, hpc, hpc'] at h₁
    show tally (ClientAt.pendingCount ticket) (s.clients.set i { c with pc := pc })
      + s.places.count ticket ≤ _
    omega
  · obtain ⟨-, h₂⟩ := tallies_set h pc ticket
    rw [hdone ticket, hdone' ticket] at h₂
    simp only [State.setClient] at hticket
    exact Or.inl (hticket.imp_right fun hpos => by omega)

/-- A move between program points with the same permits. -/
theorem accounts_setClient (hI : Conserves s) (hc : s.clients[i]? = some c) {pc : ClientAt}
    (hwaiting : pc.putWaiting = c.pc.putWaiting) (hpending : pc.putPending = c.pc.putPending) :
    s.queue.Accounts (s.setClient i c pc).permits := by
  rw [permits_setClient hc pc, hwaiting, hpending, Nat.add_sub_cancel, Nat.add_sub_cancel]
  exact hI.accounts

/-- A message that can be decoded gets a ticket. -/
theorem conserves_decoded {messageType : UInt8} {buffer : List UInt8} (hI : Conserves s)
    (hc : s.clients[i]? = some c) (hpc : c.pc = .receiving)
    (haccepts : accepts (c.request messageType buffer) = true) :
    Conserves { s.setClient i c (.decoded ⟨c.request messageType buffer, s.nextTicket⟩) with
      nextTicket := s.nextTicket + 1 } := by
  constructor
  · exact accounts_setClient hI hc (by rw [hpc]; rfl) (by rw [hpc]; rfl)
  · exact hI.decodable
  · refine clients_set hI.clients ?_
    intro x hx
    rw [ClientAt.requests, List.mem_singleton] at hx
    rw [hx]
    exact haccepts
  · have hsum := tallies_set hc (.decoded ⟨c.request messageType buffer, s.nextTicket⟩)
    simp only [hpc, ClientAt.pendingCount, ClientAt.requests, ClientAt.doneCount,
      List.map_cons, List.map_nil, List.count_nil, Nat.add_zero] at hsum
    have hold : Ledger (fun t => tally (ClientAt.pendingCount t) s.clients)
        (fun t => tally (ClientAt.doneCount t) (s.clients.set i
          { c with pc := .decoded ⟨c.request messageType buffer, s.nextTicket⟩ }))
        (fun t => s.places.count t) s.accepted s.nextTicket := by
      refine ⟨hI.ledger.once, hI.ledger.fresh, ?_⟩
      intro ticket hticket
      rw [(hsum ticket).2] at hticket
      exact hI.ledger.placed_pos ticket hticket
    refine hold.issue ?_ (fun ticket => Nat.le_refl _)
    intro ticket
    show tally (ClientAt.pendingCount ticket) (s.clients.set i _) + s.places.count ticket = _
    have h₁ := (hsum ticket).1
    omega

/-- One that cannot is answered. -/
theorem conserves_undecodable (hI : Conserves s) :
    Conserves { s.answer s.nextTicket with nextTicket := s.nextTicket + 1 } := by
  refine ⟨hI.accounts, hI.decodable, hI.clients, ?_⟩
  refine Ledger.issue hI.ledger ?_ ?_
  · intro ticket
    rw [count_places, count_places]
    simp only [State.answer, List.count_append]
    omega
  · intro ticket
    rw [count_places, count_places]
    simp only [State.answer, List.count_append]
    omega

/-- A client whose thread holds no permit is answered. -/
theorem conserves_answered {x : Ticketed} (hI : Conserves s) (hc : s.clients[i]? = some c)
    (hrequests : c.pc.requests = [x]) (hdone : ∀ ticket, c.pc.doneCount ticket = 0)
    (hwaiting : c.pc.putWaiting = 0) (hpending : c.pc.putPending = 0) :
    Conserves ((s.setClient i c .receiving).answer x.ticket) where
  accounts := accounts_setClient hI hc hwaiting.symm hpending.symm
  decodable := hI.decodable
  clients := clients_set hI.clients (by simp [ClientAt.requests])
  ledger := ledgered_answer hI.ledger hc hrequests hdone

/-- `GetWorkerCount`, when there are workers. -/
theorem conserves_counted {x : Ticketed} (hI : Conserves s) (hc : s.clients[i]? = some c)
    (hpc : c.pc = .decoded x) : Conserves (s.setClient i c (.counted x)) := by
  have hreq : c.pc.requests = [x] := by rw [hpc]; rfl
  have hdone : ∀ ticket, c.pc.doneCount ticket = 0 := by intro _; rw [hpc]; rfl
  constructor
  · exact accounts_setClient hI hc (by rw [hpc]; rfl) (by rw [hpc]; rfl)
  · exact hI.decodable
  · refine clients_set hI.clients ?_
    intro y hy
    exact hI.clients c (List.mem_of_getElem? hc) y (by rw [hreq]; exact hy)
  · exact ledgered_forward hI.ledger hc hreq rfl hdone fun _ => rfl

/-- The wait of `PutClientRequestQueue`. -/
theorem conserves_putWaits {x : Ticketed}
    {queue : BoundedBuffer Ticketed clientRequestQueueCapacity} (hI : Conserves s)
    (hc : s.clients[i]? = some c) (hpc : c.pc = .counted x)
    (hwait : s.queue.waitNotFull = some queue) :
    Conserves { s.setClient i c (.putWaited x) with queue := queue } := by
  have hreq : c.pc.requests = [x] := by rw [hpc]; rfl
  have hdone : ∀ ticket, c.pc.doneCount ticket = 0 := by intro _; rw [hpc]; rfl
  have hcontents := BoundedBuffer.contents_waitNotFull hwait
  constructor
  · show queue.Accounts (State.permits (s.setClient i c _))
    rw [permits_setClient hc, hpc]
    exact hI.accounts.waitNotFull hwait
  · intro y hy
    exact hI.decodable y (by rwa [hcontents] at hy)
  · refine clients_set hI.clients ?_
    intro y hy
    exact hI.clients c (List.mem_of_getElem? hc) y (by rw [hreq]; exact hy)
  · have hledger : (s.setClient i c (.putWaited x)).Ledgered :=
      ledgered_forward hI.ledger hc hreq rfl hdone fun _ => rfl
    have hplaces : ({ s.setClient i c (.putWaited x) with queue := queue } : State).places
        = (s.setClient i c (.putWaited x)).places := by
      simp only [State.places, hcontents, State.setClient]
    unfold State.Ledgered at hledger ⊢
    rw [hplaces]
    exact hledger

/-- A client thread behind its wait holds a permit. -/
theorem putWaited_pos {x : Ticketed} (hc : s.clients[i]? = some c) (hpc : c.pc = .putWaited x) :
    0 < s.permits.putWaited := by
  have hle := weight_le_tally ClientAt.putWaiting hc
  have hone : c.pc.putWaiting = 1 := by rw [hpc]; rfl
  simp only [State.permits]
  omega

/-- The critical section: the request goes into the queue. -/
theorem conserves_puts {x : Ticketed} {queue : BoundedBuffer Ticketed clientRequestQueueCapacity}
    (hI : Conserves s) (hc : s.clients[i]? = some c) (hpc : c.pc = .putWaited x)
    (hput : s.queue.put x.copy = some queue) :
    Conserves { s.setClient i c (.putDone x.ticket) with queue := queue } := by
  have hwaiting := putWaited_pos hc hpc
  have hcontents := BoundedBuffer.contents_put hput
  have hacc : accepts x.request = true :=
    hI.clients c (List.mem_of_getElem? hc) x (by rw [hpc]; simp [ClientAt.requests])
  constructor
  · show queue.Accounts (State.permits (s.setClient i c _))
    rw [permits_setClient hc, hpc]
    exact hI.accounts.put hwaiting hput
  · intro y hy
    simp only [State.setClient] at hy
    rw [hcontents] at hy
    simp only [List.mem_append, List.mem_singleton] at hy
    rcases hy with (hy | rfl) | hy
    · exact hI.decodable y (by simp [hy])
    · exact (accepts_of_same (x.request.same_copy _)).trans hacc
    · exact hI.decodable y (List.mem_append_right _ hy)
  · exact clients_set hI.clients (by simp [ClientAt.requests])
  · refine Ledger.move hI.ledger ?_ ?_ ?_
    · intro ticket
      obtain ⟨h₁, -⟩ := tallies_set hc (.putDone x.ticket) ticket
      simp only [hpc, ClientAt.pendingCount, ClientAt.requests, List.map_cons, List.map_nil,
        List.count_nil] at h₁
      rw [count_places, count_places]
      simp only [State.setClient, hcontents, List.map_append, List.map_cons, List.map_nil,
        List.count_append, Ticketed.copy]
      omega
    · intro ticket
      rw [count_places, count_places]
      simp only [State.setClient, hcontents, List.map_append, List.count_append]
      omega
    · intro ticket hticket
      obtain ⟨-, h₂⟩ := tallies_set hc (.putDone x.ticket) ticket
      simp only [hpc, ClientAt.doneCount] at h₂
      simp only [State.setClient] at hticket
      by_cases hx : 0 < [x.ticket].count ticket
      · refine Or.inr ?_
        rw [count_places]
        simp only [State.setClient, hcontents, List.map_append, List.map_cons, List.map_nil,
          List.count_append, Ticketed.copy]
        omega
      · exact Or.inl (hticket.imp_right fun hpos => by omega)

/-- The release, behind which the call returns 1. -/
theorem conserves_putReturns {ticket : Nat} (hI : Conserves s) (hc : s.clients[i]? = some c)
    (hpc : c.pc = .putDone ticket) :
    Conserves { s.setClient i c .receiving with
      queue := s.queue.releaseNotEmpty
      accepted := s.accepted ++ [ticket] } := by
  have hpending : 0 < s.permits.putDone := by
    have hle := weight_le_tally ClientAt.putPending hc
    have hone : c.pc.putPending = 1 := by rw [hpc]; rfl
    simp only [State.permits]
    omega
  constructor
  · show s.queue.releaseNotEmpty.Accounts (State.permits (s.setClient i c _))
    rw [permits_setClient hc, hpc]
    exact hI.accounts.releaseNotEmpty hpending
  · exact hI.decodable
  · exact clients_set hI.clients (by simp [ClientAt.requests])
  · refine Ledger.move hI.ledger ?_ (fun ticket' => Nat.le_refl _) ?_
    · intro ticket'
      obtain ⟨h₁, -⟩ := tallies_set hc .receiving ticket'
      simp only [hpc, ClientAt.pendingCount, ClientAt.requests, List.map_nil,
        List.count_nil] at h₁
      rw [count_places, count_places]
      simp only [State.setClient, BoundedBuffer.contents_releaseNotEmpty]
      omega
    · intro ticket' hticket
      obtain ⟨-, h₂⟩ := tallies_set hc .receiving ticket'
      simp only [hpc, ClientAt.doneCount] at h₂
      simp only [State.setClient, List.mem_append, List.mem_singleton] at hticket
      refine Or.inl ?_
      rcases hticket with (hold | rfl) | hpos
      · exact Or.inl hold
      · refine Or.inr ?_
        have hle := weight_le_tally (ClientAt.doneCount ticket') hc
        have hone : c.pc.doneCount ticket' = 1 := by rw [hpc]; simp [ClientAt.doneCount]
        omega
      · exact Or.inr (by omega)

end ClientSteps

/-! ## Dispatcher steps -/

section DispatcherSteps

variable {s t : State}

/-- A step that moves no client thread and no ticket between places and
the rest. -/
theorem ledgered_of_places (h : s.Ledgered) (hclients : t.clients = s.clients)
    (haccepted : t.accepted = s.accepted) (hnext : t.nextTicket = s.nextTicket)
    (hplaces : ∀ ticket, t.places.count ticket = s.places.count ticket) : t.Ledgered := by
  unfold State.Ledgered
  rw [hclients, haccepted, hnext, funext hplaces]
  exact h

/-- A step at which the dispatcher keeps its request and the queue its
content. -/
theorem conserves_kept {queue : BoundedBuffer Ticketed clientRequestQueueCapacity}
    {dispatcher : DispatcherAt} {worker : Option WorkerNode} {list : WorkerList}
    (hI : Conserves s)
    (haccounts : queue.Accounts (State.permits { s with dispatcher := dispatcher }))
    (hcontents : queue.contents = s.queue.contents)
    (hrequests : dispatcher.requests = s.dispatcher.requests) :
    Conserves { s with
      queue := queue, dispatcher := dispatcher, worker := worker, workerList := list } := by
  refine ⟨haccounts, ?_, hI.clients, ledgered_of_places hI.ledger rfl rfl rfl ?_⟩
  · rw [hcontents, hrequests]
    exact hI.decodable
  · intro ticket
    rw [count_places, count_places, hcontents, hrequests]

/-- The wait of `TakeClientRequestQueue`. -/
theorem conserves_takeWaits {queue : BoundedBuffer Ticketed clientRequestQueueCapacity}
    (hI : Conserves s) (hd : s.dispatcher = .idle) (hwait : s.queue.waitNotEmpty = some queue) :
    Conserves { s with queue := queue, dispatcher := .takeWaited } := by
  have hacc := hI.accounts.waitNotEmpty hwait
  refine conserves_kept hI ?_ (BoundedBuffer.contents_waitNotEmpty hwait) (by rw [hd]; rfl)
  simpa [State.permits, hd, DispatcherAt.permits] using hacc

/-- Its critical section: the oldest request becomes the dispatcher's. -/
theorem conserves_takes {slot : Ticketed}
    {queue : BoundedBuffer Ticketed clientRequestQueueCapacity} (hI : Conserves s)
    (hd : s.dispatcher = .takeWaited) (htake : s.queue.take = some (slot, queue)) :
    Conserves { s with
      queue := queue
      dispatcher := .takeDone (slot.copy ⟨ClientRequest.zero, 0⟩) } := by
  have hwaiting : 0 < s.permits.takeWaited := by simp [State.permits, hd, DispatcherAt.permits]
  have hcontents := BoundedBuffer.contents_take htake
  have hslot : accepts slot.request = true := hI.decodable slot (by rw [hcontents]; simp)
  constructor
  · have hacc := hI.accounts.take hwaiting htake
    simpa [State.permits, hd, DispatcherAt.permits] using hacc
  · intro x hx
    simp only [DispatcherAt.requests, List.mem_append, List.mem_singleton] at hx
    rcases hx with hx | rfl
    · exact hI.decodable x (by rw [hcontents]; simp [hx])
    · exact (accepts_of_same (slot.request.same_copy _)).trans hslot
  · exact hI.clients
  · refine ledgered_of_places hI.ledger rfl rfl rfl ?_
    intro ticket
    rw [count_places, count_places, hcontents, hd]
    simp only [DispatcherAt.requests, Ticketed.copy, List.map_cons, List.map_nil,
      List.count_cons, List.count_nil]
    omega

/-- Its release. -/
theorem conserves_takeReturns {x : Ticketed} (hI : Conserves s)
    (hd : s.dispatcher = .takeDone x) :
    Conserves { s with queue := s.queue.releaseNotFull, dispatcher := .holding x } := by
  have hpending : 0 < s.permits.takeDone := by simp [State.permits, hd, DispatcherAt.permits]
  have hacc := hI.accounts.releaseNotFull hpending
  refine conserves_kept hI ?_ (BoundedBuffer.contents_releaseNotFull _) (by rw [hd]; rfl)
  simpa [State.permits, hd, DispatcherAt.permits] using hacc

/-- A complete send moves the ticket to the sent ones. -/
theorem conserves_sent {x : Ticketed} (hI : Conserves s) (hd : s.dispatcher = .holding x)
    (worker : WorkerNode) :
    Conserves { s with
      dispatcher := .idle
      worker := none
      sent := s.sent ++ [(x.ticket, worker.workerId)] } := by
  constructor
  · simpa [State.permits, hd, DispatcherAt.permits] using hI.accounts
  · intro y hy
    simp only [DispatcherAt.requests, List.append_nil] at hy
    exact hI.decodable y (by simp [hy])
  · exact hI.clients
  · refine ledgered_of_places hI.ledger rfl rfl rfl ?_
    intro ticket
    rw [count_places, count_places, hd]
    simp only [DispatcherAt.requests, List.map_nil, List.map_cons, List.map_append,
      List.count_nil, List.count_append]
    omega

/-- Any other leaves it with the dispatcher. -/
theorem conserves_notSent {x : Ticketed} (hI : Conserves s) (hd : s.dispatcher = .holding x)
    (list : WorkerList) :
    Conserves { s with dispatcher := .failed x, worker := none, workerList := list } := by
  refine conserves_kept hI ?_ rfl (by rw [hd]; rfl)
  simpa [State.permits, hd, DispatcherAt.permits] using hI.accounts

/-- The wait of `ReturnClientRequestQueue`. -/
theorem conserves_returnWaits {x : Ticketed}
    {queue : BoundedBuffer Ticketed clientRequestQueueCapacity} (hI : Conserves s)
    (hd : s.dispatcher = .failed x) (hwait : s.queue.waitNotFull = some queue) :
    Conserves { s with queue := queue, dispatcher := .returnWaited x } := by
  have hacc := hI.accounts.waitNotFull hwait
  refine conserves_kept hI ?_ (BoundedBuffer.contents_waitNotFull hwait) (by rw [hd]; rfl)
  simpa [State.permits, hd, DispatcherAt.permits] using hacc

/-- A dispatcher behind its wait holds a permit. -/
theorem returnWaited_pos {x : Ticketed} (hd : s.dispatcher = .returnWaited x) :
    0 < s.permits.putWaited := by
  simp [State.permits, hd, DispatcherAt.permits]

/-- Its critical section. -/
theorem conserves_returnPuts {x : Ticketed}
    {queue : BoundedBuffer Ticketed clientRequestQueueCapacity} (hI : Conserves s)
    (hd : s.dispatcher = .returnWaited x) (hput : s.queue.put x.copy = some queue) :
    Conserves { s with queue := queue, dispatcher := .returnDone } := by
  have hcontents := BoundedBuffer.contents_put hput
  have hx : accepts x.request = true :=
    hI.decodable x (by rw [hd]; simp [DispatcherAt.requests])
  constructor
  · have hacc := hI.accounts.put (returnWaited_pos hd) hput
    simpa [State.permits, hd, DispatcherAt.permits] using hacc
  · intro y hy
    simp only [hcontents, DispatcherAt.requests, List.append_nil, List.mem_append,
      List.mem_singleton] at hy
    rcases hy with hy | rfl
    · exact hI.decodable y (by simp [hy])
    · exact (accepts_of_same (x.request.same_copy _)).trans hx
  · exact hI.clients
  · refine ledgered_of_places hI.ledger rfl rfl rfl ?_
    intro ticket
    rw [count_places, count_places, hcontents, hd]
    simp only [DispatcherAt.requests, Ticketed.copy, List.map_append, List.map_cons,
      List.map_nil, List.count_append, List.count_nil]
    omega

/-- Its release. -/
theorem conserves_returnReturns (hI : Conserves s) (hd : s.dispatcher = .returnDone) :
    Conserves { s with queue := s.queue.releaseNotEmpty, dispatcher := .idle } := by
  have hpending : 0 < s.permits.putDone := by simp [State.permits, hd, DispatcherAt.permits]
  have hacc := hI.accounts.releaseNotEmpty hpending
  refine conserves_kept hI ?_ (BoundedBuffer.contents_releaseNotEmpty _) (by rw [hd]; rfl)
  simpa [State.permits, hd, DispatcherAt.permits] using hacc

/-- A request the dispatcher holds can be translated. -/
theorem translate_ne_unparsed {x : Ticketed} (hI : Conserves s) (hd : s.dispatcher = .holding x) :
    translate x.request ≠ .unparsed := by
  have hacc : accepts x.request = true :=
    hI.decodable x (by rw [hd]; simp [DispatcherAt.requests])
  obtain ⟨message, htranslate, -⟩ := translate_of_accepts hacc
  rw [htranslate]
  intro h
  cases h

end DispatcherSteps

/-! ## Runs -/

/-- A client connects. -/
theorem conserves_connect {s : State} {clientSocket : Socket} {clientId : Int32}
    (hI : Conserves s) :
    Conserves { s with clients := s.clients ++ [⟨clientSocket, clientId, .receiving⟩] } := by
  have htally : ∀ weight : ClientAt → Nat, weight .receiving = 0 →
      tally weight (s.clients ++ [⟨clientSocket, clientId, .receiving⟩])
        = tally weight s.clients := by
    intro weight hzero
    simp [tally, hzero]
  refine ⟨?_, hI.decodable, fun c hc x hx => ?_, ?_⟩
  · have hacc := hI.accounts
    simpa [State.permits, htally ClientAt.putWaiting rfl, htally ClientAt.putPending rfl] using hacc
  · rcases List.mem_append.mp hc with hc | hc
    · exact hI.clients c hc x hx
    · rw [List.mem_singleton.mp hc] at hx
      cases hx
  · have hpending := fun ticket => htally (ClientAt.pendingCount ticket) rfl
    have hdone := fun ticket => htally (ClientAt.doneCount ticket) rfl
    have hledger := hI.ledger
    unfold State.Ledgered at hledger ⊢
    rw [funext hpending, funext hdone]
    exact hledger

/-- **Step lemma.** Every step keeps the invariant, a give-back provided
the queue has room. -/
theorem conserves_step {s t : State} {l : Label} (hI : Conserves s) (hroom : ReturnFindsRoom s l)
    (h : step s l = some t) : Conserves t := by
  cases step_move h with
  | connected clientSocket clientId => exact conserves_connect hI
  | workersChanged list => exact ⟨hI.accounts, hI.decodable, hI.clients, hI.ledger⟩
  | decoded hc hpc haccepts => exact conserves_decoded hI hc hpc haccepts
  | undecodable => exact conserves_undecodable hI
  | ignored | takeTimesOut | noWorker | unsupported => exact hI
  | noWorkers hc hpc | putTimesOut hc hpc =>
    exact conserves_answered hI hc (by rw [hpc]; rfl) (by intro _; rw [hpc]; rfl)
      (by rw [hpc]; rfl) (by rw [hpc]; rfl)
  | counted hc hpc => exact conserves_counted hI hc hpc
  | putWaits hc hpc hwait => exact conserves_putWaits hI hc hpc hwait
  | putFails hc hpc hput => exact absurd hput (hI.accounts.put_ne_none (putWaited_pos hc hpc) _)
  | puts hc hpc hput => exact conserves_puts hI hc hpc hput
  | putReturns hc hpc => exact conserves_putReturns hI hc hpc
  | takeWaits hd hwait => exact conserves_takeWaits hI hd hwait
  | takeFails hd htake =>
    refine absurd htake (hI.accounts.take_ne_none ?_)
    simp [State.permits, hd, DispatcherAt.permits]
  | takes hd htake => exact conserves_takes hI hd htake
  | takeReturns hd => exact conserves_takeReturns hI hd
  | picked worker list => exact ⟨hI.accounts, hI.decodable, hI.clients, hI.ledger⟩
  | unparsed _ hd htranslate => exact absurd htranslate (translate_ne_unparsed hI hd)
  | sent _ worker hd => exact conserves_sent hI hd worker
  | notSent _ list hd => exact conserves_notSent hI hd list
  | returnTimesOut hd hwait =>
    have hzero := Semaphore.wait_eq_none.mp (Option.map_eq_none_iff.mp hwait)
    exact absurd hzero (Nat.pos_iff_ne_zero.mp hroom)
  | returnWaits hd hwait => exact conserves_returnWaits hI hd hwait
  | returnFails hd hput => exact absurd hput (hI.accounts.put_ne_none (returnWaited_pos hd) _)
  | returnPuts hd hput => exact conserves_returnPuts hI hd hput
  | returnReturns hd => exact conserves_returnReturns hI hd

/-- **No accepted request is lost or doubled** in a run in which every
give-back finds room in the queue. -/
theorem conserved_of_room {slots : Nat → Ticketed} {ls : List Label} {s : State}
    (hroom : Along step ReturnFindsRoom (init slots) ls)
    (h : exec step (init slots) ls = some s) : s.Conserved := by
  have hI : Conserves s :=
    exec_invariant_along (fun _ _ _ hI hP hs => conserves_step hI hP hs) (conserves_init slots)
      hroom h
  intro ticket hticket
  have honce := hI.ledger.once ticket
  have hpos := hI.ledger.placed_pos ticket (Or.inl hticket)
  omega

/-! ## A full queue -/

/-- Slots of zeros. -/
def zeroSlots : Nat → Ticketed := fun _ => ⟨ClientRequest.zero, 0⟩

/-- Client 1 connects, and worker 1 is ready. -/
def connected : List Label := [.connect 7 1, .changeWorkers oneWorkerList]

/-- The client's thread receives a GET and puts it into the queue. -/
def putOne : List Label :=
  [.receive 0 MessageType.get.value [0, 1, 107], .checkWorkers 0, .putWait 0, .putSection 0,
   .putRelease 0]

/-- The dispatcher takes a request. -/
def takeOne : List Label := [.takeWait, .takeSection, .takeRelease]

/-- A failed send is given back to a queue with room. -/
def givenBack : List Label :=
  connected ++ putOne ++ takeOne ++
    [.pickWorker, .dispatch (-1), .returnWait, .returnSection, .returnRelease]

/-- The queue is filled, the dispatcher takes the first request, the freed
slot is filled, and the send fails. -/
def refilled : List Label :=
  connected ++ (List.replicate clientRequestQueueCapacity putOne).flatten ++ takeOne ++ putOne ++
    [.pickWorker, .dispatch (-1), .returnWait]

theorem conserved_of_room_givenBack :
    ∃ s, exec step (init zeroSlots) givenBack = some s ∧ s.Conserved := by
  have hrun : (exec step (init zeroSlots) givenBack).isSome = true := by decide +kernel
  obtain ⟨s, hs⟩ := Option.isSome_iff_exists.mp hrun
  exact ⟨s, hs, conserved_of_room (by decide +kernel) hs⟩

/-- **A give-back to a full queue loses the request**: it was accepted and
is in none of the four places. -/
theorem full_queue_loses :
    ¬ ∀ (slots : Nat → Ticketed) (ls : List Label) (s : State),
      exec step (init slots) ls = some s → s.Conserved := by
  intro hall
  have hrun : (exec step (init zeroSlots) refilled).map
      (fun s => (s.accepted.contains 0, s.places.count 0)) = some (true, 0) := by decide +kernel
  obtain ⟨s, hs, hvalues⟩ := Option.map_eq_some_iff.mp hrun
  obtain ⟨haccepted, hcount⟩ := Prod.mk.inj hvalues
  have hone := hall zeroSlots refilled s hs 0 (by simpa using haccepted)
  omega

end LoadBalancing.LoadBalancer.RequestConservation
