/-
LoadBalancing.LoadBalancer.QueueThreads — the two queues of the load
balancer under any number of threads, `LoadBalancer/ClientRequestQueue.c`
and `LoadBalancer/WorkerResponseQueue.c`.

A thread may call any function of the queue at any time; a call is its
wait, its section under the lock and its release, with other threads in
between. `PutClientRequestQueue` and `ReturnClientRequestQueue` are
producers that differ in one argument check. Each queue is an instance
of `BufferThreads`, and a call made without interruption is the one of
`Queues`.

`queues_accounted`: counters, permits and threads add up in every
reachable state. `queues_fifo`: the elements come out in the order they
went in, each as it was put.

Out of scope: the NULL checks, and lengths beyond `MAX_MESSAGE_SIZE`,
which no caller passes.

No `sorry`, no `axiom`, no `native_decide`.
-/
import LoadBalancing.Base.BufferThreads
import LoadBalancing.Lib.Protocol
import LoadBalancing.LoadBalancer.Queues

namespace LoadBalancing.LoadBalancer

open LoadBalancing.Base LoadBalancing.Lib

namespace QueueThreads

/-! ## Steps -/

/-- One step of thread `i`: a call with the end of its wait, its locked
section, its release. -/
inductive Label (Call : Type) where
  | call (i : Nat) (call : Call) (result : WaitResult)
  | locked (i : Nat)
  | release (i : Nat)

/-- The calls of `ClientRequestQueue`, with the arguments as a request. -/
inductive ClientRequestCall where
  | putClientRequestQueue (request : ClientRequest)
  | returnClientRequestQueue (request : ClientRequest)
  | takeClientRequestQueue (request : ClientRequest)

/-- The calls of `WorkerResponseQueue`, with the arguments as a
response. -/
inductive WorkerResponseCall where
  | putWorkerResponseQueue (response : WorkerResponse)
  | takeWorkerResponseQueue (response : WorkerResponse)

/-- `ClientRequestQueue` with its threads. -/
abbrev ClientRequests := BufferThreads ClientRequest clientRequestQueueCapacity

/-- `WorkerResponseQueue` with its threads. -/
abbrev WorkerResponses := BufferThreads WorkerResponse workerResponseQueueCapacity

/-- `InitializeClientRequestQueue`, and `threads` threads in no call. -/
def startRequests (slots : Nat → ClientRequest) (threads : Nat) : ClientRequests :=
  BufferThreads.start slots clientRequestQueueCapacity_pos threads

/-- `InitializeWorkerResponseQueue`, and `threads` threads in no call. -/
def startResponses (slots : Nat → WorkerResponse) (threads : Nat) : WorkerResponses :=
  BufferThreads.start slots workerResponseQueueCapacity_pos threads

/-- How a call of `ClientRequestQueue` begins; `none` is the result -1
before any wait. Only the put checks its socket. -/
def requestCall (i : Nat) (result : WaitResult) :
    ClientRequestCall → Option (BufferThreads.Label ClientRequest)
  | .putClientRequestQueue request =>
    if request.clientSocket = none then none else some (.put i request result)
  | .returnClientRequestQueue request => some (.put i request result)
  | .takeClientRequestQueue request => some (.take i request result)

/-- How a call of `WorkerResponseQueue` begins. -/
def responseCall (i : Nat) (result : WaitResult) :
    WorkerResponseCall → Option (BufferThreads.Label WorkerResponse)
  | .putWorkerResponseQueue response =>
    if response.workerSocket = none then none else some (.put i response result)
  | .takeWorkerResponseQueue response => some (.take i response result)

section Queue

variable {α Call : Type} {capacity : Nat} {copy : α → α → α}
  {begin : Nat → WaitResult → Call → Option (BufferThreads.Label α)}

/-- One step of a queue whose calls begin with `begin`. -/
def queueStep (copy : α → α → α)
    (begin : Nat → WaitResult → Call → Option (BufferThreads.Label α))
    (s : BufferThreads α capacity) : Label Call → Option (BufferThreads α capacity)
  | .call i call result =>
    match begin i result call, s.threads[i]? with
    | none, some .outside => some s
    | none, _ => none
    | some l, _ => s.step copy l
  | .locked i => s.step copy (.locked i)
  | .release i => s.step copy (.release i)

/-- A step of a queue is a step of its buffer, or none. -/
theorem queueStep_buffer {s t : BufferThreads α capacity} {l : Label Call}
    (h : queueStep copy begin s l = some t) : t = s ∨ ∃ l', s.step copy l' = some t := by
  cases l with
  | call i call result =>
    simp only [queueStep] at h
    split at h
    · cases h; exact Or.inl rfl
    · cases h
    · exact Or.inr ⟨_, h⟩
  | locked i =>
    simp only [queueStep] at h
    exact Or.inr ⟨_, h⟩
  | release i =>
    simp only [queueStep] at h
    exact Or.inr ⟨_, h⟩

/-- A call that begins and is not interrupted is the same three steps of
the buffer. -/
theorem exec_uninterrupted {s t : BufferThreads α capacity} {i : Nat} {call : Call}
    {result : WaitResult}
    (h : exec (queueStep copy begin) s [.call i call result, .locked i, .release i] = some t) :
    ∃ l, begin i result call = some l ∧
      exec (BufferThreads.step copy) s [l, .locked i, .release i] = some t := by
  obtain ⟨s₁, h₁, hrest⟩ := exec_cons_eq_some.mp h
  obtain ⟨s₂, h₂, -⟩ := exec_cons_eq_some.mp hrest
  cases hbegin : begin i result call with
  | none =>
    simp only [queueStep, hbegin] at h₁
    split at h₁
    · rename_i hcall
      cases h₁
      simp only [queueStep, BufferThreads.step, hcall, Option.bind_some,
        BufferThreads.lockedSection] at h₂
      cases h₂
    · cases h₁
    · contradiction
  | some l =>
    refine ⟨l, rfl, ?_⟩
    simp only [exec, queueStep, hbegin] at h ⊢
    exact h

/-- What the steps of the buffer keep holds after every run of the
queue. -/
theorem queue_invariant {I : BufferThreads α capacity → Prop}
    (hstep : ∀ s l t, I s → BufferThreads.step copy s l = some t → I t)
    {s t : BufferThreads α capacity} {ls : List (Label Call)} (hs : I s)
    (h : exec (queueStep copy begin) s ls = some t) : I t := by
  refine exec_invariant (fun s l t hs hl => ?_) hs h
  rcases queueStep_buffer hl with rfl | ⟨l', hl'⟩
  · exact hs
  · exact hstep s l' t hs hl'

end Queue

/-- One step of `ClientRequestQueue`. -/
def requestStep : ClientRequests → Label ClientRequestCall → Option ClientRequests :=
  queueStep ClientRequest.copy requestCall

/-- One step of `WorkerResponseQueue`. -/
def responseStep : WorkerResponses → Label WorkerResponseCall → Option WorkerResponses :=
  queueStep WorkerResponse.copy responseCall

/-! ## Permits -/

/-- **Both queues account for every permit** in every state that any
number of threads can reach: the counters are in range, no locked section
finds the queue full or empty, and no release exceeds its maximum. -/
theorem queues_accounted :
    (∀ (slots : Nat → ClientRequest) (threads : Nat) (ls : List (Label ClientRequestCall))
      (s : ClientRequests), exec requestStep (startRequests slots threads) ls = some s →
        s.Accounted) ∧
    (∀ (slots : Nat → WorkerResponse) (threads : Nat) (ls : List (Label WorkerResponseCall))
      (s : WorkerResponses), exec responseStep (startResponses slots threads) ls = some s →
        s.Accounted) := by
  constructor
  · intro slots threads ls s h
    have hsound := queue_invariant (fun _ _ _ hs hl => BufferThreads.sound_step hs hl)
      (BufferThreads.sound_start slots (by decide) threads) h
    exact hsound.accounted
  · intro slots threads ls s h
    have hsound := queue_invariant (fun _ _ _ hs hl => BufferThreads.sound_step hs hl)
      (BufferThreads.sound_start slots (by decide) threads) h
    exact hsound.accounted

/-- A consumer that waits in vain, and a producer between its section and
its release. -/
theorem queues_accounted_sample :
    (∃ s, exec requestStep (startRequests (fun _ => .zero) 2)
      [.call 1 (.takeClientRequestQueue .zero) .timeout,
        .call 0 (.putClientRequestQueue .zero) .object0, .locked 0] = some s ∧ s.Accounted) ∧
    (∃ s, exec responseStep (startResponses (fun _ => .zero) 2)
      [.call 0 (.putWorkerResponseQueue .zero) .object0, .locked 0] = some s ∧ s.Accounted) :=
  ⟨Exists.imp (fun _ h => ⟨h, queues_accounted.1 _ _ _ _ h⟩) ⟨_, rfl⟩,
    Exists.imp (fun _ h => ⟨h, queues_accounted.2 _ _ _ _ h⟩) ⟨_, rfl⟩⟩

/-! ## Order -/

/-- **Both queues are FIFO.** What was taken is what was put first, in the
order of the locked sections; each element has the socket, the ids, the
type, the size and the first `dataSize` bytes it was put with. -/
theorem queues_fifo :
    (∀ (slots : Nat → ClientRequest) (threads : Nat) (ls : List (Label ClientRequestCall))
      (s : ClientRequests), exec requestStep (startRequests slots threads) ls = some s →
        ∃ oldest, oldest <+: s.enqueued ∧ List.Forall₂ ClientRequest.Same s.taken oldest) ∧
    (∀ (slots : Nat → WorkerResponse) (threads : Nat) (ls : List (Label WorkerResponseCall))
      (s : WorkerResponses), exec responseStep (startResponses slots threads) ls = some s →
        ∃ oldest, oldest <+: s.enqueued ∧ List.Forall₂ WorkerResponse.Same s.taken oldest) := by
  constructor
  · intro slots threads ls s h
    have hfifo := queue_invariant
      (fun _ _ _ hs hl => BufferThreads.fifo_step ClientRequest.same_copy
        (fun _ _ _ => ClientRequest.Same.trans) hs hl)
      (BufferThreads.fifo_start slots (by decide) threads) h
    exact hfifo.taken_prefix
  · intro slots threads ls s h
    have hfifo := queue_invariant
      (fun _ _ _ hs hl => BufferThreads.fifo_step WorkerResponse.same_copy
        (fun _ _ _ => WorkerResponse.Same.trans) hs hl)
      (BufferThreads.fifo_start slots (by decide) threads) h
    exact hfifo.taken_prefix

/-- A GET of a client, as a receiver thread queues it. -/
def getRequest (clientId : Int32) (payload : List UInt8) : ClientRequest :=
  { Payload.ofMessage MessageType.get.value payload with
    clientSocket := some clientId.toNatClampNeg
    clientId := clientId }

/-- A response of a worker. -/
def storeResponse (clientId : Int32) (payload : List UInt8) : WorkerResponse :=
  { Payload.ofMessage MessageType.storeResponse.value payload with
    workerSocket := some 5
    workerId := 1
    clientId := clientId }

/-- A request is returned while another one is put, over slots and into a
variable that hold something longer. -/
def requestRun : List (Label ClientRequestCall) :=
  [.call 0 (.putClientRequestQueue (getRequest 1 [0, 2, 65, 66])) .object0,
    .call 1 (.returnClientRequestQueue (getRequest 2 [0, 1, 67])) .object0, .locked 1, .locked 0,
    .release 1, .release 0,
    .call 1 (.takeClientRequestQueue (getRequest 8 [8, 8, 8, 8, 8])) .object0, .locked 1,
    .release 1, .call 1 (.takeClientRequestQueue (getRequest 8 [8, 8, 8, 8, 8])) .object0,
    .locked 1]

/-- A response is taken while the next one is put. -/
def responseRun : List (Label WorkerResponseCall) :=
  [.call 0 (.putWorkerResponseQueue (storeResponse 1 [1, 1])) .object0, .locked 0, .release 0,
    .call 0 (.putWorkerResponseQueue (storeResponse 2 [2])) .object0,
    .call 1 (.takeWorkerResponseQueue (storeResponse 8 [8, 8, 8])) .object0, .locked 0,
    .release 0, .locked 1, .release 1,
    .call 1 (.takeWorkerResponseQueue (storeResponse 8 [8, 8, 8])) .object0, .locked 1]

/-- What comes out of them, in which order and with which bytes. -/
theorem queues_fifo_sample :
    (∃ s, exec requestStep (startRequests (fun _ => getRequest 9 [9, 9, 9, 9, 9]) 2) requestRun
        = some s ∧
      s.taken.map (fun r => (r.clientId, r.content)) = [(2, [0, 1, 67]), (1, [0, 2, 65, 66])] ∧
      ∃ oldest, oldest <+: s.enqueued ∧ List.Forall₂ ClientRequest.Same s.taken oldest) ∧
    (∃ s, exec responseStep (startResponses (fun _ => storeResponse 9 [9, 9, 9, 9]) 2) responseRun
        = some s ∧
      s.taken.map (fun r => (r.clientId, r.content)) = [(1, [1, 1]), (2, [2])] ∧
      ∃ oldest, oldest <+: s.enqueued ∧ List.Forall₂ WorkerResponse.Same s.taken oldest) := by
  have hrequests : (exec requestStep (startRequests (fun _ => getRequest 9 [9, 9, 9, 9, 9]) 2)
      requestRun).map (fun s => s.taken.map fun r => (r.clientId, r.content))
        = some [(2, [0, 1, 67]), (1, [0, 2, 65, 66])] := by decide +kernel
  have hresponses : (exec responseStep (startResponses (fun _ => storeResponse 9 [9, 9, 9, 9]) 2)
      responseRun).map (fun s => s.taken.map fun r => (r.clientId, r.content))
        = some [(1, [1, 1]), (2, [2])] := by decide +kernel
  obtain ⟨s, hs, htaken⟩ := Option.map_eq_some_iff.mp hrequests
  obtain ⟨t, ht, htaken'⟩ := Option.map_eq_some_iff.mp hresponses
  exact ⟨⟨s, hs, htaken, queues_fifo.1 _ _ _ _ hs⟩, ⟨t, ht, htaken', queues_fifo.2 _ _ _ _ ht⟩⟩

/-! ## Calls without interruption

Where no other thread moves during a call, it is the call of `Queues`. -/

section Uninterrupted

variable {i : Nat}

theorem putClientRequestQueue_of_exec {s t : ClientRequests} {request : ClientRequest}
    (h : exec requestStep s
      [.call i (.putClientRequestQueue request) .object0, .locked i, .release i] = some t) :
    putClientRequestQueue s.buffer request = (1, t.buffer) := by
  obtain ⟨l, hl, hexec⟩ := exec_uninterrupted h
  simp only [requestCall] at hl
  split at hl
  · cases hl
  · rename_i hsocket
    cases hl
    rw [putClientRequestQueue, if_neg hsocket]
    exact (BufferThreads.enqueue_of_exec hexec).1

theorem returnClientRequestQueue_of_exec {s t : ClientRequests} {request : ClientRequest}
    (h : exec requestStep s
      [.call i (.returnClientRequestQueue request) .object0, .locked i, .release i] = some t) :
    returnClientRequestQueue s.buffer request = (1, t.buffer) := by
  obtain ⟨l, hl, hexec⟩ := exec_uninterrupted h
  cases hl
  exact (BufferThreads.enqueue_of_exec hexec).1

theorem takeClientRequestQueue_of_exec {s t : ClientRequests} {request : ClientRequest}
    (h : exec requestStep s
      [.call i (.takeClientRequestQueue request) .object0, .locked i, .release i] = some t) :
    ∃ taken, takeClientRequestQueue s.buffer request = (some taken, t.buffer) ∧
      t.taken = s.taken ++ [taken] := by
  obtain ⟨l, hl, hexec⟩ := exec_uninterrupted h
  cases hl
  obtain ⟨slot, hdequeue, htaken⟩ := BufferThreads.dequeue_of_exec hexec
  exact ⟨_, by simp only [takeClientRequestQueue, hdequeue, Option.map_some], htaken⟩

theorem putWorkerResponseQueue_of_exec {s t : WorkerResponses} {response : WorkerResponse}
    (h : exec responseStep s
      [.call i (.putWorkerResponseQueue response) .object0, .locked i, .release i] = some t) :
    putWorkerResponseQueue s.buffer response = (1, t.buffer) := by
  obtain ⟨l, hl, hexec⟩ := exec_uninterrupted h
  simp only [responseCall] at hl
  split at hl
  · cases hl
  · rename_i hsocket
    cases hl
    rw [putWorkerResponseQueue, if_neg hsocket]
    exact (BufferThreads.enqueue_of_exec hexec).1

theorem takeWorkerResponseQueue_of_exec {s t : WorkerResponses} {response : WorkerResponse}
    (h : exec responseStep s
      [.call i (.takeWorkerResponseQueue response) .object0, .locked i, .release i] = some t) :
    ∃ taken, takeWorkerResponseQueue s.buffer response = (some taken, t.buffer) ∧
      t.taken = s.taken ++ [taken] := by
  obtain ⟨l, hl, hexec⟩ := exec_uninterrupted h
  cases hl
  obtain ⟨slot, hdequeue, htaken⟩ := BufferThreads.dequeue_of_exec hexec
  exact ⟨_, by simp only [takeWorkerResponseQueue, hdequeue, Option.map_some], htaken⟩

end Uninterrupted

end QueueThreads

end LoadBalancing.LoadBalancer
