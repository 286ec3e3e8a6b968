/-
LoadBalancing.Worker.ExportQueue — the export queue of a worker and the
threads at it, `Worker/ExportQueue.c` and `Worker/ExportThread.c`.

`AddExportRequest` appends under the lock and releases `exportSignal`
behind it; `ExportThread` waits for `exportSignal` and then takes the
first request under the lock, which moves the others down. So there are
two places at which a permit and a request do not match: a producer in
front of its `ReleaseSemaphore` and the consumer in front of its section.
`Accounted` counts both, and `requests_delivered` is what follows for
every run: nothing is lost, repeated or out of order, and the consumer
never finds the queue empty.

Any number of threads may call `AddExportRequest`, any number of times.
A section under the lock is one step. Not modelled: the finish signal,
as the runs are those before it, and what the export of a taken request
does.

No `sorry`, no `axiom`, no `native_decide`.
-/
import LoadBalancing.Base.CString
import LoadBalancing.Base.Semaphore
import LoadBalancing.Base.SlotArray
import LoadBalancing.Base.Threads
import LoadBalancing.Base.Transition
import LoadBalancing.Lib.SharedConfig

namespace LoadBalancing.Worker

open LoadBalancing.Base LoadBalancing.Lib

/-! ## The queue -/

/-- `ExportRequest`. -/
structure ExportRequest where
  targetWorkerId : UInt32
  targetAddress : CString
  targetPort : UInt16
  deriving DecidableEq

/-- `ExportQueue`, with all slots of its array. -/
structure ExportQueue where
  requests : List ExportRequest
  requestCount : Int
  exportSignal : Semaphore maxWorkers
  deriving DecidableEq

namespace ExportQueue

/-- `sizeof(request->targetAddress)`. -/
def targetAddressSize : Nat := 256

/-- A slot that `memset` has cleared. -/
def clearedSlot : ExportRequest := ⟨0, .empty, 0⟩

/-- `InitializeExportQueue`. -/
def initializeExportQueue : ExportQueue :=
  ⟨List.replicate maxWorkers clearedSlot, 0, .closed maxWorkers⟩

/-- `AddExportRequest` up to the end of its section, with the result that
the call will have. There is none where `strncpy_s` ends the process, as
the address does not fit. -/
def addExportRequest (queue : ExportQueue) (targetWorkerId : UInt32) (address : CString)
    (port : UInt16) : Option (Int × ExportQueue) :=
  if maxWorkers ≤ queue.requestCount then some (-1, queue)
  else if targetAddressSize ≤ address.strlen then none
  else some (0, { queue with
    requests := queue.requests.set queue.requestCount.toNat ⟨targetWorkerId, address, port⟩
    requestCount := queue.requestCount + 1 })

/-- The section of `ExportThread`: the first request, or the empty queue. -/
def takeRequest (queue : ExportQueue) : Option (ExportRequest × ExportQueue) :=
  if 0 < queue.requestCount then
    some (queue.requests.getD 0 clearedSlot, { queue with
      requests := SlotArray.shiftDown queue.requests 0 (queue.requestCount - 1).toNat
      requestCount := queue.requestCount - 1 })
  else none

/-- The requests in the queue. -/
def content (queue : ExportQueue) : List ExportRequest :=
  queue.requests.take queue.requestCount.toNat

/-! ## The array is a queue -/

/-- The array has its slots, and the count is one of them. -/
structure WellFormed (queue : ExportQueue) : Prop where
  slots : queue.requests.length = maxWorkers
  count : queue.requestCount = queue.content.length

theorem holds_content (queue : ExportQueue) :
    SlotArray.Holds (fun _ => True) queue.requests queue.content :=
  ⟨_, (List.take_append_drop _ _).symm, fun _ _ => trivial⟩

namespace WellFormed

variable {queue queue' : ExportQueue}

theorem initializeExportQueue : initializeExportQueue.WellFormed := ⟨rfl, rfl⟩

/-- A queue whose array holds a list of the length of its count. -/
theorem of_holds {requests content : List ExportRequest} {count : Int}
    (signal : Semaphore maxWorkers) (hslots : requests.length = maxWorkers)
    (hcount : count = content.length) (hholds : SlotArray.Holds (fun _ => True) requests content) :
    (⟨requests, count, signal⟩ : ExportQueue).WellFormed ∧
      (⟨requests, count, signal⟩ : ExportQueue).content = content := by
  have hcontent : (⟨requests, count, signal⟩ : ExportQueue).content = content := by
    simp only [ExportQueue.content, hcount, Int.toNat_natCast]
    exact hholds.take
  exact ⟨⟨hslots, by rw [hcontent]; exact hcount⟩, hcontent⟩

theorem requestCount_le (h : queue.WellFormed) : queue.requestCount ≤ maxWorkers := by
  have hle := queue.holds_content.length_le
  rw [h.slots] at hle
  rw [h.count]
  exact_mod_cast hle

/-- **A request is appended** at the end of the queue, and the semaphore is
not touched. -/
theorem addExportRequest (h : queue.WellFormed) {targetWorkerId : UInt32} {address : CString}
    {port : UInt16}
    (hadd : queue.addExportRequest targetWorkerId address port = some (0, queue')) :
    queue'.WellFormed ∧ queue'.content = queue.content ++ [⟨targetWorkerId, address, port⟩] ∧
      queue'.exportSignal = queue.exportSignal ∧
      queue'.requestCount = queue.requestCount + 1 := by
  unfold ExportQueue.addExportRequest at hadd
  split at hadd
  · cases hadd
  · rename_i hroom
    split at hadd
    · cases hadd
    · cases hadd
      have hcount := h.count
      have hslots := h.slots
      have hlast : queue.requestCount.toNat = queue.content.length := by omega
      have happend := queue.holds_content.append (by omega) ⟨targetWorkerId, address, port⟩
      rw [← hlast] at happend
      have hset : (queue.requests.set queue.requestCount.toNat
          ⟨targetWorkerId, address, port⟩).length = maxWorkers := by
        rw [List.length_set, hslots]
      have hmore : queue.requestCount + 1 = (queue.content.length + 1 : Nat) := by omega
      obtain ⟨hwf, hcontent⟩ := of_holds queue.exportSignal hset
        (hmore.trans (by rw [List.length_append]; rfl)) happend
      exact ⟨hwf, hcontent, rfl, rfl⟩

/-- A refused request leaves the queue alone. -/
theorem of_refused {targetWorkerId : UInt32} {address : CString} {port : UInt16} {result : Int}
    (hadd : queue.addExportRequest targetWorkerId address port = some (result, queue'))
    (hresult : result ≠ 0) : queue' = queue := by
  unfold ExportQueue.addExportRequest at hadd
  split at hadd
  · cases hadd
    rfl
  · split at hadd
    · cases hadd
    · cases hadd
      exact absurd rfl hresult

/-- **The first request is taken**, and the others keep their order. -/
theorem takeRequest (h : queue.WellFormed) {request : ExportRequest}
    (htake : queue.takeRequest = some (request, queue')) :
    queue'.WellFormed ∧ queue.content = request :: queue'.content ∧
      queue'.exportSignal = queue.exportSignal ∧
      queue.requestCount = queue'.requestCount + 1 := by
  unfold ExportQueue.takeRequest at htake
  split at htake
  · rename_i hsome
    cases htake
    have hcount := h.count
    have hslots := h.slots
    obtain ⟨first, rest, hcontent⟩ : ∃ first rest, queue.content = first :: rest := by
      refine List.exists_cons_of_length_pos ?_
      omega
    obtain ⟨behind, hrequests, -⟩ := queue.holds_content
    have hfirst : queue.requests.getD 0 clearedSlot = first := by
      rw [hrequests, hcontent]
      rfl
    have hlength : queue.content.length = rest.length + 1 := by rw [hcontent]; rfl
    have hsteps : (queue.requestCount - 1).toNat = queue.content.length - 1 - 0 := by omega
    obtain ⟨stale, free, hloop, -⟩ := queue.holds_content.shiftDown (i := 0) (by omega)
    rw [← hsteps, hcontent] at hloop
    have hfewer : queue.requestCount - 1 = rest.length := by omega
    have hshifted : (SlotArray.shiftDown queue.requests 0
        (queue.requestCount - 1).toNat).length = maxWorkers := by
      rw [SlotArray.length_shiftDown, hslots]
    obtain ⟨hwf, hrest⟩ := of_holds queue.exportSignal hshifted hfewer
      ⟨stale :: free, hloop, fun _ _ => trivial⟩
    have htwo : queue.requestCount = queue.requestCount - 1 + 1 := by omega
    exact ⟨hwf, by rw [hcontent, hfirst, hrest], rfl, htwo⟩
  · cases htake

end WellFormed

/-! ## Threads -/

/-- A thread that calls `AddExportRequest`: in no call, or between the end
of the section and `ReleaseSemaphore`. -/
inductive ProducerAt where
  | idle
  | releasing (request : ExportRequest)
  deriving DecidableEq

/-- `ExportThread`: at its wait, between the wait and the section, and with
the request it has taken. -/
inductive ConsumerAt where
  | waiting
  | woken
  | exporting (request : ExportRequest)
  deriving DecidableEq

/-- The queue with its threads, and what has come of the calls: the requests
appended, those whose call has returned 0, and those taken. -/
structure State where
  queue : ExportQueue
  producers : List ProducerAt
  consumer : ConsumerAt
  added : List ExportRequest
  returned : List ExportRequest
  taken : List ExportRequest
  deriving DecidableEq

/-- One step. A call has its section, with NULL for an address possible, and
then its release; `ExportThread` wakes up, takes and exports. -/
inductive Label where
  | addExportRequest (i : Nat) (targetWorkerId : UInt32) (address : Option CString)
      (port : UInt16)
  | releaseSemaphore (i : Nat)
  | wait
  | take
  | exported
  deriving DecidableEq

/-- The initialized queue, and any number of threads in no call. -/
def start (threads : Nat) : State :=
  ⟨initializeExportQueue, List.replicate threads .idle, .waiting, [], [], []⟩

/-- One step; `none` where the thread is not there or cannot go on. -/
def step (s : State) : Label → Option State
  | .addExportRequest i targetWorkerId address port =>
    match s.producers[i]?, address with
    | some .idle, none => some s
    | some .idle, some address =>
      match s.queue.addExportRequest targetWorkerId address port with
      | none => none
      | some (result, queue) =>
        if result = 0 then
          some { s with
            queue := queue
            producers := s.producers.set i (.releasing ⟨targetWorkerId, address, port⟩)
            added := s.added ++ [⟨targetWorkerId, address, port⟩] }
        else some { s with queue := queue }
    | _, _ => none
  | .releaseSemaphore i =>
    match s.producers[i]? with
    | some (.releasing request) =>
      some { s with
        queue := { s.queue with exportSignal := s.queue.exportSignal.release 1 }
        producers := s.producers.set i .idle
        returned := s.returned ++ [request] }
    | _ => none
  | .wait =>
    match s.consumer, s.queue.exportSignal.wait with
    | .waiting, some exportSignal =>
      some { s with queue := { s.queue with exportSignal := exportSignal }, consumer := .woken }
    | _, _ => none
  | .take =>
    match s.consumer with
    | .woken =>
      match s.queue.takeRequest with
      | some (request, queue) =>
        some { s with
          queue := queue, consumer := .exporting request, taken := s.taken ++ [request] }
      | none => some { s with consumer := .waiting }
    | _ => none
  | .exported =>
    match s.consumer with
    | .exporting _ => some { s with consumer := .waiting }
    | _ => none

/-! ## What a step does -/

section Steps

variable {s t : State}

/-- A call's section appends the request, or changes nothing. -/
theorem step_addExportRequest {i : Nat} {targetWorkerId : UInt32} {address : Option CString}
    {port : UInt16} (hstep : step s (.addExportRequest i targetWorkerId address port) = some t) :
    t = s ∨ ∃ text queue, s.producers[i]? = some .idle ∧
      s.queue.addExportRequest targetWorkerId text port = some (0, queue) ∧
      t = { s with
        queue := queue
        producers := s.producers.set i (.releasing ⟨targetWorkerId, text, port⟩)
        added := s.added ++ [⟨targetWorkerId, text, port⟩] } := by
  simp only [step] at hstep
  split at hstep
  · cases hstep
    exact .inl rfl
  · rename_i text hidle
    split at hstep
    · cases hstep
    · rename_i result queue hadd
      split at hstep
      · rename_i hresult
        cases hstep
        exact .inr ⟨text, queue, hidle, hresult ▸ hadd, rfl⟩
      · rename_i hresult
        cases hstep
        rw [ExportQueue.WellFormed.of_refused hadd hresult]
        exact .inl rfl
  · cases hstep

theorem step_releaseSemaphore {i : Nat} (hstep : step s (.releaseSemaphore i) = some t) :
    ∃ request, s.producers[i]? = some (.releasing request) ∧
      t = { s with
        queue := { s.queue with exportSignal := s.queue.exportSignal.release 1 }
        producers := s.producers.set i .idle
        returned := s.returned ++ [request] } := by
  simp only [step] at hstep
  split at hstep
  · rename_i request hreleasing
    cases hstep
    exact ⟨request, hreleasing, rfl⟩
  · cases hstep

theorem step_wait (hstep : step s .wait = some t) :
    ∃ exportSignal, s.consumer = .waiting ∧ s.queue.exportSignal.wait = some exportSignal ∧
      t = { s with
        queue := { s.queue with exportSignal := exportSignal }, consumer := .woken } := by
  simp only [step] at hstep
  split at hstep
  · rename_i exportSignal hwaiting hwait
    cases hstep
    exact ⟨exportSignal, hwaiting, hwait, rfl⟩
  · cases hstep

/-- The section of `ExportThread` takes a request, or finds none. -/
theorem step_take (hstep : step s .take = some t) :
    s.consumer = .woken ∧
      ((∃ request queue, s.queue.takeRequest = some (request, queue) ∧
        t = { s with
          queue := queue, consumer := .exporting request, taken := s.taken ++ [request] }) ∨
      s.queue.takeRequest = none ∧ t = { s with consumer := .waiting }) := by
  simp only [step] at hstep
  split at hstep
  · rename_i hwoken
    refine ⟨hwoken, ?_⟩
    split at hstep
    · rename_i request queue htake
      cases hstep
      exact .inl ⟨request, queue, htake, rfl⟩
    · rename_i hnone
      cases hstep
      exact .inr ⟨hnone, rfl⟩
  · cases hstep

theorem step_exported (hstep : step s .exported = some t) :
    ∃ request, s.consumer = .exporting request ∧ t = { s with consumer := .waiting } := by
  simp only [step] at hstep
  split at hstep
  · rename_i request hexporting
    cases hstep
    exact ⟨request, hexporting, rfl⟩
  · cases hstep

end Steps

/-! ## What the counts add up to -/

/-- A producer in front of its release. -/
def ProducerAt.isReleasing : ProducerAt → Bool
  | .idle => false
  | .releasing _ => true

/-- A producer in front of the release for `request`. -/
def ProducerAt.holds (request : ExportRequest) : ProducerAt → Bool
  | .idle => false
  | .releasing held => held == request

/-- The producers between unlock and release. -/
def State.releasing (s : State) : Nat := s.producers.countP ProducerAt.isReleasing

/-- The consumer between wake-up and section. -/
def State.woken (s : State) : Nat := if s.consumer = .woken then 1 else 0

/-- **The accounts of a state.** -/
structure Accounted (s : State) : Prop where
  wellFormed : s.queue.WellFormed
  signal : (s.queue.exportSignal.value + s.releasing + s.woken : Nat) = s.queue.requestCount
  order : s.taken ++ s.queue.content = s.added
  returned : ∀ request, s.returned.count request +
    s.producers.countP (ProducerAt.holds request) = s.added.count request

/-- A producer is counted for the request it has appended. -/
theorem ProducerAt.toNat_holds (request held : ExportRequest) :
    ((ProducerAt.releasing held).holds request).toNat = [held].count request := by
  rw [ProducerAt.holds, List.count_singleton]
  cases held == request with
  | true => rfl
  | false => rfl

/-- Threads in no call are not counted. -/
theorem countP_idle {producers : List ProducerAt} (h : ∀ producer ∈ producers, producer = .idle)
    {p : ProducerAt → Bool} (hidle : p .idle = false) : producers.countP p = 0 := by
  rw [List.countP_eq_zero]
  intro producer hproducer
  rw [h producer hproducer, hidle]
  exact Bool.false_ne_true

theorem accounted_start (threads : Nat) : Accounted (start threads) := by
  have hidle : ∀ producer ∈ List.replicate threads ProducerAt.idle, producer = .idle :=
    fun _ hproducer => List.eq_of_mem_replicate hproducer
  refine ⟨.initializeExportQueue, ?_, rfl, ?_⟩
  · rw [State.releasing, start, countP_idle hidle rfl]
    rfl
  · intro request
    rw [start, countP_idle hidle rfl]
    rfl

section Steps

variable {s t : State}

/-- **A call's section** appends a request whose thread is then counted, or
changes nothing. -/
theorem Accounted.addExportRequest (h : Accounted s) {i : Nat} {targetWorkerId : UInt32}
    {address : Option CString} {port : UInt16}
    (hstep : step s (.addExportRequest i targetWorkerId address port) = some t) :
    Accounted t := by
  obtain rfl | ⟨text, queue, hidle, hadd, rfl⟩ := step_addExportRequest hstep
  · exact h
  obtain ⟨hwf, hcontent, hsignal, hcount⟩ := h.wellFormed.addExportRequest hadd
  refine ⟨hwf, ?_, ?_, ?_⟩
  · have hreleasing := countP_set_add ProducerAt.isReleasing hidle
      (.releasing ⟨targetWorkerId, text, port⟩)
    have hbefore := h.signal
    simp only [State.releasing, State.woken, ProducerAt.isReleasing, Bool.toNat_false,
      Bool.toNat_true] at hreleasing hbefore ⊢
    rw [hsignal, hcount]
    omega
  · simp only [hcontent, ← h.order, List.append_assoc]
  · intro request
    have hreleasing := countP_set_add (ProducerAt.holds request) hidle
      (.releasing ⟨targetWorkerId, text, port⟩)
    have hbefore := h.returned request
    rw [ProducerAt.toNat_holds, ProducerAt.holds, Bool.toNat_false] at hreleasing
    simp only [List.count_append]
    omega

/-- **A release** turns a producer into a permit. -/
theorem Accounted.releaseSemaphore (h : Accounted s) {i : Nat}
    (hstep : step s (.releaseSemaphore i) = some t) : Accounted t := by
  obtain ⟨request, hreleasing, rfl⟩ := step_releaseSemaphore hstep
  have hbefore := h.signal
  have hmoved := countP_set_add ProducerAt.isReleasing hreleasing .idle
  have hle := h.wellFormed.requestCount_le
  simp only [State.releasing, State.woken, ProducerAt.isReleasing, Bool.toNat_false,
    Bool.toNat_true] at hbefore hmoved ⊢
  have hroom : s.queue.exportSignal.value + 1 ≤ maxWorkers := by omega
  refine ⟨⟨h.wellFormed.slots, h.wellFormed.count⟩, ?_, h.order, ?_⟩
  · simp only [State.releasing, State.woken, Semaphore.release_value hroom]
    omega
  · intro other
    have hthis := countP_set_add (ProducerAt.holds other) hreleasing .idle
    have hcounted := h.returned other
    rw [ProducerAt.toNat_holds, ProducerAt.holds, Bool.toNat_false] at hthis
    simp only [List.count_append]
    omega

/-- **The wait** turns a permit into a consumer that is awake. -/
theorem Accounted.wait (h : Accounted s) (hstep : step s .wait = some t) : Accounted t := by
  obtain ⟨exportSignal, hwaiting, hwait, rfl⟩ := step_wait hstep
  have hvalue := Semaphore.wait_eq_some hwait
  have hbefore := h.signal
  refine ⟨⟨h.wellFormed.slots, h.wellFormed.count⟩, ?_, h.order, h.returned⟩
  simp only [State.releasing, State.woken, hwaiting, reduceCtorEq, if_false, if_true] at hbefore ⊢
  omega

/-- A consumer that is awake finds a request. -/
theorem Accounted.takeRequest_ne_none (h : Accounted s) (hwoken : s.consumer = .woken) :
    s.queue.takeRequest ≠ none := by
  have hbefore := h.signal
  simp only [State.woken, hwoken, if_true] at hbefore
  have hpositive : 0 < s.queue.requestCount := by omega
  rw [takeRequest, if_pos hpositive]
  exact Option.some_ne_none _

/-- **The section of `ExportThread`** takes the oldest request. -/
theorem Accounted.take (h : Accounted s) (hstep : step s .take = some t) : Accounted t := by
  obtain ⟨hwoken, ⟨request, queue, htake, rfl⟩ | ⟨hnone, -⟩⟩ := step_take hstep
  · obtain ⟨hwf, hcontent, hsignal, hcount⟩ := h.wellFormed.takeRequest htake
    have hbefore := h.signal
    refine ⟨hwf, ?_, ?_, h.returned⟩
    · simp only [State.releasing, State.woken, hwoken, reduceCtorEq, if_false, if_true,
        hsignal] at hbefore ⊢
      omega
    · have horder := h.order
      rw [hcontent] at horder
      simpa using horder
  · exact absurd hnone (h.takeRequest_ne_none hwoken)

theorem Accounted.exported (h : Accounted s) (hstep : step s .exported = some t) :
    Accounted t := by
  obtain ⟨request, hexporting, rfl⟩ := step_exported hstep
  have hbefore := h.signal
  refine ⟨h.wellFormed, ?_, h.order, h.returned⟩
  simp only [State.releasing, State.woken, hexporting, reduceCtorEq, if_false] at hbefore ⊢
  exact hbefore

end Steps

/-- Every step keeps the accounts. -/
theorem accounted_step (s : State) (l : Label) (t : State) (h : Accounted s)
    (hstep : step s l = some t) : Accounted t := by
  cases l with
  | addExportRequest i targetWorkerId address port => exact h.addExportRequest hstep
  | releaseSemaphore i => exact h.releaseSemaphore hstep
  | wait => exact h.wait hstep
  | take => exact h.take hstep
  | exported => exact h.exported hstep

/-! ## The rest of the work -/

/-- A step that begins a call. -/
def Label.isCall : Label → Bool
  | .addExportRequest .. => true
  | _ => false

/-- The steps that `ExportThread` has still to make. -/
def ConsumerAt.work : ConsumerAt → Nat
  | .waiting => 0
  | .woken => 2
  | .exporting _ => 1

/-- The steps to go without a new call: four for a request behind its
section, and one less for every step it has made. -/
def State.work (s : State) : Nat :=
  4 * s.releasing + 3 * s.queue.exportSignal.value + s.consumer.work

/-- Every step of a thread other than a new call is part of that work, and
appends nothing. -/
theorem work_step (s : State) (l : Label) (t : State) (hl : l.isCall = false)
    (hstep : step s l = some t) : t.work < s.work ∧ t.added = s.added := by
  cases l with
  | addExportRequest => cases hl
  | releaseSemaphore i =>
    obtain ⟨request, hreleasing, rfl⟩ := step_releaseSemaphore hstep
    have hmoved := countP_set_add ProducerAt.isReleasing hreleasing .idle
    have hvalue : (s.queue.exportSignal.release 1).value ≤ s.queue.exportSignal.value + 1 := by
      unfold Semaphore.release
      split
      · exact Nat.le_refl _
      · exact Nat.le_succ _
    simp only [State.work, State.releasing, ProducerAt.isReleasing, Bool.toNat_false,
      Bool.toNat_true] at hmoved ⊢
    exact ⟨by omega, trivial⟩
  | wait =>
    obtain ⟨exportSignal, hwaiting, hwait, rfl⟩ := step_wait hstep
    have hvalue := Semaphore.wait_eq_some hwait
    simp only [State.work, State.releasing, ConsumerAt.work, hwaiting]
    exact ⟨by omega, trivial⟩
  | take =>
    obtain ⟨hwoken, ⟨request, queue, htake, rfl⟩ | ⟨-, rfl⟩⟩ := step_take hstep
    · have hsignal : queue.exportSignal = s.queue.exportSignal := by
        unfold takeRequest at htake
        split at htake
        · cases htake
          rfl
        · cases htake
      simp only [State.work, State.releasing, ConsumerAt.work, hwoken, hsignal]
      exact ⟨by omega, trivial⟩
    · simp only [State.work, State.releasing, ConsumerAt.work, hwoken]
      exact ⟨by omega, trivial⟩
  | exported =>
    obtain ⟨request, hexporting, rfl⟩ := step_exported hstep
    simp only [State.work, State.releasing, ConsumerAt.work, hexporting]
    exact ⟨by omega, trivial⟩

/-- Nothing but a new call can move. -/
def Settled (s : State) : Prop := ∀ l : Label, l.isCall = false → step s l = none

/-- **Where nothing can move** the queue is empty: every request has been
taken, and every call has returned. -/
theorem Accounted.settled {s : State} (h : Accounted s) (hsettled : Settled s) :
    s.taken = s.added ∧ s.returned.Perm s.added := by
  have hidle : ∀ producer ∈ s.producers, producer = .idle := by
    intro producer hproducer
    cases producer with
    | idle => rfl
    | releasing request =>
      obtain ⟨i, hi⟩ := List.mem_iff_getElem?.mp hproducer
      have hrelease := hsettled (.releaseSemaphore i) rfl
      simp only [step, hi] at hrelease
      cases hrelease
  have hwaiting : s.consumer = .waiting := by
    cases hconsumer : s.consumer with
    | waiting => rfl
    | woken =>
      have htake := hsettled .take rfl
      simp only [step, hconsumer] at htake
      split at htake <;> cases htake
    | exporting request =>
      have hexported := hsettled .exported rfl
      simp only [step, hconsumer] at hexported
      cases hexported
  have hvalue : s.queue.exportSignal.value = 0 := by
    rw [← Semaphore.wait_eq_none]
    have hwait := hsettled .wait rfl
    simp only [step, hwaiting] at hwait
    cases hsignal : s.queue.exportSignal.wait with
    | none => rfl
    | some exportSignal =>
      rw [hsignal] at hwait
      cases hwait
  have hsignal := h.signal
  rw [hvalue, State.releasing, countP_idle hidle rfl, State.woken, hwaiting,
    h.wellFormed.count] at hsignal
  have hempty : s.queue.content = [] := List.eq_nil_of_length_eq_zero (by simpa using hsignal.symm)
  have horder := h.order
  rw [hempty, List.append_nil] at horder
  refine ⟨horder, List.perm_iff_count.mpr ?_⟩
  intro request
  have hreturned := h.returned request
  rw [countP_idle hidle rfl] at hreturned
  exact hreturned

/-! ## Every run -/

/-- **What is promised of a state**: the semaphore and the threads between
their two places make up the count; what was taken is the beginning of
what was added, in order, and the queue holds the rest; a call that
returned 0 added its request, and the others that did are in front of
their release; the consumer finds a request, and a release has room; and
without new calls the threads come to an end, with everything taken. -/
structure Delivered (s : State) : Prop where
  signal : (s.queue.exportSignal.value + s.releasing + s.woken : Nat) = s.queue.requestCount
  order : s.taken ++ s.queue.content = s.added
  returned : ∀ request, s.returned.count request +
    s.producers.countP (ProducerAt.holds request) = s.added.count request
  found : s.consumer = .woken → s.queue.takeRequest ≠ none
  room : ∀ (i : Nat) (request : ExportRequest), s.producers[i]? = some (.releasing request) →
    s.queue.exportSignal.value + 1 ≤ maxWorkers
  finishes : ∀ (ls : List Label) (t : State), (∀ l ∈ ls, l.isCall = false) →
    exec step s ls = some t →
      ls.length ≤ s.work ∧ (Settled t → t.taken = s.added ∧ t.returned.Perm s.added)

theorem Accounted.delivered {s : State} (h : Accounted s) : Delivered s := by
  refine ⟨h.signal, h.order, h.returned, h.takeRequest_ne_none, ?_, ?_⟩
  · intro i request hreleasing
    have hone := countP_pos_of_getElem? (p := ProducerAt.isReleasing) hreleasing rfl
    have hsignal := h.signal
    have hle := h.wellFormed.requestCount_le
    unfold State.releasing at hsignal
    omega
  · intro ls t hls hrun
    have hlength := exec_length_le (μ := State.work) (Q := fun l => l.isCall = false)
      (fun s l t hl hstep => (work_step s l t hl hstep).1) hls hrun
    have hadded : t.added = s.added :=
      exec_invariant_along (I := fun t => t.added = s.added) (P := fun _ l => l.isCall = false)
        (fun a l b hadded hl hstep => ((work_step a l b hl hstep).2).trans hadded) rfl
        ((along_label_iff hrun).mpr hls) hrun
    refine ⟨by omega, ?_⟩
    intro hsettled
    rw [← hadded]
    exact (exec_invariant accounted_step h hrun).settled hsettled

/-- **Export requests are delivered** in every run, with any number of
threads that add them. -/
theorem requests_delivered {threads : Nat} {ls : List Label} {s : State}
    (h : exec step (start threads) ls = some s) : Delivered s :=
  (exec_invariant accounted_step (accounted_start threads) h).delivered

/-- Two threads add a request each, and the first is taken in between. -/
theorem requests_delivered_two :
    ∃ s, exec step (start 2)
      [.addExportRequest 0 4 (some (.ofString "10.0.0.4")) 5004,
        .addExportRequest 1 5 (some (.ofString "10.0.0.5")) 5005, .releaseSemaphore 1, .wait,
        .take, .addExportRequest 1 6 none 5006, .releaseSemaphore 0, .exported, .wait] = some s ∧
      Delivered s :=
  Exists.imp (fun _ h => ⟨h, requests_delivered h⟩) ⟨_, rfl⟩

end ExportQueue

end LoadBalancing.Worker
