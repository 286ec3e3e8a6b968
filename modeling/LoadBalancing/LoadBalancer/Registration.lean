/-
LoadBalancing.LoadBalancer.Registration — the life of a worker's
registration, from its READY messages to the end of its receiver thread.

A receiver thread runs `LoadBalancer/WorkerDataReceiverThread.c` for one
connection; the dispatcher runs the part of
`LoadBalancer/WorkerClientRequestDispatcherThread.c` that selects a worker
and removes it after a failed send. Calls are split where the source
waits, holds the lock and releases, so that threads interleave inside
`AddWorker` and `RemoveWorker`.

The thread knows the worker by the id it announced last and removes by
that id, while the list holds the socket; and `AddWorker` does not look
for the id, although its caller takes the result -1 for an id that is
listed already.

`closed_sockets_unlisted`: when every insertion is of a new positive id,
no connection changes its id while it is listed, and no removal by a
receiver times out on its node, a closed socket is in no node.
`registered_once_iff`: ids stay distinct, and a listed id that is
announced again only has its port updated, exactly when each such
announcement fails to insert.

Out of scope: shutdown, the messages other than READY, and the log
output. A socket stands for its connection: a handle that the system uses
again is another socket here.

No `sorry`, no `axiom`, no `native_decide`.
-/
import LoadBalancing.Base.Threads
import LoadBalancing.Base.Transition
import LoadBalancing.LoadBalancer.WorkerRing
import Mathlib.Data.List.Nodup

namespace LoadBalancing.LoadBalancer.Registration

open LoadBalancing.Base LoadBalancing.Lib

/-! ## Threads -/

/-- Where a receiver thread stands. Past the critical section of
`AddWorker` the position remembers whether the id was listed then, which
no branch of the source reads. -/
inductive Position where
  | receiving
  | adding (peerPort : UInt16)
  | addWaited (peerPort : UInt16)
  | addLinked (listed : Bool)
  | updating (peerPort : UInt16) (listed : Bool)
  | settingReady (isNewWorker listed : Bool)
  | broadcasting
  | sendingRegistry
  | removing
  | removeWaited
  | removeLeft
  | closing
  | closed
  deriving DecidableEq

/-- A receiver thread: its variable `workerId`, what `GetWorkerAddress`
says of its connection, and its position. -/
structure Receiver where
  workerId : Int32
  workerAddress : CString
  position : Position
  deriving DecidableEq

/-- The dispatcher: without a worker, with one, or in a removal. -/
inductive Dispatcher where
  | idle
  | hasWorker (workerId : Int32) (workerSocket : Option Socket)
  | removing (workerId : Int32)
  | removeWaited (workerId : Int32)
  | removeLeft
  deriving DecidableEq

/-- What a receiver thread does next, or what its connection brings. -/
inductive ReceiverEvent where
  | ready (readyWorkerId : UInt32) (peerPort : UInt16)
  | addWait
  | addSection (allocated : Bool)
  | addRelease
  | updateWorkerPeerPort
  | setWorkerReady
  | broadcastNewWorkerJoined
  | sendWorkerRegistry
  | disconnects
  | removeWait
  | removeSection
  | removeRelease
  | closes
  deriving DecidableEq

/-- What the dispatcher does next, or how its send ends. -/
inductive DispatcherEvent where
  | getNextWorker
  | sent
  | lost
  | removeWait
  | removeSection
  | removeRelease
  deriving DecidableEq

/-- A worker is in the list. -/
def Listed (list : WorkerList) (workerId : Int32) : Prop :=
  ∃ node ∈ list.nodes, node.workerId = workerId

instance (list : WorkerList) (workerId : Int32) : Decidable (Listed list workerId) :=
  inferInstanceAs (Decidable (∃ node ∈ list.nodes, _))

/-- The arguments of `AddWorker`. -/
def Receiver.newWorker (r : Receiver) (socket : Socket) (peerPort : UInt16) : NewWorker :=
  ⟨some socket, r.workerId, r.workerAddress, peerPort.toUInt32.toInt32⟩

/-! ## Steps of a receiver -/

/-- The READY message and `AddWorker`. A wait that times out is the result
0, which counts as new. -/
def addStep (list : WorkerList) (socket : Socket) (r : Receiver) :
    ReceiverEvent → Option (WorkerList × Receiver)
  | .ready readyWorkerId peerPort =>
    match r.position with
    | .receiving =>
      some (list, { r with workerId := readyWorkerId.toInt32, position := .adding peerPort })
    | _ => none
  | .addWait =>
    match r.position with
    | .adding peerPort =>
      match list.notFull.wait with
      | none =>
        some (list, { r with position := .settingReady true (decide (Listed list r.workerId)) })
      | some notFull =>
        some ({ list with notFull := notFull }, { r with position := .addWaited peerPort })
    | _ => none
  | .addSection allocated =>
    match r.position with
    | .addWaited peerPort =>
      let listed := decide (Listed list r.workerId)
      match list.addSection (r.newWorker socket peerPort) allocated with
      | none => some (list, { r with position := .updating peerPort listed })
      | some list => some (list, { r with position := .addLinked listed })
    | _ => none
  | .addRelease =>
    match r.position with
    | .addLinked listed =>
      some ({ list with notEmpty := list.notEmpty.release 1 },
        { r with position := .settingReady true listed })
    | _ => none
  | _ => none

/-- The rest of the READY branch. -/
def readyStep (list : WorkerList) (r : Receiver) :
    ReceiverEvent → Option (WorkerList × Receiver)
  | .updateWorkerPeerPort =>
    match r.position with
    | .updating peerPort listed =>
      some ((list.updateWorkerPeerPort r.workerId peerPort.toUInt32.toInt32).2,
        { r with position := .settingReady false listed })
    | _ => none
  | .setWorkerReady =>
    match r.position with
    | .settingReady isNewWorker _ =>
      let (result, list) := list.setWorkerReady r.workerId
      let next :=
        if 0 < result then (if isNewWorker then .broadcasting else .sendingRegistry)
        else .receiving
      some (list, { r with position := next })
    | _ => none
  | .broadcastNewWorkerJoined =>
    match r.position with
    | .broadcasting => some (list, { r with position := .sendingRegistry })
    | _ => none
  | .sendWorkerRegistry =>
    match r.position with
    | .sendingRegistry => some (list, { r with position := .receiving })
    | _ => none
  | _ => none

/-- The end of the connection: `RemoveWorker`, whose result nobody looks
at, and the closing of the socket. -/
def removeStep (list : WorkerList) (r : Receiver) :
    ReceiverEvent → Option (WorkerList × Receiver)
  | .disconnects =>
    match r.position with
    | .receiving => some (list, { r with position := .removing })
    | _ => none
  | .removeWait =>
    match r.position with
    | .removing =>
      if r.workerId ≤ 0 then some (list, { r with position := .closing })
      else match list.notEmpty.wait with
        | none => some (list, { r with position := .closing })
        | some notEmpty =>
          some ({ list with notEmpty := notEmpty }, { r with position := .removeWaited })
    | _ => none
  | .removeSection =>
    match r.position with
    | .removeWaited =>
      some ((list.removeSection r.workerId).getD list, { r with position := .removeLeft })
    | _ => none
  | .removeRelease =>
    match r.position with
    | .removeLeft =>
      some ({ list with notFull := list.notFull.release 1 }, { r with position := .closing })
    | _ => none
  | .closes =>
    match r.position with
    | .closing => some (list, { r with position := .closed })
    | _ => none
  | _ => none

/-- A step of a receiver thread on the list. -/
def receiverStep (list : WorkerList) (socket : Socket) (r : Receiver) (event : ReceiverEvent) :
    Option (WorkerList × Receiver) :=
  addStep list socket r event <|> readyStep list r event <|> removeStep list r event

/-! ## Steps of the dispatcher -/

/-- A step of the dispatcher on the list. After a send that did not lose
the connection it looks for a worker again. -/
def dispatcherStep (list : WorkerList) (d : Dispatcher) :
    DispatcherEvent → Option (WorkerList × Dispatcher)
  | .getNextWorker =>
    match d with
    | .idle =>
      match list.getNextWorker with
      | none => some (list, .idle)
      | some (node, list) => some (list, .hasWorker node.workerId node.workerSocket)
    | _ => none
  | .sent =>
    match d with
    | .hasWorker _ _ => some (list, .idle)
    | _ => none
  | .lost =>
    match d with
    | .hasWorker workerId _ => some (list, .removing workerId)
    | _ => none
  | .removeWait =>
    match d with
    | .removing workerId =>
      if workerId ≤ 0 then some (list, .idle)
      else match list.notEmpty.wait with
        | none => some (list, .idle)
        | some notEmpty => some ({ list with notEmpty := notEmpty }, .removeWaited workerId)
    | _ => none
  | .removeSection =>
    match d with
    | .removeWaited workerId => some ((list.removeSection workerId).getD list, .removeLeft)
    | _ => none
  | .removeRelease =>
    match d with
    | .removeLeft => some ({ list with notFull := list.notFull.release 1 }, .idle)
    | _ => none

/-! ## The system -/

/-- The list, a receiver for each connection so far, whose index is its
socket, and the dispatcher. -/
structure State where
  list : WorkerList
  receivers : List Receiver
  dispatcher : Dispatcher

/-- One step: a connection is accepted, or a thread moves. -/
inductive Label where
  | connects (workerAddress : CString)
  | receiver (c : Nat) (event : ReceiverEvent)
  | dispatcher (event : DispatcherEvent)
  deriving DecidableEq

/-- A receiver that has not ended counts against `maxWorkers`. -/
def Receiver.live (r : Receiver) : Nat := if r.position = .closed then 0 else 1

/-- One step. -/
def step (s : State) : Label → Option State
  | .connects workerAddress =>
    if total Receiver.live s.receivers < maxWorkers then
      some { s with receivers := s.receivers ++ [⟨-1, workerAddress, .receiving⟩] }
    else none
  | .receiver c event => do
    let r ← s.receivers[c]?
    let (list, r) ← receiverStep s.list c r event
    some { s with list := list, receivers := s.receivers.set c r }
  | .dispatcher event => do
    let (list, d) ← dispatcherStep s.list s.dispatcher event
    some { s with list := list, dispatcher := d }

/-- The initialised list, no connection yet. -/
def init : State := ⟨initializeWorkerList, [], .idle⟩

/-! ## What the steps do -/

/-- The steps of a receiver, with a constructor for each way through. -/
inductive ReceiverMove (list : WorkerList) (socket : Socket) (r : Receiver) :
    ReceiverEvent → WorkerList → Receiver → Prop
  | announces (readyWorkerId : UInt32) (peerPort : UInt16) (hat : r.position = .receiving) :
      ReceiverMove list socket r (.ready readyWorkerId peerPort) list
        { r with workerId := readyWorkerId.toInt32, position := .adding peerPort }
  | addTimesOut {peerPort : UInt16} (hat : r.position = .adding peerPort)
      (hwait : list.notFull.wait = none) :
      ReceiverMove list socket r .addWait list
        { r with position := .settingReady true (decide (Listed list r.workerId)) }
  | addWaits {peerPort : UInt16} {notFull : Semaphore maxWorkers}
      (hat : r.position = .adding peerPort) (hwait : list.notFull.wait = some notFull) :
      ReceiverMove list socket r .addWait { list with notFull := notFull }
        { r with position := .addWaited peerPort }
  | addFails {peerPort : UInt16} (allocated : Bool) (hat : r.position = .addWaited peerPort)
      (hsection : list.addSection (r.newWorker socket peerPort) allocated = none) :
      ReceiverMove list socket r (.addSection allocated) list
        { r with position := .updating peerPort (decide (Listed list r.workerId)) }
  | addLinks {peerPort : UInt16} (allocated : Bool) {list' : WorkerList}
      (hat : r.position = .addWaited peerPort)
      (hsection : list.addSection (r.newWorker socket peerPort) allocated = some list') :
      ReceiverMove list socket r (.addSection allocated) list'
        { r with position := .addLinked (decide (Listed list r.workerId)) }
  | addReturns {listed : Bool} (hat : r.position = .addLinked listed) :
      ReceiverMove list socket r .addRelease { list with notEmpty := list.notEmpty.release 1 }
        { r with position := .settingReady true listed }
  | updates {peerPort : UInt16} {listed : Bool} (hat : r.position = .updating peerPort listed) :
      ReceiverMove list socket r .updateWorkerPeerPort
        (list.updateWorkerPeerPort r.workerId peerPort.toUInt32.toInt32).2
        { r with position := .settingReady false listed }
  | setsReady {isNewWorker listed : Bool} (hat : r.position = .settingReady isNewWorker listed)
      (next : Position) (hnext : next = .broadcasting ∨ next = .sendingRegistry ∨
        next = .receiving) :
      ReceiverMove list socket r .setWorkerReady (list.setWorkerReady r.workerId).2
        { r with position := next }
  | broadcasts (hat : r.position = .broadcasting) :
      ReceiverMove list socket r .broadcastNewWorkerJoined list
        { r with position := .sendingRegistry }
  | sendsRegistry (hat : r.position = .sendingRegistry) :
      ReceiverMove list socket r .sendWorkerRegistry list { r with position := .receiving }
  | disconnects (hat : r.position = .receiving) :
      ReceiverMove list socket r .disconnects list { r with position := .removing }
  | removeRefuses (hat : r.position = .removing) (hid : r.workerId ≤ 0) :
      ReceiverMove list socket r .removeWait list { r with position := .closing }
  | removeTimesOut (hat : r.position = .removing) (hwait : list.notEmpty.wait = none) :
      ReceiverMove list socket r .removeWait list { r with position := .closing }
  | removeWaits {notEmpty : Semaphore maxWorkers} (hat : r.position = .removing)
      (hwait : list.notEmpty.wait = some notEmpty) :
      ReceiverMove list socket r .removeWait { list with notEmpty := notEmpty }
        { r with position := .removeWaited }
  | removeLeaves (hat : r.position = .removeWaited) :
      ReceiverMove list socket r .removeSection ((list.removeSection r.workerId).getD list)
        { r with position := .removeLeft }
  | removeReturns (hat : r.position = .removeLeft) :
      ReceiverMove list socket r .removeRelease { list with notFull := list.notFull.release 1 }
        { r with position := .closing }
  | closes (hat : r.position = .closing) :
      ReceiverMove list socket r .closes list { r with position := .closed }

section Moves

variable {list list' : WorkerList} {socket : Socket} {r r' : Receiver} {event : ReceiverEvent}

theorem addStep_move (h : addStep list socket r event = some (list', r')) :
    ReceiverMove list socket r event list' r' := by
  cases event with
  | ready readyWorkerId peerPort =>
    dsimp only [addStep] at h
    split at h
    · rename_i hat
      cases h
      exact .announces readyWorkerId peerPort hat
    · cases h
  | addWait =>
    dsimp only [addStep] at h
    split at h
    · rename_i peerPort hat
      split at h
      · rename_i hwait
        cases h
        exact .addTimesOut hat hwait
      · rename_i notFull hwait
        cases h
        exact .addWaits hat hwait
    · cases h
  | addSection allocated =>
    dsimp only [addStep] at h
    split at h
    · rename_i peerPort hat
      split at h
      · rename_i hsection
        cases h
        exact .addFails allocated hat hsection
      · rename_i linked hsection
        cases h
        exact .addLinks allocated hat hsection
    · cases h
  | addRelease =>
    dsimp only [addStep] at h
    split at h
    · rename_i listed hat
      cases h
      exact .addReturns hat
    · cases h
  | updateWorkerPeerPort | setWorkerReady | broadcastNewWorkerJoined | sendWorkerRegistry
  | disconnects | removeWait | removeSection | removeRelease | closes => cases h

theorem readyStep_move (h : readyStep list r event = some (list', r')) :
    ReceiverMove list socket r event list' r' := by
  cases event with
  | updateWorkerPeerPort =>
    simp only [readyStep] at h
    split at h
    · rename_i peerPort listed hat
      cases h
      exact .updates hat
    · cases h
  | setWorkerReady =>
    simp only [readyStep] at h
    split at h
    · rename_i isNewWorker listed hat
      cases h
      refine .setsReady hat _ ?_
      split
      · cases isNewWorker
        · exact Or.inr (Or.inl rfl)
        · exact Or.inl rfl
      · exact Or.inr (Or.inr rfl)
    · cases h
  | broadcastNewWorkerJoined =>
    simp only [readyStep] at h
    split at h
    · rename_i hat
      cases h
      exact .broadcasts hat
    · cases h
  | sendWorkerRegistry =>
    simp only [readyStep] at h
    split at h
    · rename_i hat
      cases h
      exact .sendsRegistry hat
    · cases h
  | ready | addWait | addSection | addRelease
  | disconnects | removeWait | removeSection | removeRelease | closes => cases h

theorem removeStep_move (h : removeStep list r event = some (list', r')) :
    ReceiverMove list socket r event list' r' := by
  cases event with
  | disconnects =>
    simp only [removeStep] at h
    split at h
    · rename_i hat
      cases h
      exact .disconnects hat
    · cases h
  | removeWait =>
    simp only [removeStep] at h
    split at h
    · rename_i hat
      split at h
      · rename_i hid
        cases h
        exact .removeRefuses hat hid
      · split at h
        · rename_i hwait
          cases h
          exact .removeTimesOut hat hwait
        · rename_i notEmpty hwait
          cases h
          exact .removeWaits hat hwait
    · cases h
  | removeSection =>
    simp only [removeStep] at h
    split at h
    · rename_i hat
      cases h
      exact .removeLeaves hat
    · cases h
  | removeRelease =>
    simp only [removeStep] at h
    split at h
    · rename_i hat
      cases h
      exact .removeReturns hat
    · cases h
  | closes =>
    simp only [removeStep] at h
    split at h
    · rename_i hat
      cases h
      exact .closes hat
    · cases h
  | ready | addWait | addSection | addRelease
  | updateWorkerPeerPort | setWorkerReady | broadcastNewWorkerJoined | sendWorkerRegistry => cases h

/-- **Every step of a receiver is one of the moves.** -/
theorem receiverStep_move (h : receiverStep list socket r event = some (list', r')) :
    ReceiverMove list socket r event list' r' := by
  unfold receiverStep at h
  cases hadd : addStep list socket r event with
  | some next =>
    rw [hadd] at h
    exact addStep_move (hadd.trans h)
  | none =>
    rw [hadd] at h
    cases hready : readyStep list r event with
    | some next =>
      rw [hready] at h
      exact readyStep_move (hready.trans h)
    | none =>
      rw [hready] at h
      exact removeStep_move h

end Moves

/-- What the dispatcher can do to the list: move its pointer or its
semaphores, or remove a node by id. -/
theorem dispatcherStep_nodes {list list' : WorkerList} {d d' : Dispatcher}
    {event : DispatcherEvent} (h : dispatcherStep list d event = some (list', d')) :
    list'.nodes = list.nodes ∨
      ∃ workerId, list'.nodes = ((list.removeSection workerId).getD list).nodes := by
  cases event with
  | getNextWorker =>
    simp only [dispatcherStep] at h
    split at h
    · split at h
      · cases h
        exact Or.inl rfl
      · rename_i node moved hnext
        cases h
        exact Or.inl (WorkerList.nodes_getNextWorker hnext)
    · cases h
  | sent =>
    simp only [dispatcherStep] at h
    split at h
    · cases h
      exact Or.inl rfl
    · cases h
  | lost =>
    simp only [dispatcherStep] at h
    split at h
    · cases h
      exact Or.inl rfl
    · cases h
  | removeWait =>
    simp only [dispatcherStep] at h
    split at h
    · split at h
      · cases h
        exact Or.inl rfl
      · split at h
        · cases h
          exact Or.inl rfl
        · cases h
          exact Or.inl rfl
    · cases h
  | removeSection =>
    simp only [dispatcherStep] at h
    split at h
    · rename_i workerId
      cases h
      exact Or.inr ⟨workerId, rfl⟩
    · cases h
  | removeRelease =>
    simp only [dispatcherStep] at h
    split at h
    · cases h
      exact Or.inl rfl
    · cases h

/-- The steps of the system. -/
inductive Move (s : State) : Label → State → Prop
  | connects (workerAddress : CString) :
      Move s (.connects workerAddress)
        { s with receivers := s.receivers ++ [⟨-1, workerAddress, .receiving⟩] }
  | receiver {c : Nat} {event : ReceiverEvent} {r r' : Receiver} {list : WorkerList}
      (hr : s.receivers[c]? = some r) (hmove : ReceiverMove s.list c r event list r') :
      Move s (.receiver c event) { s with list := list, receivers := s.receivers.set c r' }
  | dispatcher {event : DispatcherEvent} {list : WorkerList} {d : Dispatcher}
      (hnodes : list.nodes = s.list.nodes ∨
        ∃ workerId, list.nodes = ((s.list.removeSection workerId).getD s.list).nodes) :
      Move s (.dispatcher event) { s with list := list, dispatcher := d }

/-- **Every step is one of the moves.** -/
theorem step_move {s t : State} {l : Label} (h : step s l = some t) : Move s l t := by
  cases l with
  | connects workerAddress =>
    simp only [step] at h
    split at h
    · cases h
      exact .connects workerAddress
    · cases h
  | receiver c event =>
    simp only [step, Option.bind_eq_bind, Option.bind_eq_some_iff] at h
    obtain ⟨r, hr, ⟨list, r'⟩, hstep, heq⟩ := h
    cases heq
    exact .receiver hr (receiverStep_move hstep)
  | dispatcher event =>
    simp only [step, Option.bind_eq_bind, Option.bind_eq_some_iff] at h
    obtain ⟨⟨list, d⟩, hstep, heq⟩ := h
    cases heq
    exact .dispatcher (dispatcherStep_nodes hstep)

/-! ## Ids and sockets of the list -/

/-- The id and the socket of each node. -/
def registered (list : WorkerList) : List (Int32 × Option Socket) :=
  list.nodes.map fun node => (node.workerId, node.workerSocket)

theorem map_fst_registered (list : WorkerList) :
    (registered list).map Prod.fst = list.nodes.map WorkerNode.workerId := by
  rw [registered, List.map_map]
  rfl

theorem registered_modify (list : WorkerList) (i : Nat) {f : WorkerNode → WorkerNode}
    (hid : ∀ node, (f node).workerId = node.workerId)
    (hsocket : ∀ node, (f node).workerSocket = node.workerSocket) :
    registered { list with nodes := list.nodes.modify i f } = registered list := by
  apply List.ext_getElem?
  intro j
  simp only [registered, List.getElem?_map, List.getElem?_modify]
  by_cases hij : i = j
  · cases list.nodes[j]? <;> simp [hij, hid, hsocket]
  · simp [hij]

theorem registered_updateWorkerPeerPort (list : WorkerList) (workerId peerPort : Int32) :
    registered (list.updateWorkerPeerPort workerId peerPort).2 = registered list := by
  unfold WorkerList.updateWorkerPeerPort
  split
  · rfl
  · exact registered_modify list _ (fun _ => rfl) (fun _ => rfl)

theorem registered_setWorkerReady (list : WorkerList) (workerId : Int32) :
    registered (list.setWorkerReady workerId).2 = registered list := by
  unfold WorkerList.setWorkerReady
  split
  · rfl
  · split
    · rfl
    · exact registered_modify list _ (fun _ => rfl) (fun _ => rfl)

/-- An insertion happens in a list with room, when `malloc` succeeds. -/
theorem addSection_eq_some {list list' : WorkerList} {w : NewWorker} {allocated : Bool}
    (h : list.addSection w allocated = some list') :
    list.count < maxWorkers ∧ allocated = true ∧ list'.nodes = list.nodes ++ [w.node] := by
  unfold WorkerList.addSection at h
  split at h
  · cases h
  · rename_i hroom
    split at h
    · rename_i hallocated
      cases h
      exact ⟨Nat.lt_of_not_le hroom, hallocated, rfl⟩
    · cases h

/-- A removal takes at most one node out. -/
theorem registered_remove_sublist (list : WorkerList) (workerId : Int32) :
    (registered ((list.removeSection workerId).getD list)).Sublist (registered list) := by
  unfold WorkerList.removeSection
  cases list.indexOf workerId with
  | none => exact List.Sublist.refl _
  | some i => exact (List.eraseIdx_sublist list.nodes i).map _

/-- And so does the dispatcher. -/
theorem registered_dispatched_sublist {list list' : WorkerList}
    (hnodes : list'.nodes = list.nodes ∨
      ∃ workerId, list'.nodes = ((list.removeSection workerId).getD list).nodes) :
    (registered list').Sublist (registered list) := by
  rcases hnodes with hnodes | ⟨workerId, hnodes⟩
  · rw [registered, hnodes]
    exact List.Sublist.refl _
  · rw [registered, hnodes]
    exact registered_remove_sublist list workerId

/-- Among distinct ids the removed one is gone. -/
theorem not_mem_registered_remove {list : WorkerList} {workerId : Int32}
    (hnodup : ((registered list).map Prod.fst).Nodup) (socket : Option Socket) :
    (workerId, socket) ∉ registered ((list.removeSection workerId).getD list) := by
  intro hmem
  obtain ⟨node, hnode, heq⟩ := List.mem_map.mp hmem
  have hid : node.workerId = workerId := (Prod.mk.inj heq).1
  unfold WorkerList.removeSection at hnode
  cases hindex : list.indexOf workerId with
  | none =>
    rw [hindex] at hnode
    exact WorkerList.indexOf_eq_none.mp hindex node hnode hid
  | some i =>
    rw [hindex] at hnode
    obtain ⟨found, hfound, hfoundId⟩ := WorkerList.exists_of_indexOf hindex
    have hnode' : node ∈ list.nodes.eraseIdx i := hnode
    obtain ⟨j, hji, hj⟩ := List.mem_eraseIdx_iff_getElem?.mp hnode'
    have hids : (list.nodes.map WorkerNode.workerId).Nodup := map_fst_registered list ▸ hnodup
    have hlt := (List.getElem?_eq_some_iff.mp hj).1
    have hsame : (list.nodes.map WorkerNode.workerId)[j]?
        = (list.nodes.map WorkerNode.workerId)[i]? := by
      rw [List.getElem?_map, List.getElem?_map, hj, hfound, Option.map_some, Option.map_some, hid,
        hfoundId]
    exact hji ((List.getElem?_inj (by simpa using hlt) hids).mp hsame)

/-! ## Closed sockets -/

/-- The condition on a step: a connection that is listed announces the id
it is listed under; what is inserted has a positive id that is not listed;
and a receiver whose connection is listed finds a permit for its
removal. -/
def Orderly (s : State) : Label → Prop
  | .receiver c (.ready readyWorkerId _) =>
    ∀ node ∈ s.list.nodes, node.workerSocket = some c → node.workerId = readyWorkerId.toInt32
  | .receiver c (.addSection allocated) =>
    s.list.count < maxWorkers → allocated = true →
      match s.receivers[c]? with
      | some r => 0 < r.workerId ∧ ¬Listed s.list r.workerId
      | none => True
  | .receiver c .removeWait =>
    (∃ node ∈ s.list.nodes, node.workerSocket = some c) → 0 < s.list.notEmpty.value
  | _ => True

instance (s : State) (l : Label) : Decidable (Orderly s l) := by
  unfold Orderly
  split <;> first | infer_instance | (split <;> infer_instance)

/-- A thread at this position answers for its node. -/
def Position.holds : Position → Bool
  | .removeLeft => false
  | .closing => false
  | .closed => false
  | _ => true

/-- Ids are distinct and positive, and every node is that of a receiver
which knows its id and will still remove it. -/
structure Owned (s : State) : Prop where
  nodup : ((registered s.list).map Prod.fst).Nodup
  owner : ∀ {workerId : Int32} {socket : Option Socket}, (workerId, socket) ∈ registered s.list →
    0 < workerId ∧ ∃ c r, socket = some c ∧ s.receivers[c]? = some r ∧ r.workerId = workerId ∧
      r.position.holds = true

theorem owned_init : Owned init := by
  refine ⟨List.nodup_nil, ?_⟩
  intro workerId socket h
  exact absurd h List.not_mem_nil

section Steps

variable {s t : State} {c : Nat} {r r' : Receiver} {list : WorkerList}

/-- Owners that still answer for what is left. -/
theorem Owned.transfer (h : Owned s) (hsub : (registered t.list).Sublist (registered s.list))
    (hreceivers : ∀ {c : Nat} {r : Receiver}, s.receivers[c]? = some r →
      (r.workerId, some c) ∈ registered t.list → r.position.holds = true →
        ∃ r', t.receivers[c]? = some r' ∧ r'.workerId = r.workerId ∧ r'.position.holds = true) :
    Owned t := by
  refine ⟨h.nodup.sublist (hsub.map _), ?_⟩
  intro workerId socket hmem
  obtain ⟨hpositive, c, r, rfl, hr, rfl, hholds⟩ := h.owner (hsub.subset hmem)
  obtain ⟨r', hr', hid, hholds'⟩ := hreceivers hr hmem hholds
  exact ⟨hpositive, c, r', rfl, hr', hid, hholds'⟩

/-- A receiver moves: it has to answer for its own node only. -/
theorem Owned.receiver (h : Owned s) (hr : s.receivers[c]? = some r)
    (hsub : (registered list).Sublist (registered s.list))
    (hself : (r.workerId, some c) ∈ registered list → r.position.holds = true →
      r'.workerId = r.workerId ∧ r'.position.holds = true) :
    Owned { s with list := list, receivers := s.receivers.set c r' } := by
  refine h.transfer hsub ?_
  intro c' r₀ hr₀ hmem hholds
  have hlt := (List.getElem?_eq_some_iff.mp hr).1
  by_cases hc : c = c'
  · subst hc
    obtain rfl : r = r₀ := Option.some.inj (hr.symm.trans hr₀)
    obtain ⟨hid, hholds'⟩ := hself hmem hholds
    exact ⟨r', by rw [List.getElem?_set_self hlt], hid, hholds'⟩
  · exact ⟨r₀, by rw [List.getElem?_set_ne hc, hr₀], rfl, hholds⟩

/-- The new node of an orderly insertion. -/
theorem Owned.insert (h : Owned s) (hr : s.receivers[c]? = some r) {w : NewWorker}
    (hsocket : w.workerSocket = some c) (hid : w.workerId = r.workerId)
    (hpositive : 0 < r.workerId) (hnew : ¬Listed s.list r.workerId)
    (hnodes : list.nodes = s.list.nodes ++ [w.node]) (hr' : r'.workerId = r.workerId)
    (hholds : r'.position.holds = true) :
    Owned { s with list := list, receivers := s.receivers.set c r' } := by
  have hlt := (List.getElem?_eq_some_iff.mp hr).1
  have hregistered : registered list = registered s.list ++ [(r.workerId, some c)] := by
    rw [registered, hnodes, List.map_append, ← hid, ← hsocket]
    rfl
  constructor
  · have hnodup := h.nodup
    rw [map_fst_registered] at hnodup
    show ((registered list).map Prod.fst).Nodup
    rw [map_fst_registered, hnodes]
    exact WorkerList.nodup_append_node hnodup (by rwa [← hid] at hnew)
  · intro workerId socket hmem
    simp only [hregistered, List.mem_append, List.mem_singleton] at hmem
    rcases hmem with hmem | heq
    · obtain ⟨hpos, c', r₀, rfl, hr₀, rfl, hholds₀⟩ := h.owner hmem
      by_cases hc : c = c'
      · subst hc
        obtain rfl : r = r₀ := Option.some.inj (hr.symm.trans hr₀)
        exact ⟨hpos, c, r', rfl, by rw [List.getElem?_set_self hlt], hr', hholds⟩
      · exact ⟨hpos, c', r₀, rfl, by rw [List.getElem?_set_ne hc, hr₀], rfl, hholds₀⟩
    · cases heq
      exact ⟨hpositive, c, r', rfl, by rw [List.getElem?_set_self hlt], hr', hholds⟩

/-- **Every orderly step of a receiver** leaves the nodes their owners. -/
theorem Owned.receiver_move (h : Owned s) {event : ReceiverEvent}
    (hr : s.receivers[c]? = some r) (horderly : Orderly s (.receiver c event))
    (hmove : ReceiverMove s.list c r event list r') :
    Owned { s with list := list, receivers := s.receivers.set c r' } := by
  cases hmove with
  | announces readyWorkerId peerPort hat =>
    refine h.receiver hr (List.Sublist.refl _) ?_
    intro hmem _
    obtain ⟨node, hnode, hkey⟩ := List.mem_map.mp hmem
    have hsame := horderly node hnode (Prod.mk.inj hkey).2
    exact ⟨by rw [← (Prod.mk.inj hkey).1, hsame], rfl⟩
  | addTimesOut hat hwait => exact h.receiver hr (List.Sublist.refl _) fun _ _ => ⟨rfl, rfl⟩
  | addWaits hat hwait => exact h.receiver hr (List.Sublist.refl _) fun _ _ => ⟨rfl, rfl⟩
  | addFails allocated hat hsection =>
    exact h.receiver hr (List.Sublist.refl _) fun _ _ => ⟨rfl, rfl⟩
  | addLinks allocated hat hsection =>
    obtain ⟨hroom, hallocated, hnodes⟩ := addSection_eq_some hsection
    have hfresh := horderly hroom hallocated
    rw [hr] at hfresh
    exact h.insert hr rfl rfl hfresh.1 hfresh.2 hnodes rfl rfl
  | addReturns hat => exact h.receiver hr (List.Sublist.refl _) fun _ _ => ⟨rfl, rfl⟩
  | updates hat =>
    refine h.receiver hr ?_ fun _ _ => ⟨rfl, rfl⟩
    rw [registered_updateWorkerPeerPort]
  | setsReady hat next hnext =>
    refine h.receiver hr ?_ fun _ _ => ⟨rfl, ?_⟩
    · rw [registered_setWorkerReady]
    · rcases hnext with rfl | rfl | rfl <;> rfl
  | broadcasts hat => exact h.receiver hr (List.Sublist.refl _) fun _ _ => ⟨rfl, rfl⟩
  | sendsRegistry hat => exact h.receiver hr (List.Sublist.refl _) fun _ _ => ⟨rfl, rfl⟩
  | disconnects hat => exact h.receiver hr (List.Sublist.refl _) fun _ _ => ⟨rfl, rfl⟩
  | removeRefuses hat hid =>
    refine h.receiver hr (List.Sublist.refl _) fun hmem _ => ?_
    exact absurd (h.owner hmem).1 (Int32.not_lt.mpr hid)
  | removeTimesOut hat hwait =>
    refine h.receiver hr (List.Sublist.refl _) fun hmem _ => ?_
    obtain ⟨node, hnode, hkey⟩ := List.mem_map.mp hmem
    have hpermit := horderly ⟨node, hnode, (Prod.mk.inj hkey).2⟩
    have hzero := Semaphore.wait_eq_none.mp hwait
    omega
  | removeWaits hat hwait => exact h.receiver hr (List.Sublist.refl _) fun _ _ => ⟨rfl, rfl⟩
  | removeLeaves hat =>
    refine h.receiver hr (registered_remove_sublist _ _) fun hmem _ => ?_
    exact absurd hmem (not_mem_registered_remove h.nodup _)
  | removeReturns hat =>
    refine h.receiver hr (List.Sublist.refl _) fun _ hholds => ?_
    rw [hat] at hholds
    cases hholds
  | closes hat =>
    refine h.receiver hr (List.Sublist.refl _) fun _ hholds => ?_
    rw [hat] at hholds
    cases hholds

/-- **Every orderly step** leaves the nodes their owners. -/
theorem owned_step (s : State) (l : Label) (t : State) (h : Owned s) (horderly : Orderly s l)
    (hstep : step s l = some t) : Owned t := by
  cases step_move hstep with
  | connects workerAddress =>
    refine h.transfer (List.Sublist.refl _) ?_
    intro c r hr _ hholds
    have hlt := (List.getElem?_eq_some_iff.mp hr).1
    exact ⟨r, by rw [List.getElem?_append_left hlt, hr], rfl, hholds⟩
  | receiver hr hmove => exact h.receiver_move hr horderly hmove
  | @dispatcher event list d hnodes =>
    refine h.transfer (registered_dispatched_sublist hnodes) ?_
    intro c r hr _ hholds
    exact ⟨r, hr, rfl, hholds⟩

end Steps

/-- **Closed sockets are in no node.** In every run whose steps are all
orderly, a receiver that has ended has left no node with its socket, so no
selection and no broadcast uses it. -/
theorem closed_sockets_unlisted {ls : List Label} {s : State}
    (horderly : Along step Orderly init ls) (hrun : exec step init ls = some s) :
    ∀ c r, s.receivers[c]? = some r → r.position = .closed →
      (∀ node ∈ s.list.nodes, node.workerSocket ≠ some c) ∧
      (∀ node list, s.list.getNextWorker = some (node, list) → node.workerSocket ≠ some c) ∧
      ∀ workerId message, (c, message) ∉ (s.list.broadcastNewWorkerJoined workerId).2 := by
  intro c r hr hclosed
  have howned := exec_invariant_along owned_step owned_init horderly hrun
  have hnone : ∀ node ∈ s.list.nodes, node.workerSocket ≠ some c := by
    intro node hnode hsocket
    have hmem : (node.workerId, some c) ∈ registered s.list :=
      List.mem_map.mpr ⟨node, hnode, by rw [hsocket]⟩
    obtain ⟨-, c', r₀, hc, hr₀, -, hholds⟩ := howned.owner hmem
    obtain rfl : c = c' := Option.some.inj hc
    obtain rfl : r = r₀ := Option.some.inj (hr.symm.trans hr₀)
    rw [hclosed] at hholds
    cases hholds
  refine ⟨hnone, ?_, ?_⟩
  · intro node list hnext
    exact hnone node (WorkerList.mem_of_getNextWorker hnext)
  · intro workerId message hmem
    obtain ⟨node, hnode, hsocket⟩ := WorkerList.exists_of_mem_broadcast hmem
    exact hnone node hnode hsocket

/-- The READY branch for a worker that is new, or taken to be. -/
def announce (c : Nat) (workerId : UInt32) (peerPort : UInt16) : List Label :=
  [.receiver c (.ready workerId peerPort), .receiver c .addWait, .receiver c (.addSection true),
    .receiver c .addRelease, .receiver c .setWorkerReady, .receiver c .broadcastNewWorkerJoined,
    .receiver c .sendWorkerRegistry]

/-- The end of a connection. -/
def leave (c : Nat) : List Label :=
  [.receiver c .disconnects, .receiver c .removeWait, .receiver c .removeSection,
    .receiver c .removeRelease, .receiver c .closes]

/-- A worker registers and leaves. -/
def comeAndGo : List Label := .connects CString.empty :: announce 0 1 6001 ++ leave 0

theorem closed_sockets_unlisted_comeAndGo :
    ∃ s, exec step init comeAndGo = some s ∧
      ∀ c r, s.receivers[c]? = some r → r.position = .closed →
        (∀ node ∈ s.list.nodes, node.workerSocket ≠ some c) ∧
        (∀ node list, s.list.getNextWorker = some (node, list) → node.workerSocket ≠ some c) ∧
        ∀ workerId message, (c, message) ∉ (s.list.broadcastNewWorkerJoined workerId).2 := by
  obtain ⟨s, hrun⟩ : ∃ s, exec step init comeAndGo = some s := ⟨_, rfl⟩
  have horderly : Along step Orderly init comeAndGo := by decide
  exact ⟨s, hrun, closed_sockets_unlisted horderly hrun⟩

/-- A connection that is registered as worker 1 announces worker 2. -/
def changedId : List Label :=
  .connects CString.empty :: announce 0 1 6001 ++ announce 0 2 6002 ++ leave 0

/-- A worker announces the id 0, which `RemoveWorker` refuses. -/
def zeroId : List Label :=
  .connects CString.empty :: announce 0 0 6001 ++
    [.receiver 0 .disconnects, .receiver 0 .removeWait, .receiver 0 .closes]

/-- Two connections announce worker 1, and the second one ends. -/
def sharedId : List Label :=
  [.connects CString.empty, .connects CString.empty] ++ announce 0 1 6001 ++
    [.receiver 1 (.ready 1 6002), .receiver 1 .addWait, .receiver 1 (.addSection true),
      .receiver 1 .addRelease, .receiver 1 .setWorkerReady] ++ leave 1

/-- The dispatcher has removed worker 1; the removal by its receiver finds
nothing and keeps the permit that worker 2's removal then waits for. -/
def timedOut : List Label :=
  [.connects CString.empty, .connects CString.empty] ++ announce 0 1 6001 ++ announce 1 2 6002 ++
    [.dispatcher .getNextWorker, .dispatcher .lost, .dispatcher .removeWait,
      .dispatcher .removeSection, .dispatcher .removeRelease] ++ leave 0 ++
    [.receiver 1 .disconnects, .receiver 1 .removeWait, .receiver 1 .closes]

/-- A receiver has ended and its socket is still in the list. -/
def Stale (s : State) (c : Nat) : Prop :=
  (s.receivers[c]?).map Receiver.position = some .closed ∧
    ∃ node ∈ s.list.nodes, node.workerSocket = some c

/-- The next selection answers a socket. -/
def Selects (s : State) (c : Nat) : Prop :=
  s.list.getNextWorker.map (fun found => found.1.workerSocket) = some (some c)

instance (s : State) (c : Nat) : Decidable (Stale s c) :=
  inferInstanceAs (Decidable (_ ∧ ∃ node ∈ s.list.nodes, _))

instance (s : State) (c : Nat) : Decidable (Selects s c) :=
  inferInstanceAs (Decidable (_ = _))

/-- **Closed sockets stay in the list** after each of these runs, and are
selected. -/
theorem closed_sockets_listed :
    (∃ s, exec step init changedId = some s ∧ Stale s 0 ∧ Selects s 0) ∧
    (∃ s, exec step init zeroId = some s ∧ Stale s 0 ∧ Selects s 0) ∧
    (∃ s, exec step init sharedId = some s ∧ Stale s 1) ∧
    ∃ s, exec step init timedOut = some s ∧ Stale s 1 ∧ Selects s 1 :=
  ⟨⟨_, rfl, by decide, by decide⟩, ⟨_, rfl, by decide, by decide⟩, ⟨_, rfl, by decide⟩,
    ⟨_, rfl, by decide, by decide⟩⟩

/-! ## Unique registration -/

/-- What a step may do for an announcement of an id that is listed:
`AddWorker` has to come to its critical section and leave the list as it
is, the update changes the port of the first node with the id and nothing
else, and setting it ready changes nothing. -/
def OnlyUpdatesPort (s : State) : Label → Prop
  | .receiver c .addWait => ∀ r t, s.receivers[c]? = some r →
    step s (.receiver c .addWait) = some t → Listed s.list r.workerId →
      ∃ peerPort, t.receivers[c]? = some { r with position := .addWaited peerPort }
  | .receiver c (.addSection allocated) => ∀ r t, s.receivers[c]? = some r →
    step s (.receiver c (.addSection allocated)) = some t → Listed s.list r.workerId →
      t.list.nodes = s.list.nodes ∧
        ∃ peerPort, t.receivers[c]? = some { r with position := .updating peerPort true }
  | .receiver c .updateWorkerPeerPort => ∀ r t peerPort,
    s.receivers[c]? = some r → r.position = .updating peerPort true →
    step s (.receiver c .updateWorkerPeerPort) = some t →
      t.list.nodes = WorkerRing.updateFirst r.workerId
        (fun node => { node with workerPeerPort := peerPort.toUInt32.toInt32 }) s.list.nodes
  | .receiver c .setWorkerReady => ∀ r t isNewWorker,
    s.receivers[c]? = some r → r.position = .settingReady isNewWorker true →
    step s (.receiver c .setWorkerReady) = some t → t.list.nodes = s.list.nodes
  | _ => True

/-- The condition on a step for an announcement of an id that is listed:
`AddWorker` finds a permit and then a full list or no memory, and the node
is ready. -/
def FailsToInsert (s : State) : Label → Prop
  | .receiver c .addWait =>
    match s.receivers[c]? with
    | some r => Listed s.list r.workerId → 0 < s.list.notFull.value
    | none => True
  | .receiver c (.addSection allocated) =>
    match s.receivers[c]? with
    | some r => Listed s.list r.workerId → s.list.count < maxWorkers → allocated = false
    | none => True
  | .receiver c .setWorkerReady =>
    match s.receivers[c]? with
    | some ⟨workerId, _, .settingReady _ true⟩ =>
      ∀ node ∈ s.list.nodes.find? (fun node => node.workerId == workerId), node.isReady = true
    | _ => True
  | _ => True

instance (s : State) (l : Label) : Decidable (FailsToInsert s l) := by
  unfold FailsToInsert
  split <;> first | infer_instance | (split <;> infer_instance)

/-- The ids of the nodes are pairwise distinct. -/
def Unique (s : State) : Prop := (s.list.nodes.map WorkerNode.workerId).Nodup

instance (s : State) : Decidable (Unique s) := inferInstanceAs (Decidable (List.Nodup _))

section Unique

variable {s t : State} {c : Nat} {r r' : Receiver} {list : WorkerList}

/-- The first node with an id, when no search for it fails. -/
theorem find?_of_indexOf {list : WorkerList} {workerId : Int32} {i : Nat}
    (h : list.indexOf workerId = some i) :
    list.nodes.find? (fun node => node.workerId == workerId) = list.nodes[i]? := by
  obtain ⟨hi, hid, hbefore⟩ := List.findIdx?_eq_some_iff_getElem.mp h
  rw [List.getElem?_eq_getElem hi, List.find?_eq_some_iff_getElem]
  exact ⟨hid, i, hi, rfl, fun j hj => by simpa using hbefore j hj⟩

/-- Setting a worker ready changes nothing exactly when the first node
with its id is ready. -/
theorem nodes_setWorkerReady_iff (list : WorkerList) (workerId : Int32) :
    (list.setWorkerReady workerId).2.nodes = list.nodes ↔
      ∀ node ∈ list.nodes.find? (fun node => node.workerId == workerId), node.isReady = true := by
  unfold WorkerList.setWorkerReady
  cases hindex : list.indexOf workerId with
  | none =>
    have hnone : list.nodes.find? (fun node => node.workerId == workerId) = none := by
      rw [List.find?_eq_none]
      intro node hnode
      simpa using WorkerList.indexOf_eq_none.mp hindex node hnode
    simp [hnone]
  | some i =>
    obtain ⟨node, hnode, -⟩ := WorkerList.exists_of_indexOf hindex
    rw [find?_of_indexOf hindex]
    simp only [hnode, Option.any_some, Option.mem_def, Option.some.injEq, forall_eq']
    cases hready : node.isReady with
    | true => simp
    | false =>
      simp only [Bool.false_eq_true, if_false, iff_false]
      intro heq
      have hget : (list.nodes.modify i fun node => { node with isReady := true })[i]?
          = some { node with isReady := true } := by simp [hnode]
      rw [heq, hnode, Option.some.injEq] at hget
      rw [hget] at hready
      cases hready

/-- **At the wait**: one that times out takes a listed id past the update,
and no permit is there for it. -/
theorem addTimesOut_iff (hr : s.receivers[c]? = some r) (hwait : s.list.notFull.wait = none)
    {listed : Bool} (hstep : step s (.receiver c .addWait) = some { s with
      receivers := s.receivers.set c { r with position := .settingReady true listed } }) :
    OnlyUpdatesPort s (.receiver c .addWait) ↔ FailsToInsert s (.receiver c .addWait) := by
  have hzero := Semaphore.wait_eq_none.mp hwait
  simp only [OnlyUpdatesPort, FailsToInsert, hr]
  constructor
  · intro h hlisted
    obtain ⟨port, hnext⟩ := h r _ rfl hstep hlisted
    rw [getElem?_set_moved hr, Option.some.injEq, Receiver.mk.injEq] at hnext
    exact absurd hnext.2.2 (by simp)
  · intro h r₀ t hr₀ _ hlisted
    cases hr₀
    have hpermit := h hlisted
    omega

/-- A wait that finds a permit takes it to the critical section. -/
theorem addWaits_iff (hr : s.receivers[c]? = some r) {notFull : Semaphore maxWorkers}
    (hwait : s.list.notFull.wait = some notFull) {peerPort : UInt16}
    (hstep : step s (.receiver c .addWait) = some { s with
      list := { s.list with notFull := notFull }
      receivers := s.receivers.set c { r with position := .addWaited peerPort } }) :
    OnlyUpdatesPort s (.receiver c .addWait) ↔ FailsToInsert s (.receiver c .addWait) := by
  have hvalue := Semaphore.wait_eq_some hwait
  simp only [OnlyUpdatesPort, FailsToInsert, hr]
  constructor
  · intro _ _
    omega
  · intro _ r₀ t hr₀ ht _
    cases hr₀
    rw [hstep] at ht
    cases ht
    exact ⟨peerPort, getElem?_set_moved hr _⟩

/-- **In the critical section**: when nothing is inserted, the list stays
and the update is next. -/
theorem addFails_iff (hr : s.receivers[c]? = some r) {peerPort : UInt16} {allocated : Bool}
    (hsection : s.list.addSection (r.newWorker c peerPort) allocated = none)
    (hstep : step s (.receiver c (.addSection allocated)) = some { s with
      receivers := s.receivers.set c
        { r with position := .updating peerPort (decide (Listed s.list r.workerId)) } }) :
    OnlyUpdatesPort s (.receiver c (.addSection allocated)) ↔
      FailsToInsert s (.receiver c (.addSection allocated)) := by
  simp only [OnlyUpdatesPort, FailsToInsert, hr]
  constructor
  · intro _ _ hroom
    cases allocated with
    | false => rfl
    | true => simp [WorkerList.addSection, Nat.not_le.mpr hroom] at hsection
  · intro _ r₀ t hr₀ ht hlisted
    cases hr₀
    rw [hstep] at ht
    cases ht
    refine ⟨rfl, peerPort, ?_⟩
    rw [getElem?_set_moved hr]
    simp [hlisted]

/-- An insertion changes the list. -/
theorem addLinks_iff (hr : s.receivers[c]? = some r) {peerPort : UInt16} {allocated : Bool}
    (hsection : s.list.addSection (r.newWorker c peerPort) allocated = some list)
    (hstep : step s (.receiver c (.addSection allocated)) = some { s with
      list := list
      receivers := s.receivers.set c r' }) :
    OnlyUpdatesPort s (.receiver c (.addSection allocated)) ↔
      FailsToInsert s (.receiver c (.addSection allocated)) := by
  obtain ⟨hroom, hallocated, hnodes⟩ := addSection_eq_some hsection
  simp only [OnlyUpdatesPort, FailsToInsert, hr]
  constructor
  · intro h hlisted
    have hsame := (h r _ rfl hstep hlisted).1
    have hlength := congrArg List.length (hnodes.symm.trans hsame)
    simp at hlength
  · intro h r₀ t hr₀ _ hlisted
    cases hr₀
    exact absurd hallocated (by simp [h hlisted hroom])

/-- **The update** changes the port alone. -/
theorem update_onlyUpdatesPort (hr : s.receivers[c]? = some r) {peerPort : UInt16} {listed : Bool}
    (hat : r.position = .updating peerPort listed)
    (hstep : step s (.receiver c .updateWorkerPeerPort) = some { s with
      list := (s.list.updateWorkerPeerPort r.workerId peerPort.toUInt32.toInt32).2
      receivers := s.receivers.set c r' }) :
    OnlyUpdatesPort s (.receiver c .updateWorkerPeerPort) := by
  intro r₀ t peerPort' hr₀ hat' ht
  obtain rfl : r = r₀ := Option.some.inj (hr.symm.trans hr₀)
  obtain ⟨rfl, -⟩ := Position.updating.inj (hat.symm.trans hat')
  rw [hstep] at ht
  cases ht
  exact WorkerRing.nodes_call s.list (.updateWorkerPeerPort r.workerId peerPort.toUInt32.toInt32)

/-- **Setting it ready** changes nothing when the node is ready. -/
theorem setWorkerReady_iff (hr : s.receivers[c]? = some r) {isNewWorker listed : Bool}
    (hat : r.position = .settingReady isNewWorker listed)
    (hstep : step s (.receiver c .setWorkerReady) = some { s with
      list := (s.list.setWorkerReady r.workerId).2
      receivers := s.receivers.set c r' }) :
    OnlyUpdatesPort s (.receiver c .setWorkerReady) ↔
      FailsToInsert s (.receiver c .setWorkerReady) := by
  obtain ⟨workerId, workerAddress, position⟩ := r
  simp only at hat
  subst hat
  simp only [OnlyUpdatesPort, FailsToInsert, hr]
  cases listed with
  | false =>
    simp only [iff_true]
    intro r₀ t isNew hr₀ hat
    cases hr₀
    cases hat
  | true =>
    simp only
    rw [← nodes_setWorkerReady_iff]
    constructor
    · intro h
      exact h _ _ isNewWorker rfl rfl hstep
    · intro h r₀ t isNew hr₀ _ ht
      cases hr₀
      rw [hstep] at ht
      cases ht
      exact h

/-- **Step by step**, the condition is what the port update takes. -/
theorem onlyUpdatesPort_iff {l : Label} (hstep : step s l = some t) :
    OnlyUpdatesPort s l ↔ FailsToInsert s l := by
  cases step_move hstep with
  | connects workerAddress => exact Iff.rfl
  | dispatcher hnodes => exact Iff.rfl
  | @receiver c event r r' list hr hmove =>
    cases hmove with
    | addTimesOut hat hwait => exact addTimesOut_iff hr hwait hstep
    | addWaits hat hwait => exact addWaits_iff hr hwait hstep
    | addFails allocated hat hsection => exact addFails_iff hr hsection hstep
    | addLinks allocated hat hsection => exact addLinks_iff hr hsection hstep
    | updates hat => exact ⟨fun _ => trivial, fun _ => update_onlyUpdatesPort hr hat hstep⟩
    | setsReady hat next hnext => exact setWorkerReady_iff hr hat hstep
    | announces | addReturns | broadcasts | sendsRegistry | disconnects | removeRefuses
    | removeTimesOut | removeWaits | removeLeaves | removeReturns | closes => exact Iff.rfl

/-- **The ids stay distinct** while no listed id is inserted. -/
theorem unique_step (s : State) (l : Label) (t : State) (h : Unique s) (hfails : FailsToInsert s l)
    (hstep : step s l = some t) : Unique t := by
  have hshrink : ∀ list : WorkerList, (registered list).Sublist (registered s.list) →
      (list.nodes.map WorkerNode.workerId).Nodup := by
    intro list hsub
    rw [Unique, ← map_fst_registered] at h
    rw [← map_fst_registered]
    exact h.sublist (hsub.map _)
  cases step_move hstep with
  | connects workerAddress => exact h
  | @dispatcher event list d hnodes =>
    exact hshrink list (registered_dispatched_sublist hnodes)
  | @receiver c event r r' list hr hmove =>
    cases hmove with
    | addLinks allocated hat hsection =>
      obtain ⟨hroom, hallocated, hnodes⟩ := addSection_eq_some hsection
      simp only [FailsToInsert, hr] at hfails
      have hnew : ¬Listed s.list r.workerId := by
        intro hlisted
        exact absurd hallocated (by simp [hfails hlisted hroom])
      show (list.nodes.map WorkerNode.workerId).Nodup
      rw [hnodes]
      exact WorkerList.nodup_append_node h hnew
    | updates hat =>
      refine hshrink _ ?_
      rw [registered_updateWorkerPeerPort]
    | setsReady hat next hnext =>
      refine hshrink _ ?_
      rw [registered_setWorkerReady]
    | removeLeaves hat => exact hshrink _ (registered_remove_sublist _ _)
    | announces | addTimesOut | addWaits | addFails | addReturns | broadcasts | sendsRegistry
    | disconnects | removeRefuses | removeTimesOut | removeWaits | removeReturns | closes =>
      exact h

/-- **Unique registration.** In a run in which every announcement of a
listed id only updates its port, ids end up distinct; and a run is such a
run exactly when each of these announcements fails to insert and finds its
node ready. -/
theorem registered_once_iff {ls : List Label} (hrun : exec step init ls = some s) :
    (Along step OnlyUpdatesPort init ls ∧ Unique s) ↔ Along step FailsToInsert init ls := by
  constructor
  · rintro ⟨honly, -⟩
    exact honly.imp_of_exec (fun s l t hstep => (onlyUpdatesPort_iff hstep).mp) hrun
  · intro hfails
    refine ⟨hfails.imp_of_exec (fun s l t hstep => (onlyUpdatesPort_iff hstep).mpr) hrun, ?_⟩
    have hstart : Unique init := List.nodup_nil
    exact exec_invariant_along unique_step hstart hfails hrun

/-- Worker 1 is announced again when no node can be allocated. -/
def announcedAgain : List Label :=
  .connects CString.empty :: announce 0 1 6001 ++
    [.receiver 0 (.ready 1 6002), .receiver 0 .addWait, .receiver 0 (.addSection false),
      .receiver 0 .updateWorkerPeerPort, .receiver 0 .setWorkerReady]

theorem registered_once_iff_announcedAgain :
    ∃ s, exec step init announcedAgain = some s ∧
      Along step OnlyUpdatesPort init announcedAgain ∧ Unique s ∧
      s.list.nodes.map WorkerNode.workerPeerPort = [6002] := by
  have hports : (exec step init announcedAgain).map
      (fun s => s.list.nodes.map WorkerNode.workerPeerPort) = some [6002] := by decide
  obtain ⟨s, hrun, hport⟩ := Option.map_eq_some_iff.mp hports
  have hfails : Along step FailsToInsert init announcedAgain := by decide
  obtain ⟨honly, hunique⟩ := (registered_once_iff hrun).mpr hfails
  exact ⟨s, hrun, honly, hunique, hport⟩

/-- Worker 1 announces itself again, on the same connection. -/
def announcedTwice : List Label :=
  .connects CString.empty :: announce 0 1 6001 ++
    [.receiver 0 (.ready 1 6002), .receiver 0 .addWait, .receiver 0 (.addSection true),
      .receiver 0 .addRelease, .receiver 0 .setWorkerReady]

/-- **Registered twice.** The second announcement inserts a second node
and leaves the port of the first one. -/
theorem registered_twice :
    ∃ s, exec step init announcedTwice = some s ∧ ¬Unique s ∧
      s.list.nodes.map (fun node => (node.workerId, node.workerPeerPort)) =
        [(1, 6001), (1, 6002)] :=
  ⟨_, rfl, by decide, by decide⟩

end Unique

end LoadBalancing.LoadBalancer.Registration
