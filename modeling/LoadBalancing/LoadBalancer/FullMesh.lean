/-
LoadBalancing.LoadBalancer.FullMesh — every registered worker hears of
every other one.

Workers register concurrently: each one's receiver thread runs the READY
branch of `LoadBalancer/WorkerDataReceiverThread.c` call by call, and the
calls of different threads interleave freely. Of two workers one is
inserted last. If that is done before the other one's registry goes out,
the registry has it; otherwise the other one is in the list when the
newcomer is broadcast. `Meshed` states this as an invariant: where `A`
has its registry and `B` has been broadcast, `A` was sent `B`'s entry.

`full_mesh`: once all handlers have finished, every registered worker was
sent the entry of every other one.

No `sorry`, no `axiom`, no `native_decide`.
-/
import LoadBalancing.Base.Threads
import LoadBalancing.Base.Transition
import LoadBalancing.LoadBalancer.WorkerList
import Mathlib.Data.List.Nodup

namespace LoadBalancing.LoadBalancer.FullMesh

open LoadBalancing.Base LoadBalancing.Lib

/-! ## Handlers -/

/-- A worker that announces itself: its connection with the peer address,
and what its READY message says. `GetWorkerAddress` writes into a buffer
of `INET_ADDRSTRLEN` bytes, so the address is short. -/
structure Announcement where
  workerSocket : Socket
  workerAddress : CString
  readyWorkerId : UInt32
  peerPort : UInt16
  address_le : workerAddress.strlen ≤ 255
  deriving DecidableEq

namespace Announcement

/-- `workerId = readyWorkerId`. -/
def workerId (a : Announcement) : Int32 := a.readyWorkerId.toInt32

/-- The arguments of `AddWorker`. -/
def newWorker (a : Announcement) : NewWorker :=
  ⟨some a.workerSocket, a.workerId, a.workerAddress, a.peerPort.toUInt32.toInt32⟩

/-- The entry that announces the worker. -/
def entry (a : Announcement) (shouldExport : Bool) : Option Message :=
  sendWorkerEntry a.readyWorkerId a.workerAddress a.peerPort (if shouldExport then 1 else 0)

end Announcement

/-- Where a handler stands: in front of which call, with `isNewWorker`
where a later branch reads it. -/
inductive HandlerAt where
  | adding
  | updating
  | settingReady (isNewWorker : Bool)
  | broadcasting
  | sendingRegistry
  | finished
  deriving DecidableEq

/-- The list, the handlers and what was sent over which socket. -/
structure State where
  list : WorkerList
  handlers : List HandlerAt
  sent : List (Socket × Message)

/-- One call of the `i`-th worker's handler; `AddWorker` is told whether
`malloc` succeeds. -/
inductive Label where
  | addWorker (i : Nat) (allocated : Bool)
  | updateWorkerPeerPort (i : Nat)
  | setWorkerReady (i : Nat)
  | broadcastNewWorkerJoined (i : Nat)
  | sendWorkerRegistryToSingleWorker (i : Nat)
  deriving DecidableEq

/-- One call and the branch on its result. -/
def step (workers : List Announcement) (s : State) : Label → Option State
  | .addWorker i allocated =>
    match workers[i]?, s.handlers[i]? with
    | some a, some .adding =>
      let (addResult, list) := s.list.addWorker a.newWorker allocated
      let next := if addResult ≠ -1 then .settingReady true else .updating
      some ⟨list, s.handlers.set i next, s.sent⟩
    | _, _ => none
  | .updateWorkerPeerPort i =>
    match workers[i]?, s.handlers[i]? with
    | some a, some .updating =>
      let (_, list) := s.list.updateWorkerPeerPort a.workerId a.peerPort.toUInt32.toInt32
      some ⟨list, s.handlers.set i (.settingReady false), s.sent⟩
    | _, _ => none
  | .setWorkerReady i =>
    match workers[i]?, s.handlers[i]? with
    | some a, some (.settingReady isNewWorker) =>
      let (result, list) := s.list.setWorkerReady a.workerId
      let next :=
        if 0 < result then (if isNewWorker then .broadcasting else .sendingRegistry)
        else .finished
      some ⟨list, s.handlers.set i next, s.sent⟩
    | _, _ => none
  | .broadcastNewWorkerJoined i =>
    match workers[i]?, s.handlers[i]? with
    | some a, some .broadcasting =>
      let (_, sends) := s.list.broadcastNewWorkerJoined a.workerId
      some ⟨s.list, s.handlers.set i .sendingRegistry, s.sent ++ sends⟩
    | _, _ => none
  | .sendWorkerRegistryToSingleWorker i =>
    match workers[i]?, s.handlers[i]? with
    | some a, some .sendingRegistry =>
      let (_, sends) := s.list.sendWorkerRegistryToSingleWorker a.workerId
      some ⟨s.list, s.handlers.set i .finished, s.sent ++ sends⟩
    | _, _ => none

/-- The initialised list, and a handler for each worker. -/
def init (workers : List Announcement) : State :=
  ⟨initializeWorkerList, workers.map fun _ => .adding, []⟩

/-- Every handler has finished. -/
def State.Finished (s : State) : Prop := ∀ handler ∈ s.handlers, handler = .finished

/-- `a` was sent the entry of `b`. -/
def State.Heard (s : State) (a b : Announcement) : Prop :=
  ∃ shouldExport message, b.entry shouldExport = some message ∧
    (a.workerSocket, message) ∈ s.sent

/-! ## Announced nodes -/

/-- A list has a node with an id. -/
def Listed (list : WorkerList) (workerId : Int32) : Prop :=
  ∃ node ∈ list.nodes, node.workerId = workerId

/-- The node is the worker's, ready or not. -/
def Announcement.Owns (a : Announcement) (node : WorkerNode) : Prop :=
  node = { a.newWorker.node with isReady := node.isReady }

theorem Announcement.owns_node (a : Announcement) : a.Owns a.newWorker.node := rfl

/-- The node's entry is the worker's: the address fits, and the id and the
port go through `int` unchanged. -/
theorem Announcement.Owns.entry_eq {a : Announcement} {node : WorkerNode} (h : a.Owns node)
    (shouldExport : Bool) : node.entry shouldExport = a.entry shouldExport := by
  have haddress : a.workerAddress.truncate 255 = a.workerAddress :=
    CString.ext (List.take_of_length_le a.address_le)
  rw [h]
  simp [WorkerNode.entry, Announcement.entry, Announcement.newWorker, NewWorker.node,
    Announcement.workerId, haddress]

/-- The entry is always sent. -/
theorem Announcement.exists_entry (a : Announcement) (shouldExport : Bool) :
    ∃ message, a.entry shouldExport = some message := ⟨_, rfl⟩

/-! ## The invariant -/

/-- Handlers that have not called `AddWorker` yet. -/
def HandlerAt.waiting : HandlerAt → Nat
  | .adding => 1
  | _ => 0

/-- What a handler's position says about its worker's node. -/
def Stands (list : WorkerList) (a : Announcement) : HandlerAt → Prop
  | .adding => ¬Listed list a.workerId
  | .updating => ¬Listed list a.workerId
  | .settingReady false => ¬Listed list a.workerId
  | .settingReady true => ∃ node ∈ list.nodes, node.workerId = a.workerId ∧ node.isReady = false
  | .broadcasting => Listed list a.workerId
  | .sendingRegistry => Listed list a.workerId
  | .finished => True

/-- The worker has been broadcast if it is in the list. -/
def HandlerAt.Broadcast (handler : HandlerAt) : Prop :=
  handler = .sendingRegistry ∨ handler = .finished

/-- The invariant of every run. -/
structure Meshed (workers : List Announcement) (s : State) : Prop where
  count_eq : s.list.count = s.list.nodes.length
  room : s.list.count + s.list.notFull.value ≤ maxWorkers
  permits : total HandlerAt.waiting s.handlers ≤ s.list.notFull.value
  owned : ∀ node ∈ s.list.nodes, ∃ a ∈ workers, a.Owns node
  nodup : (s.list.nodes.map WorkerNode.workerId).Nodup
  stands : ∀ {i : Nat} {a : Announcement} {handler : HandlerAt}, workers[i]? = some a →
    s.handlers[i]? = some handler → Stands s.list a handler
  heard : ∀ {i j : Nat} {a b : Announcement} {handler : HandlerAt}, i ≠ j →
    workers[i]? = some a → workers[j]? = some b → s.handlers[i]? = some .finished →
    s.handlers[j]? = some handler → handler.Broadcast →
    Listed s.list a.workerId → Listed s.list b.workerId → s.Heard a b

section Steps

variable {workers : List Announcement} {s t : State} {l : Label} {i : Nat} {a : Announcement}

/-- Distinct ids: workers are known by their ids. -/
theorem worker_eq (hdistinct : (workers.map Announcement.workerId).Nodup) {b : Announcement}
    (ha : a ∈ workers) (hb : b ∈ workers) (hid : a.workerId = b.workerId) : a = b :=
  List.inj_on_of_nodup_map hdistinct ha hb hid

theorem index_eq (hdistinct : (workers.map Announcement.workerId).Nodup) {j : Nat}
    {b : Announcement} (ha : workers[i]? = some a) (hb : workers[j]? = some b)
    (hid : a.workerId = b.workerId) : i = j := by
  have hi : (workers.map Announcement.workerId)[i]? = some a.workerId := by simp [ha]
  have hj : (workers.map Announcement.workerId)[j]? = some a.workerId := by simp [hb, hid]
  have hlt := (List.getElem?_eq_some_iff.mp hi).1
  exact (List.getElem?_inj hlt hdistinct).mp (hi.trans hj.symm)

/-- Distinct ids in the list: a node is known by its id. -/
theorem Meshed.node_eq (h : Meshed workers s) {x y : WorkerNode} (hx : x ∈ s.list.nodes)
    (hy : y ∈ s.list.nodes) (hid : x.workerId = y.workerId) : x = y :=
  List.inj_on_of_nodup_map h.nodup hx hy hid

/-- A node with the worker's id is the worker's. -/
theorem Meshed.owns (h : Meshed workers s)
    (hdistinct : (workers.map Announcement.workerId).Nodup) (ha : a ∈ workers) {node : WorkerNode}
    (hnode : node ∈ s.list.nodes) (hid : node.workerId = a.workerId) : a.Owns node := by
  obtain ⟨b, hb, howns⟩ := h.owned node hnode
  have hsame : b.workerId = a.workerId := by
    rw [← hid, howns]
    rfl
  rw [← worker_eq hdistinct hb ha hsame]
  exact howns

/-- At most `maxWorkers` nodes. -/
theorem Meshed.length_le (h : Meshed workers s) : s.list.nodes.length ≤ maxWorkers := by
  have hroom := h.room
  rw [h.count_eq] at hroom
  omega

/-! ## What a call does -/

/-- The calls, with what they do under the invariant. -/
inductive Effect (workers : List Announcement) (s : State) : Label → State → Prop
  | registers {i : Nat} {a : Announcement} (hworker : workers[i]? = some a)
      (hhandler : s.handlers[i]? = some .adding) {list : WorkerList}
      (hnodes : list.nodes = s.list.nodes ++ [a.newWorker.node])
      (hcount : list.count = s.list.count + 1)
      (hvalue : list.notFull.value + 1 = s.list.notFull.value) :
      Effect workers s (.addWorker i true) ⟨list, s.handlers.set i (.settingReady true), s.sent⟩
  | fails {i : Nat} {a : Announcement} (hworker : workers[i]? = some a)
      (hhandler : s.handlers[i]? = some .adding) {list : WorkerList}
      (hnodes : list.nodes = s.list.nodes) (hcount : list.count = s.list.count)
      (hvalue : list.notFull.value + 1 = s.list.notFull.value) :
      Effect workers s (.addWorker i false) ⟨list, s.handlers.set i .updating, s.sent⟩
  | misses {i : Nat} {a : Announcement} (hworker : workers[i]? = some a)
      (hhandler : s.handlers[i]? = some .updating) :
      Effect workers s (.updateWorkerPeerPort i)
        ⟨s.list, s.handlers.set i (.settingReady false), s.sent⟩
  | setsReady {i : Nat} {a : Announcement} (hworker : workers[i]? = some a)
      (hhandler : s.handlers[i]? = some (.settingReady true)) {k : Nat} {node : WorkerNode}
      (hnode : s.list.nodes[k]? = some node) (hid : node.workerId = a.workerId) :
      Effect workers s (.setWorkerReady i)
        ⟨{ s.list with nodes := s.list.nodes.modify k fun node => { node with isReady := true } },
          s.handlers.set i .broadcasting, s.sent⟩
  | skips {i : Nat} {a : Announcement} (hworker : workers[i]? = some a)
      (hhandler : s.handlers[i]? = some (.settingReady false)) :
      Effect workers s (.setWorkerReady i) ⟨s.list, s.handlers.set i .finished, s.sent⟩
  | broadcasts {i : Nat} {a : Announcement} (hworker : workers[i]? = some a)
      (hhandler : s.handlers[i]? = some .broadcasting) :
      Effect workers s (.broadcastNewWorkerJoined i)
        ⟨s.list, s.handlers.set i .sendingRegistry,
          s.sent ++ (s.list.broadcastNewWorkerJoined a.workerId).2⟩
  | sendsRegistry {i : Nat} {a : Announcement} (hworker : workers[i]? = some a)
      (hhandler : s.handlers[i]? = some .sendingRegistry) :
      Effect workers s (.sendWorkerRegistryToSingleWorker i)
        ⟨s.list, s.handlers.set i .finished,
          s.sent ++ (s.list.sendWorkerRegistryToSingleWorker a.workerId).2⟩

/-- A handler in front of `AddWorker` has a permit waiting for it, so the
call inserts the node unless `malloc` fails. -/
theorem Meshed.addWorker_effect (h : Meshed workers s) (hworker : workers[i]? = some a)
    (hhandler : s.handlers[i]? = some .adding) (allocated : Bool) :
    Effect workers s (.addWorker i allocated)
      ⟨(s.list.addWorker a.newWorker allocated).2,
        s.handlers.set i (if (s.list.addWorker a.newWorker allocated).1 ≠ -1
          then .settingReady true else .updating), s.sent⟩ := by
  have hwaiting := weight_le_total HandlerAt.waiting hhandler
  have hpermits := h.permits
  have hroom := h.room
  simp only [HandlerAt.waiting] at hwaiting
  cases hwait : s.list.notFull.wait with
  | none =>
    have hzero := Semaphore.wait_eq_none.mp hwait
    omega
  | some notFull =>
    have hvalue := Semaphore.wait_eq_some hwait
    have hfits : ¬maxWorkers ≤ s.list.count := by omega
    have hsocket : a.newWorker.workerSocket ≠ none := Option.some_ne_none _
    cases allocated with
    | true =>
      have hadd : s.list.addWorker a.newWorker true = (0, { s.list with
          nodes := s.list.nodes ++ [a.newWorker.node]
          current := if s.list.nodes = [] then 0 else s.list.current
          count := s.list.count + 1
          notEmpty := s.list.notEmpty.release 1
          notFull := notFull }) := by
        simp [WorkerList.addWorker, WorkerList.addSection, hwait, hfits, hsocket]
      rw [hadd]
      exact .registers hworker hhandler rfl rfl hvalue
    | false =>
      have hadd : s.list.addWorker a.newWorker false
          = (-1, { s.list with notFull := notFull }) := by
        simp [WorkerList.addWorker, WorkerList.addSection, hwait, hfits, hsocket]
      rw [hadd]
      exact .fails hworker hhandler rfl rfl hvalue

/-- A handler whose worker is new finds the node and sets it ready. -/
theorem Meshed.setWorkerReady_effect (h : Meshed workers s) (hworker : workers[i]? = some a)
    {isNewWorker : Bool} (hhandler : s.handlers[i]? = some (.settingReady isNewWorker)) :
    Effect workers s (.setWorkerReady i)
      ⟨(s.list.setWorkerReady a.workerId).2,
        s.handlers.set i (if 0 < (s.list.setWorkerReady a.workerId).1
          then (if isNewWorker then .broadcasting else .sendingRegistry) else .finished),
        s.sent⟩ := by
  have hstands := h.stands hworker hhandler
  cases isNewWorker with
  | true =>
    obtain ⟨node, hnode, hid, hready⟩ := hstands
    cases hindex : s.list.indexOf a.workerId with
    | none => exact absurd hid (WorkerList.indexOf_eq_none.mp hindex node hnode)
    | some k =>
      obtain ⟨found, hfound, hfoundId⟩ := WorkerList.exists_of_indexOf hindex
      have hsame := h.node_eq (List.mem_of_getElem? hfound) hnode (hfoundId.trans hid.symm)
      subst hsame
      have hset : s.list.setWorkerReady a.workerId = (1, { s.list with
          nodes := s.list.nodes.modify k fun node => { node with isReady := true } }) := by
        simp [WorkerList.setWorkerReady, hindex, hfound, hready]
      rw [hset]
      exact .setsReady hworker hhandler hfound hfoundId
  | false =>
    have hnone : s.list.indexOf a.workerId = none := by
      rw [WorkerList.indexOf_eq_none]
      intro node hnode hid
      exact hstands ⟨node, hnode, hid⟩
    have hset : s.list.setWorkerReady a.workerId = (-1, s.list) := by
      simp [WorkerList.setWorkerReady, hnone]
    rw [hset]
    exact .skips hworker hhandler

/-- **Every call has its effect.** -/
theorem step_effect (h : Meshed workers s) (hstep : step workers s l = some t) :
    Effect workers s l t := by
  cases l with
  | addWorker i allocated =>
    simp only [step] at hstep
    split at hstep
    · rename_i a hworker hhandler
      cases hstep
      exact h.addWorker_effect hworker hhandler allocated
    · cases hstep
  | updateWorkerPeerPort i =>
    simp only [step] at hstep
    split at hstep
    · rename_i a hworker hhandler
      cases hstep
      have hnone : s.list.indexOf a.workerId = none := by
        rw [WorkerList.indexOf_eq_none]
        intro node hnode hid
        exact h.stands hworker hhandler ⟨node, hnode, hid⟩
      have hupdate : s.list.updateWorkerPeerPort a.workerId a.peerPort.toUInt32.toInt32
          = (-1, s.list) := by
        simp [WorkerList.updateWorkerPeerPort, hnone]
      rw [hupdate]
      exact .misses hworker hhandler
    · cases hstep
  | setWorkerReady i =>
    simp only [step] at hstep
    split at hstep
    · rename_i a isNewWorker hworker hhandler
      cases hstep
      exact h.setWorkerReady_effect hworker hhandler
    · cases hstep
  | broadcastNewWorkerJoined i =>
    simp only [step] at hstep
    split at hstep
    · rename_i a hworker hhandler
      cases hstep
      exact .broadcasts hworker hhandler
    · cases hstep
  | sendWorkerRegistryToSingleWorker i =>
    simp only [step] at hstep
    split at hstep
    · rename_i a hworker hhandler
      cases hstep
      exact .sendsRegistry hworker hhandler
    · cases hstep

/-! ## What is sent -/

/-- **A broadcast** sends the new worker's entry to every other node. -/
theorem Meshed.mem_broadcast (h : Meshed workers s)
    (hdistinct : (workers.map Announcement.workerId).Nodup) {a b : Announcement}
    (ha : a ∈ workers) (hb : b ∈ workers) (hne : a.workerId ≠ b.workerId)
    (hlistedA : Listed s.list a.workerId) (hlistedB : Listed s.list b.workerId) :
    ∃ shouldExport message, b.entry shouldExport = some message ∧
      (a.workerSocket, message) ∈ (s.list.broadcastNewWorkerJoined b.workerId).2 := by
  obtain ⟨x, hx, hxid⟩ := hlistedA
  obtain ⟨y, hy, hyid⟩ := hlistedB
  have hseveral : ¬s.list.count ≤ 1 := by
    intro hle
    rw [h.count_eq] at hle
    obtain ⟨i, hi, hxi⟩ := List.mem_iff_getElem.mp hx
    obtain ⟨j, hj, hyj⟩ := List.mem_iff_getElem.mp hy
    have hij : i = j := by omega
    subst hij
    rw [← hxid, ← hyid, ← hxi, ← hyj] at hne
    exact hne rfl
  obtain ⟨new, hnew, hcase⟩ := WorkerList.findNewAndSource_fst 0 none none
    (Or.inr ⟨y, hy, hyid⟩)
  have hnewNode : b.Owns new := by
    rcases hcase with hcase | ⟨hmem, hid⟩
    · cases hcase
    · exact h.owns hdistinct hb hmem hid
  have hownsX := h.owns hdistinct ha hx hxid
  obtain ⟨k, hk⟩ := List.mem_iff_getElem?.mp hx
  generalize hsource : (WorkerList.findNewAndSource b.workerId s.list.nodes 0 none none).2 = source
  obtain ⟨message, hmessage⟩ := b.exists_entry (source == some k)
  refine ⟨source == some k, message, hmessage, ?_⟩
  have hpair : WorkerList.findNewAndSource b.workerId s.list.nodes 0 none none
      = (some new, source) := Prod.ext hnew hsource
  simp only [WorkerList.broadcastNewWorkerJoined, if_neg hseveral, hpair]
  refine List.mem_filterMap.mpr ⟨(x, k), ?_, ?_⟩
  · rw [List.mk_mem_zipIdx_iff_getElem?]
    exact hk
  · have hguard : x.workerId ≠ b.workerId ∧ x.isConnected = true := by
      refine ⟨fun heq => hne (hxid.symm.trans heq), ?_⟩
      rw [hownsX]
      rfl
    have hsocket : x.workerSocket = some a.workerSocket := by
      rw [hownsX]
      rfl
    have hentry : new.entry (source == some k) = some message := by
      rw [hnewNode.entry_eq, hmessage]
    simp [guard, hguard, hsocket, hentry]

/-- **A registry** sends the entry of every node. -/
theorem Meshed.mem_registry (h : Meshed workers s)
    (hdistinct : (workers.map Announcement.workerId).Nodup) {a b : Announcement}
    (ha : a ∈ workers) (hb : b ∈ workers)
    (hlistedA : Listed s.list a.workerId) (hlistedB : Listed s.list b.workerId) :
    ∃ shouldExport message, b.entry shouldExport = some message ∧
      (a.workerSocket, message) ∈ (s.list.sendWorkerRegistryToSingleWorker a.workerId).2 := by
  obtain ⟨x, hx, hxid⟩ := hlistedA
  obtain ⟨y, hy, hyid⟩ := hlistedB
  obtain ⟨message, hmessage⟩ := b.exists_entry false
  refine ⟨false, message, hmessage, ?_⟩
  have hcount : s.list.count ≠ 0 := by
    rw [h.count_eq]
    exact Nat.ne_of_gt (List.length_pos_of_mem hx)
  have htake : s.list.nodes.take maxWorkers = s.list.nodes := List.take_of_length_le h.length_le
  cases hlast : (s.list.nodes.filter fun node => node.workerId == a.workerId).getLast? with
  | none =>
    rw [List.getLast?_eq_none_iff, List.filter_eq_nil_iff] at hlast
    exact absurd (by simpa using hxid) (hlast x hx)
  | some target =>
    have htarget := List.mem_filter.mp (List.mem_of_getLast? hlast)
    have howns := h.owns hdistinct ha htarget.1 (by simpa using htarget.2)
    have hconnected : target.isConnected = true := by
      rw [howns]
      rfl
    have hsocket : target.workerSocket = some a.workerSocket := by
      rw [howns]
      rfl
    simp only [WorkerList.sendWorkerRegistryToSingleWorker, if_neg hcount, htake, hlast,
      hconnected, hsocket]
    refine List.mem_filterMap.mpr ⟨y, hy, ?_⟩
    rw [(h.owns hdistinct hb hy hyid).entry_eq, hmessage]
    rfl

/-! ## Every call keeps the mesh -/

/-- What was sent stays sent. -/
theorem State.Heard.mono {s' : State} {a b : Announcement} (h : s.Heard a b)
    (hsent : ∀ m ∈ s.sent, m ∈ s'.sent) : s'.Heard a b := by
  obtain ⟨shouldExport, message, hentry, hmem⟩ := h
  exact ⟨shouldExport, message, hentry, hsent _ hmem⟩

/-- What a position says depends on the worker's nodes alone. -/
theorem Stands.congr {list list' : WorkerList} {b : Announcement} {handler : HandlerAt}
    (h : Stands list b handler)
    (hsame : ∀ node, node.workerId = b.workerId → (node ∈ list'.nodes ↔ node ∈ list.nodes)) :
    Stands list' b handler := by
  have hlisted : Listed list' b.workerId ↔ Listed list b.workerId := by
    constructor
    · rintro ⟨node, hnode, hid⟩
      exact ⟨node, (hsame node hid).mp hnode, hid⟩
    · rintro ⟨node, hnode, hid⟩
      exact ⟨node, (hsame node hid).mpr hnode, hid⟩
  cases handler with
  | adding => exact fun hnow => h (hlisted.mp hnow)
  | updating => exact fun hnow => h (hlisted.mp hnow)
  | settingReady isNewWorker =>
    cases isNewWorker with
    | true =>
      obtain ⟨node, hnode, hid, hready⟩ := h
      exact ⟨node, (hsame node hid).mpr hnode, hid, hready⟩
    | false => exact fun hnow => h (hlisted.mp hnow)
  | broadcasting => exact hlisted.mpr h
  | sendingRegistry => exact hlisted.mpr h
  | finished => trivial

/-- **A handler moves**: what has to be known of its worker, when nothing
changes for the others. -/
theorem Meshed.moved (h : Meshed workers s)
    (hdistinct : (workers.map Announcement.workerId).Nodup) (hworker : workers[i]? = some a)
    {old : HandlerAt} (hhandler : s.handlers[i]? = some old) (new : HandlerAt)
    (list : WorkerList) (sends : List (Socket × Message))
    (hcount : list.count = list.nodes.length) (hroom : list.count + list.notFull.value ≤ maxWorkers)
    (hpermits : s.list.notFull.value + new.waiting ≤ list.notFull.value + old.waiting)
    (howned : ∀ node ∈ list.nodes, ∃ b ∈ workers, b.Owns node)
    (hnodup : (list.nodes.map WorkerNode.workerId).Nodup)
    (hothers : ∀ node, node.workerId ≠ a.workerId → (node ∈ list.nodes ↔ node ∈ s.list.nodes))
    (hself : Stands list a new)
    (hfinish : new = .finished → ∀ b ∈ workers, b.workerId ≠ a.workerId →
      Listed list a.workerId → Listed list b.workerId →
        State.Heard ⟨list, s.handlers.set i new, s.sent ++ sends⟩ a b)
    (hbroadcast : new.Broadcast →
      (∀ b ∈ workers, b.workerId ≠ a.workerId → Listed list a.workerId →
        Listed list b.workerId →
          State.Heard ⟨list, s.handlers.set i new, s.sent ++ sends⟩ b a) ∨
      old.Broadcast ∧ (Listed list a.workerId → Listed s.list a.workerId)) :
    Meshed workers ⟨list, s.handlers.set i new, s.sent ++ sends⟩ := by
  have htotal := total_set HandlerAt.waiting hhandler new
  have hold := h.permits
  have hwaiting := weight_le_total HandlerAt.waiting hhandler
  have hgrow : ∀ m ∈ s.sent, m ∈ s.sent ++ sends := fun m hm => List.mem_append_left _ hm
  have hid : ∀ {j : Nat} {b : Announcement}, workers[j]? = some b → j ≠ i →
      b.workerId ≠ a.workerId := by
    intro j b hb hji heq
    exact hji (index_eq hdistinct hb hworker heq)
  have hback : ∀ {b : Announcement}, b.workerId ≠ a.workerId → Listed list b.workerId →
      Listed s.list b.workerId := by
    rintro b hne ⟨node, hnode, hnid⟩
    exact ⟨node, (hothers node (by rw [hnid]; exact hne)).mp hnode, hnid⟩
  refine ⟨hcount, hroom, ?_, howned, hnodup, ?_, ?_⟩
  · simp only
    omega
  · intro j b handler hb hhandler'
    rcases getElem?_set_cases hhandler' with ⟨hij, hkept⟩ | ⟨rfl, rfl⟩
    · have hne := hid hb hij.symm
      exact (h.stands hb hkept).congr fun node hnid => hothers node (by rw [hnid]; exact hne)
    · have hab : b = a := Option.some.inj (hb.symm.trans hworker)
      rw [hab]
      exact hself
  · intro p q b c handler hpq hb hc hfinished hhandler' hbroadcast' hlistedB hlistedC
    rcases getElem?_set_cases hfinished with ⟨hip, hfinishedOld⟩ | ⟨rfl, hfinishedNow⟩
    · have hbid := hid hb hip.symm
      rcases getElem?_set_cases hhandler' with ⟨hiq, hhandlerOld⟩ | ⟨rfl, rfl⟩
      · have hcid := hid hc hiq.symm
        exact (h.heard hpq hb hc hfinishedOld hhandlerOld hbroadcast' (hback hbid hlistedB)
          (hback hcid hlistedC)).mono hgrow
      · have hca : c = a := Option.some.inj (hc.symm.trans hworker)
        subst hca
        rcases hbroadcast hbroadcast' with hheard | ⟨holdBroadcast, hlisted⟩
        · exact hheard b (List.mem_of_getElem? hb) hbid hlistedC hlistedB
        · exact (h.heard hpq hb hc hfinishedOld hhandler holdBroadcast (hback hbid hlistedB)
            (hlisted hlistedC)).mono hgrow
    · have hab : b = a := Option.some.inj (hb.symm.trans hworker)
      subst hab
      exact hfinish hfinishedNow.symm c (List.mem_of_getElem? hc) (hid hc hpq.symm) hlistedB
        hlistedC

/-- A handler that moves on over an unchanged list, not to the end and not
past a broadcast. -/
theorem Meshed.passed (h : Meshed workers s)
    (hdistinct : (workers.map Announcement.workerId).Nodup) (hworker : workers[i]? = some a)
    {old new : HandlerAt} (hhandler : s.handlers[i]? = some old) {list : WorkerList}
    (hnodes : list.nodes = s.list.nodes) (hcount : list.count = s.list.count)
    (hvalue : list.notFull.value + old.waiting = s.list.notFull.value) (hnew : new.waiting = 0)
    (hself : Stands s.list a new)
    (hheard : new.Broadcast → ¬Listed s.list a.workerId) :
    Meshed workers ⟨list, s.handlers.set i new, s.sent⟩ := by
  have hroom := h.room
  have hself' : Stands list a new := hself.congr fun node _ => by rw [hnodes]
  have hlisted : Listed list a.workerId → Listed s.list a.workerId := by
    rintro ⟨node, hnode, hid⟩
    exact ⟨node, hnodes ▸ hnode, hid⟩
  have hmoved := h.moved hdistinct hworker hhandler new list []
    (by rw [hnodes, hcount, h.count_eq]) (by omega) (by omega) (by rw [hnodes]; exact h.owned)
    (by rw [hnodes]; exact h.nodup) (fun node _ => by rw [hnodes]) hself'
    (fun hfinished b _ _ hla _ => absurd (hlisted hla) (hheard (Or.inr hfinished)))
    (fun hb => Or.inl fun b _ _ hla _ => absurd (hlisted hla) (hheard hb))
  rwa [List.append_nil] at hmoved

/-- A new node at the end of the list. -/
theorem Meshed.registers (h : Meshed workers s)
    (hdistinct : (workers.map Announcement.workerId).Nodup) (hworker : workers[i]? = some a)
    (hhandler : s.handlers[i]? = some .adding) {list : WorkerList}
    (hnodes : list.nodes = s.list.nodes ++ [a.newWorker.node])
    (hcount : list.count = s.list.count + 1)
    (hvalue : list.notFull.value + 1 = s.list.notFull.value) :
    Meshed workers ⟨list, s.handlers.set i (.settingReady true), s.sent⟩ := by
  have hroom := h.room
  have hfresh : ¬Listed s.list a.workerId := h.stands hworker hhandler
  have hmem : ∀ node, node ∈ list.nodes ↔ node ∈ s.list.nodes ∨ node = a.newWorker.node := by
    intro node
    rw [hnodes, List.mem_append, List.mem_singleton]
  have howned : ∀ node ∈ list.nodes, ∃ b ∈ workers, b.Owns node := by
    intro node hnode
    rcases (hmem node).mp hnode with hnode | rfl
    · exact h.owned node hnode
    · exact ⟨a, List.mem_of_getElem? hworker, a.owns_node⟩
  have hnodup : (list.nodes.map WorkerNode.workerId).Nodup := by
    rw [hnodes]
    exact WorkerList.nodup_append_node h.nodup hfresh
  have hothers : ∀ node, node.workerId ≠ a.workerId →
      (node ∈ list.nodes ↔ node ∈ s.list.nodes) := by
    intro node hne
    rw [hmem]
    refine ⟨fun hnode => hnode.resolve_right ?_, Or.inl⟩
    rintro rfl
    exact hne rfl
  have hmoved := h.moved hdistinct hworker hhandler (.settingReady true) list []
    (by rw [hnodes, hcount, h.count_eq]; simp) (by omega)
    (by simp only [HandlerAt.waiting]; omega) howned hnodup hothers
    ⟨a.newWorker.node, (hmem _).mpr (Or.inr rfl), rfl, rfl⟩
    (fun hfinished => by cases hfinished)
    (fun hb => by rcases hb with hb | hb <;> cases hb)
  rwa [List.append_nil] at hmoved

/-- The ready flag of the worker's node. -/
theorem Meshed.setsReady (h : Meshed workers s)
    (hdistinct : (workers.map Announcement.workerId).Nodup) (hworker : workers[i]? = some a)
    (hhandler : s.handlers[i]? = some (.settingReady true)) {k : Nat} {node : WorkerNode}
    (hnode : s.list.nodes[k]? = some node) (hid : node.workerId = a.workerId) :
    Meshed workers ⟨{ s.list with
        nodes := s.list.nodes.modify k fun node => { node with isReady := true } },
      s.handlers.set i .broadcasting, s.sent⟩ := by
  have hids : (s.list.nodes.modify k fun node => { node with isReady := true }).map
      WorkerNode.workerId = s.list.nodes.map WorkerNode.workerId :=
    map_modify_of_eq s.list.nodes k fun _ => rfl
  have howned : ∀ other ∈ s.list.nodes.modify k fun node => { node with isReady := true },
      ∃ b ∈ workers, b.Owns other := by
    intro other hother
    rcases mem_modify hother with hother | ⟨old, hold, rfl⟩
    · exact h.owned other hother
    · obtain ⟨b, hb, howns⟩ := h.owned old (List.mem_of_getElem? hold)
      refine ⟨b, hb, ?_⟩
      rw [howns]
      rfl
  have hlisted : a.workerId ∈ (s.list.nodes.modify k fun node =>
      { node with isReady := true }).map WorkerNode.workerId := by
    rw [hids]
    exact List.mem_map.mpr ⟨node, List.mem_of_getElem? hnode, hid⟩
  have hmoved := h.moved hdistinct hworker hhandler .broadcasting { s.list with
      nodes := s.list.nodes.modify k fun node => { node with isReady := true } } []
    (by simp [h.count_eq]) h.room (Nat.le_refl _) howned (by rw [hids]; exact h.nodup)
    (fun _ hne => WorkerList.mem_modify_of_ne hnode rfl (by rwa [hid]))
    (List.mem_map.mp hlisted)
    (fun hfinished => by cases hfinished)
    (fun hb => by rcases hb with hb | hb <;> cases hb)
  rwa [List.append_nil] at hmoved

/-- **Every effect keeps the mesh.** -/
theorem Meshed.effect (h : Meshed workers s)
    (hdistinct : (workers.map Announcement.workerId).Nodup) (heffect : Effect workers s l t) :
    Meshed workers t := by
  have hroom := h.room
  have hcount := h.count_eq
  cases heffect with
  | @registers i a hworker hhandler list hnodes hcount' hvalue =>
    exact h.registers hdistinct hworker hhandler hnodes hcount' hvalue
  | @fails i a hworker hhandler list hnodes hcount' hvalue =>
    have hfresh : ¬Listed s.list a.workerId := h.stands hworker hhandler
    refine h.passed hdistinct hworker hhandler hnodes hcount' hvalue rfl hfresh ?_
    rintro (hb | hb) <;> cases hb
  | @misses i a hworker hhandler =>
    have hfresh : ¬Listed s.list a.workerId := h.stands hworker hhandler
    refine h.passed hdistinct hworker hhandler rfl rfl rfl rfl hfresh ?_
    rintro (hb | hb) <;> cases hb
  | @setsReady i a hworker hhandler k node hnode hid =>
    exact h.setsReady hdistinct hworker hhandler hnode hid
  | @skips i a hworker hhandler =>
    exact h.passed hdistinct hworker hhandler rfl rfl rfl rfl trivial
      (fun _ => h.stands hworker hhandler)
  | @broadcasts i a hworker hhandler =>
    have hlisted : Listed s.list a.workerId := h.stands hworker hhandler
    refine h.moved hdistinct hworker hhandler _ _ _ hcount hroom (Nat.le_refl _) h.owned h.nodup
      (fun _ _ => Iff.rfl) hlisted (fun hfinished => by cases hfinished) ?_
    intro _
    refine Or.inl fun b hb hne hlistedA hlistedB => ?_
    obtain ⟨shouldExport, message, hentry, hmem⟩ :=
      h.mem_broadcast hdistinct hb (List.mem_of_getElem? hworker) hne hlistedB hlistedA
    exact ⟨shouldExport, message, hentry, List.mem_append_right _ hmem⟩
  | @sendsRegistry i a hworker hhandler =>
    refine h.moved hdistinct hworker hhandler _ _ _ hcount hroom (Nat.le_refl _) h.owned h.nodup
      (fun _ _ => Iff.rfl) trivial ?_ (fun _ => Or.inr ⟨Or.inl rfl, id⟩)
    intro _ b hb hne hlistedA hlistedB
    obtain ⟨shouldExport, message, hentry, hmem⟩ :=
      h.mem_registry hdistinct (List.mem_of_getElem? hworker) hb hlistedA hlistedB
    exact ⟨shouldExport, message, hentry, List.mem_append_right _ hmem⟩

/-- A worker in the list stays there. -/
theorem listed_effect (heffect : Effect workers s l t) {workerId : Int32}
    (hlisted : Listed s.list workerId) : Listed t.list workerId := by
  obtain ⟨node, hnode, hid⟩ := hlisted
  cases heffect with
  | registers hworker hhandler hnodes _ _ =>
    exact ⟨node, by rw [hnodes]; exact List.mem_append_left _ hnode, hid⟩
  | fails hworker hhandler hnodes _ _ => exact ⟨node, by rw [hnodes]; exact hnode, hid⟩
  | misses => exact ⟨node, hnode, hid⟩
  | @setsReady i a hworker hhandler k _ _ _ =>
    rcases mem_modify_of_mem (i := k)
      (g := fun node => { node with isReady := true }) hnode with hother | ⟨-, hother⟩
    · exact ⟨node, hother, hid⟩
    · exact ⟨_, hother, hid⟩
  | skips => exact ⟨node, hnode, hid⟩
  | broadcasts => exact ⟨node, hnode, hid⟩
  | sendsRegistry => exact ⟨node, hnode, hid⟩

end Steps

/-! ## Runs -/

section Runs

variable {workers : List Announcement}

theorem meshed_init (hmax : workers.length ≤ maxWorkers) : Meshed workers (init workers) := by
  have htotal : total HandlerAt.waiting (workers.map fun _ => HandlerAt.adding)
      = workers.length := by
    clear hmax
    induction workers with
    | nil => rfl
    | cons a workers ih =>
      rw [List.map_cons, total_cons, ih, List.length_cons, Nat.add_comm]
      rfl
  refine ⟨rfl, Nat.le_of_eq rfl, ?_, ?_, List.nodup_nil, ?_, ?_⟩
  · simp only [init, htotal]
    exact hmax
  · intro node hnode
    exact absurd hnode List.not_mem_nil
  · intro i a handler ha hhandler
    simp only [init, List.getElem?_map, ha, Option.map_some, Option.some.injEq] at hhandler
    subst hhandler
    rintro ⟨node, hnode, -⟩
    exact absurd hnode List.not_mem_nil
  · rintro i j a b handler - - - - - - ⟨node, hnode, -⟩
    exact absurd hnode List.not_mem_nil

/-- What a run so far has done: the mesh, and whose insertion succeeded is
in the list. -/
def Reached (workers : List Announcement) (done : List Label) (s : State) : Prop :=
  Meshed workers s ∧ s.handlers.length = workers.length ∧
    ∀ i a, workers[i]? = some a → .addWorker i true ∈ done → Listed s.list a.workerId

/-- A call leaves the handlers their places. -/
theorem length_effect {s t : State} {l : Label} (heffect : Effect workers s l t) :
    t.handlers.length = s.handlers.length := by
  cases heffect <;> exact List.length_set ..

theorem reached_step (hdistinct : (workers.map Announcement.workerId).Nodup) (done : List Label)
    (s : State) (l : Label) (t : State) (h : Reached workers done s)
    (hstep : step workers s l = some t) : Reached workers (done ++ [l]) t := by
  obtain ⟨hmesh, hlength, hlisted⟩ := h
  have heffect := step_effect hmesh hstep
  refine ⟨hmesh.effect hdistinct heffect, (length_effect heffect).trans hlength, ?_⟩
  intro i a ha hmem
  rcases List.mem_append.mp hmem with hmem | hmem
  · exact listed_effect heffect (hlisted i a ha hmem)
  · rw [List.mem_singleton] at hmem
    subst hmem
    cases heffect with
    | registers hworker hhandler hnodes _ _ =>
      have hsame := Option.some.inj (hworker.symm.trans ha)
      subst hsame
      exact ⟨_, by rw [hnodes]; exact List.mem_append_right _ List.mem_cons_self, rfl⟩

/-- **The full mesh.** At most `maxWorkers` workers with distinct ids
register, their handlers' calls in any order. Once all handlers have
finished, every worker whose node was inserted has been sent the entry of
every other such worker: its id, address and peer port. -/
theorem full_mesh (hmax : workers.length ≤ maxWorkers)
    (hdistinct : (workers.map Announcement.workerId).Nodup) {ls : List Label} {s : State}
    (hrun : exec (step workers) (init workers) ls = some s) (hfinished : s.Finished) :
    ∀ i j a b, i ≠ j → workers[i]? = some a → workers[j]? = some b →
      .addWorker i true ∈ ls → .addWorker j true ∈ ls → s.Heard a b := by
  have hstart : Reached workers [] (init workers) := by
    refine ⟨meshed_init hmax, List.length_map .., ?_⟩
    intro i a _ hmem
    exact absurd hmem List.not_mem_nil
  have hreached : Reached workers ([] ++ ls) s :=
    exec_history_along (P := fun _ _ => True)
      (fun done s l t h _ hstep => reached_step hdistinct done s l t h hstep) [] hstart
      (along_of_forall (fun _ _ => trivial) _ _) hrun
  obtain ⟨hmesh, hlength, hlisted⟩ := hreached
  intro i j a b hij ha hb haddedA haddedB
  have hhandler : ∀ {k : Nat} {c : Announcement}, workers[k]? = some c →
      s.handlers[k]? = some .finished := by
    intro k c hc
    have hk : k < s.handlers.length := by
      rw [hlength]
      exact (List.getElem?_eq_some_iff.mp hc).1
    have hget := List.getElem?_eq_getElem hk
    rw [hget, hfinished _ (List.getElem_mem hk)]
  exact hmesh.heard hij ha hb (hhandler ha) (hhandler hb) (Or.inr rfl) (hlisted i a ha haddedA)
    (hlisted j b hb haddedB)

/-- Two workers on the same machine. -/
def pair : List Announcement :=
  [⟨7, CString.ofString "10.0.0.5", 1, 6001, by decide⟩,
    ⟨9, CString.ofString "10.0.0.5", 2, 6002, by decide⟩]

/-- The second worker is inserted while the first one is being broadcast to
nobody, and its registry goes out first. -/
def interleaved : List Label :=
  [.addWorker 0 true, .setWorkerReady 0, .broadcastNewWorkerJoined 0, .addWorker 1 true,
    .setWorkerReady 1, .broadcastNewWorkerJoined 1, .sendWorkerRegistryToSingleWorker 1,
    .sendWorkerRegistryToSingleWorker 0]

instance (s : State) : Decidable s.Finished := by
  unfold State.Finished
  infer_instance

theorem full_mesh_pair :
    ∃ s, exec (step pair) (init pair) interleaved = some s ∧
      ∀ i j a b, i ≠ j → pair[i]? = some a → pair[j]? = some b →
        .addWorker i true ∈ interleaved → .addWorker j true ∈ interleaved → s.Heard a b := by
  have hmax : pair.length ≤ maxWorkers := by decide
  have hdistinct : (pair.map Announcement.workerId).Nodup := by decide
  refine ⟨_, rfl, ?_⟩
  exact full_mesh hmax hdistinct rfl (by decide)

end Runs

end LoadBalancing.LoadBalancer.FullMesh
