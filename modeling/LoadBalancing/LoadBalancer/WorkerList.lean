/-
LoadBalancing.LoadBalancer.WorkerList — the registry of
`LoadBalancer/WorkerList.c`.

The circular list is modelled by its nodes from `head` on, and the
`current` pointer by its index in them; on the empty list, where the
source has both pointers NULL, the index is 0. The critical section of
`AddWorker` and of `RemoveWorker` is a definition of its own, because the
calls wait on one semaphore in front of it and release the other behind
it; the two calls as a whole are `addWorker` and `removeWorker`.

Out of scope: the log output, and the NULL checks of pointers that no
caller passes as NULL.
-/
import LoadBalancing.Base.Membership
import LoadBalancing.Base.Semaphore
import LoadBalancing.Lib.Protocol
import LoadBalancing.LoadBalancer.SharedLibs
import Mathlib.Data.List.Nodup

namespace LoadBalancing.LoadBalancer

open LoadBalancing.Base LoadBalancing.Lib

/-- `WorkerList`. -/
structure WorkerList where
  nodes : List WorkerNode
  current : Nat
  count : Nat
  notEmpty : Semaphore maxWorkers
  notFull : Semaphore maxWorkers

/-- `InitializeWorkerList`. -/
def initializeWorkerList : WorkerList :=
  ⟨[], 0, 0, Semaphore.closed maxWorkers, Semaphore.full maxWorkers⟩

/-- The arguments of `AddWorker`. -/
structure NewWorker where
  workerSocket : Option Socket
  workerId : Int32
  workerAddress : CString
  workerPeerPort : Int32
  deriving DecidableEq

/-- The node `AddWorker` fills in. -/
def NewWorker.node (w : NewWorker) : WorkerNode :=
  { workerId := w.workerId
    workerSocket := w.workerSocket
    workerAddress := w.workerAddress.truncate 255
    workerPeerPort := w.workerPeerPort
    isConnected := true
    isReady := false }

/-- The selection test of `GetNextWorker` on a node. -/
def WorkerNode.selectable (node : WorkerNode) : Bool := node.isConnected && node.isReady

/-- What `SendWorkerEntry` sends for a node; the id and the port leave as
unsigned fields. -/
def WorkerNode.entry (node : WorkerNode) (shouldExport : Bool) : Option Message :=
  sendWorkerEntry node.workerId.toUInt32 node.workerAddress
    node.workerPeerPort.toUInt32.toUInt16 (if shouldExport then 1 else 0)

namespace WorkerList

/-! ## Registration and removal -/

/-- The critical section of `AddWorker`: the node goes behind the tail.
`none` when the list is full or the allocation fails. -/
def addSection (list : WorkerList) (w : NewWorker) (allocated : Bool) : Option WorkerList :=
  if maxWorkers ≤ list.count then none
  else if allocated then
    some { list with
      nodes := list.nodes ++ [w.node]
      current := if list.nodes = [] then 0 else list.current
      count := list.count + 1 }
  else none

/-- `AddWorker`. -/
def addWorker (list : WorkerList) (w : NewWorker) (allocated : Bool) : Int × WorkerList :=
  if w.workerSocket = none then (-1, list)
  else match list.notFull.wait with
    | none => (0, list)
    | some notFull =>
      match addSection { list with notFull := notFull } w allocated with
      | none => (-1, { list with notFull := notFull })
      | some list' => (0, { list' with notEmpty := list'.notEmpty.release 1 })

/-- The position of the first node with an id. -/
def indexOf (list : WorkerList) (workerId : Int32) : Option Nat :=
  list.nodes.findIdx? fun node => node.workerId == workerId

/-- Unlink the node at position `i`. A removed current node hands over
to its successor, which behind the tail is the head. -/
def unlink (list : WorkerList) (i : Nat) : WorkerList :=
  let nodes := list.nodes.eraseIdx i
  { list with
    nodes := nodes
    current :=
      if list.current < i then list.current
      else if i < list.current then list.current - 1
      else if i = nodes.length then 0 else i
    count := list.count - 1 }

/-- The critical section of `RemoveWorker`; `none` when no node has the
id. -/
def removeSection (list : WorkerList) (workerId : Int32) : Option WorkerList :=
  (list.indexOf workerId).map list.unlink

/-- `RemoveWorker`. The permit of `notFull` is released on both paths. -/
def removeWorker (list : WorkerList) (workerId : Int32) : Int × WorkerList :=
  if workerId ≤ 0 then (-1, list)
  else match list.notEmpty.wait with
    | none => (0, list)
    | some notEmpty =>
      match removeSection { list with notEmpty := notEmpty } workerId with
      | none => (-1, { list with notEmpty := notEmpty, notFull := list.notFull.release 1 })
      | some list' => (0, { list' with notFull := list'.notFull.release 1 })

/-! ## Selection -/

/-- The node `k` links behind the current one. -/
def fromCurrent (list : WorkerList) (k : Nat) : Option WorkerNode :=
  list.nodes[(list.current + k) % list.nodes.length]?

/-- `GetNextWorker`: the first connected and ready node from `current`
on, within `count` attempts; `current` moves behind it. `none` is the
result -1. -/
def getNextWorker (list : WorkerList) : Option (WorkerNode × WorkerList) :=
  if list.count = 0 then none
  else do
    let k ← (List.range list.count).find? fun k =>
      (list.fromCurrent k).any WorkerNode.selectable
    let node ← list.fromCurrent k
    some (node, { list with current := (list.current + k + 1) % list.nodes.length })

/-- `GetWorkerCount`. -/
def getWorkerCount (list : WorkerList) : Nat := list.count

/-- `SetWorkerReady`. -/
def setWorkerReady (list : WorkerList) (workerId : Int32) : Int × WorkerList :=
  match list.indexOf workerId with
  | none => (-1, list)
  | some i =>
    if (list.nodes[i]?).any WorkerNode.isReady then (0, list)
    else (1, { list with nodes := list.nodes.modify i fun node => { node with isReady := true } })

/-! ## Access by id -/

/-- `UpdateWorkerPeerPort`. -/
def updateWorkerPeerPort (list : WorkerList) (workerId peerPort : Int32) : Int × WorkerList :=
  match list.indexOf workerId with
  | none => (-1, list)
  | some i =>
    (0, { list with
      nodes := list.nodes.modify i fun node => { node with workerPeerPort := peerPort } })

/-- `GetWorkerById`: a copy of the node, `none` for the result 0. -/
def getWorkerById (list : WorkerList) (workerId : Int32) : Option WorkerNode := do
  let i ← list.indexOf workerId
  let node ← list.nodes[i]?
  some { node with workerAddress := node.workerAddress.truncate 255 }

/-! ## Announcements -/

/-- The first loop of `BroadcastNewWorkerJoined`, from the node at index
`i` on: the node with the new id and the index of the source, the first
other node that is connected and ready. It stops when it has both. -/
def findNewAndSource (newWorkerId : Int32) :
    List WorkerNode → Nat → Option WorkerNode → Option Nat → Option WorkerNode × Option Nat
  | [], _, newWorker, source => (newWorker, source)
  | node :: nodes, i, newWorker, source =>
    let isNew := node.workerId == newWorkerId
    let newWorker := if isNew then some node else newWorker
    let source :=
      if !isNew && source.isNone && node.selectable then some i else source
    if newWorker.isSome && source.isSome then (newWorker, source)
    else findNewAndSource newWorkerId nodes (i + 1) newWorker source

/-- `BroadcastNewWorkerJoined`, with every send succeeding: its result, and
what is sent over which socket. The source is told to export. -/
def broadcastNewWorkerJoined (list : WorkerList) (newWorkerId : Int32) :
    Int × List (Socket × Message) :=
  if list.count ≤ 1 then (0, [])
  else match findNewAndSource newWorkerId list.nodes 0 none none with
    | (none, _) => (-1, [])
    | (some newWorker, source) =>
      let sends := list.nodes.zipIdx.filterMap fun (node, i) => do
        guard (node.workerId ≠ newWorkerId ∧ node.isConnected)
        let socket ← node.workerSocket
        let message ← newWorker.entry (source == some i)
        some (socket, message)
      (sends.length, sends)

/-- `SendWorkerRegistryEntries`, with every send succeeding. -/
def sendWorkerRegistryEntries (list : WorkerList) (socket : Socket) :
    List (Socket × Message) :=
  list.nodes.filterMap fun node => (node.entry false).map fun message => (socket, message)

/-- `SendWorkerRegistryToSingleWorker`, with every send succeeding. Its
loop looks at the first `maxWorkers` nodes and keeps the last one with the
id. -/
def sendWorkerRegistryToSingleWorker (list : WorkerList) (targetWorkerId : Int32) :
    Int × List (Socket × Message) :=
  if list.count = 0 then (0, [])
  else
    let nodes := list.nodes.take maxWorkers
    match (nodes.filter fun node => node.workerId == targetWorkerId).getLast? with
    | none => (-1, [])
    | some target =>
      match target.isConnected, target.workerSocket with
      | true, some socket => (1, list.sendWorkerRegistryEntries socket)
      | _, _ => (0, [])

/-! ## What the sections do -/

theorem indexOf_lt {list : WorkerList} {workerId : Int32} {i : Nat}
    (h : list.indexOf workerId = some i) : i < list.nodes.length :=
  (List.findIdx?_eq_some_iff_findIdx_eq.mp h).1

/-- The node an id's index stands for. -/
theorem exists_of_indexOf {list : WorkerList} {workerId : Int32} {i : Nat}
    (h : list.indexOf workerId = some i) :
    ∃ node, list.nodes[i]? = some node ∧ node.workerId = workerId := by
  obtain ⟨hi, hid, -⟩ := List.findIdx?_eq_some_iff_getElem.mp h
  exact ⟨list.nodes[i], List.getElem?_eq_getElem hi, by simpa using hid⟩

/-- An id has no index exactly when no node has it. -/
theorem indexOf_eq_none {list : WorkerList} {workerId : Int32} :
    list.indexOf workerId = none ↔ ∀ node ∈ list.nodes, node.workerId ≠ workerId := by
  simp [indexOf, List.findIdx?_eq_none_iff]

/-- A change to the node of one id leaves the other ids' nodes alone. -/
theorem mem_modify_of_ne {nodes : List WorkerNode} {i : Nat} {f : WorkerNode → WorkerNode}
    {node other : WorkerNode} (hnode : nodes[i]? = some node)
    (hf : (f node).workerId = node.workerId) (hne : other.workerId ≠ node.workerId) :
    other ∈ nodes.modify i f ↔ other ∈ nodes := by
  constructor
  · intro hother
    rcases mem_modify hother with hother | ⟨old, hold, rfl⟩
    · exact hother
    · rw [hnode, Option.some.injEq] at hold
      subst hold
      exact absurd hf hne
  · intro hother
    rcases mem_modify_of_mem (i := i) (g := f) hother with hother | ⟨hsame, -⟩
    · exact hother
    · rw [hnode, Option.some.injEq] at hsame
      exact absurd (congrArg WorkerNode.workerId hsame.symm) hne

/-- A node with a new id keeps the ids distinct. -/
theorem nodup_append_node {nodes : List WorkerNode} {node : WorkerNode}
    (hnodup : (nodes.map WorkerNode.workerId).Nodup)
    (hnew : ¬∃ other ∈ nodes, other.workerId = node.workerId) :
    ((nodes ++ [node]).map WorkerNode.workerId).Nodup := by
  rw [List.map_append, List.map_singleton, ← List.concat_eq_append]
  refine List.Nodup.concat ?_ hnodup
  intro hmem
  obtain ⟨other, hother, hid⟩ := List.mem_map.mp hmem
  exact hnew ⟨other, hother, hid⟩

/-- The first loop of the broadcast finds the new node. -/
theorem findNewAndSource_fst {newWorkerId : Int32} {nodes : List WorkerNode} (i : Nat)
    (newWorker : Option WorkerNode) (source : Option Nat)
    (h : newWorker.isSome = true ∨ ∃ node ∈ nodes, node.workerId = newWorkerId) :
    ∃ node, (findNewAndSource newWorkerId nodes i newWorker source).1 = some node ∧
      (newWorker = some node ∨ node ∈ nodes ∧ node.workerId = newWorkerId) := by
  induction nodes generalizing i newWorker source with
  | nil =>
    rcases h with h | ⟨node, hnode, -⟩
    · obtain ⟨node, hnode⟩ := Option.isSome_iff_exists.mp h
      exact ⟨node, hnode, Or.inl hnode⟩
    · exact absurd hnode List.not_mem_nil
  | cons first nodes ih =>
    simp only [findNewAndSource]
    by_cases hid : first.workerId = newWorkerId
    · simp only [hid, BEq.rfl, if_true, Option.isSome_some, Bool.true_and, Bool.not_true,
        Bool.false_and, Bool.false_eq_true, if_false]
      by_cases hsource : source.isSome = true
      · rw [if_pos hsource]
        exact ⟨first, rfl, Or.inr ⟨List.mem_cons_self, hid⟩⟩
      · rw [if_neg hsource]
        obtain ⟨node, hnode, hcase⟩ := ih (i + 1) (some first) source (Or.inl rfl)
        refine ⟨node, hnode, Or.inr ?_⟩
        rcases hcase with hcase | ⟨hmem, heq⟩
        · cases hcase
          exact ⟨List.mem_cons_self, hid⟩
        · exact ⟨List.mem_cons_of_mem _ hmem, heq⟩
    · have hbeq : (first.workerId == newWorkerId) = false := by simpa using hid
      have hrest : newWorker.isSome = true ∨ ∃ node ∈ nodes, node.workerId = newWorkerId := by
        refine h.imp_right ?_
        rintro ⟨node, hnode, heq⟩
        rcases List.mem_cons.mp hnode with rfl | hnode
        · exact absurd heq hid
        · exact ⟨node, hnode, heq⟩
      simp only [hbeq, Bool.false_eq_true, if_false, Bool.not_false, Bool.true_and]
      generalize (if (source.isNone && first.selectable) = true then some i else source) = source'
      split
      · rename_i hboth
        simp only [Bool.and_eq_true] at hboth
        obtain ⟨node, hnode⟩ := Option.isSome_iff_exists.mp hboth.1
        exact ⟨node, hnode, Or.inl hnode⟩
      · obtain ⟨node, hnode, hcase⟩ := ih (i + 1) newWorker source' hrest
        refine ⟨node, hnode, hcase.imp_right ?_⟩
        rintro ⟨hmem, heq⟩
        exact ⟨List.mem_cons_of_mem _ hmem, heq⟩

/-- And a source for its data, when another node is connected and ready. -/
theorem findNewAndSource_snd {newWorkerId : Int32} {nodes : List WorkerNode} (i : Nat)
    (newWorker : Option WorkerNode) (source : Option Nat)
    (h : source.isSome = true ∨
      ∃ node ∈ nodes, node.workerId ≠ newWorkerId ∧ node.selectable = true) :
    ∃ k, (findNewAndSource newWorkerId nodes i newWorker source).2 = some k ∧
      (source = some k ∨ ∃ j node, nodes[j]? = some node ∧ node.workerId ≠ newWorkerId ∧
        k = i + j) := by
  induction nodes generalizing i newWorker source with
  | nil =>
    rcases h with h | ⟨node, hnode, -⟩
    · obtain ⟨k, hk⟩ := Option.isSome_iff_exists.mp h
      exact ⟨k, hk, Or.inl hk⟩
    · exact absurd hnode List.not_mem_nil
  | cons first nodes ih =>
    have hlater : ∀ {newWorker : Option WorkerNode} {source' : Option Nat},
        (source'.isSome = true ∨
          ∃ node ∈ nodes, node.workerId ≠ newWorkerId ∧ node.selectable = true) →
        (∀ k, source' = some k → source = some k ∨
          first.workerId ≠ newWorkerId ∧ k = i) →
        ∃ k, (if newWorker.isSome && source'.isSome then (newWorker, source')
            else findNewAndSource newWorkerId nodes (i + 1) newWorker source').2 = some k ∧
          (source = some k ∨ ∃ j node, (first :: nodes)[j]? = some node ∧
            node.workerId ≠ newWorkerId ∧ k = i + j) := by
      intro newWorker source' h hsource
      have hhere : ∀ k, source' = some k → source = some k ∨
          ∃ j node, (first :: nodes)[j]? = some node ∧ node.workerId ≠ newWorkerId ∧
            k = i + j := by
        intro k hk
        refine (hsource k hk).imp_right ?_
        rintro ⟨hne, rfl⟩
        exact ⟨0, first, rfl, hne, rfl⟩
      split
      · rename_i hboth
        simp only [Bool.and_eq_true] at hboth
        obtain ⟨k, hk⟩ := Option.isSome_iff_exists.mp hboth.2
        exact ⟨k, hk, hhere k hk⟩
      · obtain ⟨k, hk, hcase⟩ := ih (i + 1) newWorker source' h
        refine ⟨k, hk, ?_⟩
        rcases hcase with hcase | ⟨j, node, hnode, hne, rfl⟩
        · exact hhere k hcase
        · exact Or.inr ⟨j + 1, node, hnode, hne, by omega⟩
    simp only [findNewAndSource]
    by_cases hid : first.workerId = newWorkerId
    · refine hlater ?_ ?_
      · refine h.imp (fun h => by simpa [hid] using h) ?_
        rintro ⟨node, hnode, hne, hselectable⟩
        rcases List.mem_cons.mp hnode with rfl | hnode
        · exact absurd hid hne
        · exact ⟨node, hnode, hne, hselectable⟩
      · intro k hk
        exact Or.inl (by simpa [hid] using hk)
    · refine hlater ?_ ?_
      · cases source with
        | some k => exact Or.inl (by simp)
        | none =>
          rcases h with h | ⟨node, hnode, hne, hselectable⟩
          · cases h
          · rcases List.mem_cons.mp hnode with rfl | hnode
            · exact Or.inl (by simp [hid, hselectable])
            · exact Or.inr ⟨node, hnode, hne, hselectable⟩
      · intro k hk
        split at hk
        · cases hk
          exact Or.inr ⟨hid, rfl⟩
        · exact Or.inl hk

/-- A removal misses exactly when no node has the id. -/
theorem removeSection_eq_none {list : WorkerList} {workerId : Int32} :
    list.removeSection workerId = none ↔ ∀ node ∈ list.nodes, node.workerId ≠ workerId := by
  simp [removeSection, indexOf, List.findIdx?_eq_none_iff]

theorem length_unlink {list : WorkerList} {i : Nat} (h : i < list.nodes.length) :
    (list.unlink i).nodes.length + 1 = list.nodes.length := by
  simp only [unlink, List.length_eraseIdx_of_lt h]
  omega

/-- A broadcast goes to sockets of the list. -/
theorem exists_of_mem_broadcast {list : WorkerList} {newWorkerId : Int32} {socket : Socket}
    {message : Message} (h : (socket, message) ∈ (list.broadcastNewWorkerJoined newWorkerId).2) :
    ∃ node ∈ list.nodes, node.workerSocket = some socket := by
  unfold broadcastNewWorkerJoined at h
  split at h
  · cases h
  · split at h
    · cases h
    · obtain ⟨⟨node, i⟩, hmem, hsend⟩ := List.mem_filterMap.mp h
      simp only [Option.bind_eq_bind, Option.bind_eq_some_iff, Option.some.injEq,
        Prod.mk.injEq] at hsend
      obtain ⟨-, -, socket', hsocket, message', -, rfl, -⟩ := hsend
      exact ⟨node, List.mem_of_getElem? (List.mk_mem_zipIdx_iff_getElem?.mp hmem), hsocket⟩

/-- A selection moves `current` alone. -/
theorem nodes_getNextWorker {list list' : WorkerList} {node : WorkerNode}
    (h : list.getNextWorker = some (node, list')) : list'.nodes = list.nodes := by
  unfold getNextWorker at h
  split at h
  · cases h
  · simp only [Option.bind_eq_bind, Option.bind_eq_some_iff, Option.some.injEq,
      Prod.mk.injEq] at h
    obtain ⟨k, -, found, -, -, rfl⟩ := h
    rfl

/-- A selection answers a node of the list. -/
theorem mem_of_getNextWorker {list list' : WorkerList} {node : WorkerNode}
    (h : list.getNextWorker = some (node, list')) : node ∈ list.nodes := by
  unfold getNextWorker at h
  split at h
  · cases h
  · simp only [Option.bind_eq_bind, Option.bind_eq_some_iff, Option.some.injEq,
      Prod.mk.injEq] at h
    obtain ⟨k, -, found, hfound, rfl, -⟩ := h
    exact List.mem_of_getElem? hfound

/-- **A selection succeeds** when some node is ready: the attempts reach
every node. -/
theorem getNextWorker_of_selectable {list : WorkerList} (hcount : list.count = list.nodes.length)
    {node : WorkerNode} (hmem : node ∈ list.nodes) (hready : node.selectable = true) :
    ∃ chosen current, list.getNextWorker = some (chosen, { list with current := current }) ∧
      chosen ∈ list.nodes ∧ chosen.selectable = true := by
  have hpos : 0 < list.nodes.length := List.length_pos_of_mem hmem
  have hfound : ∃ k, k < list.count ∧ (list.fromCurrent k).any WorkerNode.selectable = true := by
    obtain ⟨j, hj, hnode⟩ := List.mem_iff_getElem.mp hmem
    refine ⟨(j + (list.nodes.length - list.current % list.nodes.length)) % list.nodes.length,
      by rw [hcount]; exact Nat.mod_lt _ hpos, ?_⟩
    have hcur := Nat.mod_lt list.current hpos
    have hback : (list.current + (j + (list.nodes.length - list.current % list.nodes.length))
        % list.nodes.length) % list.nodes.length = j := by
      have hsum : list.current % list.nodes.length
          + (j + (list.nodes.length - list.current % list.nodes.length))
          = j + list.nodes.length := by omega
      rw [Nat.add_mod_mod, ← Nat.mod_add_mod, hsum, Nat.add_mod_right, Nat.mod_eq_of_lt hj]
    simp only [fromCurrent, hback, List.getElem?_eq_getElem hj, hnode, Option.any_some, hready]
  obtain ⟨k₀, hk₀, hany₀⟩ := hfound
  have hne : list.count ≠ 0 := by omega
  cases hfind : (List.range list.count).find? fun k =>
      (list.fromCurrent k).any WorkerNode.selectable with
  | none =>
    rw [List.find?_eq_none] at hfind
    exact absurd hany₀ (hfind k₀ (List.mem_range.mpr hk₀))
  | some k =>
    have hany := List.find?_some hfind
    cases hchosen : list.fromCurrent k with
    | none => simp [hchosen] at hany
    | some chosen =>
      refine ⟨chosen, (list.current + k + 1) % list.nodes.length, ?_, ?_, ?_⟩
      · simp [getNextWorker, hne, hfind, hchosen]
      · exact List.mem_of_getElem? hchosen
      · simpa [hchosen] using hany

end WorkerList

end LoadBalancing.LoadBalancer
