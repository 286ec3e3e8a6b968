/-
LoadBalancing.LoadBalancer.WorkerRing — the pointers behind the worker
list.

`WorkerRing` is the list as `LoadBalancer/WorkerList.c` keeps it: nodes
in a heap, linked in both directions, with the pointers `head` and
`current`. Its operations follow the source pointer by pointer. A result
`none` is a NULL or dangling pointer that was followed, or a search loop
that took more than `fuel` turns.

`Represents` relates a ring to the list of `WorkerList.lean`, which the
rest of the development works with; every operation keeps it, answers
what its counterpart answers, and does not fail (`call_represents`).
`ring_refines_list` says so of every sequence of calls and spells out
what the ring looks like.

Out of scope: `InitializeCriticalSection` and the lock, since a call runs
its critical section as one step.

No `sorry`, no `axiom`, no `native_decide`.
-/
import LoadBalancing.Base.PointerRing
import LoadBalancing.Base.Transition
import LoadBalancing.LoadBalancer.WorkerList

namespace LoadBalancing.LoadBalancer

open LoadBalancing.Base LoadBalancing.Lib

/-- `WorkerList`, with the nodes in a heap. -/
structure WorkerRing where
  heap : Heap WorkerNode
  head : Option Addr
  current : Option Addr
  count : Nat
  notEmpty : Semaphore maxWorkers
  notFull : Semaphore maxWorkers

namespace WorkerRing

/-- `InitializeWorkerList`, over the heap there is. -/
def initializeWorkerList (heap : Heap WorkerNode) : WorkerRing :=
  ⟨heap, none, none, 0, Semaphore.closed maxWorkers, Semaphore.full maxWorkers⟩

/-! ## Registration and removal -/

/-- The new node becomes the only one, or goes between the tail and the
head. -/
def insert (list : WorkerRing) (newNode : Addr) (node : WorkerNode) : Option WorkerRing :=
  match list.head with
  | none =>
    some { list with
      heap := list.heap.put newNode (some ⟨node, some newNode, some newNode⟩)
      head := some newNode
      current := some newNode
      count := list.count + 1 }
  | some head => do
    -- what `malloc` returns has no links yet
    let heap := list.heap.put newNode (some ⟨node, none, none⟩)
    let headCell ← heap head
    let tail := headCell.prev
    let heap ← heap.link tail (some newNode)
    let heap ← heap.link (some newNode) (some head)
    some { list with heap := heap, count := list.count + 1 }

/-- `AddWorker`; `allocated` is what `malloc` returns. -/
def addWorker (list : WorkerRing) (w : NewWorker) (allocated : Option Addr) :
    Option (Int × WorkerRing) :=
  if w.workerSocket = none then some (-1, list)
  else match list.notFull.wait with
    | none => some (0, list)
    | some notFull =>
      let list := { list with notFull := notFull }
      if maxWorkers ≤ list.count then some (-1, list)
      else match allocated with
        | none => some (-1, list)
        | some newNode => do
          let list ← list.insert newNode w.node
          some (0, { list with notEmpty := list.notEmpty.release 1 })

/-- The `do … while` search for an id, from `head` on. -/
def find (list : WorkerRing) (fuel : Nat) (workerId : Int32) : Option (Option Addr) :=
  if list.head = none then some none
  else list.heap.search list.head (fun node => node.workerId == workerId) fuel list.head

/-- Unlink and free the node at `temp`. -/
def unlink (list : WorkerRing) (temp : Addr) : Option WorkerRing := do
  let cell ← list.heap temp
  if some temp = list.head ∧ cell.next = list.head then
    some { list with
      heap := list.heap.put temp none
      head := none
      current := none
      count := list.count - 1 }
  else do
    let head := if some temp = list.head then cell.next else list.head
    let heap ← list.heap.setNext cell.prev cell.next
    let cell ← heap temp
    let heap ← heap.setPrev cell.next cell.prev
    let cell ← heap temp
    let current := if some temp = list.current then cell.next else list.current
    some { list with
      heap := heap.put temp none
      head := head
      current := current
      count := list.count - 1 }

/-- `RemoveWorker`. -/
def removeWorker (list : WorkerRing) (fuel : Nat) (workerId : Int32) :
    Option (Int × WorkerRing) :=
  if workerId ≤ 0 then some (-1, list)
  else match list.notEmpty.wait with
    | none => some (0, list)
    | some notEmpty => do
      let list := { list with notEmpty := notEmpty }
      let found ← list.find fuel workerId
      match found with
      | none => some (-1, { list with notFull := list.notFull.release 1 })
      | some temp => do
        let list ← list.unlink temp
        some (0, { list with notFull := list.notFull.release 1 })

/-! ## Selection -/

/-- `GetNextWorker`: the id and the socket it copies. -/
def getNextWorker (list : WorkerRing) :
    Option (Option (Int32 × Option Socket) × WorkerRing) :=
  if list.count = 0 ∨ list.current = none then some (none, list)
  else do
    let found ← list.heap.advance WorkerNode.selectable list.count list.current
    match found with
    | none => some (none, list)
    | some currentNode => do
      let cell ← list.heap currentNode
      some (some (cell.value.workerId, cell.value.workerSocket), { list with current := cell.next })

/-! ## Access by id -/

/-- `SetWorkerReady`. -/
def setWorkerReady (list : WorkerRing) (fuel : Nat) (workerId : Int32) :
    Option (Int × WorkerRing) := do
  let found ← list.find fuel workerId
  match found with
  | none => some (-1, list)
  | some p => do
    let cell ← list.heap p
    if cell.value.isReady then some (0, list)
    else do
      let heap ← list.heap.setValue (some p) fun node => { node with isReady := true }
      some (1, { list with heap := heap })

/-- `UpdateWorkerPeerPort`. -/
def updateWorkerPeerPort (list : WorkerRing) (fuel : Nat) (workerId peerPort : Int32) :
    Option (Int × WorkerRing) := do
  let found ← list.find fuel workerId
  match found with
  | none => some (-1, list)
  | some p => do
    let heap ← list.heap.setValue (some p) fun node => { node with workerPeerPort := peerPort }
    some (0, { list with heap := heap })

/-- `GetWorkerById`: a copy of the node, `none` for the result 0. -/
def getWorkerById (list : WorkerRing) (fuel : Nat) (workerId : Int32) :
    Option (Option WorkerNode) := do
  let found ← list.find fuel workerId
  match found with
  | none => some none
  | some p => do
    let cell ← list.heap p
    some (some { cell.value with workerAddress := cell.value.workerAddress.truncate 255 })

end WorkerRing

/-! ## Calls -/

/-- A call of a list operation. -/
inductive Call where
  | addWorker (w : NewWorker) (allocated : Option Addr)
  | removeWorker (workerId : Int32)
  | getNextWorker
  | setWorkerReady (workerId : Int32)
  | updateWorkerPeerPort (workerId peerPort : Int32)
  | getWorkerById (workerId : Int32)

/-- What a call gives back: a result, the worker chosen, or a copy. -/
inductive Reply where
  | code (result : Int)
  | chosen (worker : Option (Int32 × Option Socket))
  | copied (worker : Option WorkerNode)

/-- A list and the replies so far. -/
structure Session (L : Type) where
  list : L
  replies : List Reply

/-- A call on the list of nodes. -/
def WorkerList.call (list : WorkerList) : Call → Reply × WorkerList
  | .addWorker w allocated => (list.addWorker w allocated.isSome).map .code id
  | .removeWorker workerId => (list.removeWorker workerId).map .code id
  | .getNextWorker =>
    match list.getNextWorker with
    | none => (.chosen none, list)
    | some (node, list) => (.chosen (some (node.workerId, node.workerSocket)), list)
  | .setWorkerReady workerId => (list.setWorkerReady workerId).map .code id
  | .updateWorkerPeerPort workerId peerPort =>
    (list.updateWorkerPeerPort workerId peerPort).map .code id
  | .getWorkerById workerId => (.copied (list.getWorkerById workerId), list)

/-- A call on the ring. -/
def WorkerRing.call (list : WorkerRing) (fuel : Nat) : Call → Option (Reply × WorkerRing)
  | .addWorker w allocated => (list.addWorker w allocated).map (Prod.map .code id)
  | .removeWorker workerId => (list.removeWorker fuel workerId).map (Prod.map .code id)
  | .getNextWorker => list.getNextWorker.map (Prod.map .chosen id)
  | .setWorkerReady workerId => (list.setWorkerReady fuel workerId).map (Prod.map .code id)
  | .updateWorkerPeerPort workerId peerPort =>
    (list.updateWorkerPeerPort fuel workerId peerPort).map (Prod.map .code id)
  | .getWorkerById workerId => (list.getWorkerById fuel workerId).map fun w => (.copied w, list)

namespace WorkerRing

/-- The next call on the list of nodes. -/
def listStep (s : Session WorkerList) (call : Call) : Option (Session WorkerList) :=
  some ⟨(s.list.call call).2, s.replies ++ [(s.list.call call).1]⟩

/-- The next call on the ring. -/
def step (fuel : Nat) (s : Session WorkerRing) (call : Call) : Option (Session WorkerRing) :=
  (s.list.call fuel call).map fun (reply, list) => ⟨list, s.replies ++ [reply]⟩

/-- `malloc` returns NULL or the address of a cell that is not in use. -/
def Allocates (s : Session WorkerRing) : Call → Prop
  | .addWorker _ (some newNode) => s.list.heap newNode = none
  | _ => True

/-! ## The ring stands for the list -/

/-- The cells at `addrs` are the nodes of the list, with `head` at the
first one and `current` at the list's index. -/
structure Represents (addrs : List Addr) (s : WorkerRing) (l : WorkerList) : Prop where
  ring : LinkedRing s.heap addrs l.nodes
  head_eq : s.head = addrs[0]?
  current_eq : s.current = addrs[l.current]?
  current_lt : l.nodes ≠ [] → l.current < l.nodes.length
  count_eq : s.count = l.count
  count_nodes : l.count = l.nodes.length
  count_le : l.count ≤ maxWorkers
  notEmpty_eq : s.notEmpty = l.notEmpty
  notFull_eq : s.notFull = l.notFull

theorem represents_initialize (heap : Heap WorkerNode) :
    Represents [] (initializeWorkerList heap) LoadBalancer.initializeWorkerList := by
  refine ⟨LinkedRing.empty heap, rfl, rfl, ?_, rfl, rfl, Nat.zero_le _, rfl, rfl⟩
  intro h
  exact absurd rfl h

section Operations

variable {addrs : List Addr} {s : WorkerRing} {l : WorkerList} {fuel : Nat}

theorem Represents.length_eq (h : Represents addrs s l) : addrs.length = l.nodes.length :=
  h.ring.length_eq

/-- The head is NULL on the empty list only. -/
theorem Represents.head_eq_none (h : Represents addrs s l) : s.head = none ↔ addrs = [] := by
  rw [h.head_eq, List.getElem?_eq_none_iff, Nat.le_zero, List.length_eq_zero_iff]

/-- **The search loop** ends and finds the first node with the id. -/
theorem Represents.find_eq (h : Represents addrs s l) (hfuel : maxWorkers ≤ fuel)
    (workerId : Int32) :
    s.find fuel workerId = some ((l.indexOf workerId).bind fun i => addrs[i]?) := by
  unfold find
  by_cases hempty : addrs = []
  · have hnodes : l.nodes = [] := by
      rw [← List.length_eq_zero_iff, ← h.length_eq, hempty, List.length_nil]
    rw [if_pos (h.head_eq_none.mpr hempty)]
    simp [WorkerList.indexOf, hnodes]
  · have hpos : 0 < addrs.length := List.length_pos_iff.mpr hempty
    have hle : addrs.length ≤ fuel := by
      have := h.count_le
      rw [h.count_nodes, ← h.length_eq] at this
      omega
    rw [if_neg fun hnone => hempty (h.head_eq_none.mp hnone), h.head_eq,
      h.ring.search_eq _ hpos hle]
    rfl

/-- What the search loop finds is a node of the list. -/
theorem Represents.exists_addr (h : Represents addrs s l) {workerId : Int32} {i : Nat}
    (hi : l.indexOf workerId = some i) :
    ∃ a node, addrs[i]? = some a ∧ l.nodes[i]? = some node := by
  have hlt := WorkerList.indexOf_lt hi
  have hlt' : i < addrs.length := by
    rw [h.length_eq]
    exact hlt
  exact ⟨addrs[i], l.nodes[i], List.getElem?_eq_getElem hlt', List.getElem?_eq_getElem hlt⟩

/-- **`AddWorker`'s insertion** appends the node. -/
theorem Represents.insert (h : Represents addrs s l) {newNode : Addr} (node : WorkerNode)
    (hfresh : s.heap newNode = none) (hroom : l.count < maxWorkers) :
    ∃ s', s.insert newNode node = some s' ∧ s'.notEmpty = s.notEmpty ∧ s'.notFull = s.notFull ∧
      Represents (addrs ++ [newNode]) s' { l with
        nodes := l.nodes ++ [node]
        current := if l.nodes = [] then 0 else l.current
        count := l.count + 1 } := by
  have hcount := h.count_nodes
  by_cases hempty : addrs = []
  · have hnodes : l.nodes = [] := by
      rw [← List.length_eq_zero_iff, ← h.length_eq, hempty, List.length_nil]
    have hhead : s.head = none := h.head_eq_none.mpr hempty
    subst hempty
    simp only [WorkerRing.insert, hhead, hnodes, List.nil_append, if_true]
    refine ⟨_, rfl, rfl, rfl, LinkedRing.single _ _ _, rfl, rfl, ?_, ?_, ?_, ?_, h.notEmpty_eq,
      h.notFull_eq⟩
    · intro _
      exact Nat.one_pos
    · exact congrArg (· + 1) h.count_eq
    · simp [hcount, hnodes]
    · exact hroom
  · have hpos : 0 < addrs.length := List.length_pos_iff.mpr hempty
    have hnodes : l.nodes ≠ [] := by
      intro hnil
      rw [h.length_eq, hnil, List.length_nil] at hpos
      exact absurd hpos (Nat.lt_irrefl 0)
    have hcurrent := h.current_lt hnodes
    have hhead : addrs[0]? = some addrs[0] := List.getElem?_eq_getElem hpos
    have htail : addrs[addrs.length - 1]? = some addrs[addrs.length - 1] :=
      List.getElem?_eq_getElem (by omega)
    obtain ⟨v, hv⟩ := h.ring.exists_value hhead
    have hcell : s.heap addrs[0] = some ⟨v, addrs[indexAfter addrs.length 0]?,
        some addrs[addrs.length - 1]⟩ := by
      rw [h.ring.cell_eq hhead hv, ← htail]
      rfl
    have hne : addrs[0] ≠ newNode := h.ring.ne_of_fresh hhead hfresh
    obtain ⟨heap', hheap, hring⟩ := h.ring.append hfresh hhead htail node
    obtain ⟨mid, hmid, hlast⟩ := Option.bind_eq_some_iff.mp hheap
    have hinsert : s.insert newNode node
        = some { s with heap := heap', count := s.count + 1 } := by
      simp only [WorkerRing.insert, h.head_eq, hhead, Heap.put_of_ne _ hne, hcell,
        Option.bind_eq_bind, Option.bind_some, hmid, hlast]
    refine ⟨_, hinsert, rfl, rfl, hring, ?_, ?_, ?_, ?_, ?_, ?_, h.notEmpty_eq, h.notFull_eq⟩
    · rw [List.getElem?_append_left hpos]
      exact h.head_eq
    · rw [if_neg hnodes, List.getElem?_append_left (by rw [h.length_eq]; exact hcurrent)]
      exact h.current_eq
    · intro _
      simp only [if_neg hnodes, List.length_append, List.length_singleton]
      omega
    · exact congrArg (· + 1) h.count_eq
    · simp [hcount]
    · exact hroom

/-- Unlinking the only node leaves the empty list. -/
theorem Represents.unlink_only (h : Represents addrs s l) {a : Addr} (haddrs : addrs = [a]) :
    ∃ s', s.unlink a = some s' ∧ s'.notEmpty = s.notEmpty ∧ s'.notFull = s.notFull ∧
      Represents [] s' (l.unlink 0) := by
  subst haddrs
  have hlength := h.length_eq
  rw [List.length_singleton] at hlength
  obtain ⟨node, hnode⟩ := List.length_eq_one_iff.mp hlength.symm
  have hhead : s.head = some a := h.head_eq
  have hcell : s.heap a = some ⟨node, some a, some a⟩ := by
    have hv : l.nodes[0]? = some node := by rw [hnode]; rfl
    exact h.ring.cell_eq rfl hv
  have hunlink : s.unlink a = some { s with
      heap := s.heap.put a none, head := none, current := none, count := s.count - 1 } := by
    simp [WorkerRing.unlink, hcell, hhead]
  have hnil : (l.unlink 0).nodes = [] := by simp [WorkerList.unlink, hnode]
  have hcount : (l.unlink 0).count = 0 := by
    simp [WorkerList.unlink, h.count_nodes, hnode]
  refine ⟨_, hunlink, rfl, rfl, ?_, rfl, rfl, ?_, ?_, ?_, ?_, h.notEmpty_eq, h.notFull_eq⟩
  · rw [hnil]
    exact LinkedRing.empty _
  · intro hne
    exact absurd hnil hne
  · simp [WorkerList.unlink, h.count_eq]
  · rw [hcount, hnil]
    rfl
  · rw [hcount]
    exact Nat.zero_le _

/-- Where `head` and `current` point after the node at `i` is gone from
among several. -/
theorem Represents.unlink_pointers (h : Represents addrs s l) {i : Nat} {a : Addr}
    (ha : addrs[i]? = some a) (hlen : 2 ≤ addrs.length) :
    (if some a = s.head then addrs[indexAfter addrs.length i]? else s.head)
        = (addrs.eraseIdx i)[0]? ∧
      (if some a = s.current then addrs[indexAfter addrs.length i]? else s.current)
        = (addrs.eraseIdx i)[(l.unlink i).current]? ∧
      (l.unlink i).current < (l.unlink i).nodes.length := by
  have hi : i < addrs.length := (List.getElem?_eq_some_iff.mp ha).1
  have hi' : i < l.nodes.length := by
    rw [← h.length_eq]
    exact hi
  have hlength := h.length_eq
  have hcurrent := h.current_lt (List.ne_nil_of_length_pos (by omega))
  have herase : (l.nodes.eraseIdx i).length = l.nodes.length - 1 :=
    List.length_eraseIdx_of_lt hi'
  have hisHead : some a = s.head ↔ i = 0 := by
    rw [h.head_eq, ← ha]
    exact List.getElem?_inj hi h.ring.nodup
  have hisCurrent : some a = s.current ↔ i = l.current := by
    rw [h.current_eq, ← ha]
    exact List.getElem?_inj hi h.ring.nodup
  have hfirst : unerased i 0 = if i = 0 then indexAfter addrs.length i else 0 := by
    unfold unerased indexAfter
    split_ifs <;> omega
  have hnext : unerased i (l.unlink i).current
      = if i = l.current then indexAfter addrs.length i else l.current := by
    simp only [WorkerList.unlink, herase, unerased, indexAfter]
    split_ifs <;> omega
  refine ⟨?_, ?_, ?_⟩
  · simp only [hisHead]
    rw [LinkedRing.getElem?_unerased, hfirst, h.head_eq]
    split <;> rfl
  · simp only [hisCurrent]
    rw [LinkedRing.getElem?_unerased, hnext, h.current_eq]
    split <;> rfl
  · simp only [WorkerList.unlink, herase]
    split_ifs <;> omega

/-- Unlinking one of several nodes writes one link across it. -/
theorem Represents.unlink_of_many (h : Represents addrs s l) {i : Nat} {a : Addr}
    (ha : addrs[i]? = some a) (hlen : 2 ≤ addrs.length) :
    ∃ s', s.unlink a = some s' ∧ s'.notEmpty = s.notEmpty ∧ s'.notFull = s.notFull ∧
      Represents (addrs.eraseIdx i) s' (l.unlink i) := by
  have hi : i < addrs.length := (List.getElem?_eq_some_iff.mp ha).1
  have hlength := h.length_eq
  have hcount := h.count_nodes
  obtain ⟨v, hv⟩ := h.ring.exists_value ha
  have hbefore : indexBefore addrs.length i < addrs.length := by
    unfold indexBefore
    split <;> omega
  have hafter : indexAfter addrs.length i < addrs.length := by
    unfold indexAfter
    split <;> omega
  obtain ⟨p, hp⟩ : ∃ p, addrs[indexBefore addrs.length i]? = some p :=
    ⟨_, List.getElem?_eq_getElem hbefore⟩
  obtain ⟨q, hq⟩ : ∃ q, addrs[indexAfter addrs.length i]? = some q :=
    ⟨_, List.getElem?_eq_getElem hafter⟩
  have hcell : s.heap a = some ⟨v, some q, some p⟩ := by
    rw [h.ring.cell_eq ha hv, hp, hq]
  -- the neighbours are other cells, so the writes leave this one as it is
  have hap : a ≠ p := by
    intro heq
    have hsame := h.ring.index_inj ha (heq ▸ hp)
    unfold indexBefore at hsame
    split at hsame <;> omega
  obtain ⟨heap', hheap, hring⟩ := h.ring.erase ha hp hq hlen
  obtain ⟨mid, hmid, hlast⟩ := Option.bind_eq_some_iff.mp hheap
  have haq : a ≠ q := by
    intro heq
    have hsame := h.ring.index_inj ha (heq ▸ hq)
    unfold indexAfter at hsame
    split at hsame <;> omega
  have hmidCell : mid a = some ⟨v, some q, some p⟩ := by
    rw [Heap.write_of_ne hmid hap, hcell]
  have hlastCell : heap' a = some ⟨v, some q, some p⟩ := by
    rw [Heap.write_of_ne hlast haq, hmidCell]
  have hseveral : ¬(some a = s.head ∧ some q = s.head) := by
    rintro ⟨h1, h2⟩
    exact haq (Option.some.inj (h1.trans h2.symm))
  obtain ⟨hhead, hcurrent, hlt⟩ := h.unlink_pointers ha hlen
  rw [hq] at hhead hcurrent
  have hunlink : s.unlink a = some { s with
      heap := heap'.put a none
      head := if some a = s.head then some q else s.head
      current := if some a = s.current then some q else s.current
      count := s.count - 1 } := by
    simp only [WorkerRing.unlink, Option.bind_eq_bind, hcell, Option.bind_some, if_neg hseveral,
      hmid, hmidCell, hlast, hlastCell]
  refine ⟨_, hunlink, rfl, rfl, hring, hhead, hcurrent, fun _ => hlt, ?_, ?_, ?_, h.notEmpty_eq,
    h.notFull_eq⟩
  · simp [WorkerList.unlink, h.count_eq]
  · have hi' : i < l.nodes.length := hlength ▸ hi
    have hremoved := WorkerList.length_unlink hi'
    simp only [WorkerList.unlink] at hremoved ⊢
    omega
  · have := h.count_le
    simp only [WorkerList.unlink]
    omega

/-- **`RemoveWorker`'s unlinking** erases the node. -/
theorem Represents.unlink (h : Represents addrs s l) {i : Nat} {a : Addr}
    (ha : addrs[i]? = some a) :
    ∃ s', s.unlink a = some s' ∧ s'.notEmpty = s.notEmpty ∧ s'.notFull = s.notFull ∧
      Represents (addrs.eraseIdx i) s' (l.unlink i) := by
  have hi : i < addrs.length := (List.getElem?_eq_some_iff.mp ha).1
  by_cases hlen : 2 ≤ addrs.length
  · exact h.unlink_of_many ha hlen
  · have hone : addrs.length = 1 := by omega
    obtain ⟨b, rfl⟩ := List.length_eq_one_iff.mp hone
    obtain rfl : i = 0 := by
      rw [hone] at hi
      omega
    obtain rfl : b = a := Option.some.inj ha
    exact h.unlink_only rfl

/-- What an operation on the ring must do to follow one on the list. -/
def Follows (outcome : Option (β × WorkerRing)) (expected : β × WorkerList) : Prop :=
  ∃ s' addrs, outcome = some (expected.1, s') ∧ Represents addrs s' expected.2

/-- **`AddWorker` follows.** -/
theorem Represents.addWorker (h : Represents addrs s l) (w : NewWorker) {allocated : Option Addr}
    (hfresh : ∀ newNode, allocated = some newNode → s.heap newNode = none) :
    Follows (s.addWorker w allocated) (l.addWorker w allocated.isSome) := by
  unfold WorkerRing.addWorker WorkerList.addWorker
  by_cases hsocket : w.workerSocket = none
  · rw [if_pos hsocket, if_pos hsocket]
    exact ⟨s, addrs, rfl, h⟩
  · rw [if_neg hsocket, if_neg hsocket, h.notFull_eq]
    cases l.notFull.wait with
    | none => exact ⟨s, addrs, rfl, h⟩
    | some notFull =>
      have hwaited : Represents addrs { s with notFull := notFull }
          { l with notFull := notFull } := { h with notFull_eq := rfl }
      have hcount := h.count_eq
      simp only [WorkerList.addSection]
      by_cases hfull : maxWorkers ≤ l.count
      · rw [if_pos (hcount ▸ hfull), if_pos hfull]
        exact ⟨_, addrs, rfl, hwaited⟩
      · rw [if_neg (hcount ▸ hfull), if_neg hfull]
        cases allocated with
        | none => exact ⟨_, addrs, rfl, hwaited⟩
        | some newNode =>
          obtain ⟨s', hinsert, hempty, hfull', hrep⟩ :=
            hwaited.insert w.node (hfresh newNode rfl) (Nat.lt_of_not_le hfull)
          refine ⟨{ s' with notEmpty := s'.notEmpty.release 1 }, addrs ++ [newNode], ?_, ?_⟩
          · simp only [Option.bind_eq_bind, hinsert, Option.bind_some, Option.isSome_some, if_true]
          · exact { hrep with notEmpty_eq := congrArg (Semaphore.release · 1) hrep.notEmpty_eq }

/-- **`RemoveWorker` follows.** -/
theorem Represents.removeWorker (h : Represents addrs s l) (hfuel : maxWorkers ≤ fuel)
    (workerId : Int32) : Follows (s.removeWorker fuel workerId) (l.removeWorker workerId) := by
  unfold WorkerRing.removeWorker WorkerList.removeWorker
  by_cases hid : workerId ≤ 0
  · rw [if_pos hid, if_pos hid]
    exact ⟨s, addrs, rfl, h⟩
  · rw [if_neg hid, if_neg hid, h.notEmpty_eq]
    cases l.notEmpty.wait with
    | none => exact ⟨s, addrs, rfl, h⟩
    | some notEmpty =>
      have hwaited : Represents addrs { s with notEmpty := notEmpty }
          { l with notEmpty := notEmpty } := { h with notEmpty_eq := rfl }
      have hfind := hwaited.find_eq hfuel workerId
      simp only [Option.bind_eq_bind, hfind, Option.bind_some, WorkerList.removeSection]
      cases hindex : ({ l with notEmpty := notEmpty } : WorkerList).indexOf workerId with
      | none =>
        exact ⟨_, addrs, rfl,
          { hwaited with notFull_eq := congrArg (Semaphore.release · 1) hwaited.notFull_eq }⟩
      | some i =>
        obtain ⟨a, node, ha, -⟩ := hwaited.exists_addr hindex
        obtain ⟨s', hunlink, -, -, hrep⟩ := hwaited.unlink ha
        refine ⟨{ s' with notFull := s'.notFull.release 1 }, addrs.eraseIdx i, ?_,
          { hrep with notFull_eq := congrArg (Semaphore.release · 1) hrep.notFull_eq }⟩
        simp only [Option.bind_some, ha, hunlink, Option.map_some]

/-- **`GetNextWorker` follows.** -/
theorem Represents.getNextWorker (h : Represents addrs s l) :
    Follows (s.getNextWorker.map (Prod.map .chosen id)) (l.call .getNextWorker) := by
  have hcount := h.count_nodes
  have hlength := h.length_eq
  unfold WorkerRing.getNextWorker WorkerList.call WorkerList.getNextWorker
  by_cases hzero : l.count = 0
  · rw [if_pos (Or.inl (h.count_eq.trans hzero)), if_pos hzero]
    exact ⟨s, addrs, rfl, h⟩
  · have hcurrent := h.current_lt (List.ne_nil_of_length_pos (by omega))
    have hnull : ¬(s.count = 0 ∨ s.current = none) := by
      rintro (hempty | hnone)
      · exact hzero (h.count_eq.symm.trans hempty)
      · rw [h.current_eq, List.getElem?_eq_none_iff] at hnone
        omega
    rw [if_neg hnull, if_neg hzero]
    have hadvance : s.heap.advance WorkerNode.selectable s.count s.current
        = some (((List.range l.count).find? fun k =>
            (l.nodes[(l.current + k) % l.nodes.length]?).any WorkerNode.selectable).bind fun k =>
              addrs[(l.current + k) % l.nodes.length]?) := by
      rw [h.count_eq, h.current_eq]
      exact h.ring.advance_eq WorkerNode.selectable (by omega)
    simp only [Option.bind_eq_bind, hadvance, Option.bind_some, WorkerList.fromCurrent]
    cases hfind : (List.range l.count).find? fun k =>
        (l.nodes[(l.current + k) % l.nodes.length]?).any WorkerNode.selectable with
    | none => exact ⟨s, addrs, rfl, h⟩
    | some k =>
      have hlt : (l.current + k) % l.nodes.length < addrs.length := by
        rw [hlength]
        exact Nat.mod_lt _ (by omega)
      have ha : addrs[(l.current + k) % l.nodes.length]?
          = some addrs[(l.current + k) % l.nodes.length] := List.getElem?_eq_getElem hlt
      obtain ⟨node, hnode⟩ := h.ring.exists_value ha
      have hcell := h.ring.cell_eq ha hnode
      have hnext : addrs[indexAfter addrs.length ((l.current + k) % l.nodes.length)]?
          = addrs[(l.current + k + 1) % l.nodes.length]? := by
        rw [LinkedRing.indexAfter_eq_mod hlt, hlength, Nat.mod_add_mod]
      simp only [Option.bind_some, ha, hcell, hnode, Option.map_some, Prod.map, hnext, id]
      exact ⟨_, addrs, rfl, { h with
        current_eq := rfl
        current_lt := fun _ => Nat.mod_lt _ (by omega) }⟩

/-- A node that is changed keeps its place. -/
theorem Represents.modify (h : Represents addrs s l) {i : Nat} {a : Addr} (ha : addrs[i]? = some a)
    (f : WorkerNode → WorkerNode) :
    ∃ heap, s.heap.setValue (some a) f = some heap ∧
      Represents addrs { s with heap := heap } { l with nodes := l.nodes.modify i f } := by
  obtain ⟨heap, hheap, hring⟩ := h.ring.modify ha f
  refine ⟨heap, hheap, { h with ring := hring, current_lt := ?_, count_nodes := ?_ }⟩
  · intro hne
    rw [List.length_modify]
    exact h.current_lt (by rintro hnil; simp [hnil] at hne)
  · rw [List.length_modify]
    exact h.count_nodes

/-- **`SetWorkerReady` follows.** -/
theorem Represents.setWorkerReady (h : Represents addrs s l) (hfuel : maxWorkers ≤ fuel)
    (workerId : Int32) : Follows (s.setWorkerReady fuel workerId) (l.setWorkerReady workerId) := by
  unfold WorkerRing.setWorkerReady WorkerList.setWorkerReady
  simp only [Option.bind_eq_bind, h.find_eq hfuel, Option.bind_some]
  cases hindex : l.indexOf workerId with
  | none => exact ⟨s, addrs, rfl, h⟩
  | some i =>
    obtain ⟨a, node, ha, hnode⟩ := h.exists_addr hindex
    simp only [Option.bind_some, ha, h.ring.cell_eq ha hnode, hnode, Option.any_some]
    by_cases hready : node.isReady = true
    · rw [if_pos hready, if_pos hready]
      exact ⟨s, addrs, rfl, h⟩
    · rw [if_neg hready, if_neg hready]
      obtain ⟨heap, hheap, hrep⟩ := h.modify ha fun node => { node with isReady := true }
      exact ⟨{ s with heap := heap }, addrs, by simp only [hheap, Option.bind_some], hrep⟩

/-- **`UpdateWorkerPeerPort` follows.** -/
theorem Represents.updateWorkerPeerPort (h : Represents addrs s l) (hfuel : maxWorkers ≤ fuel)
    (workerId peerPort : Int32) :
    Follows (s.updateWorkerPeerPort fuel workerId peerPort)
      (l.updateWorkerPeerPort workerId peerPort) := by
  unfold WorkerRing.updateWorkerPeerPort WorkerList.updateWorkerPeerPort
  simp only [Option.bind_eq_bind, h.find_eq hfuel, Option.bind_some]
  cases hindex : l.indexOf workerId with
  | none => exact ⟨s, addrs, rfl, h⟩
  | some i =>
    obtain ⟨a, node, ha, hnode⟩ := h.exists_addr hindex
    obtain ⟨heap, hheap, hrep⟩ := h.modify ha fun node => { node with workerPeerPort := peerPort }
    exact ⟨{ s with heap := heap }, addrs, by simp only [Option.bind_some, ha, hheap], hrep⟩

/-- **`GetWorkerById` follows.** -/
theorem Represents.getWorkerById (h : Represents addrs s l) (hfuel : maxWorkers ≤ fuel)
    (workerId : Int32) : s.getWorkerById fuel workerId = some (l.getWorkerById workerId) := by
  unfold WorkerRing.getWorkerById WorkerList.getWorkerById
  simp only [Option.bind_eq_bind, h.find_eq hfuel, Option.bind_some]
  cases hindex : l.indexOf workerId with
  | none => rfl
  | some i =>
    obtain ⟨a, node, ha, hnode⟩ := h.exists_addr hindex
    simp only [Option.bind_some, ha, h.ring.cell_eq ha hnode, hnode]

/-- A result of another type. -/
theorem Follows.map {outcome : Option (β × WorkerRing)} {expected : β × WorkerList}
    (h : Follows outcome expected) (f : β → γ) :
    Follows (outcome.map (Prod.map f id)) (expected.map f id) := by
  obtain ⟨s', addrs', rfl, hrep⟩ := h
  exact ⟨s', addrs', rfl, hrep⟩

/-- **Every call follows**: it ends without a fault, with the reply and
the nodes of its counterpart. -/
theorem call_represents (h : Represents addrs s l) (hfuel : maxWorkers ≤ fuel) (call : Call)
    (hfresh : ∀ w newNode, call = .addWorker w (some newNode) → s.heap newNode = none) :
    Follows (s.call fuel call) (l.call call) := by
  cases call with
  | addWorker w allocated =>
    refine (h.addWorker w ?_).map Reply.code
    intro newNode hnew
    exact hfresh w newNode (by rw [hnew])
  | removeWorker workerId => exact (h.removeWorker hfuel workerId).map Reply.code
  | getNextWorker => exact h.getNextWorker
  | setWorkerReady workerId => exact (h.setWorkerReady hfuel workerId).map Reply.code
  | updateWorkerPeerPort workerId peerPort =>
    exact (h.updateWorkerPeerPort hfuel workerId peerPort).map Reply.code
  | getWorkerById workerId =>
    refine ⟨s, addrs, ?_, h⟩
    simp only [WorkerRing.call, h.getWorkerById hfuel, Option.map_some]
    rfl

end Operations

/-! ## Runs -/

/-- A session on the ring and one on the list agree. -/
def Agree (s : Session WorkerRing) (l : Session WorkerList) : Prop :=
  s.replies = l.replies ∧ ∃ addrs, Represents addrs s.list l.list

/-- A session on the list answers every call. -/
theorem exists_exec_listStep (l : Session WorkerList) (calls : List Call) :
    ∃ l', exec listStep l calls = some l' := by
  induction calls generalizing l with
  | nil => exact ⟨l, rfl⟩
  | cons call calls ih => exact ih _

/-- Sessions that agree go on agreeing. -/
theorem agree_step {fuel : Nat} (hfuel : maxWorkers ≤ fuel) (s : Session WorkerRing)
    (l : Session WorkerList) (call : Call) (h : Agree s l) (hfresh : Allocates s call) :
    Option.Rel Agree (step fuel s call) (listStep l call) := by
  obtain ⟨hreplies, addrs, hrep⟩ := h
  obtain ⟨s', addrs', hcall, hrep'⟩ := call_represents hrep hfuel call (by
    rintro w newNode rfl
    exact hfresh)
  unfold step listStep
  rw [hcall]
  refine .some ⟨?_, addrs', hrep'⟩
  simp only [hreplies]

/-! ## What the ring looks like -/

/-- `k` times `p = p->next`. -/
def follow (heap : Heap WorkerNode) : Nat → Option Addr → Option Addr
  | 0, p => p
  | k + 1, p => follow heap k ((heap.load p).bind Cell.next)

/-- The nodes reachable from `head` by `next` are the cells at `addrs`:
one cycle of `count` cells, which hold `nodes`, with `prev` inverse to
`next` and `current` in it. -/
structure IsCycle (list : WorkerRing) (addrs : List Addr) (nodes : List WorkerNode) : Prop where
  nodup : addrs.Nodup
  length_eq : addrs.length = list.count
  reachable : ∀ a, a ∈ addrs ↔ ∃ k, follow list.heap k list.head = some a
  cycle : ∀ k, follow list.heap k list.head = addrs[k % addrs.length]?
  next_prev : ∀ a ∈ addrs, ∃ b ∈ addrs, ∃ acell bcell, list.heap a = some acell ∧
    list.heap b = some bcell ∧ acell.next = some b ∧ bcell.prev = some a
  prev_next : ∀ b ∈ addrs, ∃ a ∈ addrs, ∃ acell bcell, list.heap a = some acell ∧
    list.heap b = some bcell ∧ bcell.prev = some a ∧ acell.next = some b
  values : addrs.map (fun a => (list.heap a).map Cell.value) = nodes.map some
  current : ∀ a, list.current = some a → a ∈ addrs
  head_null : list.head = none ↔ list.count = 0
  current_null : list.current = none ↔ list.count = 0

section Shape

variable {addrs : List Addr} {s : WorkerRing} {l : WorkerList}

/-- Where `k` steps from index `i` lead. -/
theorem Represents.follow_eq (h : Represents addrs s l) (k : Nat) :
    ∀ {i : Nat}, i < addrs.length → follow s.heap k addrs[i]? = addrs[(i + k) % addrs.length]? := by
  induction k with
  | zero =>
    intro i hi
    rw [Nat.add_zero, Nat.mod_eq_of_lt hi]
    rfl
  | succ k ih =>
    intro i hi
    have ha : addrs[i]? = some addrs[i] := List.getElem?_eq_getElem hi
    obtain ⟨v, hv⟩ := h.ring.exists_value ha
    have hnext : ((s.heap.load addrs[i]?).bind Cell.next) = addrs[(i + 1) % addrs.length]? := by
      rw [ha, Heap.load_some, h.ring.cell_eq ha hv, LinkedRing.indexAfter_eq_mod hi]
      rfl
    rw [follow, hnext, ih (Nat.mod_lt _ (by omega)), Nat.mod_add_mod]
    congr 2
    omega

/-- From NULL there is no way on. -/
theorem follow_none (heap : Heap WorkerNode) (k : Nat) : follow heap k none = none := by
  induction k with
  | zero => rfl
  | succ k ih => exact ih

/-- Neighbouring cells point to each other. -/
theorem Represents.neighbours (h : Represents addrs s l) {i : Nat} (hi : i < addrs.length) :
    ∃ a b acell bcell, addrs[i]? = some a ∧ addrs[indexAfter addrs.length i]? = some b ∧
      s.heap a = some acell ∧ s.heap b = some bcell ∧ acell.next = some b ∧
      bcell.prev = some a := by
  have hj : indexAfter addrs.length i < addrs.length := by
    unfold indexAfter
    split <;> omega
  have ha : addrs[i]? = some addrs[i] := List.getElem?_eq_getElem hi
  have hb : addrs[indexAfter addrs.length i]? = some addrs[indexAfter addrs.length i] :=
    List.getElem?_eq_getElem hj
  obtain ⟨v, hv⟩ := h.ring.exists_value ha
  obtain ⟨w, hw⟩ := h.ring.exists_value hb
  refine ⟨_, _, _, _, ha, hb, h.ring.cell_eq ha hv, h.ring.cell_eq hb hw, hb, ?_⟩
  rw [LinkedRing.indexBefore_indexAfter]
  exact ha

/-- **The shape of a ring** that stands for a list. -/
theorem Represents.isCycle (h : Represents addrs s l) : IsCycle s addrs l.nodes := by
  have hcount : addrs.length = s.count := by rw [h.count_eq, h.count_nodes, h.length_eq]
  have hnull : addrs = [] ↔ s.count = 0 := by rw [← hcount, List.length_eq_zero_iff]
  have hcycle : ∀ k, follow s.heap k s.head = addrs[k % addrs.length]? := by
    intro k
    rw [h.head_eq]
    by_cases hempty : addrs = []
    · subst hempty
      exact follow_none s.heap k
    · rw [h.follow_eq k (List.length_pos_iff.mpr hempty), Nat.zero_add]
  refine ⟨h.ring.nodup, hcount, ?_, hcycle, ?_, ?_, ?_, ?_, ?_, ?_⟩
  · intro a
    constructor
    · intro ha
      obtain ⟨i, hi, hget⟩ := List.mem_iff_getElem.mp ha
      refine ⟨i, ?_⟩
      rw [hcycle, Nat.mod_eq_of_lt hi, List.getElem?_eq_getElem hi, hget]
    · rintro ⟨k, hk⟩
      rw [hcycle] at hk
      exact List.mem_of_getElem? hk
  · intro a ha
    obtain ⟨i, hi, rfl⟩ := List.mem_iff_getElem.mp ha
    obtain ⟨a', b, acell, bcell, ha', hb, hacell, hbcell, hnext, hprev⟩ := h.neighbours hi
    rw [List.getElem?_eq_getElem hi, Option.some.injEq] at ha'
    subst ha'
    exact ⟨b, List.mem_of_getElem? hb, acell, bcell, hacell, hbcell, hnext, hprev⟩
  · intro b hb
    obtain ⟨i, hi, rfl⟩ := List.mem_iff_getElem.mp hb
    have hj : indexBefore addrs.length i < addrs.length := by
      unfold indexBefore
      split <;> omega
    obtain ⟨a, b', acell, bcell, ha, hb', hacell, hbcell, hnext, hprev⟩ := h.neighbours hj
    rw [LinkedRing.indexAfter_indexBefore hi, List.getElem?_eq_getElem hi, Option.some.injEq] at hb'
    subst hb'
    exact ⟨a, List.mem_of_getElem? ha, acell, bcell, hacell, hbcell, hprev, hnext⟩
  · apply List.ext_getElem?
    intro i
    rw [List.getElem?_map, List.getElem?_map]
    cases ha : addrs[i]? with
    | none =>
      have hnone : l.nodes[i]? = none := by
        rw [List.getElem?_eq_none_iff] at ha ⊢
        rw [← h.length_eq]
        exact ha
      rw [hnone]
      rfl
    | some a =>
      obtain ⟨v, hv⟩ := h.ring.exists_value ha
      rw [hv, Option.map_some, h.ring.cell_eq ha hv]
      rfl
  · intro a ha
    rw [h.current_eq] at ha
    exact List.mem_of_getElem? ha
  · rw [h.head_eq_none, hnull]
  · rw [← hnull, h.current_eq, List.getElem?_eq_none_iff]
    constructor
    · intro hle
      by_contra hne
      have hlt := h.current_lt (by
        intro hnil
        rw [← List.length_eq_zero_iff, ← h.length_eq, List.length_eq_zero_iff] at hnil
        exact hne hnil)
      rw [← h.length_eq] at hlt
      omega
    · rintro rfl
      exact Nat.zero_le _

end Shape

/-! ## The list of workers -/

/-- The first node with an id changed, every other node as it was. -/
def updateFirst (workerId : Int32) (f : WorkerNode → WorkerNode) :
    List WorkerNode → List WorkerNode
  | [] => []
  | node :: nodes =>
    if node.workerId = workerId then f node :: nodes else node :: updateFirst workerId f nodes

/-- Whether the call gets past its argument checks, its wait, its capacity
check and its allocation. -/
def passes (l : WorkerList) : Call → Bool
  | .addWorker w allocated =>
    w.workerSocket.isSome && l.notFull.wait.isSome && decide (l.count < maxWorkers)
      && allocated.isSome
  | .removeWorker workerId => decide (0 < workerId) && l.notEmpty.wait.isSome
  | _ => true

/-- What a call is for, on the list of workers alone. -/
def onWorkers (passed : Bool) (nodes : List WorkerNode) : Call → List WorkerNode
  | .addWorker w _ => if passed then nodes ++ [w.node] else nodes
  | .removeWorker workerId =>
    if passed then nodes.eraseP fun node => node.workerId == workerId else nodes
  | .setWorkerReady workerId =>
    updateFirst workerId (fun node => { node with isReady := true }) nodes
  | .updateWorkerPeerPort workerId peerPort =>
    updateFirst workerId (fun node => { node with workerPeerPort := peerPort }) nodes
  | .getNextWorker => nodes
  | .getWorkerById _ => nodes

/-- The first node with an id, by its index. -/
theorem updateFirst_eq_modify (workerId : Int32) (f : WorkerNode → WorkerNode)
    (nodes : List WorkerNode) :
    updateFirst workerId f nodes =
      match nodes.findIdx? (fun node => node.workerId == workerId) with
      | none => nodes
      | some i => nodes.modify i f := by
  induction nodes with
  | nil => rfl
  | cons node nodes ih =>
    rw [updateFirst, ih, List.findIdx?_cons]
    by_cases hid : node.workerId = workerId
    · simp [hid]
    · simp only [hid, if_false, beq_iff_eq]
      cases nodes.findIdx? fun node => node.workerId == workerId with
      | none => rfl
      | some i => simp

/-- Erasing the first node with an id is erasing at its index. -/
theorem eraseP_eq_eraseIdx (workerId : Int32) (nodes : List WorkerNode) :
    (nodes.eraseP fun node => node.workerId == workerId) =
      match nodes.findIdx? (fun node => node.workerId == workerId) with
      | none => nodes
      | some i => nodes.eraseIdx i := by
  induction nodes with
  | nil => rfl
  | cons node nodes ih =>
    rw [List.eraseP_cons, ih, List.findIdx?_cons]
    by_cases hid : node.workerId = workerId
    · simp [hid]
    · simp only [hid, beq_iff_eq, if_false, cond_eq_ite]
      cases nodes.findIdx? fun node => node.workerId == workerId with
      | none => simp
      | some i => simp

/-- **A call changes the list of workers** as it is meant to. -/
theorem nodes_call (l : WorkerList) (call : Call) :
    (l.call call).2.nodes = onWorkers (passes l call) l.nodes call := by
  cases call with
  | addWorker w allocated =>
    simp only [WorkerList.call, WorkerList.addWorker, onWorkers, passes, Prod.map]
    by_cases hsocket : w.workerSocket = none
    · simp [hsocket]
    · have hsome : w.workerSocket.isSome = true := Option.isSome_iff_ne_none.mpr hsocket
      rcases Option.eq_none_or_eq_some l.notFull.wait with hwait | ⟨notFull, hwait⟩
      · simp [hsocket, hwait]
      · by_cases hroom : l.count < maxWorkers
        · cases allocated with
          | none => simp [hsocket, hwait, WorkerList.addSection]
          | some newNode =>
            simp [hsocket, hsome, hwait, WorkerList.addSection, hroom, Nat.not_le.mpr hroom]
        · simp [hsocket, hwait, WorkerList.addSection, hroom, Nat.le_of_not_lt hroom]
  | removeWorker workerId =>
    simp only [WorkerList.call, WorkerList.removeWorker, onWorkers, passes, Prod.map,
      eraseP_eq_eraseIdx]
    by_cases hid : workerId ≤ 0
    · have hneg : ¬0 < workerId := Int32.not_lt.mpr hid
      simp [hid, hneg]
    · have hpos : 0 < workerId := Int32.not_le.mp hid
      rcases Option.eq_none_or_eq_some l.notEmpty.wait with hwait | ⟨notEmpty, hwait⟩
      · simp [hid, hwait]
      · simp only [hid, hpos, hwait, if_false, WorkerList.removeSection, WorkerList.indexOf]
        cases l.nodes.findIdx? fun node => node.workerId == workerId with
        | none => simp
        | some i => simp [WorkerList.unlink]
  | getNextWorker =>
    simp only [WorkerList.call, onWorkers]
    split
    · rfl
    · rename_i node list hnext
      exact WorkerList.nodes_getNextWorker hnext
  | setWorkerReady workerId =>
    simp only [WorkerList.call, WorkerList.setWorkerReady, onWorkers, Prod.map,
      updateFirst_eq_modify, WorkerList.indexOf]
    cases hindex : l.nodes.findIdx? fun node => node.workerId == workerId with
    | none => rfl
    | some i =>
      have hlt : i < l.nodes.length := WorkerList.indexOf_lt hindex
      simp only [List.getElem?_eq_getElem hlt, Option.any_some]
      split
      · rename_i hready
        -- a node that is ready already is set to what it is
        have hsame : ({ l.nodes[i] with isReady := true } : WorkerNode) = l.nodes[i] := by
          rw [← hready]
        apply List.ext_getElem?
        intro j
        rw [id, List.getElem?_modify]
        by_cases hij : i = j
        · subst hij
          simp [List.getElem?_eq_getElem hlt, hsame]
        · simp [hij]
      · rfl
  | updateWorkerPeerPort workerId peerPort =>
    simp only [WorkerList.call, WorkerList.updateWorkerPeerPort, onWorkers, Prod.map,
      updateFirst_eq_modify, WorkerList.indexOf]
    cases l.nodes.findIdx? fun node => node.workerId == workerId with
    | none => rfl
    | some i => rfl
  | getWorkerById workerId => rfl

/-- **`GetWorkerById`** copies the first node with the id. -/
theorem getWorkerById_eq (l : WorkerList) (workerId : Int32) :
    l.getWorkerById workerId =
      (l.nodes.find? fun node => node.workerId == workerId).map fun node =>
        { node with workerAddress := node.workerAddress.truncate 255 } := by
  unfold WorkerList.getWorkerById WorkerList.indexOf
  simp only [Option.bind_eq_bind]
  induction l.nodes with
  | nil => rfl
  | cons node nodes ih =>
    rw [List.findIdx?_cons, List.find?_cons]
    cases hid : node.workerId == workerId with
    | true => rfl
    | false =>
      simp only [Bool.false_eq_true, if_false, Option.bind_map, ← ih]
      rfl

/-- **The ring refines a list.** Whatever the calls and wherever `malloc`
puts the nodes, every call ends without a fault; the ring is one cycle of
`count` nodes, at most `maxWorkers`, that holds the nodes of the list; the
replies are those of the calls on the list; a further call changes the
list of workers as it is meant to, and a search by id copies the first
node with it. -/
theorem ring_refines_list {fuel : Nat} (hfuel : maxWorkers ≤ fuel) (heap : Heap WorkerNode)
    {calls : List Call}
    (hmalloc : Along (step fuel) Allocates ⟨initializeWorkerList heap, []⟩ calls) :
    ∃ s l addrs, exec (step fuel) ⟨initializeWorkerList heap, []⟩ calls = some s ∧
      exec listStep ⟨LoadBalancer.initializeWorkerList, []⟩ calls = some l ∧
      s.replies = l.replies ∧ IsCycle s.list addrs l.list.nodes ∧ s.list.count ≤ maxWorkers ∧
      (∀ call, (l.list.call call).2.nodes = onWorkers (passes l.list call) l.list.nodes call) ∧
      ∀ workerId, l.list.getWorkerById workerId =
        (l.list.nodes.find? fun node => node.workerId == workerId).map fun node =>
          { node with workerAddress := node.workerAddress.truncate 255 } := by
  have hstart : Agree ⟨initializeWorkerList heap, []⟩
      ⟨LoadBalancer.initializeWorkerList, []⟩ := ⟨rfl, [], represents_initialize heap⟩
  have hrel := exec_rel_along (agree_step hfuel) hstart hmalloc
  obtain ⟨l, hl⟩ : ∃ l, exec listStep ⟨LoadBalancer.initializeWorkerList, []⟩ calls = some l :=
    exists_exec_listStep _ calls
  rw [hl] at hrel
  cases hs : exec (step fuel) ⟨initializeWorkerList heap, []⟩ calls with
  | none => rw [hs] at hrel; cases hrel
  | some s =>
    rw [hs] at hrel
    cases hrel with
    | some hagree =>
      obtain ⟨hreplies, addrs, hrep⟩ := hagree
      refine ⟨s, l, addrs, rfl, hl, hreplies, hrep.isCycle, ?_, nodes_call l.list,
        getWorkerById_eq l.list⟩
      rw [hrep.count_eq]
      exact hrep.count_le

instance (s : Session WorkerRing) (call : Call) : Decidable (Allocates s call) := by
  unfold Allocates
  split <;> infer_instance

/-- A registration with an id, at a socket of the same number. -/
def registration (workerId : Nat) : NewWorker :=
  ⟨some workerId, Int32.ofNat workerId, CString.empty, 6000⟩

/-- Two workers register, are selected and set ready; the first one, where
`head` and `current` point, is removed and its cell is used again. -/
def churn : List Call :=
  [.addWorker (registration 1) (some 40), .addWorker (registration 2) (some 24),
    .getNextWorker, .setWorkerReady 2, .removeWorker 1, .addWorker (registration 3) (some 40),
    .getNextWorker, .getWorkerById 3]

theorem ring_refines_list_churn :
    ∃ s l addrs, exec (step 8) ⟨initializeWorkerList fun _ => none, []⟩ churn = some s ∧
      exec listStep ⟨LoadBalancer.initializeWorkerList, []⟩ churn = some l ∧
      s.replies = l.replies ∧ IsCycle s.list addrs l.list.nodes := by
  have hmalloc : Along (step 8) Allocates ⟨initializeWorkerList fun _ => none, []⟩ churn := by
    decide
  obtain ⟨s, l, addrs, hs, hl, hreplies, hcycle, -⟩ :=
    ring_refines_list (Nat.le_refl 8) (fun _ => none) hmalloc
  exact ⟨s, l, addrs, hs, hl, hreplies, hcycle⟩

end WorkerRing

end LoadBalancing.LoadBalancer
