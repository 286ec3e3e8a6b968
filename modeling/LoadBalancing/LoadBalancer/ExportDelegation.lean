/-
LoadBalancing.LoadBalancer.ExportDelegation — `BroadcastNewWorkerJoined`
where sends may fail.

The load balancer has no data of its own: a new worker gets it from one of
the others, which learns so from a flag in the WORKER_ENTRY it is sent.
Which one is settled before anything is sent, the first other node that is
connected and ready, and nothing is done when its entry does not arrive.
`delegates_iff` has the case where that leaves the new worker without data:
another ready worker got an entry, the chosen one did not.

Each send is answered by its socket, one call at a time. With every send
succeeding this is the broadcast of `WorkerList`.

No `sorry`, no `axiom`, no `native_decide`.
-/
import LoadBalancing.Lib.StreamReassembly
import LoadBalancing.LoadBalancer.WorkerList

namespace LoadBalancing.LoadBalancer.ExportDelegation

open LoadBalancing.Base LoadBalancing.Lib

/-! ## Sends -/

/-- A `SendWorkerEntry` of the second loop: the node it goes to, what is
sent over its socket, and whether it succeeded. -/
structure Attempt where
  worker : WorkerNode
  socket : Socket
  message : Message
  shouldExport : Bool
  delivered : Bool

/-- `SendWorkerEntry` succeeds on a socket with these answers. -/
def entrySent (answers : Nat → SocketAnswer) (message : Message) : Bool :=
  0 < (protocolSend answers message ⟨0, []⟩).1

/-- The second loop at a node and its index; `source` is the index of the
node that is to export. -/
def attempt (newWorkerId : Int32) (newWorker : WorkerNode) (source : Option Nat)
    (answers : Nat → Nat → SocketAnswer) (slot : WorkerNode × Nat) : Option Attempt := do
  guard (slot.1.workerId ≠ newWorkerId ∧ slot.1.isConnected)
  let socket ← slot.1.workerSocket
  let message ← newWorker.entry (source == some slot.2)
  some ⟨slot.1, socket, message, source == some slot.2, entrySent (answers slot.2) message⟩

/-- `BroadcastNewWorkerJoined`: its result, and what it tries to send. -/
def broadcastNewWorkerJoined (list : WorkerList) (newWorkerId : Int32)
    (answers : Nat → Nat → SocketAnswer) : Int × List Attempt :=
  if list.count ≤ 1 then (0, [])
  else match WorkerList.findNewAndSource newWorkerId list.nodes 0 none none with
    | (none, _) => (-1, [])
    | (some newWorker, source) =>
      let attempts := list.nodes.zipIdx.filterMap (attempt newWorkerId newWorker source answers)
      (attempts.countP Attempt.delivered, attempts)

/-! ## The source -/

/-- The first node but the new one that is connected and ready. -/
def firstReady (list : WorkerList) (newWorkerId : Int32) : Option Nat :=
  list.nodes.findIdx? fun node => node.workerId != newWorkerId && node.selectable

/-- What the first loop has for a source: what it had, or the first such
node ahead of it. It stops early only when it has one. -/
theorem findNewAndSource_source (newWorkerId : Int32) (nodes : List WorkerNode) (i : Nat)
    (newWorker : Option WorkerNode) (source : Option Nat) :
    (WorkerList.findNewAndSource newWorkerId nodes i newWorker source).2 =
      source.or ((nodes.findIdx? fun node =>
        node.workerId != newWorkerId && node.selectable).map (· + i)) := by
  induction nodes generalizing i newWorker source with
  | nil => simp [WorkerList.findNewAndSource]
  | cons node nodes ih =>
    have hshift : ∀ found : Option Nat,
        (found.map (· + 1)).map (· + i) = found.map (· + (i + 1)) := by
      intro found
      cases found with
      | none => rfl
      | some k => simp; omega
    simp only [WorkerList.findNewAndSource]
    rw [List.findIdx?_cons]
    cases hnew : node.workerId == newWorkerId with
    | true =>
      have hother : (node.workerId != newWorkerId) = false := by rw [bne, hnew]; rfl
      simp only [hother, Bool.false_and, Bool.not_true, Bool.false_eq_true, if_false, if_true,
        Option.isSome_some, Bool.true_and, hshift]
      cases source with
      | some k => simp
      | none => simpa using ih (i + 1) (some node) none
    | false =>
      have hother : (node.workerId != newWorkerId) = true := by rw [bne, hnew]; rfl
      simp only [hother, Bool.true_and, Bool.not_false, Bool.false_eq_true, if_false]
      cases source with
      | some k =>
        simp only [Option.isNone_some, Bool.false_and, Bool.false_eq_true, if_false,
          Option.isSome_some, Bool.and_true, Option.some_or]
        split
        · rfl
        · rw [ih, Option.some_or]
      | none =>
        cases hready : node.selectable with
        | true =>
          simp only [Option.isNone_none, if_true, Option.isSome_some, Bool.and_true,
            Option.none_or]
          split
          · simp
          · rw [ih, Option.some_or]
            simp
        | false =>
          simp only [Option.isNone_none, Bool.and_false, Bool.false_eq_true, if_false,
            Option.isSome_none, Option.none_or, hshift]
          rw [ih, Option.none_or]

/-! ## What is tried -/

section Broadcast

variable {list : WorkerList} {newWorker : WorkerNode}

/-- A node that the second loop sends to, if it is not the new one. -/
def reachable (node : WorkerNode) : Bool := node.isConnected && node.workerSocket.isSome

/-- The WORKER_ENTRY of a node. -/
def entryMessage (newWorker : WorkerNode) (shouldExport : Bool) : Message :=
  ⟨MessageType.workerEntry.value,
    writeUInt32 newWorker.workerId.toUInt32 ++
      lengthPrefixed (newWorker.workerAddress.bytes.take (addressLength newWorker.workerAddress)) ++
      writeUInt16 newWorker.workerPeerPort.toUInt32.toUInt16 ++
      writeUInt8 (if shouldExport then 1 else 0)⟩

theorem entry_eq (newWorker : WorkerNode) (shouldExport : Bool) :
    newWorker.entry shouldExport = some (entryMessage newWorker shouldExport) := rfl

/-- What the second loop tries at a slot. -/
theorem attempt_eq_some {source : Option Nat} {answers : Nat → Nat → SocketAnswer}
    {newWorkerId : Int32} {slot : WorkerNode × Nat} {a : Attempt} :
    attempt newWorkerId newWorker source answers slot = some a ↔
      slot.1.workerId ≠ newWorkerId ∧ slot.1.isConnected = true ∧
        ∃ socket, slot.1.workerSocket = some socket ∧
          a = ⟨slot.1, socket, entryMessage newWorker (source == some slot.2),
            source == some slot.2,
            entrySent (answers slot.2) (entryMessage newWorker (source == some slot.2))⟩ := by
  unfold attempt
  by_cases hguard : slot.1.workerId ≠ newWorkerId ∧ slot.1.isConnected = true
  · cases hsocket : slot.1.workerSocket with
    | none => simp [guard, hguard]
    | some socket => simp [guard, hguard, entry_eq, eq_comm]
  · simp only [guard, if_neg hguard]
    constructor
    · exact nofun
    · rintro ⟨hid, hup, -⟩
      exact absurd ⟨hid, hup⟩ hguard

/-- **What a broadcast tries**, where the new worker is in the list. -/
theorem attempts_eq (hcount : list.count = list.nodes.length)
    (hnodup : (list.nodes.map WorkerNode.workerId).Nodup) (hnew : newWorker ∈ list.nodes)
    (answers : Nat → Nat → SocketAnswer) :
    (broadcastNewWorkerJoined list newWorker.workerId answers).2 =
      list.nodes.zipIdx.filterMap (attempt newWorker.workerId newWorker
        (firstReady list newWorker.workerId) answers) := by
  unfold broadcastNewWorkerJoined
  by_cases hone : list.count ≤ 1
  · -- the new worker is alone
    rw [if_pos hone]
    refine (List.filterMap_eq_nil_iff.mpr ?_).symm
    intro slot hslot
    obtain ⟨only, honly⟩ := List.length_eq_one_iff.mp
      (show list.nodes.length = 1 by have := List.length_pos_of_mem hnew; omega)
    have hmem := List.fst_mem_of_mem_zipIdx hslot
    rw [honly, List.mem_singleton] at hmem hnew
    cases hattempt : attempt newWorker.workerId newWorker (firstReady list newWorker.workerId)
        answers slot with
    | none => rfl
    | some a => exact absurd (by rw [hmem, hnew]) (attempt_eq_some.mp hattempt).1
  · rw [if_neg hone]
    obtain ⟨found, hfound, hcase⟩ :=
      WorkerList.findNewAndSource_fst 0 none none (Or.inr ⟨newWorker, hnew, rfl⟩)
    have hsource := findNewAndSource_source newWorker.workerId list.nodes 0 none none
    obtain ⟨hmem, hid⟩ := hcase.resolve_left nofun
    obtain rfl : found = newWorker := List.inj_on_of_nodup_map hnodup hmem hnew hid
    have hfirst : ((list.nodes.findIdx? fun node =>
        node.workerId != found.workerId && node.selectable).map (· + 0)) =
          firstReady list found.workerId := by
      simp [firstReady]
    rw [Option.none_or, hfirst] at hsource
    rw [show WorkerList.findNewAndSource found.workerId list.nodes 0 none none =
      (some found, firstReady list found.workerId) from Prod.ext hfound hsource]

/-! ## The promise -/

/-- **The promise of a broadcast**: the entry of the new worker is tried once
for every other worker that is connected and for no other, the flag is in at
most one entry and that goes to a ready worker, and when a ready worker gets
an entry then one entry with the flag gets through. -/
structure Delegates (list : WorkerList) (newWorker : WorkerNode) (attempts : List Attempt) :
    Prop where
  once : attempts.map Attempt.worker = list.nodes.filter fun node =>
    node.workerId != newWorker.workerId && reachable node
  entries : ∀ a ∈ attempts, a.worker.workerSocket = some a.socket ∧
    newWorker.entry a.shouldExport = some a.message
  flagged_le_one : attempts.countP Attempt.shouldExport ≤ 1
  ready_of_flagged : ∀ a ∈ attempts, a.shouldExport = true → a.worker.isReady = true
  exported : (∃ a ∈ attempts, a.worker.isReady = true ∧ a.delivered = true) →
    (attempts.countP fun a => a.shouldExport && a.delivered) = 1

/-- The node at an index is another worker that is ready and can be sent
to. -/
def ReadyAt (list : WorkerList) (newWorker : WorkerNode) (i : Nat) : Prop :=
  ∃ node, list.nodes[i]? = some node ∧ node.workerId ≠ newWorker.workerId ∧
    node.isReady = true ∧ reachable node = true

/-- The send to a node succeeds; the first ready one is sent the flag. -/
def SentAt (list : WorkerList) (newWorker : WorkerNode) (answers : Nat → Nat → SocketAnswer)
    (i : Nat) : Prop :=
  entrySent (answers i) (entryMessage newWorker
    (firstReady list newWorker.workerId == some i)) = true

/-- **What it takes**: the send to the first ready worker succeeds, or that
to no ready worker does. -/
def Reached (list : WorkerList) (newWorker : WorkerNode) (answers : Nat → Nat → SocketAnswer) :
    Prop :=
  (∃ i, firstReady list newWorker.workerId = some i ∧ ReadyAt list newWorker i ∧
      SentAt list newWorker answers i) ∨
    ∀ i, ReadyAt list newWorker i → ¬ SentAt list newWorker answers i

/-- The first ready worker is another one, and ready. -/
theorem firstReady_spec {newWorkerId : Int32} {i : Nat} (h : firstReady list newWorkerId = some i) :
    ∃ node, list.nodes[i]? = some node ∧ node.workerId ≠ newWorkerId ∧
      node.isConnected = true ∧ node.isReady = true := by
  obtain ⟨hi, hnode, -⟩ := List.findIdx?_eq_some_iff_getElem.mp h
  refine ⟨list.nodes[i], List.getElem?_eq_getElem hi, ?_⟩
  simpa [WorkerNode.selectable, and_assoc] using hnode

/-- The attempts, one by one. -/
theorem mem_attempts {answers : Nat → Nat → SocketAnswer} {a : Attempt} :
    a ∈ list.nodes.zipIdx.filterMap (attempt newWorker.workerId newWorker
        (firstReady list newWorker.workerId) answers) ↔
      ∃ i, list.nodes[i]? = some a.worker ∧ a.worker.workerId ≠ newWorker.workerId ∧
        a.worker.isConnected = true ∧ a.worker.workerSocket = some a.socket ∧
        a.shouldExport = (firstReady list newWorker.workerId == some i) ∧
        a.message = entryMessage newWorker a.shouldExport ∧
        a.delivered = entrySent (answers i) a.message := by
  constructor
  · intro hmem
    obtain ⟨⟨node, i⟩, hslot, hattempt⟩ := List.mem_filterMap.mp hmem
    obtain ⟨hid, hup, socket, hsocket, rfl⟩ := attempt_eq_some.mp hattempt
    exact ⟨i, List.mem_zipIdx_iff_getElem?.mp hslot, hid, hup, hsocket, rfl, rfl, rfl⟩
  · rintro ⟨i, hnode, hid, hup, hsocket, hflag, hmessage, hsent⟩
    refine List.mem_filterMap.mpr ⟨(a.worker, i), List.mem_zipIdx_iff_getElem?.mpr hnode, ?_⟩
    refine attempt_eq_some.mpr ⟨hid, hup, a.socket, hsocket, ?_⟩
    obtain ⟨worker, socket, message, shouldExport, delivered⟩ := a
    simp only at hflag hmessage hsent
    rw [← hflag, ← hmessage, ← hsent]

variable (list newWorker) in
/-- An entry that a ready worker got. -/
theorem exists_ready_iff (answers : Nat → Nat → SocketAnswer) (flagged : Bool) :
    (∃ a ∈ list.nodes.zipIdx.filterMap (attempt newWorker.workerId newWorker
        (firstReady list newWorker.workerId) answers),
        a.worker.isReady = true ∧ (flagged = true → a.shouldExport = true) ∧
          a.delivered = true) ↔
      ∃ i, ReadyAt list newWorker i ∧
        (flagged = true → firstReady list newWorker.workerId = some i) ∧
        SentAt list newWorker answers i := by
  constructor
  · rintro ⟨a, hmem, hready, hflag, hdelivered⟩
    obtain ⟨i, hnode, hid, hup, hsocket, hexport, hmessage, hsent⟩ := mem_attempts.mp hmem
    refine ⟨i, ⟨a.worker, hnode, hid, hready, ?_⟩, ?_, ?_⟩
    · simp [reachable, hup, hsocket]
    · intro hflagged
      have := hflag hflagged
      rwa [hexport, beq_iff_eq] at this
    · rw [SentAt, ← hexport, ← hmessage, ← hsent, hdelivered]
  · rintro ⟨i, ⟨node, hnode, hid, hready, hreachable⟩, hfirst, hsent⟩
    obtain ⟨hup, hsome⟩ := Bool.and_eq_true_iff.mp hreachable
    obtain ⟨socket, hsocket⟩ := Option.isSome_iff_exists.mp hsome
    refine ⟨⟨node, socket, _, _, _⟩, mem_attempts.mpr ⟨i, hnode, hid, hup, hsocket, rfl, rfl, rfl⟩,
      hready, ?_, hsent⟩
    intro hflagged
    simp [hfirst hflagged]

variable (list newWorker) in
/-- The flag is in one entry at most: indices are distinct. -/
theorem countP_shouldExport_le (source : Option Nat) (answers : Nat → Nat → SocketAnswer)
    (newWorkerId : Int32) :
    (list.nodes.zipIdx.filterMap (attempt newWorkerId newWorker source answers)).countP
      Attempt.shouldExport ≤ 1 := by
  cases source with
  | none =>
    have hzero : (list.nodes.zipIdx.filterMap
        (attempt newWorkerId newWorker none answers)).countP Attempt.shouldExport = 0 := by
      refine List.countP_eq_zero.mpr ?_
      intro a hmem
      obtain ⟨slot, -, hattempt⟩ := List.mem_filterMap.mp hmem
      obtain ⟨-, -, socket, -, rfl⟩ := attempt_eq_some.mp hattempt
      exact Bool.false_ne_true
    omega
  | some k =>
    have hcount : (list.nodes.zipIdx.filterMap
        (attempt newWorkerId newWorker (some k) answers)).countP Attempt.shouldExport ≤
          list.nodes.zipIdx.countP fun slot => slot.2 == k := by
      rw [List.countP_filterMap]
      refine List.countP_mono_left ?_
      intro slot _ hflag
      cases hattempt : attempt newWorkerId newWorker (some k) answers slot with
      | none => simp [hattempt] at hflag
      | some a =>
        obtain ⟨-, -, socket, -, rfl⟩ := attempt_eq_some.mp hattempt
        rw [hattempt] at hflag
        have hsame : (some k == some slot.2) = true := hflag
        exact beq_iff_eq.mpr (Option.some.inj (beq_iff_eq.mp hsame)).symm
    have hindex : (list.nodes.zipIdx.countP fun slot => slot.2 == k) =
        (list.nodes.zipIdx.map Prod.snd).count k := by
      rw [List.count, List.countP_map]
      rfl
    have hnodup : (list.nodes.zipIdx.map Prod.snd).Nodup := by
      rw [List.zipIdx_map_snd]
      exact List.nodup_range'
    rw [hindex] at hcount
    exact hcount.trans (List.nodup_iff_count_le_one.mp hnodup k)

/-- The sends go to the other connected workers, one each, in their order. -/
theorem map_worker_attempts (source : Option Nat) (answers : Nat → Nat → SocketAnswer) :
    (list.nodes.zipIdx.filterMap (attempt newWorker.workerId newWorker source answers)).map
        Attempt.worker =
      list.nodes.filter fun node => node.workerId != newWorker.workerId && reachable node := by
  have hslots : list.nodes = list.nodes.zipIdx.map Prod.fst := (List.zipIdx_map_fst 0 _).symm
  rw [List.map_filterMap, ← List.filterMap_eq_filter]
  conv_rhs => rw [hslots]
  rw [List.filterMap_map]
  refine List.filterMap_congr ?_
  intro slot _
  cases hattempt : attempt newWorker.workerId newWorker source answers slot with
  | some a =>
    obtain ⟨hid, hup, socket, hsocket, rfl⟩ := attempt_eq_some.mp hattempt
    simp [Option.guard, hid, reachable, hup, hsocket]
  | none =>
    have hskipped : (slot.1.workerId != newWorker.workerId && reachable slot.1) = false := by
      by_contra hreachable
      obtain ⟨hid, hboth⟩ := Bool.and_eq_true_iff.mp (Bool.eq_true_of_not_eq_false hreachable)
      obtain ⟨hup, hsome⟩ := Bool.and_eq_true_iff.mp hboth
      obtain ⟨socket, hsocket⟩ := Option.isSome_iff_exists.mp hsome
      have htried : attempt newWorker.workerId newWorker source answers slot = some _ :=
        attempt_eq_some.mpr ⟨bne_iff_ne.mp hid, hup, socket, hsocket, rfl⟩
      rw [hattempt] at htried
      cases htried
    simp [Option.guard, hskipped]

/-- **When a broadcast delegates the export**: when the first ready worker is
sent its entry, or no ready worker is. All else of the promise it keeps in
any case. -/
theorem delegates_iff (hcount : list.count = list.nodes.length)
    (hnodup : (list.nodes.map WorkerNode.workerId).Nodup) (hnew : newWorker ∈ list.nodes)
    (answers : Nat → Nat → SocketAnswer) :
    Delegates list newWorker
        (broadcastNewWorkerJoined list newWorker.workerId answers).2 ↔
      Reached list newWorker answers := by
  rw [attempts_eq hcount hnodup hnew]
  have hone := countP_shouldExport_le list newWorker (firstReady list newWorker.workerId) answers
    newWorker.workerId
  have hready : ∀ a ∈ list.nodes.zipIdx.filterMap (attempt newWorker.workerId newWorker
      (firstReady list newWorker.workerId) answers),
      a.shouldExport = true → a.worker.isReady = true := by
    intro a hmem hflag
    obtain ⟨i, hnode, -, -, -, hexport, -⟩ := mem_attempts.mp hmem
    rw [hexport, beq_iff_eq] at hflag
    obtain ⟨node, hsource, -, -, hnodeReady⟩ := firstReady_spec hflag
    rw [hnode] at hsource
    exact Option.some.inj hsource ▸ hnodeReady
  have hsome := exists_ready_iff list newWorker answers false
  have hflagged := exists_ready_iff list newWorker answers true
  simp only [Bool.false_eq_true, false_implies, true_and, forall_const] at hsome hflagged
  generalize hattempts : list.nodes.zipIdx.filterMap (attempt newWorker.workerId newWorker
    (firstReady list newWorker.workerId) answers) = attempts at *
  -- at most one entry has the flag, so one that gets through is the only one
  have hexactly : (attempts.countP fun a => a.shouldExport && a.delivered) = 1 ↔
      ∃ i, ReadyAt list newWorker i ∧ firstReady list newWorker.workerId = some i ∧
        SentAt list newWorker answers i := by
    have hle : (attempts.countP fun a => a.shouldExport && a.delivered) ≤ 1 :=
      (List.countP_mono_left fun a _ hboth => (Bool.and_eq_true_iff.mp hboth).1).trans hone
    have hpos : 0 < (attempts.countP fun a => a.shouldExport && a.delivered) ↔
        ∃ a ∈ attempts, a.worker.isReady = true ∧ a.shouldExport = true ∧ a.delivered = true := by
      rw [List.countP_pos_iff]
      constructor
      · rintro ⟨a, hmem, hboth⟩
        obtain ⟨hflag, hdelivered⟩ := Bool.and_eq_true_iff.mp hboth
        exact ⟨a, hmem, hready a hmem hflag, hflag, hdelivered⟩
      · rintro ⟨a, hmem, -, hflag, hdelivered⟩
        exact ⟨a, hmem, Bool.and_eq_true_iff.mpr ⟨hflag, hdelivered⟩⟩
    rw [← hflagged, ← hpos]
    omega
  constructor
  · intro hdelegates
    by_cases hnone : ∀ i, ReadyAt list newWorker i → ¬ SentAt list newWorker answers i
    · exact Or.inr hnone
    · push Not at hnone
      obtain ⟨i, hi, hfirst, hsent⟩ := hexactly.mp (hdelegates.exported (hsome.mpr hnone))
      exact Or.inl ⟨i, hfirst, hi, hsent⟩
  · intro hreached
    refine ⟨?_, ?_, hone, hready, ?_⟩
    · rw [← hattempts, map_worker_attempts]
    · intro a hmem
      rw [← hattempts] at hmem
      obtain ⟨i, -, -, -, hsocket, -, hmessage, -⟩ := mem_attempts.mp hmem
      exact ⟨hsocket, by rw [entry_eq, hmessage]⟩
    · intro hgot
      obtain ⟨j, hj, hjsent⟩ := hsome.mp hgot
      rcases hreached with ⟨i, hfirst, hi, hsent⟩ | hnone
      · exact hexactly.mpr ⟨i, hi, hfirst, hsent⟩
      · exact absurd hjsent (hnone j hj)

end Broadcast

/-- A worker on the socket of the same number. -/
def readyWorker (workerId : Int32) : WorkerNode :=
  ⟨workerId, some workerId.toNatClampNeg, .ofString "10.0.0.1", 7000, true, true⟩

/-- Workers 1 and 2, and a new worker 3. -/
def threeWorkers : WorkerList :=
  ⟨[readyWorker 1, readyWorker 2, readyWorker 3], 0, 3, ⟨3, by decide⟩, ⟨5, by decide⟩⟩

/-- The connection to the first node is reset, the others take every byte. -/
def firstReset : Nat → Nat → SocketAnswer
  | 0, _ => .error .connReset
  | _, _ => .count 1024

theorem entrySent_reset (message : Message) (h : message.payload.length ≤ maxMessageSize) :
    entrySent (firstReset 0) message = false := by
  unfold entrySent
  rw [protocolSend_error h (by decide) rfl]
  rfl

theorem entrySent_other (i : Nat) (message : Message)
    (h : message.payload.length ≤ maxMessageSize) :
    entrySent (firstReset (i + 1)) message = true := by
  have hhealthy : Healthy (firstReset (i + 1)) :=
    ⟨fun _ => Or.inr ⟨1024, by decide, rfl⟩, fun _ => ⟨0, by decide, nofun⟩⟩
  obtain ⟨calls, hframe⟩ := protocolSend_healthy hhealthy h ⟨0, []⟩
  unfold entrySent
  rw [hframe, headerSize]
  simp only [decide_eq_true_eq]
  omega

/-- Where every connection works, worker 1 is to export. -/
theorem delegates_iff_healthy :
    Delegates threeWorkers (readyWorker 3)
        (broadcastNewWorkerJoined threeWorkers 3 fun i => firstReset (i + 1)).2 := by
  have hnew : readyWorker 3 ∈ threeWorkers.nodes := by decide
  refine (delegates_iff rfl (by decide) hnew fun i => firstReset (i + 1)).mpr
    (Or.inl ⟨0, by decide, ?_, ?_⟩)
  · exact ⟨readyWorker 1, rfl, by decide, rfl, rfl⟩
  · exact entrySent_other 0 _ (by decide)

/-- **A lost connection leaves the new worker without data**: worker 1 was
to export and does not hear of it; worker 2, which is ready as well, gets
its entry without the flag. -/
theorem lost_delegation :
    ¬ ∀ (list : WorkerList) (newWorker : WorkerNode) (answers : Nat → Nat → SocketAnswer),
      list.count = list.nodes.length → (list.nodes.map WorkerNode.workerId).Nodup →
      newWorker ∈ list.nodes →
      Delegates list newWorker (broadcastNewWorkerJoined list newWorker.workerId answers).2 := by
  intro hall
  have hnew : readyWorker 3 ∈ threeWorkers.nodes := by decide
  have hreached := (delegates_iff rfl (by decide) hnew firstReset).mp
    (hall threeWorkers (readyWorker 3) firstReset rfl (by decide) hnew)
  have hfirst : firstReady threeWorkers (readyWorker 3).workerId = some 0 := by decide
  rcases hreached with ⟨i, hi, -, hsent⟩ | hnone
  · obtain rfl : 0 = i := Option.some.inj (hfirst.symm.trans hi)
    unfold SentAt at hsent
    rw [entrySent_reset _ (by decide)] at hsent
    cases hsent
  · refine hnone 1 ⟨readyWorker 2, rfl, by decide, rfl, rfl⟩ ?_
    exact entrySent_other 0 _ (by decide)

end LoadBalancing.LoadBalancer.ExportDelegation
