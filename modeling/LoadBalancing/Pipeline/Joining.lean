/-
LoadBalancing.Pipeline.Joining — a new worker joins connected workers.

The load balancer sends each of its workers the WORKER_ENTRY of the new
one and tells the first of them to export its table
(`BroadcastNewWorkerJoined`); the new worker gets the entries of all
(`SendWorkerRegistryToSingleWorker`). Each worker comes to know the new
one when its receiver thread reads the entry, and only from then on does
it notify it of what it stores. What a listener stores nobody is notified
of.

So a key gets to the new worker by a notification or by the export, and
there is a gap between the two: a worker that has not read its entry
stores a key after the export has gone past the bucket, or its
notification reaches the source too late. `Overlaps` is the condition that
a step leaves no gap. `newcomer_complete`: in a run whose steps all meet
it, the new worker has every key once everything has been processed.
`key_in_the_gap` is a run of three workers in which it misses one.

Out of scope: connects and sends that fail, and what the threads send to
the load balancer.

No `sorry`, no `axiom`, no `native_decide`.
-/
import LoadBalancing.LoadBalancer.WorkerList
import LoadBalancing.Worker.ExportThread

namespace LoadBalancing.Pipeline.Joining

open LoadBalancing.Base LoadBalancing.Lib LoadBalancing.LoadBalancer LoadBalancing.Worker

/-! ## The workers -/

/-- The list of the load balancer when it announces a new worker: the
worker itself and at least one other, all connected and ready, each with
an id and a socket of its own. A worker's number is its index. -/
structure Roster where
  list : WorkerList
  newWorkerId : Int32
  newcomer : Nat
  count_eq : list.count = list.nodes.length
  length_le : list.nodes.length ≤ maxWorkers
  others : 2 ≤ list.nodes.length
  selectable : ∀ node ∈ list.nodes, node.selectable = true
  ids_nodup : (list.nodes.map WorkerNode.workerId).Nodup
  sockets_some : ∀ node ∈ list.nodes, node.workerSocket ≠ none
  sockets_nodup : (list.nodes.map WorkerNode.workerSocket).Nodup
  indexOf_new : list.indexOf newWorkerId = some newcomer

namespace Roster

/-- The worker that `BroadcastNewWorkerJoined` tells to export. -/
def source (r : Roster) : Nat :=
  (WorkerList.findNewAndSource r.newWorkerId r.list.nodes 0 none none).2.getD 0

/-- The worker at the other end of a socket. -/
def workerOn (r : Roster) (socket : Socket) : Option Nat :=
  r.list.nodes.findIdx? fun node => node.workerSocket == some socket

/-- What the handler of the new worker sends, in its two calls. -/
def announcements (r : Roster) : List (Socket × Message) :=
  (r.list.broadcastNewWorkerJoined r.newWorkerId).2 ++
    (r.list.sendWorkerRegistryToSingleWorker r.newWorkerId).2

/-- What a message of the load balancer asks a receiver thread for; `none`
for a message it only logs. `allocated` is the answer of the `malloc`s. -/
def request? (r : Roster) (message : Message) (allocated : Bool) : Option Worker.Request :=
  match MessageType.ofValue? message.type with
  | some .storeRequest => some (.storeRequest message.payload allocated)
  | some .workerEntry =>
    match receiveWorkerEntry message.payload with
    | .accept (workerId, _, _, shouldExportData) =>
      (r.list.indexOf workerId.toInt32).map fun worker =>
        .workerEntry worker (shouldExportData != 0)
    | _ => none
  | _ => none

end Roster

/-! ## Steps -/

/-- The workers, what the load balancer has sent to each and what it has
still to send of the announcement, and the entries the receiver threads
have stored, which no step reads. -/
structure State where
  cluster : Cluster
  inbox : Nat → List Message
  announcing : List (Socket × Message)
  stored : List (CString × CString)

/-- One step: the load balancer sends a STORE_REQUEST or the next message
of the announcement, a receiver thread takes a message, or another thread
of a worker moves. -/
inductive Label where
  | dispatch (w : Nat) (payload : List UInt8)
  | announce
  | receive (w : Nat) (allocated : Bool)
  | work (l : Worker.Label)
  deriving DecidableEq

namespace State

/-- A message of the load balancer goes behind the others. -/
def put (s : State) (w : Nat) (message : Message) : State :=
  { s with inbox := Function.update s.inbox w (s.inbox w ++ [message]) }

/-- What is left to read. -/
def setInbox (s : State) (w : Nat) (rest : List Message) : State :=
  { s with inbox := Function.update s.inbox w rest }

/-- The entry a worker stores for a request. -/
def storedBy (s : State) (w : Nat) : Worker.Request → List (CString × CString)
  | .storeRequest payload allocated =>
    match storeRequest? payload with
    | some request =>
      if (setHashTable (s.cluster.node w).table request.key request.value allocated).1 = 1 then
        [(request.key, request.value)]
      else []
    | none => []
  | .workerEntry _ _ => []

end State

/-- One step. -/
def step (d : Delivery) (r : Roster) (s : State) : Label → Option State
  | .dispatch w payload =>
    if w < s.cluster.size then some (s.put w ⟨MessageType.storeRequest.value, payload⟩) else none
  | .announce =>
    match s.announcing with
    | [] => none
    | (socket, message) :: rest =>
      (r.workerOn socket).map fun w => { s.put w message with announcing := rest }
  | .receive w allocated =>
    match s.inbox w with
    | [] => none
    | message :: rest =>
      match r.request? message allocated with
      | none =>
        if w < s.cluster.size ∧ (s.cluster.node w).receiver = .idle then some (s.setInbox w rest)
        else none
      | some request =>
        (Cluster.step d s.cluster (.receive w request)).map fun cluster =>
          { s.setInbox w rest with
            cluster := cluster
            stored := s.stored ++ s.storedBy w request }
  | .work (.receive _ _) => none
  | .work l => (Cluster.step d s.cluster l).map fun cluster => { s with cluster := cluster }

/-- Workers that are connected to one another, hold the entries stored and
have nothing under way, and a new one that none of them knows. -/
structure Ready (r : Roster) (s : State) : Prop where
  size_eq : s.cluster.size = r.list.nodes.length
  connected : ∀ i < s.cluster.size, ∀ j < s.cluster.size, i ≠ r.newcomer → j ≠ r.newcomer →
    i ≠ j → j ∈ (s.cluster.node i).peers
  peers_nodup : ∀ i, (s.cluster.node i).peers.Nodup
  peers_lt : ∀ i, ∀ j ∈ (s.cluster.node i).peers, j < s.cluster.size ∧ j ≠ i ∧ j ≠ r.newcomer
  fresh : s.cluster.node r.newcomer = Node.fresh
  valid : ∀ key value, (key, value) ∈ s.stored →
    validateKey key = true ∧ validateValue value = true
  tables : ∀ i key held, lookup (s.cluster.node i).table key = some held →
    ∃ value, held = some value ∧ (key, value) ∈ s.stored
  complete : ∀ key value, (key, value) ∈ s.stored → ∀ i < s.cluster.size, i ≠ r.newcomer →
    lookup (s.cluster.node i).table key ≠ none
  receivers : ∀ i, (s.cluster.node i).receiver = .idle
  listeners : ∀ i, (s.cluster.node i).listener = .idle
  exporters : ∀ i, (s.cluster.node i).exporter = .idle
  exportQueues : ∀ i, (s.cluster.node i).exportQueue = []
  channels : ∀ c, s.cluster.channel c = []
  inboxes : ∀ i, s.inbox i = []
  announcing_eq : s.announcing = r.announcements

/-- Every request, entry, notification and export message has been
processed. -/
def State.Processed (s : State) : Prop :=
  s.announcing = [] ∧ s.cluster.Processed ∧ ∀ w < s.cluster.size, s.inbox w = [] ∧
    (s.cluster.node w).exportQueue = [] ∧ (s.cluster.node w).exporter = .idle

instance (s : State) : Decidable s.Processed :=
  inferInstanceAs (Decidable (_ ∧ _ ∧ ∀ w < s.cluster.size, _ ∧ _ ∧ _))

/-! ## The gap -/

/-- A message asks for an export. -/
def Roster.asksExport (r : Roster) (message : Message) : Bool :=
  match r.request? message true with
  | some (.workerEntry _ shouldExportData) => shouldExportData
  | _ => false

/-- The requests for an export that the source has not read yet. -/
def Roster.asked (r : Roster) (s : State) : List Message :=
  (s.inbox r.source ++ s.announcing.filterMap fun (socket, message) =>
    if r.workerOn socket = some r.source then some message else none).filter r.asksExport

/-- The export has not come to a bucket yet. -/
def Roster.Ahead (r : Roster) (s : State) (bucket : Nat) : Prop :=
  r.asked s ≠ [] ∨ (s.cluster.node r.source).exportQueue ≠ [] ∨
    (s.cluster.node r.source).exporter.Ahead bucket

instance (r : Roster) (s : State) (bucket : Nat) : Decidable (r.Ahead s bucket) :=
  inferInstanceAs (Decidable (_ ∨ _ ∨ _))

/-- The entry that a worker is about to store for the load balancer. -/
def Roster.nextStore (r : Roster) (s : State) (w : Nat) : Option (CString × CString) := do
  let message ← (s.inbox w).head?
  let request ← r.request? message true
  Worker.Label.stored? (.receive w request)

/-- The condition on a step that leaves no gap between the export and the
notifications. Allocations succeed; a worker that stores a key is the new
one or knows it, or the export has not come to the key's bucket; when the
export copies a bucket, each key of it stored so far is at the source, or
at the new worker or on its way there; and when it ends because it counted
nothing, each key is at the new worker or on its way there. -/
def Overlaps (r : Roster) (s : State) : Label → Prop
  | .receive w allocated => allocated = true ∧
    ∀ entry ∈ r.nextStore s w, w = r.newcomer ∨ r.newcomer ∈ (s.cluster.node w).peers ∨
      r.Ahead s (hashFunction entry.1)
  | .work (.storePeerData _ allocated) => allocated = true
  | .work (.runExport w) => w = r.source →
    match (s.cluster.node r.source).exporter with
    | .counting _ bucket 0 => workerHashTableBucketCount ≤ bucket →
      ∀ entry ∈ s.stored, s.cluster.Reaches r.newcomer entry.1
    | .scanning _ bucket => ∀ entry ∈ s.stored, (hashFunction entry.1).val = bucket →
      lookup (s.cluster.node r.source).table entry.1 ≠ none ∨
        s.cluster.Reaches r.newcomer entry.1
    | _ => True
  | _ => True

instance (r : Roster) (s : State) (l : Label) : Decidable (Overlaps r s l) := by
  unfold Overlaps
  split <;> first | infer_instance | (split <;> infer_instance)

/-! ## What the announcement asks for -/

namespace Roster

variable (r : Roster)

@[simp] theorem request?_store (payload : List UInt8) (allocated : Bool) :
    r.request? ⟨MessageType.storeRequest.value, payload⟩ allocated
      = some (.storeRequest payload allocated) := by
  simp [request?]

/-- An entry asks for the worker with its id. -/
theorem request?_entry {node : WorkerNode} {shouldExport : Bool} {message : Message}
    (h : node.entry shouldExport = some message) (allocated : Bool) :
    r.request? message allocated = (r.list.indexOf node.workerId).map fun worker =>
      .workerEntry worker shouldExport := by
  unfold WorkerNode.entry sendWorkerEntry at h
  cases h
  have hlen : (node.workerAddress.bytes.take (addressLength node.workerAddress)).length ≤ 255 := by
    have hclamp : addressLength node.workerAddress ≤ 255 := Nat.min_le_right _ _
    exact (List.length_take_le _ _).trans hclamp
  have hdec := (receiveWorkerEntry_eq_accept
    (writeUInt32 node.workerId.toUInt32 ++
      lengthPrefixed (node.workerAddress.bytes.take (addressLength node.workerAddress)) ++
      writeUInt16 node.workerPeerPort.toUInt32.toUInt16 ++
      writeUInt8 (if shouldExport then 1 else 0)) node.workerId.toUInt32
    (node.workerAddress.bytes.take (addressLength node.workerAddress))
    node.workerPeerPort.toUInt32.toUInt16 (if shouldExport then 1 else 0)).mpr
    ⟨hlen, [], by simp only [List.append_nil, List.append_assoc]⟩
  simp only [request?, MessageType.ofValue?_value, hdec, Int32.toInt32_toUInt32]
  cases shouldExport <;> rfl

/-- A socket of the list stands for its node's worker alone. -/
theorem workerOn_eq {i : Nat} {node : WorkerNode} {socket : Socket}
    (hnode : r.list.nodes[i]? = some node) (hsocket : node.workerSocket = some socket) :
    r.workerOn socket = some i := by
  obtain ⟨hi, rfl⟩ := List.getElem?_eq_some_iff.mp hnode
  refine List.findIdx?_eq_some_iff_getElem.mpr ⟨hi, by simp [hsocket], ?_⟩
  intro j hj hfound
  have hsame : (r.list.nodes.map WorkerNode.workerSocket)[j]? =
      (r.list.nodes.map WorkerNode.workerSocket)[i]? := by
    have hjlt : j < r.list.nodes.length := hj.trans hi
    simp only [List.getElem?_map, List.getElem?_eq_getElem hjlt, List.getElem?_eq_getElem hi,
      Option.map_some, hsocket]
    simpa using hfound
  have hlt : j < (r.list.nodes.map WorkerNode.workerSocket).length := by
    rw [List.length_map]
    omega
  have heq := (List.getElem?_inj hlt r.sockets_nodup).mp hsame
  omega

/-- The new worker's node. -/
theorem newcomer_spec :
    ∃ node, r.list.nodes[r.newcomer]? = some node ∧ node.workerId = r.newWorkerId :=
  WorkerList.exists_of_indexOf r.indexOf_new

/-- Two nodes have two ids, so one of them is not the new worker's. -/
theorem exists_other : ∃ node ∈ r.list.nodes, node.workerId ≠ r.newWorkerId ∧
    node.selectable = true := by
  have htwo := r.others
  have hnodup := r.ids_nodup
  have hselectable := r.selectable
  match hnodes : r.list.nodes with
  | [] => simp [hnodes] at htwo
  | [_] => simp [hnodes] at htwo
  | a :: b :: rest =>
    rw [hnodes] at hnodup hselectable
    by_cases ha : a.workerId = r.newWorkerId
    · refine ⟨b, by simp, ?_, hselectable b (by simp)⟩
      intro hb
      simp [ha, hb] at hnodup
    · exact ⟨a, by simp, ha, hselectable a (by simp)⟩

/-- The source is a worker of the list and not the new one. -/
theorem source_spec :
    (WorkerList.findNewAndSource r.newWorkerId r.list.nodes 0 none none).2 = some r.source ∧
      ∃ node, r.list.nodes[r.source]? = some node ∧ node.workerId ≠ r.newWorkerId := by
  obtain ⟨k, hk, hcase⟩ := WorkerList.findNewAndSource_snd 0 none none (Or.inr r.exists_other)
  have hsource : r.source = k := by rw [source, hk, Option.getD_some]
  rcases hcase with hnone | ⟨j, node, hnode, hne, hj⟩
  · cases hnone
  · obtain rfl : k = j := by omega
    rw [hsource]
    exact ⟨hk, node, hnode, hne⟩

theorem source_ne_newcomer : r.source ≠ r.newcomer := by
  obtain ⟨-, node, hnode, hne⟩ := r.source_spec
  obtain ⟨new, hnew, hid⟩ := r.newcomer_spec
  intro heq
  rw [heq, hnew] at hnode
  cases hnode
  exact hne hid

theorem source_lt : r.source < r.list.nodes.length := by
  obtain ⟨-, node, hnode, -⟩ := r.source_spec
  exact (List.getElem?_eq_some_iff.mp hnode).1

/-- Of the new worker's id there is one node. -/
theorem index_eq_newcomer {node : WorkerNode} (hnode : node ∈ r.list.nodes)
    (hid : node.workerId = r.newWorkerId) : r.list.nodes[r.newcomer]? = some node := by
  obtain ⟨new, hnew, hnewId⟩ := r.newcomer_spec
  have hsame := List.inj_on_of_nodup_map r.ids_nodup (List.mem_of_getElem? hnew) hnode
    (hnewId.trans hid.symm)
  rw [hnew, hsame]

/-- The registry goes to the new worker. -/
theorem workerOn_registry {socket : Socket} {message : Message}
    (h : (socket, message) ∈ (r.list.sendWorkerRegistryToSingleWorker r.newWorkerId).2) :
    r.workerOn socket = some r.newcomer := by
  unfold WorkerList.sendWorkerRegistryToSingleWorker at h
  split at h
  · cases h
  · simp only at h
    split at h
    · cases h
    · rename_i target htarget
      have hmem := List.mem_of_getLast? htarget
      simp only [List.mem_filter, beq_iff_eq] at hmem
      have hnode := r.index_eq_newcomer (List.mem_of_mem_take hmem.1) hmem.2
      split at h
      · rename_i socket' hconnected hsocket
        simp only [WorkerList.sendWorkerRegistryEntries, List.mem_filterMap,
          Option.map_eq_some_iff, Prod.mk.injEq] at h
        obtain ⟨node, -, entry, -, rfl, -⟩ := h
        exact r.workerOn_eq hnode hsocket
      · cases h

/-- Of an indexed list one element is taken. -/
theorem filterMap_zipIdx_eq {α β : Type} {l : List α} {f : α × Nat → Option β} {j : Nat} {b : β}
    (k : Nat) (hother : ∀ i a, l[i]? = some a → k + i ≠ j → f (a, k + i) = none)
    (hself : ∃ i a, l[i]? = some a ∧ k + i = j ∧ f (a, k + i) = some b) :
    (l.zipIdx k).filterMap f = [b] := by
  induction l generalizing k with
  | nil =>
    obtain ⟨i, a, ha, -⟩ := hself
    cases ha
  | cons a l ih =>
    rw [List.zipIdx_cons, List.filterMap_cons]
    obtain ⟨i, a', ha', hij, hb⟩ := hself
    cases i with
    | zero =>
      cases ha'
      have hrest : (l.zipIdx (k + 1)).filterMap f = [] := by
        rw [List.filterMap_eq_nil_iff]
        rintro ⟨x, i⟩ hx
        obtain ⟨hle, hget⟩ := List.mk_mem_zipIdx_iff_le_and_getElem?_sub.mp hx
        have hnone := hother (i - (k + 1) + 1) x (by simpa using hget) (by omega)
        rwa [show k + (i - (k + 1) + 1) = i by omega] at hnone
      simp only [Nat.add_zero] at hb
      rw [hb, hrest]
    | succ i =>
      have hhead := hother 0 a rfl (by omega)
      simp only [Nat.add_zero] at hhead
      rw [hhead]
      refine ih (k + 1) ?_ ⟨i, a', by simpa using ha', by omega, ?_⟩
      · intro i' x hx hne
        have hnone := hother (i' + 1) x (by simpa using hx) (by omega)
        rwa [show k + (i' + 1) = k + 1 + i' by omega] at hnone
      · rwa [show k + (i + 1) = k + 1 + i by omega] at hb

/-- **The broadcast** asks the source, once, to export to the new
worker. -/
theorem asked_broadcast :
    ∃ message, r.request? message true = some (.workerEntry r.newcomer true) ∧
      (r.list.broadcastNewWorkerJoined r.newWorkerId).2.filterMap (fun (socket, message) =>
        if r.workerOn socket = some r.source then some message else none) = [message] := by
  obtain ⟨hsource, node, hnode, hne⟩ := r.source_spec
  obtain ⟨newNode, hnewNode, hnewId⟩ := r.newcomer_spec
  obtain ⟨new, hnew, hcase⟩ := WorkerList.findNewAndSource_fst 0 none none
    (Or.inr ⟨newNode, List.mem_of_getElem? hnewNode, hnewId⟩)
  have hid : new.workerId = r.newWorkerId := by
    rcases hcase with hnone | ⟨-, hid⟩
    · cases hnone
    · exact hid
  obtain ⟨message, hmessage⟩ : ∃ message, new.entry true = some message := ⟨_, rfl⟩
  have htwo : ¬r.list.count ≤ 1 := by
    have hothers := r.others
    rw [r.count_eq]
    omega
  refine ⟨message, ?_, ?_⟩
  · rw [r.request?_entry hmessage, hid, r.indexOf_new, Option.map_some]
  · have hfound : WorkerList.findNewAndSource r.newWorkerId r.list.nodes 0 none none
        = (some new, some r.source) := Prod.ext hnew hsource
    simp only [WorkerList.broadcastNewWorkerJoined, if_neg htwo, hfound, List.filterMap_filterMap]
    refine filterMap_zipIdx_eq (j := r.source) 0 ?_ ⟨r.source, node, hnode, by omega, ?_⟩
    · intro i x hx hi
      obtain ⟨socket, hsocket⟩ :=
        Option.ne_none_iff_exists'.mp (r.sockets_some x (List.mem_of_getElem? hx))
      have hnot : ¬r.workerOn socket = some r.source := by
        rw [r.workerOn_eq hx hsocket, Option.some.injEq]
        omega
      by_cases hguard : x.workerId ≠ r.newWorkerId ∧ x.isConnected = true
      · cases hentry : new.entry (some r.source == some (0 + i)) with
        | none => simp [hsocket, hguard]
        | some entry => simp [hsocket, hguard, hnot]
      · simp [hguard]
    · obtain ⟨socket, hsocket⟩ :=
        Option.ne_none_iff_exists'.mp (r.sockets_some node (List.mem_of_getElem? hnode))
      have hconnected : node.isConnected = true := by
        have hselectable := r.selectable node (List.mem_of_getElem? hnode)
        simp only [WorkerNode.selectable, Bool.and_eq_true] at hselectable
        exact hselectable.1
      simp [hne, hconnected, hsocket, hmessage, r.workerOn_eq hnode hsocket]

end Roster

/-! ## What a step can do -/

/-- The effects of a step. -/
inductive Move (d : Delivery) (r : Roster) (s : State) : Label → State → Prop
  | dispatched (w : Nat) (payload : List UInt8) :
      Move d r s (.dispatch w payload) (s.put w ⟨MessageType.storeRequest.value, payload⟩)
  | announced {socket : Socket} {message : Message} {rest : List (Socket × Message)} {w : Nat}
      (hannouncing : s.announcing = (socket, message) :: rest)
      (hworker : r.workerOn socket = some w) :
      Move d r s .announce { s.put w message with announcing := rest }
  | logged {w : Nat} (allocated : Bool) {message : Message} {rest : List Message}
      (hinbox : s.inbox w = message :: rest) (hrequest : r.request? message allocated = none) :
      Move d r s (.receive w allocated) (s.setInbox w rest)
  | received {w : Nat} {allocated : Bool} {message : Message} {rest : List Message}
      {request : Worker.Request} {cluster : Cluster} (hinbox : s.inbox w = message :: rest)
      (hrequest : r.request? message allocated = some request)
      (hmove : Cluster.Move d s.cluster (.receive w request) cluster) :
      Move d r s (.receive w allocated) { s.setInbox w rest with
        cluster := cluster
        stored := s.stored ++ s.storedBy w request }
  | worked {l : Worker.Label} {cluster : Cluster} (hl : ∀ w request, l ≠ .receive w request)
      (hmove : Cluster.Move d s.cluster l cluster)
      (hturn : ∀ w, l = .runExport w → ∃ queue place sent,
        ExportTurn (s.cluster.node w) queue place sent ∧
          cluster = s.cluster.exported w queue place sent) :
      Move d r s (.work l) { s with cluster := cluster }

/-- **Inversion.** A step is one of the moves. -/
theorem step_move {d : Delivery} {r : Roster} {s t : State} {l : Label}
    (h : step d r s l = some t) : Move d r s l t := by
  cases l with
  | dispatch w payload =>
    simp only [step] at h
    split at h
    · cases h
      exact .dispatched w payload
    · cases h
  | announce =>
    simp only [step] at h
    split at h
    · cases h
    · rename_i socket message rest hannouncing
      obtain ⟨w, hworker, rfl⟩ := Option.map_eq_some_iff.mp h
      exact .announced hannouncing hworker
  | receive w allocated =>
    simp only [step] at h
    split at h
    · cases h
    · rename_i message rest hinbox
      split at h
      · rename_i hrequest
        split at h
        · cases h
          exact .logged allocated hinbox hrequest
        · cases h
      · rename_i request hrequest
        obtain ⟨cluster, hstep, rfl⟩ := Option.map_eq_some_iff.mp h
        exact .received hinbox hrequest (Cluster.step_move hstep)
  | work l =>
    cases l with
    | receive w request => cases h
    | runExport w =>
      obtain ⟨cluster, hstep, rfl⟩ := Option.map_eq_some_iff.mp h
      refine .worked (fun x request hx => by cases hx) (Cluster.step_move hstep) ?_
      intro x hx
      cases hx
      simp only [Cluster.step] at hstep
      split at hstep
      · exact Cluster.exportStep_turn hstep
      · cases hstep
    | notify | accept | read | hangUp | storePeerData =>
      obtain ⟨cluster, hstep, rfl⟩ := Option.map_eq_some_iff.mp h
      exact .worked (fun x request hx => by cases hx) (Cluster.step_move hstep)
        (fun x hx => by cases hx)

section Asked

variable (r : Roster) {s : State}

/-- A message that asks for no export goes into an inbox. -/
theorem asked_put (w : Nat) {message : Message} (hasks : r.asksExport message = false) :
    r.asked (s.put w message) = r.asked s := by
  by_cases hw : w = r.source
  · subst hw
    simp [Roster.asked, State.put, hasks]
  · simp [Roster.asked, State.put, Function.update_of_ne (Ne.symm hw)]

/-- The announcement goes on. -/
theorem asked_announce {socket : Socket} {message : Message} {rest : List (Socket × Message)}
    {w : Nat} (hannouncing : s.announcing = (socket, message) :: rest)
    (hworker : r.workerOn socket = some w) :
    r.asked { s.put w message with announcing := rest } = r.asked s := by
  by_cases hw : w = r.source
  · subst hw
    simp [Roster.asked, State.put, hannouncing, hworker]
  · have hne : ¬r.source = w := fun heq => hw heq.symm
    simp [Roster.asked, State.put, hannouncing, hworker, hw, Function.update_of_ne hne]

/-- A message is read. -/
theorem asked_setInbox {w : Nat} {message : Message} {rest : List Message}
    (hinbox : s.inbox w = message :: rest) :
    r.asked s = if w = r.source ∧ r.asksExport message = true
      then message :: r.asked (s.setInbox w rest) else r.asked (s.setInbox w rest) := by
  by_cases hw : w = r.source
  · subst hw
    cases hasks : r.asksExport message <;>
      simp [Roster.asked, State.setInbox, hinbox, hasks]
  · have hne : ¬r.source = w := fun heq => hw heq.symm
    simp [Roster.asked, State.setInbox, hw, Function.update_of_ne hne]

end Asked

/-! ## The one export -/

/-- The export is asked for once; it is for the new worker, which the
source knows by then; and it sends values only. -/
structure Exporting (r : Roster) (s : State) : Prop where
  size_eq : s.cluster.size = r.list.nodes.length
  registered : s.cluster.Registered
  once : (r.asked s).length + (s.cluster.node r.source).exports ≤ 1
  named : ∀ message ∈ r.asked s,
    r.request? message true = some (.workerEntry r.newcomer true)
  queued : ∀ target ∈ (s.cluster.node r.source).exportQueue, target = r.newcomer
  target : ∀ target, (s.cluster.node r.source).exporter.target = some target →
    target = r.newcomer
  known : (s.cluster.node r.source).exports ≠ 0 →
    r.newcomer ∈ (s.cluster.node r.source).peers
  values : ∀ node ∈ (s.cluster.node r.source).exporter.nodes, ∃ value, node.2 = some value

section Exporting

variable {d : Delivery} {r : Roster} {s t : State} {l : Label}

/-- The announcement asks for one export. -/
theorem Ready.asked_eq (h : Ready r s) :
    ∃ message, r.asked s = [message] ∧
      r.request? message true = some (.workerEntry r.newcomer true) := by
  obtain ⟨message, hrequest, hbroadcast⟩ := r.asked_broadcast
  have hregistry : (r.list.sendWorkerRegistryToSingleWorker r.newWorkerId).2.filterMap
      (fun (socket, message) => if r.workerOn socket = some r.source then some message else none)
        = [] := by
    rw [List.filterMap_eq_nil_iff]
    rintro ⟨socket, m⟩ hm
    have hne : ¬r.newcomer = r.source := fun heq => r.source_ne_newcomer heq.symm
    simp [r.workerOn_registry hm, hne]
  refine ⟨message, ?_, hrequest⟩
  rw [Roster.asked, h.inboxes, h.announcing_eq, Roster.announcements, List.filterMap_append,
    hbroadcast, hregistry]
  simp [Roster.asksExport, hrequest]

theorem Ready.exporting (h : Ready r s) : Exporting r s := by
  obtain ⟨message, hasked, hrequest⟩ := h.asked_eq
  have hexports : (s.cluster.node r.source).exports = 0 := by
    simp [Node.exports, h.exportQueues, h.exporters, ExporterAt.target]
  refine ⟨h.size_eq, ?_, ?_, ?_, ?_, ?_, ?_, ?_⟩
  · intro w
    refine ⟨h.peers_nodup w, fun peer hpeer => ?_⟩
    obtain ⟨hlt, hne, -⟩ := h.peers_lt w peer hpeer
    exact ⟨hlt, hne⟩
  · rw [hasked, hexports]
    simp
  · intro m hm
    rw [hasked, List.mem_singleton] at hm
    rw [hm]
    exact hrequest
  · simp [h.exportQueues]
  · simp [h.exporters, ExporterAt.target]
  · intro hne
    exact absurd hexports hne
  · simp [h.exporters, ExporterAt.nodes]

/-- Nothing happens at the export thread of the source or its queue. -/
theorem Exporting.of_frame (h : Exporting r s) (hsize : t.cluster.size = s.cluster.size)
    (hregistered : t.cluster.Registered) (hasked : r.asked t = r.asked s)
    (hqueue : (t.cluster.node r.source).exportQueue = (s.cluster.node r.source).exportQueue)
    (hexporter : (t.cluster.node r.source).exporter = (s.cluster.node r.source).exporter)
    (hpeers : ∀ peer ∈ (s.cluster.node r.source).peers,
      peer ∈ (t.cluster.node r.source).peers) : Exporting r t := by
  have hexports : (t.cluster.node r.source).exports = (s.cluster.node r.source).exports := by
    rw [Node.exports, Node.exports, hqueue, hexporter]
  refine ⟨hsize.trans h.size_eq, hregistered, ?_, ?_, ?_, ?_, ?_, ?_⟩
  · rw [hasked, hexports]
    exact h.once
  · rw [hasked]
    exact h.named
  · rw [hqueue]
    exact h.queued
  · rw [hexporter]
    exact h.target
  · rw [hexports]
    exact fun hne => hpeers _ (h.known hne)
  · rw [hexporter]
    exact h.values

theorem asksExport_of_request {message : Message} {worker : Nat} {shouldExport : Bool}
    (hrequest : r.request? message true = some (.workerEntry worker shouldExport)) :
    r.asksExport message = shouldExport := by
  simp [Roster.asksExport, hrequest]

/-- A request not read yet is the only one, and no export is under way. -/
theorem Exporting.unread (h : Exporting r s) {message : Message} {rest : List Message}
    (hinbox : s.inbox r.source = message :: rest) (hasks : r.asksExport message = true) :
    r.asked (s.setInbox r.source rest) = [] ∧ (s.cluster.node r.source).exportQueue = [] ∧
      (s.cluster.node r.source).exporter.target = none := by
  have hasked := asked_setInbox r hinbox
  rw [if_pos ⟨rfl, hasks⟩] at hasked
  have honce := h.once
  rw [hasked, List.length_cons, Node.exports] at honce
  refine ⟨?_, ?_, ?_⟩
  · exact List.eq_nil_of_length_eq_zero (by omega)
  · exact List.eq_nil_of_length_eq_zero (by omega)
  · cases htarget : (s.cluster.node r.source).exporter.target with
    | none => rfl
    | some target =>
      rw [htarget, Option.toList_some, List.length_singleton] at honce
      omega

/-- **The request is read**: the new worker is a peer, and the request
finds room in the queue. -/
theorem Exporting.entry (h : Exporting r s) {message : Message} {rest : List Message}
    (hinbox : s.inbox r.source = message :: rest)
    (hrequest : r.request? message true = some (.workerEntry r.newcomer true)) :
    ((s.cluster.receiveEntry r.source r.newcomer true).node r.source).exportQueue
      = [r.newcomer] ∧
    Exporting r { s.setInbox r.source rest with
      cluster := s.cluster.receiveEntry r.source r.newcomer true } := by
  have hsource : r.source < s.cluster.size := h.size_eq ▸ r.source_lt
  obtain ⟨node, hnode, -⟩ := r.newcomer_spec
  have hnewcomer : r.newcomer < s.cluster.size :=
    h.size_eq ▸ (List.getElem?_eq_some_iff.mp hnode).1
  have hmove : Cluster.Move .anyOrder s.cluster (.receive r.source (.workerEntry r.newcomer true))
      (s.cluster.receiveEntry r.source r.newcomer true) := .entry true hsource hnewcomer
  obtain ⟨hasked, hempty, hidle⟩ := h.unread hinbox (asksExport_of_request hrequest)
  have hqueue : ((s.cluster.receiveEntry r.source r.newcomer true).node r.source).exportQueue
      = [r.newcomer] := by
    simp only [Cluster.receiveEntry, if_true]
    rw [Cluster.exportQueue_addExportRequest, Cluster.exportQueue_addPeer, hempty,
      List.nil_append]
    rw [Cluster.exportQueue_addPeer, hempty]
    decide
  have hexporter := Cluster.exporter_move hmove (x := r.source) (fun hl => by cases hl)
  have hpeer : r.newcomer ∈
      ((s.cluster.receiveEntry r.source r.newcomer true).node r.source).peers := by
    simp only [Cluster.receiveEntry, if_true]
    rw [(Cluster.sameWiring_addExportRequest _ _ _).peers_eq]
    exact h.registered.mem_addPeer (h.size_eq ▸ r.length_le) hsource
      (Ne.symm r.source_ne_newcomer)
  refine ⟨hqueue, (Cluster.size_move hmove).trans h.size_eq,
    Cluster.registered_move h.registered hmove, ?_, ?_, ?_, ?_, fun _ => hpeer, ?_⟩
  · show (r.asked (s.setInbox r.source rest)).length + Node.exports _ ≤ 1
    rw [hasked, Node.exports, hqueue, hexporter, hidle]
    rfl
  · intro m hm
    have hm' : m ∈ r.asked (s.setInbox r.source rest) := hm
    rw [hasked] at hm'
    cases hm'
  · rw [hqueue]
    exact fun target htarget => List.mem_singleton.mp htarget
  · rw [hexporter]
    exact h.target
  · rw [hexporter]
    exact h.values

/-- **A turn of the source's export thread.** -/
theorem Exporting.turn (h : Exporting r s) (hknown : Cluster.Consistent s.stored s.cluster)
    {queue : List Nat} {place : ExporterAt} {sent : Option (Nat × Message)}
    (hturn : ExportTurn (s.cluster.node r.source) queue place sent) :
    Exporting r { s with cluster := s.cluster.exported r.source queue place sent } := by
  have hsize : (s.cluster.exported r.source queue place sent).size = s.cluster.size := by
    cases sent <;> rfl
  have hpeers : ∀ x, ((s.cluster.exported r.source queue place sent).node x).peers
      = (s.cluster.node x).peers := by
    intro x
    cases sent <;> exact Cluster.proj_setNode Node.peers (by rfl) x
  have hexports := hturn.exports_le
  obtain ⟨hqueued, htarget⟩ := hturn.forall_targets h.queued h.target
  have honce := h.once
  refine ⟨hsize.trans h.size_eq, ?_, ?_, h.named, ?_, ?_, ?_, ?_⟩
  · intro x
    show _ ∧ ∀ peer ∈ _, peer < (s.cluster.exported r.source queue place sent).size ∧ _
    rw [hpeers, hsize]
    exact h.registered x
  · simp only [Cluster.node_exported]
    exact (Nat.add_le_add_left hexports _).trans honce
  · simpa only [Cluster.node_exported] using hqueued
  · simpa only [Cluster.node_exported] using htarget
  · intro hne
    rw [hpeers]
    simp only [Cluster.node_exported, Node.exports] at hne hexports
    exact h.known (by rw [Node.exports]; omega)
  · simp only [Cluster.node_exported]
    intro node hnode
    rcases hturn.mem_nodes hnode with hnode | ⟨bucket, hnode⟩
    · exact h.values node hnode
    · obtain ⟨value, hvalue, -⟩ := (hknown.nodes r.source).table _ _ (lookup_of_mem_bucket hnode)
      exact ⟨value, hvalue⟩

end Exporting

/-! ## No key is in the gap -/

/-- The source will still send a key to the new worker: it has copied the
key's bucket and not come to the key, or it has not copied it. -/
def Sends (r : Roster) (s : State) (key : CString) : Prop :=
  (∃ node ∈ (s.cluster.node r.source).exporter.nodes, node.1 = key) ∨
    r.Ahead s (hashFunction key)

/-- Every key stored is at the new worker, or on its way there, or will be
sent by the source. -/
structure Covered (r : Roster) (s : State) : Prop where
  exporting : Exporting r s
  consistent : Cluster.Consistent s.stored s.cluster
  way : ∀ key value, (key, value) ∈ s.stored →
    s.cluster.Reaches r.newcomer key ∨ Sends r s key

section Covered

variable {d : Delivery} {r : Roster} {s t : State} {l : Label}

theorem Ready.covered (h : Ready r s) : Covered r s := by
  refine ⟨h.exporting, ⟨h.valid, fun w => ⟨h.tables w, ?_, ?_, ?_⟩, ?_⟩, ?_⟩
  · intro key value todo removed hr
    rw [h.receivers] at hr
    cases hr
  · intro key value hl
    rw [h.listeners] at hl
    cases hl
  · intro key value he
    rw [h.exporters] at he
    cases he
  · intro c message hm
    rw [h.channels] at hm
    cases hm
  · intro key value _
    obtain ⟨message, hasked, -⟩ := h.asked_eq
    refine Or.inr (Or.inr (Or.inl ?_))
    rw [hasked]
    exact List.cons_ne_nil _ _

/-- The source's export thread and its queue are left alone. -/
theorem Sends.of_frame {key : CString} (h : Sends r s key) (hasked : r.asked t = r.asked s)
    (hqueue : (t.cluster.node r.source).exportQueue = (s.cluster.node r.source).exportQueue)
    (hexporter : (t.cluster.node r.source).exporter = (s.cluster.node r.source).exporter) :
    Sends r t key := by
  unfold Sends Roster.Ahead at *
  rw [hasked, hqueue, hexporter]
  exact h

/-- Between two buckets the key is still ahead. -/
theorem Sends.ahead {key : CString} (h : Sends r s key)
    (hnodes : (s.cluster.node r.source).exporter.nodes = []) :
    r.Ahead s (hashFunction key) := by
  rcases h with ⟨node, hnode, -⟩ | h
  · rw [hnodes] at hnode
    cases hnode
  · exact h

section Turn

variable {queue : List Nat} {place : ExporterAt} {sent : Option (Nat × Message)} {key : CString}

/-- A turn that leaves the key's bucket ahead. -/
theorem sends_of_ahead (hplace : place.Ahead (hashFunction key)) :
    Sends r { s with cluster := s.cluster.exported r.source queue place sent } key := by
  refine Or.inr (Or.inr (Or.inr ?_))
  simpa only [Cluster.node_exported] using hplace

/-- A turn that takes nothing from the queue: what is asked for or queued
stays ahead of every bucket. -/
theorem sends_of_unqueued (hahead : r.Ahead s (hashFunction key))
    (hqueue : queue = (s.cluster.node r.source).exportQueue)
    (hplace : (s.cluster.node r.source).exporter.Ahead (hashFunction key) →
      place.Ahead (hashFunction key)) :
    Sends r { s with cluster := s.cluster.exported r.source queue place sent } key := by
  refine Or.inr ?_
  unfold Roster.Ahead at hahead ⊢
  simp only [Cluster.node_exported, hqueue]
  exact hahead.imp_right (Or.imp_right hplace)

/-- **A turn of the source** that leaves no gap: what it would have sent it
sends or will still send. -/
theorem Covered.sends_turn (h : Covered r s)
    (hoverlaps : Overlaps r s (.work (.runExport r.source)))
    (hturn : ExportTurn (s.cluster.node r.source) queue place sent)
    (hkept : ∀ key value, (key, value) ∈ s.stored → s.cluster.Reaches r.newcomer key →
      (s.cluster.exported r.source queue place sent).Reaches r.newcomer key)
    {value : CString} (hmem : (key, value) ∈ s.stored) (hsends : Sends r s key) :
    (s.cluster.exported r.source queue place sent).Reaches r.newcomer key ∨
      Sends r { s with cluster := s.cluster.exported r.source queue place sent } key := by
  simp only [Overlaps, forall_const] at hoverlaps
  have hvalid := h.consistent.valid key value hmem
  cases hturn with
  | taken | counted | foundItems | connected | recounted => exact Or.inr (sends_of_ahead trivial)
  | started => exact Or.inr (sends_of_ahead (Nat.zero_le _))
  | foundNone hexporter hbucket =>
    rw [hexporter] at hoverlaps
    exact Or.inl (hkept key value hmem (hoverlaps hbucket _ hmem))
  | notConnected hexporter htarget =>
    have hnewcomer := h.exporting.target _ (by rw [hexporter]; rfl)
    refine absurd (h.exporting.known ?_) (hnewcomer ▸ htarget)
    simp [Node.exports, hexporter, ExporterAt.target]
  | @copied target bucket hexporter =>
    have hahead := hsends.ahead (by rw [hexporter]; rfl)
    rw [hexporter] at hoverlaps
    by_cases hbucket : (hashFunction key).val = bucket
    · -- the key's bucket is copied now
      rcases hoverlaps _ hmem hbucket with hheld | hreaches
      · obtain ⟨node, hnode, hkey⟩ := exists_mem_bucket hheld
        obtain rfl : hashFunction key = bucket := Fin.ext hbucket
        refine Or.inr (Or.inl ⟨node, ?_, hkey⟩)
        simp only [Cluster.node_exported]
        exact hnode
      · exact Or.inl (hkept key value hmem hreaches)
    · refine Or.inr (sends_of_unqueued hahead rfl ?_)
      intro hle
      simp only [hexporter, ExporterAt.Ahead] at hle ⊢
      omega
  | ended hexporter hbucket =>
    refine Or.inr (sends_of_unqueued (hsends.ahead (by rw [hexporter]; rfl)) rfl ?_)
    intro hle
    have hlt := (hashFunction key).isLt
    simp only [hexporter, ExporterAt.Ahead] at hle ⊢
    omega
  | bucketDone hexporter =>
    refine Or.inr (sends_of_unqueued (hsends.ahead (by rw [hexporter]; rfl)) rfl ?_)
    rw [hexporter]
    exact fun hlt => hlt
  | @entrySent target bucket node nodes message hexporter hmessage =>
    rcases hsends with ⟨node', hnode, hkey⟩ | hsends
    · rw [hexporter] at hnode
      rcases List.mem_cons.mp hnode with rfl | hnode
      · -- the entry is on the connection to the new worker
        obtain ⟨value', -, hentry⟩ := peerEntry_entryMessage hmessage
        obtain rfl : target = r.newcomer := h.exporting.target _ (by rw [hexporter]; rfl)
        rw [← hkey]
        exact Or.inl (Cluster.reaches_send (h.exporting.size_eq ▸ r.source_lt) hentry)
      · refine Or.inr (Or.inl ⟨node', ?_, hkey⟩)
        simp only [Cluster.node_exported]
        exact hnode
    · refine Or.inr (sends_of_unqueued hsends rfl ?_)
      rw [hexporter]
      exact fun hlt => hlt
  | @entryFailed target bucket node nodes hexporter hmessage =>
    have hhead : node ∈ (s.cluster.node r.source).exporter.nodes := by
      rw [hexporter]
      exact List.mem_cons_self
    obtain ⟨v, hv⟩ := h.exporting.values node hhead
    have hknown := (h.consistent.nodes r.source).exporter node.1 v (by rw [← hv]; exact hhead)
    exact absurd hmessage (entryMessage_ne_none hv (h.consistent.valid _ _ hknown))

end Turn

/-- With memory, the request that a message decodes to has it, too. -/
theorem allocated_of_request {message : Message} {request : Worker.Request}
    (h : r.request? message true = some request) (w : Nat) :
    (Worker.Label.receive w request).allocated = true := by
  unfold Roster.request? at h
  split at h
  · cases h
    rfl
  · split at h
    · obtain ⟨worker, -, rfl⟩ := Option.map_eq_some_iff.mp h
      rfl
    · cases h
  · cases h

theorem storedBy_eq {w : Nat} {request : Worker.Request}
    (hallocates : Cluster.Allocates s.cluster (.receive w request)) :
    s.storedBy w request = (Worker.Label.stored? (.receive w request)).toList := by
  cases request with
  | workerEntry => rfl
  | storeRequest payload allocated =>
    obtain rfl : allocated = true := hallocates
    simp only [State.storedBy, Worker.Label.stored?]
    cases storeRequest? payload with
    | none => rfl
    | some request =>
      by_cases hkey : request.key = CString.empty
      · simp [hkey]
      · simp [hkey, setHashTable_eq_one]

/-- **The source reads the request** for the export: it is ahead of every
bucket. -/
theorem Covered.asked (h : Covered r s) {message : Message} {rest : List Message}
    (hinbox : s.inbox r.source = message :: rest) (hasks : r.asksExport message = true)
    {request : Worker.Request} (hrequest : r.request? message true = some request)
    {cluster : Cluster}
    (hmove : Cluster.Move d s.cluster (.receive r.source request) cluster) :
    Covered r { s.setInbox r.source rest with
      cluster := cluster
      stored := s.stored ++ s.storedBy r.source request } := by
  have hasked := asked_setInbox r hinbox
  rw [if_pos ⟨rfl, hasks⟩] at hasked
  have hnamed := h.exporting.named message (by rw [hasked]; exact List.mem_cons_self)
  obtain rfl : request = .workerEntry r.newcomer true :=
    Option.some.inj (hrequest.symm.trans hnamed)
  have hallocates : Cluster.Allocates s.cluster
      (.receive r.source (.workerEntry r.newcomer true)) := rfl
  have hconsistent := Cluster.consistent_move h.consistent hallocates hmove
  obtain ⟨hqueue, hexporting⟩ := h.exporting.entry hinbox hnamed
  cases hmove
  refine ⟨hexporting.of_frame rfl hexporting.registered rfl rfl rfl fun _ hpeer => hpeer,
    hconsistent, ?_⟩
  intro key value _
  refine Or.inr (Or.inr (Or.inr (Or.inl ?_)))
  show ((s.cluster.receiveEntry r.source r.newcomer true).node r.source).exportQueue ≠ []
  rw [hqueue]
  exact List.cons_ne_nil _ _

/-- **Another message is read**: what it stores reaches the new worker, or
the export is ahead of it. -/
theorem Covered.notAsked (h : Covered r s) {w : Nat} {message : Message} {rest : List Message}
    (hinbox : s.inbox w = message :: rest)
    (hasks : ¬(w = r.source ∧ r.asksExport message = true)) {request : Worker.Request}
    (hrequest : r.request? message true = some request) {cluster : Cluster}
    (hmove : Cluster.Move d s.cluster (.receive w request) cluster)
    (hoverlaps : Overlaps r s (.receive w true)) :
    Covered r { s.setInbox w rest with
      cluster := cluster
      stored := s.stored ++ s.storedBy w request } := by
  have hallocates : Cluster.Allocates s.cluster (.receive w request) :=
    allocated_of_request hrequest w
  have hexporter := Cluster.exporter_move hmove (x := r.source) nofun
  have hqueue := Cluster.exportQueue_move hmove (x := r.source) nofun (by
    intro worker heq
    cases heq
    exact hasks ⟨rfl, asksExport_of_request hrequest⟩)
  have hasked : r.asked (s.setInbox w rest) = r.asked s := by
    rw [asked_setInbox r hinbox, if_neg hasks]
  refine ⟨h.exporting.of_frame (Cluster.size_move hmove)
    (Cluster.registered_move h.exporting.registered hmove) hasked hqueue hexporter
    (Cluster.peers_move h.consistent hmove r.source), ?_, ?_⟩
  · rw [storedBy_eq hallocates]
    exact Cluster.consistent_move h.consistent hallocates hmove
  · intro key value hmem
    have hframe : Sends r s key → Sends r { s.setInbox w rest with
        cluster := cluster
        stored := s.stored ++ s.storedBy w request } key := by
      intro hsends
      exact hsends.of_frame hasked hqueue hexporter
    rcases List.mem_append.mp hmem with hmem | hmem
    · have hkey := Cluster.key_ne_empty (h.consistent.valid key value hmem).1
      exact (h.way key value hmem).imp
        (Cluster.reaches_move h.consistent hallocates hmove hkey) hframe
    · rw [storedBy_eq hallocates] at hmem
      have hstored := Option.mem_toList.mp hmem
      have hnext : r.nextStore s w = some (key, value) := by
        simp only [Roster.nextStore, hinbox, List.head?_cons, Option.bind_eq_bind,
          Option.bind_some, hrequest]
        exact hstored
      rcases hoverlaps.2 _ hnext with hself | hpeer | hahead
      · exact Or.inl (Cluster.reaches_new hallocates hmove hstored fun _ => Or.inl hself.symm)
      · exact Or.inl (Cluster.reaches_new hallocates hmove hstored fun _ => Or.inr hpeer)
      · exact Or.inr (hframe (Or.inr hahead))

/-- The allocations of a step that leaves no gap. -/
theorem allocates_of_overlaps {l : Worker.Label} (hl : ∀ w request, l ≠ .receive w request)
    (hoverlaps : Overlaps r s (.work l)) : Cluster.Allocates s.cluster l := by
  cases l with
  | receive w request => exact absurd rfl (hl w request)
  | storePeerData w allocated => exact hoverlaps
  | notify | accept | read | hangUp | runExport => rfl

/-- **Another thread moves.** -/
theorem Covered.worked (h : Covered r s) {l : Worker.Label} {cluster : Cluster}
    (hl : ∀ w request, l ≠ .receive w request) (hmove : Cluster.Move d s.cluster l cluster)
    (hturn : ∀ w, l = .runExport w → ∃ queue place sent,
      ExportTurn (s.cluster.node w) queue place sent ∧
        cluster = s.cluster.exported w queue place sent)
    (hoverlaps : Overlaps r s (.work l)) : Covered r { s with cluster := cluster } := by
  have hallocates := allocates_of_overlaps hl hoverlaps
  have hstored : l.stored? = none := by
    cases l with
    | receive w request => exact absurd rfl (hl w request)
    | notify | accept | read | hangUp | storePeerData | runExport => rfl
  have hconsistent := Cluster.consistent_move h.consistent hallocates hmove
  rw [hstored, Option.toList_none, List.append_nil] at hconsistent
  have hkept : ∀ key value, (key, value) ∈ s.stored → s.cluster.Reaches r.newcomer key →
      cluster.Reaches r.newcomer key := by
    intro key value hmem
    exact Cluster.reaches_move h.consistent hallocates hmove
      (Cluster.key_ne_empty (h.consistent.valid key value hmem).1)
  by_cases hsource : l = .runExport r.source
  · obtain ⟨queue, place, sent, hsourceTurn, rfl⟩ := hturn r.source hsource
    subst hsource
    refine ⟨h.exporting.turn h.consistent hsourceTurn, hconsistent, ?_⟩
    intro key value hmem
    rcases h.way key value hmem with hreaches | hsends
    · exact Or.inl (hkept key value hmem hreaches)
    · exact h.sends_turn hoverlaps hsourceTurn hkept hmem hsends
  · have hexporter := Cluster.exporter_move hmove hsource
    have hqueue := Cluster.exportQueue_move hmove hsource fun worker => hl _ _
    refine ⟨h.exporting.of_frame (Cluster.size_move hmove)
      (Cluster.registered_move h.exporting.registered hmove) rfl hqueue hexporter
      (Cluster.peers_move h.consistent hmove r.source), hconsistent, ?_⟩
    intro key value hmem
    exact (h.way key value hmem).imp (hkept key value hmem)
      fun hsends => hsends.of_frame rfl hqueue hexporter

/-- **Every step that leaves no gap** keeps every key covered. -/
theorem covered_step (s : State) (l : Label) (t : State) (h : Covered r s)
    (hoverlaps : Overlaps r s l) (hstep : step d r s l = some t) : Covered r t := by
  have hframe : ∀ t : State, t.cluster = s.cluster → t.stored = s.stored →
      r.asked t = r.asked s → Covered r t := by
    intro t hcluster hstored hasked
    refine ⟨h.exporting.of_frame ?_ ?_ hasked ?_ ?_ ?_, ?_, ?_⟩
    all_goals rw [hcluster]
    · exact h.exporting.registered
    · exact fun _ hpeer => hpeer
    · rw [hstored]
      exact h.consistent
    · rw [hstored]
      intro key value hmem
      exact (h.way key value hmem).imp_right fun hsends =>
        hsends.of_frame hasked (by rw [hcluster]) (by rw [hcluster])
  cases step_move hstep with
  | dispatched w payload =>
    refine hframe _ rfl rfl (asked_put r w ?_)
    simp [Roster.asksExport]
  | announced hannouncing hworker =>
    exact hframe _ rfl rfl (asked_announce r hannouncing hworker)
  | @logged w allocated message rest hinbox hrequest =>
    obtain rfl : allocated = true := hoverlaps.1
    refine hframe _ rfl rfl ?_
    rw [asked_setInbox r hinbox, if_neg]
    simp [Roster.asksExport, hrequest]
  | @received w allocated message rest request cluster hinbox hrequest hmove =>
    obtain rfl : allocated = true := hoverlaps.1
    by_cases hasks : w = r.source ∧ r.asksExport message = true
    · obtain ⟨rfl, hasks⟩ := hasks
      exact h.asked hinbox hasks hrequest hmove
    · exact h.notAsked hinbox hasks hrequest hmove hoverlaps
  | worked hl hmove hturn => exact h.worked hl hmove hturn hoverlaps

/-- **A joining worker misses no data.** In every run from connected
workers whose steps all leave no gap, in which no key is stored twice,
once everything has been processed the new worker has every key stored at
any worker, with its value. -/
theorem newcomer_complete (d : Delivery) {ls : List Label} (hready : Ready r s)
    (honce : (t.stored.map Prod.fst).Nodup) (hoverlaps : Along (step d r) (Overlaps r) s ls)
    (hrun : exec (step d r) s ls = some t) (hprocessed : t.Processed) :
    (∀ key value, (key, value) ∈ t.stored →
      lookup (t.cluster.node r.newcomer).table key = some (some value)) ∧
    ∀ w key held, lookup (t.cluster.node w).table key = some held →
      lookup (t.cluster.node r.newcomer).table key = some held := by
  have h : Covered r t := exec_invariant_along covered_step hready.covered hoverlaps hrun
  obtain ⟨hannounced, hcluster, hworkers⟩ := hprocessed
  obtain ⟨hinbox, hqueue, hexporter⟩ :=
    hworkers r.source (h.exporting.size_eq ▸ r.source_lt)
  have hnewcomer : r.newcomer < t.cluster.size := by
    obtain ⟨node, hnode, -⟩ := r.newcomer_spec
    exact h.exporting.size_eq ▸ (List.getElem?_eq_some_iff.mp hnode).1
  have hstored : ∀ key value, (key, value) ∈ t.stored →
      lookup (t.cluster.node r.newcomer).table key = some (some value) := by
    intro key value hmem
    rcases h.way key value hmem with hreaches | ⟨node, hnode, -⟩ | hasked | hqueued | hahead
    · -- the key is there, and the entry it came from is the only one
      cases hheld : lookup (t.cluster.node r.newcomer).table key with
      | none => exact absurd hheld (hcluster.held hnewcomer hreaches)
      | some held =>
        obtain ⟨value', rfl, hmem'⟩ := (h.consistent.nodes r.newcomer).table key held hheld
        have hsame := List.inj_on_of_nodup_map honce hmem hmem' rfl
        rw [(Prod.mk.inj hsame).2]
    · rw [hexporter] at hnode
      cases hnode
    · simp [Roster.asked, hinbox, hannounced] at hasked
    · exact absurd hqueue hqueued
    · rw [hexporter] at hahead
      cases hahead
  refine ⟨hstored, ?_⟩
  intro w key held hheld
  obtain ⟨value, rfl, hmem⟩ := (h.consistent.nodes w).table key held hheld
  exact hstored key value hmem

end Covered

/-! ## Three workers -/

/-- The node of the worker with a number. -/
def workerNode (w : Nat) : WorkerNode where
  workerId := Int32.ofNat (w + 1)
  workerSocket := some w
  workerAddress := CString.ofString "127.0.0.1"
  workerPeerPort := Int32.ofNat (6001 + w)
  isConnected := true
  isReady := true

/-- Worker 2 joins workers 0 and 1; worker 0 is told to export. -/
def three : Roster where
  list := { initializeWorkerList with
    nodes := [workerNode 0, workerNode 1, workerNode 2]
    count := 3 }
  newWorkerId := 3
  newcomer := 2
  count_eq := rfl
  length_le := by decide
  others := by decide
  selectable := by decide
  ids_nodup := by decide
  sockets_some := by decide
  sockets_nodup := by decide
  indexOf_new := by decide

/-- Workers 0 and 1 read each other's connection, and have stored
nothing. -/
def beforeJoining : State where
  cluster := { Cluster.start 3 with
    node := fun w => if w = 2 then Node.fresh else
      { Node.fresh with peers := [1 - w], accepted := some (1 - w) } }
  inbox := fun _ => []
  announcing := three.announcements
  stored := []

theorem ready_beforeJoining : Ready three beforeJoining := by
  have hnode : ∀ {β : Type} (f : Node → β), (∀ peers accepted,
      f { Node.fresh with peers := peers, accepted := accepted } = f Node.fresh) →
      ∀ i, f (beforeJoining.cluster.node i) = f Node.fresh := by
    intro β f hf i
    by_cases hi : i = 2
    · simp [beforeJoining, hi]
    · simpa [beforeJoining, hi] using hf [1 - i] (some (1 - i))
  refine ⟨rfl, ?_, ?_, ?_, rfl, nofun, ?_, nofun, hnode Node.receiver fun _ _ => rfl,
    hnode Node.listener fun _ _ => rfl, hnode Node.exporter fun _ _ => rfl,
    hnode Node.exportQueue fun _ _ => rfl, fun _ => rfl, fun _ => rfl, rfl⟩
  · intro i hi j hj hi2 hj2 hij
    change i < 3 at hi
    change j < 3 at hj
    change i ≠ 2 at hi2
    change j ≠ 2 at hj2
    simp only [beforeJoining, hi2, if_false, List.mem_singleton]
    omega
  · intro i
    by_cases hi : i = 2
    · simp [beforeJoining, hi, Node.fresh]
    · simp [beforeJoining, hi]
  · intro i j hj
    by_cases hi : i = 2
    · simp [beforeJoining, hi, Node.fresh] at hj
    · simp only [beforeJoining, hi, if_false, List.mem_singleton] at hj
      show j < 3 ∧ j ≠ i ∧ j ≠ 2
      omega
  · intro i key held hheld
    rw [hnode Node.table fun _ _ => rfl] at hheld
    cases hheld

/-- A STORE_REQUEST of client 1 for a key of one letter. -/
def storePayload (key value : UInt8) : List UInt8 := [0, 0, 0, 1, 0, 1, key, 0, 1, value]

/-- The key "k" is stored at worker 0 before the announcement and exported;
the key "l" is stored there afterwards, and the new worker is notified. -/
def joined : List Label :=
  [.dispatch 0 (storePayload 107 118), .receive 0 true, .work (.notify 0), .work (.notify 0),
    .work (.read 1 0), .work (.storePeerData 1 true)] ++
  List.replicate 5 .announce ++ [.receive 0 true] ++
  List.replicate 134 (.work (.runExport 0)) ++
  [.receive 1 true, .receive 2 true, .receive 2 true, .receive 2 true, .work (.accept 2),
    .work (.read 2 0), .work (.read 2 0), .work (.storePeerData 2 true), .work (.read 2 0)] ++
  [.dispatch 0 (storePayload 108 119), .receive 0 true, .work (.notify 0), .work (.notify 0),
    .work (.notify 0), .work (.read 1 0), .work (.storePeerData 1 true), .work (.read 2 0),
    .work (.storePeerData 2 true)]

theorem newcomer_complete_joined :
    ∃ t, exec (step .firstAccepted three) beforeJoining joined = some t ∧
      lookup (t.cluster.node 2).table (CString.ofString "k")
        = some (some (CString.ofString "v")) ∧
      lookup (t.cluster.node 2).table (CString.ofString "l")
        = some (some (CString.ofString "w")) := by
  have hends : (exec (step .firstAccepted three) beforeJoining joined).map
      (fun t => (decide t.Processed, t.stored)) =
        some (true, [(CString.ofString "k", CString.ofString "v"),
          (CString.ofString "l", CString.ofString "w")]) := by decide +kernel
  obtain ⟨t, hrun, hend⟩ := Option.map_eq_some_iff.mp hends
  obtain ⟨hprocessed, hstored⟩ := Prod.mk.inj hend
  have honce : (t.stored.map Prod.fst).Nodup := by
    rw [hstored]
    decide +kernel
  have hoverlaps : Along (step .firstAccepted three) (Overlaps three) beforeJoining joined := by
    decide +kernel
  obtain ⟨hhas, -⟩ := newcomer_complete .firstAccepted ready_beforeJoining honce hoverlaps hrun
    (of_decide_eq_true hprocessed)
  refine ⟨t, hrun, hhas _ _ ?_, hhas _ _ ?_⟩ <;> simp [hstored]

/-- Worker 1 stores "k" before it reads its entry: worker 0 has exported an
empty table before the store, or before it reads the notification. -/
def exportedBefore : List Label :=
  .dispatch 1 (storePayload 107 118) :: List.replicate 5 .announce ++ [.receive 0 true] ++
  List.replicate 34 (.work (.runExport 0)) ++
  [.receive 1 true, .work (.notify 1), .work (.notify 1), .work (.read 0 1),
    .work (.storePeerData 0 true), .receive 1 true, .receive 2 true, .receive 2 true,
    .receive 2 true]

def notifiedLate : List Label :=
  .dispatch 1 (storePayload 107 118) :: List.replicate 5 .announce ++
  [.receive 1 true, .work (.notify 1), .work (.notify 1), .receive 0 true] ++
  List.replicate 34 (.work (.runExport 0)) ++
  [.work (.read 0 1), .work (.storePeerData 0 true), .receive 1 true, .receive 2 true,
    .receive 2 true, .receive 2 true]

/-- **A key in the gap.** Both runs begin with connected workers, store one
key once and end with everything processed; workers 0 and 1 have the key
and the new worker does not. -/
theorem key_in_the_gap : Ready three beforeJoining ∧
    ∀ ls, ls = exportedBefore ∨ ls = notifiedLate →
      ∃ t, exec (step .firstAccepted three) beforeJoining ls = some t ∧ t.Processed ∧
        t.stored = [(CString.ofString "k", CString.ofString "v")] ∧
        lookup (t.cluster.node 0).table (CString.ofString "k") ≠ none ∧
        lookup (t.cluster.node 1).table (CString.ofString "k") ≠ none ∧
        lookup (t.cluster.node 2).table (CString.ofString "k") = none := by
  refine ⟨ready_beforeJoining, ?_⟩
  intro ls hls
  have hends : (exec (step .firstAccepted three) beforeJoining ls).map (fun t =>
      decide (t.Processed ∧ t.stored = [(CString.ofString "k", CString.ofString "v")] ∧
        lookup (t.cluster.node 0).table (CString.ofString "k") ≠ none ∧
        lookup (t.cluster.node 1).table (CString.ofString "k") ≠ none ∧
        lookup (t.cluster.node 2).table (CString.ofString "k") = none)) = some true := by
    rcases hls with rfl | rfl <;> decide +kernel
  obtain ⟨t, hrun, hend⟩ := Option.map_eq_some_iff.mp hends
  exact ⟨t, hrun, of_decide_eq_true hend⟩

end LoadBalancing.Pipeline.Joining
