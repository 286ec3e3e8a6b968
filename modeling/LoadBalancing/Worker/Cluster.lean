/-
LoadBalancing.Worker.Cluster — the workers, their threads and the
connections between them.

Each worker runs the receiver thread, which stores what the load balancer
sends and broadcasts it (`ReceiverThread.c`, `PeerManager.c`), the peer
listener thread (`PeerListenerThread.c`) and the export thread
(`ExportThread.c`, `ExportHashTableToPeer`). The channel of a pair of
workers holds the messages sent on the connection from the first to the
second and not read yet; connections are reliable and FIFO.

A step of a thread is what it does between two points where another
thread can come in: one table operation under its bucket lock, one
message sent, one message read. The check and the store of the peer
listener are two steps, since each locks the bucket for itself.

`Delivery` says what a listener reads. `firstAccepted` is the code: the
inner loop stays with the connection it accepted until that one ends.
`anyOrder` reads from every connection, for statements about every order
of delivery.

Workers are told apart by a number, which stands for id, address and
port; each has a port of its own. Out of scope: connects and sends that
fail, and what the threads send to the load balancer.
-/
import LoadBalancing.Worker.ReceiverThread

namespace LoadBalancing.Worker

open LoadBalancing.Base LoadBalancing.Lib

/-! ## Threads -/

/-- The receiver thread: in front of its socket, or in the loop of
`BroadcastData` with the peers still to notify and `peersToRemove`. -/
inductive ReceiverAt where
  | idle
  | notifying (key value : CString) (todo peersToRemove : List Nat)
  deriving DecidableEq

/-- The peer listener: in one of its loops, or between a `HasHashTable`
that found nothing and its `SetHashTable`. -/
inductive ListenerAt where
  | idle
  | storing (key value : CString)
  deriving DecidableEq

/-- The export thread: waiting for a request, counting the items for the
test in the thread, looking up the connection, counting again for
`DATA_EXPORT_START`, in front of a bucket, and inside a bucket, which it
has locked, with the nodes still to send. -/
inductive ExporterAt where
  | idle
  | counting (target bucket items : Nat)
  | connecting (target : Nat)
  | recounting (target bucket items : Nat)
  | scanning (target bucket : Nat)
  | sending (target : Nat) (bucket : Nat) (nodes : List DataNode)
  deriving DecidableEq

/-- One worker: its table, the connected entries of its peer registry in
order, the accepted connection of its listener, its export queue, and its
threads. -/
structure Node where
  table : HashTable
  peers : List Nat
  accepted : Option Nat
  exportQueue : List Nat
  receiver : ReceiverAt
  listener : ListenerAt
  exporter : ExporterAt

/-- A worker that has just started. -/
def Node.fresh : Node := ⟨initializeHashTable, [], none, [], .idle, .idle, .idle⟩

/-- The export thread holds the lock of a key's bucket. The empty key has
no bucket to wait for: it is refused before. -/
def Node.locked (n : Node) (key : CString) : Bool :=
  match n.exporter with
  | .sending _ bucket _ => key != CString.empty && (hashFunction key).val == bucket
  | _ => false

/-- All workers. `backlog` is the queue of a listen socket, `channel` what
is on the connection from the first to the second worker, and `ended`
says that the first has closed it. -/
structure Cluster where
  size : Nat
  node : Nat → Node
  backlog : Nat → List Nat
  channel : Nat × Nat → List Message
  ended : Nat × Nat → Bool

/-- What a listener reads. -/
inductive Delivery where
  | firstAccepted
  | anyOrder
  deriving DecidableEq

/-- What the load balancer sends a worker. `allocated` is the answer of the
`malloc`s. -/
inductive Request where
  | storeRequest (payload : List UInt8) (allocated : Bool)
  | workerEntry (worker : Nat) (shouldExportData : Bool)
  deriving DecidableEq

/-- One step, of the thread and worker it names. -/
inductive Label where
  | receive (w : Nat) (request : Request)
  | notify (w : Nat)
  | accept (w : Nat)
  | read (w source : Nat)
  | hangUp (w : Nat)
  | storePeerData (w : Nat) (allocated : Bool)
  | runExport (w : Nat)
  deriving DecidableEq

/-! ## Messages between workers -/

/-- The key and value a listener gets out of a message it stores;
`none` for a message it only logs. -/
def peerEntry (message : Message) : Option (CString × CString) :=
  match MessageType.ofValue? message.type with
  | some .dataEntry =>
    match receiveDataEntry message.payload with
    | .accept (key, value) => some (CString.ofBuffer key, CString.ofBuffer value)
    | _ => none
  | some .peerNotify =>
    match receivePeerNotify message.payload with
    | .accept (key, value) => some (CString.ofBuffer key, CString.ofBuffer value)
    | _ => none
  | _ => none

/-- `SendDataEntry` of a node, which refuses a NULL value. -/
def entryMessage (node : DataNode) : Option Message :=
  match node.2 with
  | some value => sendDataEntry node.1 value
  | none => none

/-! ## The export thread's place -/

/-- The connection of an export that has looked it up. -/
def ExporterAt.connectedTo : ExporterAt → Option Nat
  | .recounting target _ _ | .scanning target _ | .sending target _ _ => some target
  | _ => none

/-- The nodes of the bucket an export holds. -/
def ExporterAt.nodes : ExporterAt → List DataNode
  | .sending _ _ nodes => nodes
  | _ => []

/-- The message the export thread sends next. -/
def ExporterAt.message : ExporterAt → Option Message
  | .recounting _ bucket items =>
    if bucket < workerHashTableBucketCount then none else sendDataExportStart (UInt32.ofNat items)
  | .scanning _ bucket =>
    if bucket < workerHashTableBucketCount then none else sendDataExportEnd
  | .sending _ _ (node :: _) => entryMessage node
  | _ => none

/-- A turn of the export thread: the queue and the place behind it, and
what it sends. -/
inductive ExportTurn (n : Node) : List Nat → ExporterAt → Option (Nat × Message) → Prop
  | taken {target : Nat} {rest : List Nat} (hexporter : n.exporter = .idle)
      (hqueue : n.exportQueue = target :: rest) :
      ExportTurn n rest (.counting target 0 0) none
  | counted {target bucket items : Nat} (more : Nat)
      (hexporter : n.exporter = .counting target bucket items) :
      ExportTurn n n.exportQueue (.counting target (bucket + 1) (items + more)) none
  | foundItems {target bucket items : Nat}
      (hexporter : n.exporter = .counting target bucket items) :
      ExportTurn n n.exportQueue (.connecting target) none
  | foundNone {target bucket : Nat} (hexporter : n.exporter = .counting target bucket 0)
      (hbucket : workerHashTableBucketCount ≤ bucket) : ExportTurn n n.exportQueue .idle none
  | connected {target : Nat} (hexporter : n.exporter = .connecting target)
      (htarget : target ∈ n.peers) : ExportTurn n n.exportQueue (.recounting target 0 0) none
  | notConnected {target : Nat} (hexporter : n.exporter = .connecting target)
      (htarget : target ∉ n.peers) : ExportTurn n n.exportQueue .idle none
  | recounted {target bucket items : Nat} (more : Nat)
      (hexporter : n.exporter = .recounting target bucket items)
      (hbucket : bucket < workerHashTableBucketCount) :
      ExportTurn n n.exportQueue (.recounting target (bucket + 1) (items + more)) none
  | started {target bucket items : Nat} {message : Message}
      (hexporter : n.exporter = .recounting target bucket items)
      (hmessage : n.exporter.message = some message) :
      ExportTurn n n.exportQueue (.scanning target 0) (some (target, message))
  | copied {target : Nat} {bucket : Fin workerHashTableBucketCount}
      (hexporter : n.exporter = .scanning target bucket) :
      ExportTurn n n.exportQueue (.sending target bucket (n.table.chains bucket)) none
  | ended {target bucket : Nat} {message : Message}
      (hexporter : n.exporter = .scanning target bucket)
      (hbucket : workerHashTableBucketCount ≤ bucket)
      (hmessage : n.exporter.message = some message) :
      ExportTurn n n.exportQueue .idle (some (target, message))
  | bucketDone {target bucket : Nat} (hexporter : n.exporter = .sending target bucket []) :
      ExportTurn n n.exportQueue (.scanning target (bucket + 1)) none
  | entrySent {target bucket : Nat} {node : DataNode} {nodes : List DataNode} {message : Message}
      (hexporter : n.exporter = .sending target bucket (node :: nodes))
      (hmessage : entryMessage node = some message) :
      ExportTurn n n.exportQueue (.sending target bucket nodes) (some (target, message))
  | entryFailed {target bucket : Nat} {node : DataNode} {nodes : List DataNode}
      (hexporter : n.exporter = .sending target bucket (node :: nodes))
      (hmessage : entryMessage node = none) : ExportTurn n n.exportQueue .idle none

/-! ## Steps -/

namespace Cluster

/-- Replace one worker. -/
def setNode (s : Cluster) (w : Nat) (n : Node) : Cluster :=
  { s with node := Function.update s.node w n }

/-- Put a message on a connection. -/
def send (s : Cluster) (c : Nat × Nat) (message : Message) : Cluster :=
  { s with channel := Function.update s.channel c (s.channel c ++ [message]) }

/-- Take the rest of a connection for what is left to read. -/
def setChannel (s : Cluster) (c : Nat × Nat) (rest : List Message) : Cluster :=
  { s with channel := Function.update s.channel c rest }

/-- `AddPeer`: the worker itself and a known peer are left alone, and so is
every peer once the registry is full. -/
def addPeer (s : Cluster) (w peer : Nat) : Cluster :=
  if peer = w ∨ peer ∈ (s.node w).peers ∨ maxWorkers ≤ (s.node w).peers.length then s
  else
    { s.setNode w { s.node w with peers := (s.node w).peers ++ [peer] } with
      backlog := Function.update s.backlog peer (s.backlog peer ++ [w]) }

/-- `AddExportRequest`. -/
def addExportRequest (s : Cluster) (w target : Nat) : Cluster :=
  if maxWorkers ≤ (s.node w).exportQueue.length then s
  else s.setNode w { s.node w with exportQueue := (s.node w).exportQueue ++ [target] }

/-- `case MSG_STORE_REQUEST` up to the first notification. The warning of
`HasHashTable` has no effect. -/
def receiveStore (s : Cluster) (w : Nat) (payload : List UInt8) (allocated : Bool) :
    Option Cluster :=
  match storeRequest? payload with
  | none => some s
  | some request =>
    if (s.node w).locked request.key then none
    else
      let (result, table) := setHashTable (s.node w).table request.key request.value allocated
      if result = 1 then
        some (s.setNode w { s.node w with
          table := table
          receiver := .notifying request.key request.value (s.node w).peers [] })
      else some (s.setNode w { s.node w with table := table })

/-- `case MSG_WORKER_ENTRY`. -/
def receiveEntry (s : Cluster) (w worker : Nat) (shouldExportData : Bool) : Cluster :=
  if shouldExportData then (s.addPeer w worker).addExportRequest w worker
  else s.addPeer w worker

/-- One turn of the loop of `BroadcastData`, and behind its end the calls
of `RemoveDisconnectedPeer`. -/
def notifyStep (s : Cluster) (w : Nat) : Option Cluster :=
  match (s.node w).receiver with
  | .idle => none
  | .notifying key value (peer :: todo) removed =>
    match sendPeerNotify key value with
    | some message =>
      some ((s.setNode w { s.node w with receiver := .notifying key value todo removed }).send
        (w, peer) message)
    | none =>
      some (s.setNode w { s.node w with
        receiver := .notifying key value todo (removed ++ [peer]) })
  | .notifying _ _ [] removed =>
    some { s.setNode w { s.node w with
        receiver := .idle
        peers := (s.node w).peers.filter fun peer => peer ∉ removed } with
      ended := fun c => s.ended c || (c.1 == w && removed.contains c.2) }

/-- The outer loop of the listener: `SafeAccept` takes the oldest
connection of the listen socket. -/
def acceptStep (s : Cluster) (w : Nat) : Option Cluster :=
  match (s.node w).accepted, s.backlog w with
  | none, source :: rest =>
    some { s.setNode w { s.node w with accepted := some source } with
      backlog := Function.update s.backlog w rest }
  | _, _ => none

/-- The connections a listener reads from. -/
def mayRead (s : Cluster) : Delivery → Nat → Nat → Bool
  | .firstAccepted, w, source => (s.node w).accepted == some source
  | .anyOrder, _, _ => true

/-- The inner loop: a message is read and, if it carries an entry, its key
looked up. -/
def readStep (d : Delivery) (s : Cluster) (w source : Nat) : Option Cluster :=
  if (s.node w).listener = .idle ∧ s.mayRead d w source then
    match s.channel (source, w) with
    | [] => none
    | message :: rest =>
      match peerEntry message with
      | none => some (s.setChannel (source, w) rest)
      | some (key, value) =>
        if (s.node w).locked key then none
        else if hasHashTable (s.node w).table key = 0 then
          some ((s.setNode w { s.node w with listener := .storing key value }).setChannel
            (source, w) rest)
        else some (s.setChannel (source, w) rest)
  else none

/-- The inner loop ends with its connection. -/
def hangUpStep (s : Cluster) (w : Nat) : Option Cluster :=
  match (s.node w).accepted, (s.node w).listener with
  | some source, .idle =>
    if s.channel (source, w) = [] ∧ s.ended (source, w) then
      some (s.setNode w { s.node w with accepted := none })
    else none
  | _, _ => none

/-- The listener's `SetHashTable`. -/
def storePeerDataStep (s : Cluster) (w : Nat) (allocated : Bool) : Option Cluster :=
  match (s.node w).listener with
  | .idle => none
  | .storing key value =>
    if (s.node w).locked key then none
    else
      some (s.setNode w { s.node w with
        table := (setHashTable (s.node w).table key value allocated).2
        listener := .idle })

/-- Move the export thread. -/
def setExporter (s : Cluster) (w : Nat) (at' : ExporterAt) : Cluster :=
  s.setNode w { s.node w with exporter := at' }

/-- The export thread. A count reads a bucket under its lock, and crashes
on a NULL value. -/
def exportStep (s : Cluster) (w : Nat) : Option Cluster :=
  match (s.node w).exporter with
  | .idle =>
    match (s.node w).exportQueue with
    | [] => none
    | target :: rest =>
      some (s.setNode w { s.node w with
        exportQueue := rest
        exporter := .counting target 0 0 })
  | .counting target bucket items =>
    if h : bucket < workerHashTableBucketCount then
      match bucketItems (s.node w).table ⟨bucket, h⟩ with
      | .accept count => some (s.setExporter w (.counting target (bucket + 1) (items + count)))
      | _ => none
    else if 0 < items then some (s.setExporter w (.connecting target))
    else some (s.setExporter w .idle)
  | .connecting target =>
    if target ∈ (s.node w).peers then some (s.setExporter w (.recounting target 0 0))
    else some (s.setExporter w .idle)
  | .recounting target bucket items =>
    if h : bucket < workerHashTableBucketCount then
      match bucketItems (s.node w).table ⟨bucket, h⟩ with
      | .accept count => some (s.setExporter w (.recounting target (bucket + 1) (items + count)))
      | _ => none
    else
      match sendDataExportStart (UInt32.ofNat items) with
      | some message => some ((s.setExporter w (.scanning target 0)).send (w, target) message)
      | none => some (s.setExporter w .idle)
  | .scanning target bucket =>
    if h : bucket < workerHashTableBucketCount then
      some (s.setExporter w (.sending target bucket ((s.node w).table.chains ⟨bucket, h⟩)))
    else
      match sendDataExportEnd with
      | some message => some ((s.setExporter w .idle).send (w, target) message)
      | none => some (s.setExporter w .idle)
  | .sending target bucket [] => some (s.setExporter w (.scanning target (bucket + 1)))
  | .sending target bucket (node :: nodes) =>
    match entryMessage node with
    | some message =>
      some ((s.setExporter w (.sending target bucket nodes)).send (w, target) message)
    | none => some (s.setExporter w .idle)

/-- One step of the cluster. -/
def step (d : Delivery) (s : Cluster) : Label → Option Cluster
  | .receive w (.storeRequest payload allocated) =>
    if w < s.size ∧ (s.node w).receiver = .idle then s.receiveStore w payload allocated else none
  | .receive w (.workerEntry worker shouldExportData) =>
    if w < s.size ∧ worker < s.size ∧ (s.node w).receiver = .idle then
      some (s.receiveEntry w worker shouldExportData)
    else none
  | .notify w => if w < s.size then s.notifyStep w else none
  | .accept w => if w < s.size then s.acceptStep w else none
  | .read w source => if w < s.size ∧ source < s.size then s.readStep d w source else none
  | .hangUp w => if w < s.size then s.hangUpStep w else none
  | .storePeerData w allocated => if w < s.size then s.storePeerDataStep w allocated else none
  | .runExport w => if w < s.size then s.exportStep w else none

/-- `n` workers before the first connection. -/
def start (n : Nat) : Cluster :=
  ⟨n, fun _ => Node.fresh, fun _ => [], fun _ => [], fun _ => false⟩

/-! ## What a step can do

`Move` lists the effects of a step with what the thread knew when it took
it. Every invariant is proved along its constructors. -/

/-- The effects of a step. -/
inductive Move (d : Delivery) (s : Cluster) : Label → Cluster → Prop
  | dropped (w : Nat) {payload : List UInt8} (allocated : Bool)
      (hdecode : storeRequest? payload = none) :
      Move d s (.receive w (.storeRequest payload allocated)) s
  | stored {w : Nat} {payload : List UInt8} {allocated : Bool} {request : StoreRequest}
      {table : HashTable} (hw : w < s.size) (hidle : (s.node w).receiver = .idle)
      (hdecode : storeRequest? payload = some request)
      (hset : setHashTable (s.node w).table request.key request.value allocated = (1, table)) :
      Move d s (.receive w (.storeRequest payload allocated)) (s.setNode w { s.node w with
        table := table
        receiver := .notifying request.key request.value (s.node w).peers [] })
  | refused {w : Nat} {payload : List UInt8} {allocated : Bool} {request : StoreRequest}
      {result : Int} {table : HashTable} (hdecode : storeRequest? payload = some request)
      (hset : setHashTable (s.node w).table request.key request.value allocated = (result, table))
      (hresult : result ≠ 1) :
      Move d s (.receive w (.storeRequest payload allocated))
        (s.setNode w { s.node w with table := table })
  | entry {w worker : Nat} (shouldExportData : Bool) (hw : w < s.size)
      (hworker : worker < s.size) :
      Move d s (.receive w (.workerEntry worker shouldExportData))
        (s.receiveEntry w worker shouldExportData)
  | notified {w peer : Nat} {key value : CString} {todo removed : List Nat} {message : Message}
      (hw : w < s.size)
      (hreceiver : (s.node w).receiver = .notifying key value (peer :: todo) removed)
      (hmessage : sendPeerNotify key value = some message) :
      Move d s (.notify w)
        ((s.setNode w { s.node w with receiver := .notifying key value todo removed }).send
          (w, peer) message)
  | notifyFailed {w peer : Nat} {key value : CString} {todo removed : List Nat}
      (hreceiver : (s.node w).receiver = .notifying key value (peer :: todo) removed)
      (hmessage : sendPeerNotify key value = none) :
      Move d s (.notify w) (s.setNode w { s.node w with
        receiver := .notifying key value todo (removed ++ [peer]) })
  | broadcastDone {w : Nat} {key value : CString} {removed : List Nat}
      (hreceiver : (s.node w).receiver = .notifying key value [] removed) :
      Move d s (.notify w) { s.setNode w { s.node w with
          receiver := .idle
          peers := (s.node w).peers.filter fun peer => peer ∉ removed } with
        ended := fun c => s.ended c || (c.1 == w && removed.contains c.2) }
  | accepted {w source : Nat} {rest : List Nat} (haccepted : (s.node w).accepted = none)
      (hbacklog : s.backlog w = source :: rest) :
      Move d s (.accept w) { s.setNode w { s.node w with accepted := some source } with
        backlog := Function.update s.backlog w rest }
  | readOther {w source : Nat} {message : Message} {rest : List Message}
      (hread : s.mayRead d w source = true)
      (hchannel : s.channel (source, w) = message :: rest) (hentry : peerEntry message = none) :
      Move d s (.read w source) (s.setChannel (source, w) rest)
  | readKnown {w source : Nat} {message : Message} {rest : List Message} {key value : CString}
      (hread : s.mayRead d w source = true)
      (hchannel : s.channel (source, w) = message :: rest)
      (hentry : peerEntry message = some (key, value))
      (hhas : hasHashTable (s.node w).table key ≠ 0) :
      Move d s (.read w source) (s.setChannel (source, w) rest)
  | readNew {w source : Nat} {message : Message} {rest : List Message} {key value : CString}
      (hlistener : (s.node w).listener = .idle)
      (hread : s.mayRead d w source = true)
      (hchannel : s.channel (source, w) = message :: rest)
      (hentry : peerEntry message = some (key, value))
      (hhas : hasHashTable (s.node w).table key = 0) :
      Move d s (.read w source)
        ((s.setNode w { s.node w with listener := .storing key value }).setChannel
          (source, w) rest)
  | hungUp {w source : Nat} (haccepted : (s.node w).accepted = some source)
      (hended : s.ended (source, w) = true) :
      Move d s (.hangUp w) (s.setNode w { s.node w with accepted := none })
  | storedPeerData {w : Nat} {key value : CString} (allocated : Bool)
      (hlistener : (s.node w).listener = .storing key value) :
      Move d s (.storePeerData w allocated) (s.setNode w { s.node w with
        table := (setHashTable (s.node w).table key value allocated).2
        listener := .idle })
  | exportTaken {w target : Nat} {rest : List Nat} (hexporter : (s.node w).exporter = .idle) :
      Move d s (.runExport w) (s.setNode w { s.node w with
        exportQueue := rest
        exporter := .counting target 0 0 })
  | exportMoved {w : Nat} {before after : ExporterAt} (hexporter : (s.node w).exporter = before)
      (hquiet : before.message = none)
      (hconnected : ∀ target, after.connectedTo = some target →
        before.connectedTo = some target ∨ target ∈ (s.node w).peers)
      (hnodes : ∀ node ∈ after.nodes, ∃ bucket, node ∈ (s.node w).table.chains bucket) :
      Move d s (.runExport w) (s.setExporter w after)
  | exportSent {w target : Nat} {before after : ExporterAt} {message : Message}
      (hexporter : (s.node w).exporter = before)
      (hmessage : before.message = some message)
      (htarget : before.connectedTo = some target)
      (hconnected : ∀ peer, after.connectedTo = some peer → peer = target)
      (hnodes : ∀ node ∈ after.nodes, node ∈ before.nodes) :
      Move d s (.runExport w) ((s.setExporter w after).send (w, target) message)

theorem receiveStore_move {d : Delivery} {s t : Cluster} {w : Nat} {payload : List UInt8}
    {allocated : Bool} (hw : w < s.size) (hidle : (s.node w).receiver = .idle)
    (h : s.receiveStore w payload allocated = some t) :
    Move d s (.receive w (.storeRequest payload allocated)) t := by
  unfold receiveStore at h
  cases hdecode : storeRequest? payload with
  | none =>
    rw [hdecode] at h
    cases h
    exact .dropped w allocated hdecode
  | some request =>
    rw [hdecode] at h
    cases hset : setHashTable (s.node w).table request.key request.value allocated with
    | mk result table =>
      simp only [hset] at h
      split at h
      · cases h
      · split at h
        · rename_i hresult
          cases h
          exact .stored hw hidle hdecode (by rw [hset, hresult])
        · rename_i hresult
          cases h
          exact .refused hdecode hset hresult

theorem notifyStep_move {d : Delivery} {s t : Cluster} {w : Nat} (hw : w < s.size)
    (h : s.notifyStep w = some t) : Move d s (.notify w) t := by
  unfold notifyStep at h
  cases hreceiver : (s.node w).receiver with
  | idle => simp [hreceiver] at h
  | notifying key value todo removed =>
    cases todo with
    | nil =>
      simp only [hreceiver, Option.some.injEq] at h
      subst h
      exact .broadcastDone hreceiver
    | cons peer todo =>
      cases hmessage : sendPeerNotify key value with
      | none =>
        simp only [hreceiver, hmessage, Option.some.injEq] at h
        subst h
        exact .notifyFailed hreceiver hmessage
      | some message =>
        simp only [hreceiver, hmessage, Option.some.injEq] at h
        subst h
        exact .notified hw hreceiver hmessage

theorem acceptStep_move {d : Delivery} {s t : Cluster} {w : Nat} (h : s.acceptStep w = some t) :
    Move d s (.accept w) t := by
  unfold acceptStep at h
  split at h
  · rename_i source rest haccepted hbacklog
    cases h
    exact .accepted haccepted hbacklog
  · cases h

theorem readStep_move {d : Delivery} {s t : Cluster} {w source : Nat}
    (h : readStep d s w source = some t) : Move d s (.read w source) t := by
  unfold readStep at h
  split at h
  · rename_i hcond
    cases hchannel : s.channel (source, w) with
    | nil => simp [hchannel] at h
    | cons message rest =>
      cases hentry : peerEntry message with
      | none =>
        simp only [hchannel, hentry, Option.some.injEq] at h
        subst h
        exact .readOther hcond.2 hchannel hentry
      | some entry =>
        obtain ⟨key, value⟩ := entry
        simp only [hchannel, hentry] at h
        split at h
        · cases h
        · split at h
          · rename_i hhas
            cases h
            exact .readNew hcond.1 hcond.2 hchannel hentry hhas
          · rename_i hhas
            cases h
            exact .readKnown hcond.2 hchannel hentry hhas
  · cases h

theorem hangUpStep_move {d : Delivery} {s t : Cluster} {w : Nat} (h : s.hangUpStep w = some t) :
    Move d s (.hangUp w) t := by
  unfold hangUpStep at h
  split at h
  · rename_i source haccepted hlistener
    split at h
    · rename_i hcond
      cases h
      exact .hungUp haccepted hcond.2
    · cases h
  · cases h

theorem storePeerDataStep_move {d : Delivery} {s t : Cluster} {w : Nat} {allocated : Bool}
    (h : s.storePeerDataStep w allocated = some t) : Move d s (.storePeerData w allocated) t := by
  unfold storePeerDataStep at h
  split at h
  · cases h
  · rename_i key value hlistener
    split at h
    · cases h
    · cases h
      exact .storedPeerData allocated hlistener

/-- A worker behind a turn of its export thread. -/
def exported (s : Cluster) (w : Nat) (queue : List Nat) (place : ExporterAt) :
    Option (Nat × Message) → Cluster
  | none => s.setNode w { s.node w with exportQueue := queue, exporter := place }
  | some (target, message) =>
    (s.setNode w { s.node w with exportQueue := queue, exporter := place }).send (w, target) message

/-- A step of the export thread is one of its turns. -/
theorem exportStep_turn {s t : Cluster} {w : Nat} (h : s.exportStep w = some t) :
    ∃ queue place sent, ExportTurn (s.node w) queue place sent ∧
      t = s.exported w queue place sent := by
  unfold exportStep at h
  cases hexporter : (s.node w).exporter with
  | idle =>
    cases hqueue : (s.node w).exportQueue with
    | nil => simp [hexporter, hqueue] at h
    | cons target rest =>
      simp only [hexporter, hqueue, Option.some.injEq] at h
      exact ⟨_, _, _, .taken hexporter hqueue, h.symm⟩
  | counting target bucket items =>
    simp only [hexporter] at h
    split at h
    · rename_i hbucket
      cases hitems : bucketItems (s.node w).table ⟨bucket, hbucket⟩ with
      | accept count =>
        simp only [hitems, Option.some.injEq] at h
        exact ⟨_, _, _, .counted count hexporter, h.symm⟩
      | reject => simp [hitems] at h
      | fault => simp [hitems] at h
    · rename_i hbucket
      by_cases hitems : 0 < items
      · simp only [if_pos hitems, Option.some.injEq] at h
        exact ⟨_, _, _, .foundItems hexporter, h.symm⟩
      · simp only [if_neg hitems, Option.some.injEq] at h
        obtain rfl : items = 0 := by omega
        exact ⟨_, _, _, .foundNone hexporter (Nat.le_of_not_lt hbucket), h.symm⟩
  | connecting target =>
    simp only [hexporter] at h
    by_cases htarget : target ∈ (s.node w).peers
    · simp only [if_pos htarget, Option.some.injEq] at h
      exact ⟨_, _, _, .connected hexporter htarget, h.symm⟩
    · simp only [if_neg htarget, Option.some.injEq] at h
      exact ⟨_, _, _, .notConnected hexporter htarget, h.symm⟩
  | recounting target bucket items =>
    simp only [hexporter] at h
    split at h
    · rename_i hbucket
      cases hitems : bucketItems (s.node w).table ⟨bucket, hbucket⟩ with
      | accept count =>
        simp only [hitems, Option.some.injEq] at h
        exact ⟨_, _, _, .recounted count hexporter hbucket, h.symm⟩
      | reject => simp [hitems] at h
      | fault => simp [hitems] at h
    · rename_i hbucket
      cases h
      refine ⟨_, _, _, .started hexporter ?_, rfl⟩
      rw [hexporter]
      exact if_neg hbucket
  | scanning target bucket =>
    simp only [hexporter] at h
    split at h
    · rename_i hbucket
      cases h
      exact ⟨_, _, _, @ExportTurn.copied _ target ⟨bucket, hbucket⟩ hexporter, rfl⟩
    · rename_i hbucket
      cases h
      refine ⟨_, _, _, .ended hexporter (Nat.le_of_not_lt hbucket) ?_, rfl⟩
      rw [hexporter]
      exact if_neg hbucket
  | sending target bucket nodes =>
    cases nodes with
    | nil =>
      simp only [hexporter, Option.some.injEq] at h
      exact ⟨_, _, _, .bucketDone hexporter, h.symm⟩
    | cons node nodes =>
      cases hmessage : entryMessage node with
      | none =>
        simp only [hexporter, hmessage, Option.some.injEq] at h
        exact ⟨_, _, _, .entryFailed hexporter hmessage, h.symm⟩
      | some message =>
        simp only [hexporter, hmessage, Option.some.injEq] at h
        exact ⟨_, _, _, .entrySent hexporter hmessage, h.symm⟩

theorem exportStep_move {d : Delivery} {s t : Cluster} {w : Nat} (h : s.exportStep w = some t) :
    Move d s (.runExport w) t := by
  obtain ⟨queue, place, sent, hturn, rfl⟩ := exportStep_turn h
  cases hturn with
  | taken hexporter => exact .exportTaken hexporter
  | counted more hexporter | foundItems hexporter | foundNone hexporter
  | notConnected hexporter =>
    exact .exportMoved hexporter rfl (by simp [ExporterAt.connectedTo])
      (by simp [ExporterAt.nodes])
  | connected hexporter htarget =>
    refine .exportMoved hexporter rfl (fun peer hconnected => Or.inr ?_)
      (by simp [ExporterAt.nodes])
    cases hconnected
    exact htarget
  | recounted more hexporter hbucket =>
    exact .exportMoved hexporter (if_pos hbucket) (fun peer hconnected => Or.inl hconnected)
      (by simp [ExporterAt.nodes])
  | @started target bucket items message hexporter hmessage =>
    exact .exportSent rfl hmessage (by rw [hexporter]; rfl)
      (fun peer hconnected => (Option.some.inj hconnected).symm) (by simp [ExporterAt.nodes])
  | @copied target bucket hexporter =>
    exact .exportMoved hexporter (if_pos bucket.isLt) (fun peer hconnected => Or.inl hconnected)
      (fun node hnode => ⟨_, hnode⟩)
  | @ended target bucket message hexporter hbucket hmessage =>
    exact .exportSent rfl hmessage (by rw [hexporter]; rfl) (by simp [ExporterAt.connectedTo])
      (by simp [ExporterAt.nodes])
  | bucketDone hexporter =>
    exact .exportMoved hexporter rfl (fun peer hconnected => Or.inl hconnected)
      (by simp [ExporterAt.nodes])
  | entrySent hexporter hmessage =>
    exact .exportSent hexporter hmessage rfl
      (fun peer hconnected => (Option.some.inj hconnected).symm)
      (fun node' hnode => List.mem_cons_of_mem _ hnode)
  | entryFailed hexporter hmessage =>
    exact .exportMoved hexporter hmessage (by simp [ExporterAt.connectedTo])
      (by simp [ExporterAt.nodes])

/-- **Inversion.** A step is one of the moves, by a worker of the
cluster. -/
theorem step_move {d : Delivery} {s t : Cluster} {l : Label} (h : step d s l = some t) :
    Move d s l t := by
  cases l with
  | receive w request =>
    cases request with
    | storeRequest payload allocated =>
      simp only [step] at h
      split at h
      · rename_i hcond
        exact receiveStore_move hcond.1 hcond.2 h
      · cases h
    | workerEntry worker shouldExportData =>
      simp only [step] at h
      split at h
      · rename_i hcond
        cases h
        exact .entry shouldExportData hcond.1 hcond.2.1
      · cases h
  | notify w =>
    simp only [step] at h
    split at h
    · rename_i hw
      exact notifyStep_move hw h
    · cases h
  | accept w =>
    simp only [step] at h
    split at h
    · exact acceptStep_move h
    · cases h
  | read w source =>
    simp only [step] at h
    split at h
    · exact readStep_move h
    · cases h
  | hangUp w =>
    simp only [step] at h
    split at h
    · exact hangUpStep_move h
    · cases h
  | storePeerData w allocated =>
    simp only [step] at h
    split at h
    · exact storePeerDataStep_move h
    · cases h
  | runExport w =>
    simp only [step] at h
    split at h
    · exact exportStep_move h
    · cases h

end Cluster

end LoadBalancing.Worker
