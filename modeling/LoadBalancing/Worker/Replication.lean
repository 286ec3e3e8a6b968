/-
LoadBalancing.Worker.Replication — what the tables of connected workers
have in common.

A store overwrites the value at the worker it reaches, and the
notification of it is ignored wherever the key is already known. So the
workers end up with the same keys, and with values that were stored under
them, but a key that was stored with two values can keep one value here
and the other there: `replicas_diverge` is such a run.
`replicas_agree` is what holds in every run, for any number of workers and
any order of delivery, once every request and notification has been
processed.

The invariant behind it says two things about each entry stored so far:
whatever a worker holds, sends or is about to store is such an entry, and
its key is at every worker or on its way there.

No `sorry`, no `axiom`, no `native_decide`.
-/
import LoadBalancing.Worker.PeerConnections

namespace LoadBalancing.Worker

open LoadBalancing.Base LoadBalancing.Lib

/-! ## The entries of a run -/

/-- The entry a step stores for the load balancer; an empty key is
refused. -/
def Label.stored? : Label → Option (CString × CString)
  | .receive _ (.storeRequest payload _) =>
    match storeRequest? payload with
    | some request =>
      if request.key = CString.empty then none else some (request.key, request.value)
    | none => none
  | _ => none

/-- The entries stored by the STORE_REQUESTs of a run, in order. -/
def stores (labels : List Label) : List (CString × CString) := labels.filterMap Label.stored?

/-- The `malloc`s of a step. -/
def Label.allocated : Label → Bool
  | .receive _ (.storeRequest _ allocated) => allocated
  | .storePeerData _ allocated => allocated
  | _ => true

theorem stores_append (done : List Label) (l : Label) :
    stores (done ++ [l]) = stores done ++ l.stored?.toList := by
  cases hstored : l.stored? <;> simp [stores, hstored]

/-! ## Messages carry the entry they were made of -/

theorem receiveKeyValue_accept {key value : CString} (hkey : validateKey key = true)
    (hvalue : validateValue value = true) :
    keyValueCursor.run (lengthPrefixed key.bytes ++ lengthPrefixed value.bytes)
      = .accept (key.bytes, value.bytes) :=
  (keyValueCursor_eq_accept _ _ _).mpr ⟨((validateKey_iff key).mp hkey).2,
    (validateValue_iff value).mp hvalue, List.prefix_refl _⟩

theorem peerEntry_sendPeerNotify {key value : CString} {message : Message}
    (h : sendPeerNotify key value = some message) : peerEntry message = some (key, value) := by
  unfold sendPeerNotify at h
  split at h
  · cases h
  · rename_i hvalid
    simp only [Bool.or_eq_true, Bool.not_eq_true', not_or, Bool.not_eq_false] at hvalid
    cases h
    have hdec : receivePeerNotify (lengthPrefixed key.bytes ++ lengthPrefixed value.bytes)
        = .accept (key.bytes, value.bytes) := receiveKeyValue_accept hvalid.1 hvalid.2
    simp only [peerEntry, MessageType.ofValue?_value, hdec, CString.ofBuffer_bytes]

theorem peerEntry_entryMessage {node : DataNode} {message : Message}
    (h : entryMessage node = some message) :
    ∃ value, node.2 = some value ∧ peerEntry message = some (node.1, value) := by
  unfold entryMessage at h
  split at h
  · rename_i value hvalue
    refine ⟨value, hvalue, ?_⟩
    unfold sendDataEntry at h
    split at h
    · cases h
    · rename_i hvalid
      simp only [Bool.or_eq_true, Bool.not_eq_true', not_or, Bool.not_eq_false] at hvalid
      cases h
      have hdec : receiveDataEntry (lengthPrefixed node.1.bytes ++ lengthPrefixed value.bytes)
          = .accept (node.1.bytes, value.bytes) := receiveKeyValue_accept hvalid.1 hvalid.2
      simp only [peerEntry, MessageType.ofValue?_value, hdec, CString.ofBuffer_bytes]
  · cases h

/-- A valid entry is always sent. -/
theorem entryMessage_ne_none {node : DataNode} {value : CString} (hvalue : node.2 = some value)
    (hvalid : validateKey node.1 = true ∧ validateValue value = true) :
    entryMessage node ≠ none := by
  simp [entryMessage, hvalue, sendDataEntry, hvalid.1, hvalid.2]

/-- An exported message carries an entry of the bucket, or none. -/
theorem peerEntry_exporter {at' : ExporterAt} {message : Message} {key value : CString}
    (h : at'.message = some message) (hentry : peerEntry message = some (key, value)) :
    ∃ node ∈ at'.nodes, node = (key, some value) := by
  cases at' with
  | idle | counting | connecting => cases h
  | recounting target bucket items =>
    simp only [ExporterAt.message] at h
    split at h
    · cases h
    · cases h
      simp [peerEntry] at hentry
  | scanning target bucket =>
    simp only [ExporterAt.message] at h
    split at h
    · cases h
    · cases h
      simp [peerEntry] at hentry
  | sending target bucket nodes =>
    cases nodes with
    | nil => cases h
    | cons node nodes =>
      obtain ⟨value', hvalue, hentry'⟩ := peerEntry_entryMessage h
      rw [hentry, Option.some.injEq, Prod.mk.injEq] at hentry'
      refine ⟨node, by simp [ExporterAt.nodes], ?_⟩
      rw [hentry'.1, hentry'.2, ← hvalue]

/-- The key a listener is about to store. -/
def ListenerAt.key? : ListenerAt → Option CString
  | .idle => none
  | .storing key _ => some key

/-- The key a broadcast will still notify a worker of. -/
def ReceiverAt.notifies (w : Nat) : ReceiverAt → Option CString
  | .idle => none
  | .notifying key _ todo _ => if w ∈ todo then some key else none

namespace Cluster

/-! ## Runs of connected workers -/

/-- The condition on a step: its allocations succeed. -/
def Allocates (_ : Cluster) (l : Label) : Prop := l.allocated = true

instance (s : Cluster) (l : Label) : Decidable (Allocates s l) :=
  inferInstanceAs (Decidable (_ = _))

/-- Connected workers before the first request: empty tables, and nothing
under way. -/
structure Joined (s : Cluster) : Prop where
  connected : s.FullyConnected
  tables : ∀ w key, lookup (s.node w).table key = none
  receivers : ∀ w, (s.node w).receiver = .idle
  listeners : ∀ w, (s.node w).listener = .idle
  exporters : ∀ w, (s.node w).exporter = .idle
  channels : ∀ c, s.channel c = []

/-- Every request and every message between workers has been processed. -/
def Processed (s : Cluster) : Prop :=
  ∀ w < s.size, (s.node w).receiver = .idle ∧ (s.node w).listener = .idle ∧
    ∀ source < s.size, s.channel (source, w) = []

instance (s : Cluster) : Decidable s.Processed := by
  unfold Processed
  infer_instance

/-- All tables represent the same map. -/
def Converged (s : Cluster) : Prop :=
  ∀ i < s.size, ∀ j < s.size, ∀ key, lookup (s.node i).table key = lookup (s.node j).table key

/-! ## The invariant -/

/-- Whatever a worker holds or is about to store or send is one of the
entries `known`. -/
structure NodeKnows (known : List (CString × CString)) (n : Node) : Prop where
  table : ∀ key held, lookup n.table key = some held →
    ∃ value, held = some value ∧ (key, value) ∈ known
  receiver : ∀ key value todo removed, n.receiver = .notifying key value todo removed →
    (key, value) ∈ known ∧ removed = []
  listener : ∀ key value, n.listener = .storing key value → (key, value) ∈ known
  exporter : ∀ key value, (key, some value) ∈ n.exporter.nodes → (key, value) ∈ known

/-- A key is at a worker, or about to be stored there, or in a message to
it, or in a broadcast that will still notify it. -/
def Reaches (s : Cluster) (w : Nat) (key : CString) : Prop :=
  lookup (s.node w).table key ≠ none ∨
  (∃ value, (s.node w).listener = .storing key value) ∨
  (∃ source < s.size, ∃ message ∈ s.channel (source, w), ∃ value,
    peerEntry message = some (key, value)) ∨
  (∃ source < s.size, ∃ value todo removed,
    (s.node source).receiver = .notifying key value todo removed ∧ w ∈ todo)

instance (s : Cluster) (w : Nat) (key : CString) : Decidable (s.Reaches w key) :=
  decidable_of_iff (lookup (s.node w).table key ≠ none ∨
    (s.node w).listener.key? = some key ∨
    (∃ source < s.size, ∃ message ∈ s.channel (source, w),
      (peerEntry message).map Prod.fst = some key) ∨
    (∃ source < s.size, (s.node source).receiver.notifies w = some key)) <| by
  refine or_congr_right (or_congr ?_ (or_congr ?_ ?_))
  · cases (s.node w).listener <;> simp [ListenerAt.key?]
  · simp [Option.map_eq_some_iff]
  · refine exists_congr fun source => and_congr_right fun _ => ?_
    cases (s.node source).receiver <;> simp [ReceiverAt.notifies, and_comm]

/-- The entries `known` have valid keys and values, and are the only ones
in the cluster. -/
structure Consistent (known : List (CString × CString)) (s : Cluster) : Prop where
  valid : ∀ key value, (key, value) ∈ known →
    validateKey key = true ∧ validateValue value = true
  nodes : ∀ w, NodeKnows known (s.node w)
  channels : ∀ c, ∀ message ∈ s.channel c, ∀ key value,
    peerEntry message = some (key, value) → (key, value) ∈ known

/-- The entries `known` have valid keys and values, are the only ones in
the cluster, and reach every worker. -/
structure Replicates (known : List (CString × CString)) (s : Cluster) : Prop where
  valid : ∀ key value, (key, value) ∈ known →
    validateKey key = true ∧ validateValue value = true
  connected : s.FullyConnected
  nodes : ∀ w, NodeKnows known (s.node w)
  channels : ∀ c, ∀ message ∈ s.channel c, ∀ key value,
    peerEntry message = some (key, value) → (key, value) ∈ known
  reaches : ∀ key value, (key, value) ∈ known → ∀ w < s.size, s.Reaches w key

theorem Joined.replicates {s : Cluster} (h : s.Joined) : Replicates [] s := by
  refine ⟨nofun, h.connected, fun w => ⟨fun key held hheld => ?_,
    fun key value todo removed hr => ?_, fun key value hl => ?_, fun key value he => ?_⟩,
    fun c message hm => ?_, nofun⟩
  · rw [h.tables] at hheld
    cases hheld
  · rw [h.receivers] at hr
    cases hr
  · rw [h.listeners] at hl
    cases hl
  · rw [h.exporters] at he
    cases he
  · rw [h.channels] at hm
    cases hm

section Steps

variable {d : Delivery} {s t : Cluster} {l : Label} {known : List (CString × CString)}

theorem key_ne_empty {key : CString} (h : validateKey key = true) : key ≠ CString.empty := by
  rintro rfl
  simp [validateKey, CString.strlen] at h

/-! ## Nothing but the entries stored -/

theorem NodeKnows.mono {known' : List (CString × CString)} {n : Node} (h : NodeKnows known n)
    (hsub : ∀ entry ∈ known, entry ∈ known') : NodeKnows known' n := by
  refine ⟨fun key held hheld => ?_, fun key value todo removed hr => ?_,
    fun key value hl => hsub _ (h.listener key value hl),
    fun key value he => hsub _ (h.exporter key value he)⟩
  · obtain ⟨value, hvalue, hmem⟩ := h.table key held hheld
    exact ⟨value, hvalue, hsub _ hmem⟩
  · obtain ⟨hmem, hremoved⟩ := h.receiver key value todo removed hr
    exact ⟨hsub _ hmem, hremoved⟩

/-- Storing a known entry. -/
theorem NodeKnows.table_set {n : Node} (h : NodeKnows known n) {key value : CString}
    (hkey : key ≠ CString.empty) (hmem : (key, value) ∈ known) :
    ∀ k held, lookup (setHashTable n.table key value true).2 k = some held →
      ∃ v, held = some v ∧ (k, v) ∈ known := by
  intro k held hheld
  rw [lookup_setHashTable hkey] at hheld
  by_cases hk : k = key
  · rw [if_pos hk, Option.some.injEq] at hheld
    exact ⟨value, hheld.symm, hk ▸ hmem⟩
  · rw [if_neg hk] at hheld
    exact h.table k held hheld

theorem Consistent.mono {known' : List (CString × CString)} (h : Consistent known s)
    (hsub : ∀ entry ∈ known, entry ∈ known')
    (hvalid : ∀ key value, (key, value) ∈ known' →
      validateKey key = true ∧ validateValue value = true) : Consistent known' s :=
  ⟨hvalid, fun w => (h.nodes w).mono hsub,
    fun c message hm key value hentry => hsub _ (h.channels c message hm key value hentry)⟩

theorem Consistent.setNode (h : Consistent known s) {w : Nat} {n : Node} (hn : NodeKnows known n) :
    Consistent known (s.setNode w n) :=
  ⟨h.valid, forall_setNode h.nodes hn, h.channels⟩

/-- A message of a known entry is sent. -/
theorem Consistent.send (h : Consistent known s) (c : Nat × Nat) {message : Message}
    (hknown : ∀ key value, peerEntry message = some (key, value) → (key, value) ∈ known) :
    Consistent known (s.send c message) := by
  refine ⟨h.valid, h.nodes, ?_⟩
  intro c' m hm
  by_cases hc : c' = c
  · subst hc
    simp only [Cluster.send, Function.update_self] at hm
    rcases List.mem_append.mp hm with hm | hm
    · exact h.channels _ m hm
    · rw [List.mem_singleton.mp hm]
      exact hknown
  · simp only [Cluster.send, Function.update_of_ne hc] at hm
    exact h.channels c' m hm

/-- A message is taken off its channel. -/
theorem Consistent.setChannel (h : Consistent known s) {c : Nat × Nat} {message : Message}
    {rest : List Message} (hchannel : s.channel c = message :: rest) :
    Consistent known (s.setChannel c rest) := by
  refine ⟨h.valid, h.nodes, ?_⟩
  intro c' m hm
  by_cases hc : c' = c
  · subst hc
    simp only [Cluster.setChannel, Function.update_self] at hm
    exact h.channels _ m (by rw [hchannel]; exact List.mem_cons_of_mem _ hm)
  · simp only [Cluster.setChannel, Function.update_of_ne hc] at hm
    exact h.channels c' m hm

theorem Consistent.addPeer (h : Consistent known s) (w peer : Nat) :
    Consistent known (s.addPeer w peer) := by
  unfold Cluster.addPeer
  split
  · exact h
  · have hset := h.setNode (w := w) (n := { s.node w with peers := (s.node w).peers ++ [peer] })
      ⟨(h.nodes w).table, (h.nodes w).receiver, (h.nodes w).listener, (h.nodes w).exporter⟩
    exact ⟨hset.valid, hset.nodes, hset.channels⟩

theorem Consistent.addExportRequest (h : Consistent known s) (w target : Nat) :
    Consistent known (s.addExportRequest w target) := by
  unfold Cluster.addExportRequest
  split
  · exact h
  · exact h.setNode
      ⟨(h.nodes w).table, (h.nodes w).receiver, (h.nodes w).listener, (h.nodes w).exporter⟩

/-- An entry that a label stores has a valid key and a valid value. -/
theorem stored?_valid {key value : CString} (h : l.stored? = some (key, value)) :
    validateKey key = true ∧ validateValue value = true := by
  unfold Label.stored? at h
  split at h
  · split at h
    · rename_i request hdecode
      split at h
      · cases h
      · rename_i hkey
        cases h
        exact storeRequest?_valid hdecode hkey
    · cases h
  · cases h

theorem valid_stored
    (h : ∀ key value, (key, value) ∈ known → validateKey key = true ∧ validateValue value = true)
    (l : Label) : ∀ key value, (key, value) ∈ known ++ l.stored?.toList →
      validateKey key = true ∧ validateValue value = true := by
  intro key value hmem
  rcases List.mem_append.mp hmem with hmem | hmem
  · exact h key value hmem
  · exact stored?_valid (Option.mem_toList.mp hmem)

/-- The entry of a label may be known before it is stored. -/
theorem Consistent.stored (h : Consistent known s) (l : Label) :
    Consistent (known ++ l.stored?.toList) s :=
  h.mono (fun _ hentry => List.mem_append_left _ hentry) (valid_stored h.valid l)

/-- Nothing but a store adds an entry. -/
theorem Consistent.of_none (ht : Consistent known t) (hstored : l.stored? = none) :
    Consistent (known ++ l.stored?.toList) t := by
  rw [hstored]
  simpa using ht

/-- With memory, a store is refused for its empty key alone. -/
theorem key_empty_of_refused {table table' : HashTable} {key value : CString} {result : Int}
    (hset : setHashTable table key value true = (result, table')) (hresult : result ≠ 1) :
    key = CString.empty := by
  by_contra hkey
  have hone : (setHashTable table key value true).1 = 1 := setHashTable_eq_one.mpr ⟨hkey, rfl⟩
  rw [hset] at hone
  exact hresult hone

/-- What `l.stored?` is for a store that succeeds. -/
theorem stored?_eq_some {w : Nat} {payload : List UInt8} {allocated : Bool}
    {request : StoreRequest} {table table' : HashTable}
    (hdecode : storeRequest? payload = some request)
    (hset : setHashTable table request.key request.value allocated = (1, table')) :
    Label.stored? (.receive w (.storeRequest payload allocated))
      = some (request.key, request.value) := by
  have hkey := (setHashTable_eq_one.mp (congrArg Prod.fst hset)).1
  simp [Label.stored?, hdecode, hkey]

/-- **Every move whose allocations succeed** leaves nothing but the entries
known and the one it stores. -/
theorem consistent_move (h : Consistent known s) (hallocates : Allocates s l)
    (hmove : Move d s l t) : Consistent (known ++ l.stored?.toList) t := by
  cases hmove with
  | dropped w allocated hdecode => exact h.of_none (by simp [Label.stored?, hdecode])
  | @stored w payload allocated request table hw hidle hdecode hset =>
    obtain ⟨hkey, rfl⟩ := setHashTable_eq_one.mp (congrArg Prod.fst hset)
    obtain rfl : table = (setHashTable (s.node w).table request.key request.value true).2 := by
      rw [hset]
    have hmono := h.stored (.receive w (.storeRequest payload true))
    rw [stored?_eq_some hdecode hset, Option.toList_some] at hmono ⊢
    have hnew : (request.key, request.value) ∈ known ++ [(request.key, request.value)] := by simp
    have hknows := hmono.nodes w
    refine hmono.setNode ⟨hknows.table_set hkey hnew, ?_, hknows.listener, hknows.exporter⟩
    intro key value todo removed hr
    cases hr
    exact ⟨hnew, rfl⟩
  | @refused w payload allocated request result table hdecode hset hresult =>
    obtain rfl : allocated = true := hallocates
    have hempty := key_empty_of_refused hset hresult
    rw [hempty, setHashTable_empty] at hset
    obtain rfl := (Prod.mk.inj hset).2
    exact Consistent.of_none (h.setNode (h.nodes w)) (by simp [Label.stored?, hdecode, hempty])
  | @entry w worker shouldExportData =>
    refine Consistent.of_none ?_ rfl
    unfold receiveEntry
    split
    · exact (h.addPeer w worker).addExportRequest w worker
    · exact h.addPeer w worker
  | @notified w peer key value todo removed message hw hreceiver hmessage =>
    obtain ⟨hmem, hremoved⟩ := (h.nodes w).receiver _ _ _ _ hreceiver
    have hset := h.setNode (w := w)
      (n := { s.node w with receiver := .notifying key value todo removed })
      ⟨(h.nodes w).table, fun key' value' todo' removed' hr => by cases hr; exact ⟨hmem, hremoved⟩,
        (h.nodes w).listener, (h.nodes w).exporter⟩
    refine Consistent.of_none (hset.send (w, peer) ?_) rfl
    intro key' value' hentry
    rw [peerEntry_sendPeerNotify hmessage] at hentry
    cases hentry
    exact hmem
  | @notifyFailed w peer key value todo removed hreceiver hmessage =>
    obtain ⟨hmem, -⟩ := (h.nodes w).receiver _ _ _ _ hreceiver
    obtain ⟨hkey, hvalue⟩ := h.valid key value hmem
    exact absurd hmessage (sendPeerNotify_ne_none hkey hvalue)
  | @broadcastDone w key value removed hreceiver =>
    have hset := h.setNode (w := w) (n := { s.node w with
        receiver := .idle
        peers := (s.node w).peers.filter fun peer => peer ∉ removed })
      ⟨(h.nodes w).table, nofun, (h.nodes w).listener, (h.nodes w).exporter⟩
    exact Consistent.of_none ⟨hset.valid, hset.nodes, hset.channels⟩ rfl
  | @accepted w source rest haccepted hbacklog =>
    have hset := h.setNode (w := w) (n := { s.node w with accepted := some source })
      ⟨(h.nodes w).table, (h.nodes w).receiver, (h.nodes w).listener, (h.nodes w).exporter⟩
    exact Consistent.of_none ⟨hset.valid, hset.nodes, hset.channels⟩ rfl
  | readOther hread hchannel hentry => exact (h.setChannel hchannel).of_none rfl
  | readKnown hread hchannel hentry hhas => exact (h.setChannel hchannel).of_none rfl
  | @readNew w source message rest key value hlistener hread hchannel hentry hhas =>
    have hmem := h.channels _ message (by rw [hchannel]; exact List.mem_cons_self) key value hentry
    have hset := h.setNode (w := w) (n := { s.node w with listener := .storing key value })
      ⟨(h.nodes w).table, (h.nodes w).receiver, fun key' value' hl => by cases hl; exact hmem,
        (h.nodes w).exporter⟩
    exact Consistent.of_none (hset.setChannel hchannel) rfl
  | @hungUp w =>
    exact Consistent.of_none (h.setNode
      ⟨(h.nodes w).table, (h.nodes w).receiver, (h.nodes w).listener, (h.nodes w).exporter⟩) rfl
  | @storedPeerData w key value allocated hlistener =>
    obtain rfl : allocated = true := hallocates
    have hmem := (h.nodes w).listener key value hlistener
    have hkey := key_ne_empty (h.valid key value hmem).1
    exact Consistent.of_none (h.setNode ⟨(h.nodes w).table_set hkey hmem, (h.nodes w).receiver,
      nofun, (h.nodes w).exporter⟩) rfl
  | @exportTaken w =>
    exact Consistent.of_none (h.setNode
      ⟨(h.nodes w).table, (h.nodes w).receiver, (h.nodes w).listener, nofun⟩) rfl
  | @exportMoved w before after hexporter hquiet hconnected hnodes =>
    refine Consistent.of_none (h.setNode
      ⟨(h.nodes w).table, (h.nodes w).receiver, (h.nodes w).listener, ?_⟩) rfl
    intro key value hmem
    obtain ⟨bucket, hbucket⟩ := hnodes _ hmem
    obtain ⟨value', hvalue, hknown⟩ := (h.nodes w).table _ _ (lookup_of_mem_bucket hbucket)
    cases hvalue
    exact hknown
  | @exportSent w target before after message hexporter hmessage htarget hconnected hnodes =>
    have hbefore : ∀ key value, (key, some value) ∈ before.nodes → (key, value) ∈ known := by
      intro key value hmem
      exact (h.nodes w).exporter key value (by rw [hexporter]; exact hmem)
    have hset := h.setNode (w := w) (n := { s.node w with exporter := after })
      ⟨(h.nodes w).table, (h.nodes w).receiver, (h.nodes w).listener,
        fun key value hmem => hbefore key value (hnodes _ hmem)⟩
    refine Consistent.of_none (hset.send (w, target) ?_) rfl
    intro key value hentry
    obtain ⟨node, hnode, rfl⟩ := peerEntry_exporter hmessage hentry
    exact hbefore key value hnode

/-! ## No key loses its way -/

/-- One worker changes, and no place of the key is given up for nothing. -/
theorem Reaches.setNode {key : CString} {x w : Nat} {n : Node} (h : s.Reaches x key)
    (htable : lookup (s.node w).table key ≠ none → lookup n.table key ≠ none)
    (hlistener : ∀ value, (s.node w).listener = .storing key value →
      n.listener = .storing key value ∨ lookup n.table key ≠ none)
    (hreceiver : ∀ value todo removed, (s.node w).receiver = .notifying key value todo removed →
      x ∈ todo → (∃ todo' removed', n.receiver = .notifying key value todo' removed' ∧ x ∈ todo') ∨
        (s.setNode w n).Reaches x key) : (s.setNode w n).Reaches x key := by
  rcases h with hheld | ⟨value, hstoring⟩ | hchannel |
    ⟨source, hsource, value, todo, removed, hr, hx⟩
  · refine Or.inl ?_
    by_cases hxw : x = w
    · subst hxw
      rw [node_setNode_self]
      exact htable hheld
    · rwa [node_setNode_of_ne hxw]
  · by_cases hxw : x = w
    · subst hxw
      rcases hlistener value hstoring with hkept | hstored
      · exact Or.inr (Or.inl ⟨value, by rw [node_setNode_self]; exact hkept⟩)
      · exact Or.inl (by rw [node_setNode_self]; exact hstored)
    · exact Or.inr (Or.inl ⟨value, by rw [node_setNode_of_ne hxw]; exact hstoring⟩)
  · exact Or.inr (Or.inr (Or.inl hchannel))
  · by_cases hsw : source = w
    · subst hsw
      rcases hreceiver value todo removed hr hx with ⟨todo', removed', hr', hx'⟩ | hreaches
      · exact Or.inr (Or.inr (Or.inr ⟨source, hsource, value, todo', removed',
          by rw [node_setNode_self]; exact hr', hx'⟩))
      · exact hreaches
    · exact Or.inr (Or.inr (Or.inr ⟨source, hsource, value, todo, removed,
        by rw [node_setNode_of_ne hsw]; exact hr, hx⟩))

/-- The worker that changes keeps its table, listener and receiver. -/
theorem Reaches.setNode_same {key : CString} {x w : Nat} {n : Node} (h : s.Reaches x key)
    (htable : n.table = (s.node w).table) (hlistener : n.listener = (s.node w).listener)
    (hreceiver : n.receiver = (s.node w).receiver) : (s.setNode w n).Reaches x key := by
  refine h.setNode ?_ ?_ ?_
  · intro hheld
    rwa [htable]
  · intro value hstoring
    exact Or.inl (hlistener.trans hstoring)
  · intro value todo removed hr hx
    exact Or.inl ⟨todo, removed, hreceiver.trans hr, hx⟩

/-- A message more on a channel. -/
theorem Reaches.send {key : CString} {x : Nat} (h : s.Reaches x key) (c : Nat × Nat)
    (message : Message) : (s.send c message).Reaches x key := by
  rcases h with hheld | hstoring | ⟨source, hsource, m, hm, value, hentry⟩ | hnotifying
  · exact Or.inl hheld
  · exact Or.inr (Or.inl hstoring)
  · refine Or.inr (Or.inr (Or.inl ⟨source, hsource, m, ?_, value, hentry⟩))
    by_cases hc : (source, x) = c
    · subst hc
      simp only [Cluster.send, Function.update_self]
      exact List.mem_append_left _ hm
    · simpa only [Cluster.send, Function.update_of_ne hc] using hm
  · exact Or.inr (Or.inr (Or.inr hnotifying))

/-- A message on a channel reaches its reader. -/
theorem reaches_send {source x : Nat} {message : Message} {key value : CString}
    (hsource : source < s.size) (hentry : peerEntry message = some (key, value)) :
    (s.send (source, x) message).Reaches x key := by
  refine Or.inr (Or.inr (Or.inl ⟨source, hsource, message, ?_, value, hentry⟩))
  simp [Cluster.send]

/-- A message is taken off its channel whose key the reader knows, or that
has none. -/
theorem Reaches.setChannel {key : CString} {x w source : Nat} {message : Message}
    {rest : List Message} (h : s.Reaches x key) (hchannel : s.channel (source, w) = message :: rest)
    (hcarried : ∀ value, peerEntry message = some (key, value) →
      lookup (s.node w).table key ≠ none ∨ ∃ value, (s.node w).listener = .storing key value) :
    (s.setChannel (source, w) rest).Reaches x key := by
  rcases h with hheld | hstoring | ⟨source', hsource, m, hm, value, hentry⟩ | hnotifying
  · exact Or.inl hheld
  · exact Or.inr (Or.inl hstoring)
  · by_cases hc : (source', x) = (source, w)
    · obtain ⟨rfl, rfl⟩ := Prod.mk.inj hc
      rw [hchannel] at hm
      rcases List.mem_cons.mp hm with rfl | hm
      · -- the message read: its key is in the table or about to be stored
        rcases hcarried value hentry with hheld | hstoring
        · exact Or.inl hheld
        · exact Or.inr (Or.inl hstoring)
      · refine Or.inr (Or.inr (Or.inl ⟨source', hsource, m, ?_, value, hentry⟩))
        simpa only [Cluster.setChannel, Function.update_self] using hm
    · refine Or.inr (Or.inr (Or.inl ⟨source', hsource, m, ?_, value, hentry⟩))
      simpa only [Cluster.setChannel, Function.update_of_ne hc] using hm
  · exact Or.inr (Or.inr (Or.inr hnotifying))

theorem Reaches.addPeer {key : CString} {x : Nat} (h : s.Reaches x key) (w peer : Nat) :
    (s.addPeer w peer).Reaches x key := by
  unfold Cluster.addPeer
  split
  · exact h
  · exact h.setNode_same (w := w) (n := { s.node w with peers := (s.node w).peers ++ [peer] })
      rfl rfl rfl

theorem Reaches.addExportRequest {key : CString} {x : Nat} (h : s.Reaches x key) (w target : Nat) :
    (s.addExportRequest w target).Reaches x key := by
  unfold Cluster.addExportRequest
  split
  · exact h
  · exact h.setNode_same rfl rfl rfl

/-- **No key loses its way** to a worker in a move whose allocations
succeed. -/
theorem reaches_move (hknown : Consistent known s) (hallocates : Allocates s l)
    (hmove : Move d s l t) {key : CString} (hkey : key ≠ CString.empty) {x : Nat}
    (h : s.Reaches x key) : t.Reaches x key := by
  cases hmove with
  | dropped => exact h
  | @stored w payload allocated request table hw hidle hdecode hset =>
    obtain ⟨hkey, rfl⟩ := setHashTable_eq_one.mp (congrArg Prod.fst hset)
    obtain rfl : table = (setHashTable (s.node w).table request.key request.value true).2 := by
      rw [hset]
    refine h.setNode (lookup_set_ne_none hkey request.value) (fun value hl => Or.inl hl) ?_
    intro value todo removed hr
    rw [hidle] at hr
    cases hr
  | @refused w payload allocated request result table hdecode hset hresult =>
    obtain rfl : allocated = true := hallocates
    rw [key_empty_of_refused hset hresult, setHashTable_empty] at hset
    exact h.setNode_same (Prod.mk.inj hset).2.symm rfl rfl
  | @entry w worker shouldExportData =>
    unfold receiveEntry
    split
    · exact (h.addPeer w worker).addExportRequest w worker
    · exact h.addPeer w worker
  | @notified w peer key' value todo removed message hw hreceiver hmessage =>
    have hsent : (s.send (w, peer) message).Reaches x key := h.send (w, peer) message
    refine hsent.setNode (w := w)
      (n := { s.node w with receiver := .notifying key' value todo removed })
      (fun hheld => hheld) (fun value hl => Or.inl hl) ?_
    intro value' todo' removed' hr hx
    have hr' := hreceiver.symm.trans hr
    cases hr'
    rcases List.mem_cons.mp hx with rfl | hx
    · -- the notification of `x` has just been sent
      refine Or.inr (Or.inr (Or.inr (Or.inl ⟨w, hw, message, ?_, value,
        peerEntry_sendPeerNotify hmessage⟩)))
      simp [Cluster.send, Cluster.setNode]
    · exact Or.inl ⟨todo, removed, rfl, hx⟩
  | @notifyFailed w peer key value todo removed hreceiver hmessage =>
    obtain ⟨hmem, -⟩ := (hknown.nodes w).receiver _ _ _ _ hreceiver
    obtain ⟨hkey, hvalue⟩ := hknown.valid key value hmem
    exact absurd hmessage (sendPeerNotify_ne_none hkey hvalue)
  | @broadcastDone w key value removed hreceiver =>
    refine h.setNode (w := w) (fun hheld => hheld) (fun value hl => Or.inl hl) ?_
    intro value' todo' removed' hr hx
    rw [hreceiver] at hr
    cases hr
    cases hx
  | accepted | hungUp | exportTaken | exportMoved => exact h.setNode_same rfl rfl rfl
  | @readOther w source message rest hread hchannel hentry =>
    refine h.setChannel hchannel ?_
    intro value hsome
    rw [hentry] at hsome
    cases hsome
  | @readKnown w source message rest key value hread hchannel hentry hhas =>
    refine h.setChannel hchannel ?_
    intro value' hsome
    rw [hentry] at hsome
    cases hsome
    exact Or.inl fun hnone => hhas (hasHashTable_eq_zero.mpr ⟨hkey, hnone⟩)
  | @readNew w source message rest key' value hlistener hread hchannel hentry hhas =>
    refine Reaches.setChannel (s := s.setNode w { s.node w with listener := .storing key' value })
      ?_ hchannel ?_
    · refine h.setNode (fun hheld => hheld) ?_ fun value todo removed hr hx =>
        Or.inl ⟨todo, removed, hr, hx⟩
      intro value' hl
      rw [hlistener] at hl
      cases hl
    · intro value' hsome
      rw [hentry] at hsome
      cases hsome
      exact Or.inr ⟨value, by rw [node_setNode_self]⟩
  | @storedPeerData w key' value allocated hlistener =>
    obtain rfl : allocated = true := hallocates
    have hmem := (hknown.nodes w).listener key' value hlistener
    have hkey' := key_ne_empty (hknown.valid key' value hmem).1
    refine h.setNode (lookup_set_ne_none hkey' value) ?_ fun value todo removed hr hx =>
      Or.inl ⟨todo, removed, hr, hx⟩
    intro value' hl
    rw [hlistener] at hl
    cases hl
    refine Or.inr ?_
    rw [lookup_setHashTable hkey']
    simp
  | @exportSent w target before after message =>
    have hset := h.setNode_same (w := w) (n := { s.node w with exporter := after }) rfl rfl rfl
    exact hset.send (w, target) message

/-- Connections are only added. -/
theorem peers_move (hknown : Consistent known s) (hmove : Move d s l t) (x : Nat) :
    ∀ peer ∈ (s.node x).peers, peer ∈ (t.node x).peers := by
  have hsame : ∀ {w : Nat} {n : Node}, n.peers = (s.node w).peers →
      ∀ peer ∈ (s.node x).peers, peer ∈ ((s.setNode w n).node x).peers := by
    intro w n hpeers peer hpeer
    rwa [proj_setNode Node.peers hpeers x]
  have hadd : ∀ w peer', ∀ peer ∈ (s.node x).peers, peer ∈ ((s.addPeer w peer').node x).peers := by
    intro w peer' peer hpeer
    unfold addPeer
    split
    · exact hpeer
    · by_cases hx : x = w
      · subst hx
        simp only [setNode, Function.update_self]
        exact List.mem_append_left _ hpeer
      · simpa only [setNode, Function.update_of_ne hx] using hpeer
  cases hmove with
  | dropped | readOther | readKnown => exact fun _ hpeer => hpeer
  | @entry w worker shouldExportData =>
    intro peer hpeer
    unfold receiveEntry
    split
    · rw [(sameWiring_addExportRequest _ w worker).peers_eq]
      exact hadd w worker peer hpeer
    · exact hadd w worker peer hpeer
  | @broadcastDone w key value removed hreceiver =>
    obtain ⟨-, rfl⟩ := (hknown.nodes w).receiver _ _ _ _ hreceiver
    exact hsame (by simp)
  | stored | refused | notified | notifyFailed | accepted | readNew | hungUp | storedPeerData
  | exportTaken | exportMoved | exportSent => exact hsame rfl

/-- **A store** puts its key where the worker itself and its peers will
find it. -/
theorem reaches_stored {w : Nat} {request : StoreRequest} {table : HashTable}
    {allocated : Bool} (hw : w < s.size)
    (hset : setHashTable (s.node w).table request.key request.value allocated = (1, table))
    {x : Nat} (hx : x = w ∨ x ∈ (s.node w).peers) :
    (s.setNode w { s.node w with
      table := table
      receiver := .notifying request.key request.value (s.node w).peers [] }).Reaches x
      request.key := by
  rcases hx with rfl | hx
  · obtain ⟨hkey, rfl⟩ := setHashTable_eq_one.mp (congrArg Prod.fst hset)
    refine Or.inl ?_
    obtain rfl : table = (setHashTable (s.node x).table request.key request.value true).2 := by
      rw [hset]
    rw [node_setNode_self, lookup_setHashTable hkey]
    simp
  · exact Or.inr (Or.inr (Or.inr ⟨w, hw, request.value, (s.node w).peers, [],
      by rw [node_setNode_self], hx⟩))

/-! ## The invariant of connected workers -/

theorem Replicates.consistent (h : Replicates known s) : Consistent known s :=
  ⟨h.valid, h.nodes, h.channels⟩

/-- The entry a worker stores reaches it and its peers. -/
theorem reaches_new {w : Nat} {request : Request} (hallocates : Allocates s (.receive w request))
    (hmove : Move d s (.receive w request) t) {key value : CString}
    (hstored : Label.stored? (.receive w request) = some (key, value)) {x : Nat}
    (hx : w < s.size → x = w ∨ x ∈ (s.node w).peers) : t.Reaches x key := by
  cases hmove with
  | dropped w allocated hdecode => simp [Label.stored?, hdecode] at hstored
  | @stored w payload allocated request table hw hidle hdecode hset =>
    rw [stored?_eq_some hdecode hset] at hstored
    cases hstored
    exact reaches_stored hw hset (hx hw)
  | @refused w payload allocated request result table hdecode hset hresult =>
    obtain rfl : allocated = true := hallocates
    simp [Label.stored?, hdecode, key_empty_of_refused hset hresult] at hstored
  | entry => cases hstored

/-- **Every move whose allocations succeed keeps the invariant**, with the
entry it stores. -/
theorem replicates_move {done : List Label} (h : Replicates (stores done) s)
    (hallocates : Allocates s l) (hmove : Move d s l t) :
    Replicates (stores (done ++ [l])) t := by
  rw [stores_append]
  have hconsistent := consistent_move h.consistent hallocates hmove
  refine ⟨hconsistent.valid, ?_, hconsistent.nodes, hconsistent.channels, ?_⟩
  · intro i hi j hj hij
    rw [size_move hmove] at hi hj
    exact peers_move h.consistent hmove i j (h.connected i hi j hj hij)
  · intro key value hmem x hx
    rw [size_move hmove] at hx
    rcases List.mem_append.mp hmem with hmem | hmem
    · have hkey := key_ne_empty (h.valid key value hmem).1
      exact reaches_move h.consistent hallocates hmove hkey (h.reaches key value hmem x hx)
    · have hstored := Option.mem_toList.mp hmem
      cases l with
      | receive w request =>
        refine reaches_new hallocates hmove hstored ?_
        intro hw
        by_cases hxw : x = w
        · exact Or.inl hxw
        · exact Or.inr (h.connected w hw x hx fun heq => hxw heq.symm)
      | notify | accept | read | hangUp | storePeerData | runExport => cases hstored

end Steps

/-! ## Runs -/

/-- With nothing under way, what reaches a worker is there. -/
theorem Processed.held {s : Cluster} (hprocessed : s.Processed) {w : Nat} (hw : w < s.size)
    {key : CString} (h : s.Reaches w key) : lookup (s.node w).table key ≠ none := by
  obtain ⟨-, hlistener, hchannel⟩ := hprocessed w hw
  rcases h with hheld | ⟨value, hstoring⟩ | ⟨source, hsource, message, hmessage, -⟩ |
    ⟨source, hsource, value, todo, removed, hr, -⟩
  · exact hheld
  · rw [hlistener] at hstoring
    cases hstoring
  · rw [hchannel source hsource] at hmessage
    cases hmessage
  · rw [(hprocessed source hsource).1] at hr
    cases hr

/-- **What replicas agree on.** In every run of connected workers whose
allocations succeed, whatever the order of delivery, once every request
and message has been processed each table holds exactly the keys stored,
under each key a value stored for it, and therefore the same value at
every worker under a key stored with one value only. -/
theorem replicas_agree (d : Delivery) {s t : Cluster} {ls : List Label} (hs : s.Joined)
    (hallocates : Along (step d) Allocates s ls) (hrun : exec (step d) s ls = some t)
    (hprocessed : t.Processed) (key : CString) :
    (∀ w < t.size, (lookup (t.node w).table key = none ↔ ∀ value, (key, value) ∉ stores ls) ∧
      ∀ held, lookup (t.node w).table key = some held →
        ∃ value, held = some value ∧ (key, value) ∈ stores ls) ∧
    ((∀ value value', (key, value) ∈ stores ls → (key, value') ∈ stores ls → value = value') →
      ∀ i < t.size, ∀ j < t.size,
        lookup (t.node i).table key = lookup (t.node j).table key) := by
  have h : Replicates (stores ([] ++ ls)) t :=
    exec_history_along (I := fun done s => Replicates (stores done) s)
      (fun done _ _ _ h hl hstep => replicates_move h hl (step_move hstep)) []
      hs.replicates hallocates hrun
  rw [List.nil_append] at h
  have hheld : ∀ w < t.size, ∀ value, (key, value) ∈ stores ls →
      lookup (t.node w).table key ≠ none := by
    intro w hw value hmem
    exact hprocessed.held hw (h.reaches key value hmem w hw)
  have hstored : ∀ w held, lookup (t.node w).table key = some held →
      ∃ value, held = some value ∧ (key, value) ∈ stores ls := fun w => (h.nodes w).table key
  refine ⟨fun w hw => ⟨⟨fun hnone value hmem => hheld w hw value hmem hnone, fun hnone => ?_⟩,
    hstored w⟩, fun hone i hi j hj => ?_⟩
  · cases hlookup : lookup (t.node w).table key with
    | none => rfl
    | some held =>
      obtain ⟨value, -, hmem⟩ := hstored w held hlookup
      exact absurd hmem (hnone value)
  · cases hi' : lookup (t.node i).table key with
    | none =>
      cases hj' : lookup (t.node j).table key with
      | none => rfl
      | some held =>
        obtain ⟨value, -, hmem⟩ := hstored j held hj'
        exact absurd hi' (hheld i hi value hmem)
    | some held =>
      obtain ⟨value, rfl, hmem⟩ := hstored i held hi'
      cases hj' : lookup (t.node j).table key with
      | none => exact absurd hj' (hheld j hj value hmem)
      | some held' =>
        obtain ⟨value', rfl, hmem'⟩ := hstored j held' hj'
        rw [hone value value' hmem hmem']

/-! ## Two workers -/

/-- Two connected workers, each with the other's connection accepted. -/
def pair : Cluster :=
  { start 2 with
    node := fun w => { Node.fresh with peers := [1 - w], accepted := some (1 - w) } }

theorem joined_pair : Joined pair :=
  ⟨by decide +kernel, fun _ _ => rfl, fun _ => rfl, fun _ => rfl, fun _ => rfl, fun _ => rfl⟩

/-- `receive` and the rest of the broadcast to the one peer. -/
def storeAt (w : Nat) (value : UInt8) (allocated : Bool) : List Label :=
  [.receive w (.storeRequest (storePayload value) allocated), .notify w, .notify w]

theorem replicas_agree_pair :
    ∃ t, exec (step .firstAccepted) pair
        (storeAt 0 118 true ++ [.read 1 0, .storePeerData 1 true]) = some t ∧
      lookup (t.node 0).table (CString.ofString "k")
        = lookup (t.node 1).table (CString.ofString "k") := by
  obtain ⟨t, hrun, hprocessed, hsize⟩ : ∃ t, exec (step .firstAccepted) pair
      (storeAt 0 118 true ++ [.read 1 0, .storePeerData 1 true]) = some t ∧ t.Processed ∧
      t.size = 2 := ⟨_, rfl, by decide +kernel, rfl⟩
  refine ⟨t, hrun, (replicas_agree .firstAccepted joined_pair (by decide +kernel) hrun hprocessed
    (CString.ofString "k")).2 ?_ 0 (by omega) 1 (by omega)⟩
  have hstores : stores (storeAt 0 118 true ++ [.read 1 0, .storePeerData 1 true])
      = [(CString.ofString "k", CString.ofString "v")] := by decide +kernel
  intro value value' hmem hmem'
  simp only [hstores, List.mem_singleton, Prod.mk.injEq] at hmem hmem'
  rw [hmem.2, hmem'.2]

/-- **Replicas diverge**: with a key stored at both workers before either
notification arrives, each keeps its own value; and a key whose only store
finds no memory at the peer stays unknown there. -/
theorem replicas_diverge :
    (∃ t, exec (step .firstAccepted) pair
        (storeAt 0 97 true ++ storeAt 1 98 true ++ [.read 1 0, .read 0 1]) = some t ∧
      t.Processed ∧ ¬ t.Converged) ∧
    (∃ t, exec (step .firstAccepted) pair
        (storeAt 0 97 true ++ [.read 1 0, .storePeerData 1 false]) = some t ∧
      t.Processed ∧ ¬ t.Converged) := by
  refine ⟨⟨_, rfl, by decide +kernel, fun h => ?_⟩, ⟨_, rfl, by decide +kernel, fun h => ?_⟩⟩
  · exact absurd (h 0 (by decide) 1 (by decide) (CString.ofString "k")) (by decide +kernel)
  · exact absurd (h 0 (by decide) 1 (by decide) (CString.ofString "k")) (by decide +kernel)

end Cluster

end LoadBalancing.Worker
