/-
LoadBalancing.Worker.StoredValues — whose values the workers hold, and
which keys they keep, when anything can fail.

`Worker.Replication` follows the entries of connected workers whose
allocations succeed. Here allocations fail as they like, and connections
come and break: `Holds` says that every value a worker holds, sends or is
about to store has been put under its key, and `holds_move` that each
step keeps that. A failed update leaves a key without a value, but no step
ever loses a key (`keeps_move`).

No `sorry`, no `axiom`, no `native_decide`.
-/
import LoadBalancing.Worker.Replication

namespace LoadBalancing.Worker

open LoadBalancing.Base LoadBalancing.Lib

/-! ## Tables -/

/-- Behind a store a value is the one stored, or was there before. -/
theorem lookup_setHashTable_some {table : HashTable} {key value k v : CString} {allocated : Bool}
    (h : lookup (setHashTable table key value allocated).2 k = some (some v)) :
    k = key ∧ v = value ∨ lookup table k = some (some v) := by
  by_cases hkey : key = CString.empty
  · rw [hkey, setHashTable_empty] at h
    exact Or.inr h
  · by_cases hk : k = key
    · subst hk
      cases allocated with
      | true =>
        rw [lookup_setHashTable hkey, if_pos rfl] at h
        cases h
        exact Or.inl ⟨rfl, rfl⟩
      | false =>
        by_cases hfresh : lookup table k = none
        · rw [setHashTable_failed hfresh] at h
          exact Or.inr h
        · rw [lookup_setHashTable_failed hkey hfresh] at h
          cases h
    · rw [lookup_setHashTable_of_ne hk] at h
      exact Or.inr h

/-- No store loses a key, with memory or without. -/
theorem lookup_setHashTable_ne_none {table : HashTable} {k : CString} (key value : CString)
    (allocated : Bool) (h : lookup table k ≠ none) :
    lookup (setHashTable table key value allocated).2 k ≠ none := by
  by_cases hkey : key = CString.empty
  · rwa [hkey, setHashTable_empty]
  · cases allocated with
    | true => exact lookup_set_ne_none hkey value h
    | false =>
      by_cases hk : k = key
      · subst hk
        rw [lookup_setHashTable_failed hkey h]
        exact Option.some_ne_none _
      · rwa [lookup_setHashTable_of_ne hk]

/-- A lookup answers with what the table holds. -/
theorem lookup_of_getHashTable {table : HashTable} {key value : CString} {allocated : Bool}
    (h : getHashTable table key allocated = .accept (some value)) :
    lookup table key = some (some value) := by
  unfold getHashTable at h
  split at h
  · cases h
  · split at h
    · cases h
    · cases h
    · rename_i held hfind
      cases allocated
      · cases h
      · cases h
        exact hfind

/-! ## Workers -/

/-- Whatever a worker holds or is about to store or send was put. -/
structure NodeHolds (Put : CString → CString → Prop) (n : Node) : Prop where
  table : ∀ key value, lookup n.table key = some (some value) → Put key value
  receiver : ∀ key value todo removed, n.receiver = .notifying key value todo removed →
    Put key value
  listener : ∀ key value, n.listener = .storing key value → Put key value
  exporter : ∀ key value, (key, some value) ∈ n.exporter.nodes → Put key value

/-- A store of what was put. -/
theorem NodeHolds.table_set {Put : CString → CString → Prop} {n : Node} (h : NodeHolds Put n)
    {key value : CString} (hput : Put key value) (allocated : Bool) :
    ∀ k v, lookup (setHashTable n.table key value allocated).2 k = some (some v) → Put k v := by
  intro k v hlookup
  rcases lookup_setHashTable_some hlookup with ⟨rfl, rfl⟩ | hbefore
  · exact hput
  · exact h.table k v hbefore

/-- The request a step stores for the load balancer. -/
def Label.request? : Label → Option StoreRequest
  | .receive _ (.storeRequest payload _) => storeRequest? payload
  | _ => none

namespace Cluster

/-- So is whatever is on a connection. -/
structure Holds (Put : CString → CString → Prop) (s : Cluster) : Prop where
  nodes : ∀ w, NodeHolds Put (s.node w)
  channels : ∀ c, ∀ message ∈ s.channel c, ∀ key value,
    peerEntry message = some (key, value) → Put key value

variable {Put : CString → CString → Prop} {d : Delivery} {s t : Cluster} {l : Label}

theorem holds_start (Put : CString → CString → Prop) (n : Nat) : Holds Put (start n) := by
  refine ⟨fun w => ⟨fun key value h => ?_, fun key value todo removed h => ?_,
    fun key value h => ?_, fun key value h => ?_⟩, fun c message h => ?_⟩
  · cases h
  · cases h
  · cases h
  · cases h
  · cases h

/-- More may have been put. -/
theorem Holds.mono {Put' : CString → CString → Prop} (h : Holds Put s)
    (hsub : ∀ key value, Put key value → Put' key value) : Holds Put' s := by
  refine ⟨fun w => ⟨fun key value ht => hsub _ _ ((h.nodes w).table key value ht),
    fun key value todo removed hr => hsub _ _ ((h.nodes w).receiver key value todo removed hr),
    fun key value hl => hsub _ _ ((h.nodes w).listener key value hl),
    fun key value he => hsub _ _ ((h.nodes w).exporter key value he)⟩,
    fun c message hm key value hentry => hsub _ _ (h.channels c message hm key value hentry)⟩

theorem Holds.setNode (h : Holds Put s) {w : Nat} {n : Node} (hn : NodeHolds Put n) :
    Holds Put (s.setNode w n) :=
  ⟨forall_setNode h.nodes hn, h.channels⟩

/-- A message of what was put. -/
theorem Holds.send (h : Holds Put s) (c : Nat × Nat) {message : Message}
    (hput : ∀ key value, peerEntry message = some (key, value) → Put key value) :
    Holds Put (s.send c message) := by
  refine ⟨h.nodes, ?_⟩
  intro c' m hm
  by_cases hc : c' = c
  · subst hc
    simp only [Cluster.send, Function.update_self] at hm
    rcases List.mem_append.mp hm with hm | hm
    · exact h.channels _ m hm
    · rw [List.mem_singleton.mp hm]
      exact hput
  · simp only [Cluster.send, Function.update_of_ne hc] at hm
    exact h.channels c' m hm

/-- Messages are read, or lost. -/
theorem Holds.setChannel (h : Holds Put s) (c : Nat × Nat) {rest : List Message}
    (hrest : rest ⊆ s.channel c) : Holds Put (s.setChannel c rest) := by
  refine ⟨h.nodes, ?_⟩
  intro c' m hm
  by_cases hc : c' = c
  · subst hc
    simp only [Cluster.setChannel, Function.update_self] at hm
    exact h.channels _ m (hrest hm)
  · simp only [Cluster.setChannel, Function.update_of_ne hc] at hm
    exact h.channels c' m hm

theorem Holds.setExporter (h : Holds Put s) {w : Nat} {place : ExporterAt}
    (hplace : ∀ key value, (key, some value) ∈ place.nodes → Put key value) :
    Holds Put (s.setExporter w place) :=
  h.setNode ⟨(h.nodes w).table, (h.nodes w).receiver, (h.nodes w).listener, hplace⟩

theorem Holds.addPeer (h : Holds Put s) (w peer : Nat) : Holds Put (s.addPeer w peer) := by
  unfold Cluster.addPeer
  split
  · exact h
  · have hset := h.setNode (w := w) (n := { s.node w with peers := (s.node w).peers ++ [peer] })
      ⟨(h.nodes w).table, (h.nodes w).receiver, (h.nodes w).listener, (h.nodes w).exporter⟩
    exact ⟨hset.nodes, hset.channels⟩

theorem Holds.addExportRequest (h : Holds Put s) (w target : Nat) :
    Holds Put (s.addExportRequest w target) := by
  unfold Cluster.addExportRequest
  split
  · exact h
  · exact h.setNode
      ⟨(h.nodes w).table, (h.nodes w).receiver, (h.nodes w).listener, (h.nodes w).exporter⟩

/-- **Every step**, whether its allocations succeed or fail, leaves nothing
but what was put, if what it stores was. -/
theorem holds_move (h : Holds Put s) (hmove : Move d s l t)
    (hput : ∀ request, l.request? = some request → Put request.key request.value) :
    Holds Put t := by
  cases hmove with
  | dropped => exact h
  | @stored w payload allocated request table hw hidle hdecode hset =>
    have hnew := hput request hdecode
    obtain rfl : table = (setHashTable (s.node w).table request.key request.value allocated).2 := by
      rw [hset]
    refine h.setNode ⟨(h.nodes w).table_set hnew allocated, ?_, (h.nodes w).listener,
      (h.nodes w).exporter⟩
    intro key value todo removed hr
    cases hr
    exact hnew
  | @refused w payload allocated request result table hdecode hset hresult =>
    have hnew := hput request hdecode
    obtain rfl : table = (setHashTable (s.node w).table request.key request.value allocated).2 := by
      rw [hset]
    exact h.setNode ⟨(h.nodes w).table_set hnew allocated, (h.nodes w).receiver,
      (h.nodes w).listener, (h.nodes w).exporter⟩
  | @entry w worker shouldExportData =>
    unfold receiveEntry
    split
    · exact (h.addPeer w worker).addExportRequest w worker
    · exact h.addPeer w worker
  | @notified w peer key value todo removed message hw hreceiver hmessage =>
    have hnew := (h.nodes w).receiver _ _ _ _ hreceiver
    have hset := h.setNode (w := w)
      (n := { s.node w with receiver := .notifying key value todo removed })
      ⟨(h.nodes w).table, fun key' value' todo' removed' hr => by cases hr; exact hnew,
        (h.nodes w).listener, (h.nodes w).exporter⟩
    refine hset.send (w, peer) ?_
    intro key' value' hentry
    rw [peerEntry_sendPeerNotify hmessage] at hentry
    cases hentry
    exact hnew
  | @notifyFailed w peer key value todo removed hreceiver hmessage =>
    have hnew := (h.nodes w).receiver _ _ _ _ hreceiver
    refine h.setNode ⟨(h.nodes w).table, ?_, (h.nodes w).listener, (h.nodes w).exporter⟩
    intro key' value' todo' removed' hr
    cases hr
    exact hnew
  | @broadcastDone w key value removed hreceiver =>
    have hset := h.setNode (w := w) (n := { s.node w with
        receiver := .idle
        peers := (s.node w).peers.filter fun peer => peer ∉ removed })
      ⟨(h.nodes w).table, fun key value todo removed hr => (by cases hr), (h.nodes w).listener,
        (h.nodes w).exporter⟩
    exact ⟨hset.nodes, hset.channels⟩
  | @accepted w source rest haccepted hbacklog =>
    have hset := h.setNode (w := w) (n := { s.node w with accepted := some source })
      ⟨(h.nodes w).table, (h.nodes w).receiver, (h.nodes w).listener, (h.nodes w).exporter⟩
    exact ⟨hset.nodes, hset.channels⟩
  | readOther hread hchannel hentry =>
    exact h.setChannel _ (by rw [hchannel]; exact List.subset_cons_self _ _)
  | readKnown hread hchannel hentry hhas =>
    exact h.setChannel _ (by rw [hchannel]; exact List.subset_cons_self _ _)
  | @readNew w source message rest key value hlistener hread hchannel hentry hhas =>
    have hnew := h.channels _ message (by rw [hchannel]; exact List.mem_cons_self) key value hentry
    have hset := h.setNode (w := w) (n := { s.node w with listener := .storing key value })
      ⟨(h.nodes w).table, (h.nodes w).receiver, fun key' value' hl => by cases hl; exact hnew,
        (h.nodes w).exporter⟩
    refine hset.setChannel _ ?_
    change rest ⊆ s.channel (source, w)
    rw [hchannel]
    exact List.subset_cons_self _ _
  | @hungUp w =>
    exact h.setNode
      ⟨(h.nodes w).table, (h.nodes w).receiver, (h.nodes w).listener, (h.nodes w).exporter⟩
  | @storedPeerData w key value allocated hlistener =>
    exact h.setNode ⟨(h.nodes w).table_set ((h.nodes w).listener key value hlistener) allocated,
      (h.nodes w).receiver, fun key value hl => (by cases hl), (h.nodes w).exporter⟩
  | @exportTaken w =>
    exact h.setNode
      ⟨(h.nodes w).table, (h.nodes w).receiver, (h.nodes w).listener,
        fun key value he => by cases he⟩
  | @exportMoved w before after hexporter hquiet hconnected hnodes =>
    refine h.setExporter ?_
    intro key value hmem
    obtain ⟨bucket, hbucket⟩ := hnodes _ hmem
    exact (h.nodes w).table _ _ (lookup_of_mem_bucket hbucket)
  | @exportSent w target before after message hexporter hmessage htarget hconnected hnodes =>
    have hbefore : ∀ key value, (key, some value) ∈ before.nodes → Put key value := by
      intro key value hmem
      exact (h.nodes w).exporter key value (by rw [hexporter]; exact hmem)
    refine (h.setExporter fun key value hmem => hbefore key value (hnodes _ hmem)).send
      (w, target) ?_
    intro key value hentry
    obtain ⟨node, hnode, rfl⟩ := peerEntry_exporter hmessage hentry
    exact hbefore key value hnode

/-! ## Keys -/

/-- No worker has lost a key. -/
def Keeps (s t : Cluster) : Prop :=
  ∀ w key, lookup (s.node w).table key ≠ none → lookup (t.node w).table key ≠ none

theorem Keeps.refl (s : Cluster) : Keeps s s := fun _ _ h => h

theorem Keeps.trans {u : Cluster} (h : Keeps s t) (h' : Keeps t u) : Keeps s u :=
  fun w key hkey => h' w key (h w key hkey)

/-- A worker whose table is left alone. -/
theorem keeps_setNode {w : Nat} {n : Node}
    (h : ∀ key, lookup (s.node w).table key ≠ none → lookup n.table key ≠ none) :
    Keeps s (s.setNode w n) := by
  intro x key hkey
  by_cases hx : x = w
  · subst hx
    rw [node_setNode_self]
    exact h key hkey
  · rwa [node_setNode_of_ne hx]

theorem keeps_addPeer (w peer : Nat) : Keeps s (s.addPeer w peer) := by
  unfold Cluster.addPeer
  split
  · exact Keeps.refl s
  · exact keeps_setNode fun key h => h

theorem keeps_addExportRequest (w target : Nat) : Keeps s (s.addExportRequest w target) := by
  unfold Cluster.addExportRequest
  split
  · exact Keeps.refl s
  · exact keeps_setNode fun key h => h

/-- **No step loses a key.** -/
theorem keeps_move (hmove : Move d s l t) : Keeps s t := by
  cases hmove with
  | dropped => exact Keeps.refl s
  | @stored w payload allocated request table hw hidle hdecode hset =>
    obtain rfl : table = (setHashTable (s.node w).table request.key request.value allocated).2 := by
      rw [hset]
    exact keeps_setNode fun key h => lookup_setHashTable_ne_none _ _ _ h
  | @refused w payload allocated request result table hdecode hset hresult =>
    obtain rfl : table = (setHashTable (s.node w).table request.key request.value allocated).2 := by
      rw [hset]
    exact keeps_setNode fun key h => lookup_setHashTable_ne_none _ _ _ h
  | @entry w worker shouldExportData =>
    unfold receiveEntry
    split
    · exact (keeps_addPeer w worker).trans (keeps_addExportRequest w worker)
    · exact keeps_addPeer w worker
  | storedPeerData allocated hlistener =>
    exact keeps_setNode fun key h => lookup_setHashTable_ne_none _ _ _ h
  | readOther | readKnown => exact Keeps.refl s
  | _ => exact keeps_setNode fun key h => h

end Cluster

end LoadBalancing.Worker
