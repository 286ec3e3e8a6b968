/-
LoadBalancing.Worker.ExportGap — an export and the live broadcasts next to
it leave no gap at the worker they come from.

One worker takes steps: its receiver thread, which stores and broadcasts
and reads WORKER_ENTRYs, and its export thread, which copies one bucket
after the other under the bucket's lock. Nobody reads the connections, so
each holds everything that was ever sent on it.

A WORKER_ENTRY registers the target before it queues the export, and both
are done by the thread that stores. So a key in the table is sent, or the
broadcast of its store has still to come to the target, or the export will
come to it (`Covered`). The scan passes a bucket only when it has copied
it, and whatever is stored behind it is broadcast. `Sound` says that
nothing is sent but what was stored.

The `malloc`s of the stores may fail. An entry that loses its value this
way cannot be sent, and `SendsEntry` says that no such send is made.

No `sorry`, no `axiom`, no `native_decide`.
-/
import LoadBalancing.Worker.ExportThread

namespace LoadBalancing.Worker

open LoadBalancing.Base LoadBalancing.Lib

/-! ## One worker -/

/-- A step of the receiver thread or the export thread of this worker. -/
def Label.isOwn (w : Nat) : Label → Bool
  | .receive x _ | .notify x | .runExport x => x == w
  | _ => false

/-- The entry the export thread sends next. -/
def ExporterAt.nextEntry : ExporterAt → Option DataNode
  | .sending _ _ (node :: _) => some node
  | _ => none

/-- The export will come to this key, if the table holds it. A count that
has found nothing so far has the key still before it. -/
def ExporterAt.WillSend (target : Nat) (key : CString) : ExporterAt → Prop
  | .idle => False
  | .counting t bucket items => t = target ∧ (0 < items ∨ bucket ≤ (hashFunction key).val)
  | .connecting t | .recounting t _ _ => t = target
  | .scanning t bucket => t = target ∧ bucket ≤ (hashFunction key).val
  | .sending t bucket nodes =>
    t = target ∧ (bucket < (hashFunction key).val ∨ ∃ node ∈ nodes, node.1 = key)

/-- An export that will come to a key has its target. -/
theorem ExporterAt.WillSend.target_eq {place : ExporterAt} {target : Nat} {key : CString}
    (h : place.WillSend target key) : place.target = some target := by
  cases place with
  | idle => cases h
  | counting t bucket items => exact congrArg some h.1
  | connecting t => exact congrArg some h
  | recounting t bucket items => exact congrArg some h
  | scanning t bucket => exact congrArg some h.1
  | sending t bucket nodes => exact congrArg some h.1

namespace Cluster

/-- The export thread of this worker does not fail to send an entry. -/
def SendsEntry (w : Nat) (s : Cluster) : Label → Prop
  | .runExport _ =>
    ((s.node w).exporter.nextEntry.all fun node => (entryMessage node).isSome) = true
  | _ => True

instance (w : Nat) (s : Cluster) (l : Label) : Decidable (SendsEntry w s l) := by
  unfold SendsEntry
  split <;> infer_instance

/-- The key was sent to the target in a DATA_ENTRY or a PEER_NOTIFY. -/
def Sent (w target : Nat) (key : CString) (s : Cluster) : Prop :=
  ∃ message ∈ s.channel (w, target), ∃ value, peerEntry message = some (key, value)

/-- The stores and the export to this target are finished. -/
structure Finished (w target : Nat) (s : Cluster) : Prop where
  receiver : (s.node w).receiver = .idle
  queue : target ∉ (s.node w).exportQueue
  exporter : (s.node w).exporter.target ≠ some target

/-! ## Nothing is sent but what was stored -/

/-- The entries `known` are the only ones that this worker holds or has
sent. A value may be missing. -/
structure Sound (w : Nat) (known : List (CString × CString)) (s : Cluster) : Prop where
  valid : ∀ key value, (key, value) ∈ known →
    validateKey key = true ∧ validateValue value = true
  table : ∀ key value, lookup (s.node w).table key = some (some value) → (key, value) ∈ known
  nodes : ∀ key value, (key, some value) ∈ (s.node w).exporter.nodes → (key, value) ∈ known
  receiver : ∀ key value todo removed,
    (s.node w).receiver = .notifying key value todo removed →
      (key, value) ∈ known ∧ removed = []
  channels : ∀ target, ∀ message ∈ s.channel (w, target), ∀ key value,
    peerEntry message = some (key, value) → (key, value) ∈ known

theorem sound_start (w n : Nat) : Sound w [] (start n) := by
  refine ⟨nofun, fun key value h => ?_, nofun, fun key value todo removed h => ?_,
    fun target message hm => ?_⟩
  · cases h
  · cases h
  · cases hm

section Sound

variable {d : Delivery} {w : Nat} {s t : Cluster} {l : Label} {known : List (CString × CString)}

theorem Sound.mono {known' : List (CString × CString)} (h : Sound w known s)
    (hsub : ∀ entry ∈ known, entry ∈ known')
    (hvalid : ∀ key value, (key, value) ∈ known' →
      validateKey key = true ∧ validateValue value = true) : Sound w known' s where
  valid := hvalid
  table := fun key value hheld => hsub _ (h.table key value hheld)
  nodes := fun key value hnode => hsub _ (h.nodes key value hnode)
  receiver := fun key value todo removed hreceiver =>
    ⟨hsub _ (h.receiver key value todo removed hreceiver).1,
      (h.receiver key value todo removed hreceiver).2⟩
  channels := fun target message hm key value hentry =>
    hsub _ (h.channels target message hm key value hentry)

/-- The entry of a label may be known before it is stored. -/
theorem Sound.stored (h : Sound w known s) (l : Label) : Sound w (known ++ l.stored?.toList) s :=
  h.mono (fun _ hentry => List.mem_append_left _ hentry) (valid_stored h.valid l)

/-- The worker's threads move. -/
theorem Sound.setNode (h : Sound w known s) {n : Node}
    (htable : ∀ key value, lookup n.table key = some (some value) → (key, value) ∈ known)
    (hnodes : ∀ key value, (key, some value) ∈ n.exporter.nodes → (key, value) ∈ known)
    (hreceiver : ∀ key value todo removed, n.receiver = .notifying key value todo removed →
      (key, value) ∈ known ∧ removed = []) : Sound w known (s.setNode w n) := by
  refine ⟨h.valid, ?_, ?_, ?_, h.channels⟩
  · rw [node_setNode_self]; exact htable
  · rw [node_setNode_self]; exact hnodes
  · rw [node_setNode_self]; exact hreceiver

/-- The worker sends a message of a known entry, or of none. -/
theorem Sound.send (h : Sound w known s) (target : Nat) {message : Message}
    (hknown : ∀ key value, peerEntry message = some (key, value) → (key, value) ∈ known) :
    Sound w known (s.send (w, target) message) := by
  refine ⟨h.valid, h.table, h.nodes, h.receiver, ?_⟩
  intro peer m hm
  by_cases hpeer : peer = target
  · subst hpeer
    simp only [Cluster.send, Function.update_self] at hm
    rcases List.mem_append.mp hm with hm | hm
    · exact h.channels peer m hm
    · rw [List.mem_singleton.mp hm]
      exact hknown
  · have hc : ((w, peer) : Nat × Nat) ≠ (w, target) := fun heq => hpeer (Prod.mk.inj heq).2
    simp only [Cluster.send, Function.update_of_ne hc] at hm
    exact h.channels peer m hm

/-- Nothing but a store adds an entry. -/
theorem Sound.of_none (ht : Sound w known t) (hstored : l.stored? = none) :
    Sound w (known ++ l.stored?.toList) t := by
  rw [hstored]
  simpa using ht

/-- A new peer or a new export request adds nothing that is sent. -/
theorem Sound.entry (h : Sound w known s) (worker : Nat) (shouldExportData : Bool) :
    Sound w known (s.receiveEntry w worker shouldExportData) := by
  have hadd : Sound w known (s.addPeer w worker) := by
    unfold addPeer
    split
    · exact h
    · have hset := h.setNode (n := { s.node w with peers := (s.node w).peers ++ [worker] })
        h.table h.nodes h.receiver
      exact ⟨hset.valid, hset.table, hset.nodes, hset.receiver, hset.channels⟩
  unfold receiveEntry
  split
  · unfold addExportRequest
    split
    · exact hadd
    · exact hadd.setNode hadd.table hadd.nodes hadd.receiver
  · exact hadd

/-- **Every step of the worker** leaves nothing but the entries known and
the one it stores. -/
theorem sound_move (h : Sound w known s) (hown : l.isOwn w = true) (hmove : Move d s l t) :
    Sound w (known ++ l.stored?.toList) t := by
  cases hmove with
  | dropped w allocated hdecode => exact h.of_none (by simp [Label.stored?, hdecode])
  | @stored x payload allocated request table hx hidle hdecode hset =>
    obtain rfl : x = w := beq_iff_eq.mp hown
    obtain ⟨hkey, rfl⟩ := setHashTable_eq_one.mp (congrArg Prod.fst hset)
    have htable : table = (setHashTable (s.node x).table request.key request.value true).2 := by
      rw [hset]
    have hmono := h.stored (.receive x (.storeRequest payload true))
    rw [stored?_eq_some hdecode hset, Option.toList_some] at hmono ⊢
    have hnew : (request.key, request.value) ∈ known ++ [(request.key, request.value)] := by simp
    refine hmono.setNode ?_ hmono.nodes ?_
    · intro key value hheld
      rw [htable, lookup_setHashTable hkey] at hheld
      by_cases hk : key = request.key
      · rw [if_pos hk] at hheld
        cases hheld
        exact hk ▸ hnew
      · rw [if_neg hk] at hheld
        exact hmono.table key value hheld
    · intro key value todo removed hr
      cases hr
      exact ⟨hnew, rfl⟩
  | @refused x payload allocated request result table hdecode hset hresult =>
    obtain rfl : x = w := beq_iff_eq.mp hown
    have hheld := (lookup_of_refused hset hresult).1
    have hmono := h.stored (.receive x (.storeRequest payload allocated))
    exact hmono.setNode (fun key value hk => hmono.table key value (hheld key value hk))
      hmono.nodes hmono.receiver
  | @entry x worker shouldExportData =>
    obtain rfl : x = w := beq_iff_eq.mp hown
    exact (h.entry worker shouldExportData).of_none rfl
  | @notified x peer key value todo removed message hx hreceiver hmessage =>
    obtain rfl : x = w := beq_iff_eq.mp hown
    obtain ⟨hmem, hremoved⟩ := h.receiver _ _ _ _ hreceiver
    have hset := h.setNode (n := { s.node x with receiver := .notifying key value todo removed })
      h.table h.nodes (fun key' value' todo' removed' hr => by cases hr; exact ⟨hmem, hremoved⟩)
    refine Sound.of_none (hset.send peer fun key' value' hentry => ?_) rfl
    rw [peerEntry_sendPeerNotify hmessage] at hentry
    cases hentry
    exact hmem
  | @notifyFailed x peer key value todo removed hreceiver hmessage =>
    obtain rfl : x = w := beq_iff_eq.mp hown
    obtain ⟨hmem, -⟩ := h.receiver _ _ _ _ hreceiver
    obtain ⟨hkey, hvalue⟩ := h.valid key value hmem
    exact absurd hmessage (sendPeerNotify_ne_none hkey hvalue)
  | @broadcastDone x key value removed hreceiver =>
    obtain rfl : x = w := beq_iff_eq.mp hown
    have hset := h.setNode (n := { s.node x with
        receiver := .idle
        peers := (s.node x).peers.filter fun peer => peer ∉ removed })
      h.table h.nodes (fun key' value' todo' removed' hr => by cases hr)
    exact Sound.of_none ⟨hset.valid, hset.table, hset.nodes, hset.receiver, hset.channels⟩ rfl
  | @exportTaken x =>
    obtain rfl : x = w := beq_iff_eq.mp hown
    exact Sound.of_none (h.setNode h.table (fun key value hmem => by cases hmem) h.receiver)
      rfl
  | @exportMoved x before after hexporter hquiet hconnected hnodes =>
    obtain rfl : x = w := beq_iff_eq.mp hown
    refine Sound.of_none (h.setNode h.table ?_ h.receiver) rfl
    intro key value hmem
    obtain ⟨bucket, hbucket⟩ := hnodes _ hmem
    exact h.table key value (lookup_of_mem_bucket hbucket)
  | @exportSent x target before after message hexporter hmessage htarget hconnected hnodes =>
    obtain rfl : x = w := beq_iff_eq.mp hown
    have hbefore : ∀ key value, (key, some value) ∈ before.nodes → (key, value) ∈ known := by
      intro key value hmem
      exact h.nodes key value (by rw [hexporter]; exact hmem)
    have hset := h.setNode (n := { s.node x with exporter := after }) h.table
      (fun key value hmem => hbefore key value (hnodes _ hmem)) h.receiver
    refine Sound.of_none (hset.send target fun key value hentry => ?_) rfl
    obtain ⟨node, hnode, rfl⟩ := peerEntry_exporter hmessage hentry
    exact hbefore key value hnode
  | accepted | readOther | readKnown | readNew | hungUp | storedPeerData => cases hown

end Sound

/-! ## No key is left behind -/

/-- What still brings a key of the table to the target: the broadcast of
its store, or the export. -/
def Pending (target : Nat) (key : CString) (n : Node) : Prop :=
  n.receiver.notifies target = some key ∨ target ∈ n.exportQueue ∨
    n.exporter.WillSend target key

/-- The target is registered, and every key of the table was sent to it or
will be. -/
structure Covered (w target : Nat) (s : Cluster) : Prop where
  connected : target ∈ (s.node w).peers
  way : ∀ key, lookup (s.node w).table key ≠ none →
    Sent w target key s ∨ Pending target key (s.node w)

section Covered

variable {d : Delivery} {w target : Nat} {s t : Cluster} {l : Label}
  {known : List (CString × CString)}

@[simp] theorem node_send (s : Cluster) (c : Nat × Nat) (message : Message) :
    (s.send c message).node = s.node := rfl

/-- What was sent stays sent. -/
theorem Sent.send {key : CString} (h : Sent w target key s) (c : Nat × Nat) (m : Message) :
    Sent w target key (s.send c m) := by
  obtain ⟨message, hm, hentry⟩ := h
  refine ⟨message, ?_, hentry⟩
  by_cases hc : ((w, target) : Nat × Nat) = c
  · subst hc
    simp only [Cluster.send, Function.update_self]
    exact List.mem_append_left _ hm
  · simp only [Cluster.send, Function.update_of_ne hc]
    exact hm

theorem sent_send {key value : CString} {message : Message}
    (hentry : peerEntry message = some (key, value)) :
    Sent w target key (s.send (w, target) message) :=
  ⟨message, by simp [Cluster.send], value, hentry⟩

/-- The broadcast's next message is sent to one peer. -/
theorem notifies_cons {key value k : CString} {peer : Nat} {todo removed : List Nat}
    (h : (ReceiverAt.notifying key value (peer :: todo) removed).notifies target = some k) :
    (peer = target ∧ k = key) ∨
      (ReceiverAt.notifying key value todo removed).notifies target = some k := by
  simp only [ReceiverAt.notifies, List.mem_cons] at h ⊢
  split at h
  · rename_i hmem
    cases h
    rcases hmem with rfl | hmem
    · exact Or.inl ⟨rfl, rfl⟩
    · exact Or.inr (if_pos hmem)
  · cases h

/-- A count that finds a bucket with this key finds an item. -/
theorem items_pos {table : HashTable} {key : CString} {items : Nat}
    (hheld : lookup table key ≠ none)
    (hitems : bucketItems table (hashFunction key) = .accept items) : 0 < items := by
  obtain ⟨node, hnode, -⟩ := exists_mem_bucket hheld
  unfold bucketItems at hitems
  split at hitems
  · cases hitems
    exact List.length_pos_of_mem hnode
  · cases hitems

/-- One turn of a count. -/
theorem exportStep_counting {x bucket items : Nat}
    (hexporter : (s.node w).exporter = .counting x bucket items)
    (hbucket : bucket < workerHashTableBucketCount) (h : s.exportStep w = some t) :
    ∃ more, bucketItems (s.node w).table ⟨bucket, hbucket⟩ = .accept more ∧
      t = s.setExporter w (.counting x (bucket + 1) (items + more)) := by
  unfold exportStep at h
  simp only [hexporter, dif_pos hbucket] at h
  split at h
  · rename_i more hitems
    cases h
    exact ⟨more, hitems, rfl⟩
  · cases h

/-- **A turn of the export leaves no gap**: a key of the table that the
export would have come to is sent now, or still before it. -/
theorem willSend_step {key : CString} (hconnected : target ∈ (s.node w).peers)
    (hsends : SendsEntry w s (.runExport w)) (hheld : lookup (s.node w).table key ≠ none)
    (hwill : (s.node w).exporter.WillSend target key) (h : s.exportStep w = some t) :
    Sent w target key t ∨ (t.node w).exporter.WillSend target key := by
  obtain ⟨queue, place, sent, hturn, ht⟩ := exportStep_turn h
  have hplace : (t.node w).exporter = place := by rw [ht, node_exported]
  have hlt := (hashFunction key).isLt
  rw [hplace]
  cases hturn with
  | taken hexporter => rw [hexporter] at hwill; cases hwill
  | @counted x bucket items more hexporter =>
    rw [hexporter] at hwill
    obtain ⟨rfl, hbefore⟩ := hwill
    refine Or.inr ⟨rfl, ?_⟩
    by_cases hhere : bucket = (hashFunction key).val
    · -- the key's bucket is counted now, with the key in it
      subst hhere
      obtain ⟨found, hitems, ht'⟩ := exportStep_counting hexporter hlt h
      have hpos := items_pos hheld hitems
      rw [ht', setExporter, node_setNode_self] at hplace
      obtain ⟨-, -, hitems⟩ := ExporterAt.counting.inj hplace
      omega
    · omega
  | foundItems hexporter => rw [hexporter] at hwill; exact Or.inr hwill.1
  | foundNone hexporter hbucket =>
    rw [hexporter] at hwill
    obtain ⟨-, hbefore⟩ := hwill
    omega
  | connected hexporter htarget => rw [hexporter] at hwill; exact Or.inr hwill
  | notConnected hexporter htarget =>
    rw [hexporter] at hwill
    obtain rfl : _ = target := hwill
    exact absurd hconnected htarget
  | recounted more hexporter hbucket => rw [hexporter] at hwill; exact Or.inr hwill
  | started hexporter hmessage =>
    rw [hexporter] at hwill
    exact Or.inr ⟨hwill, Nat.zero_le _⟩
  | @copied x bucket hexporter =>
    rw [hexporter] at hwill
    obtain ⟨rfl, hle⟩ := hwill
    refine Or.inr ⟨rfl, ?_⟩
    by_cases hhere : bucket = hashFunction key
    · -- the key's bucket is copied now
      subst hhere
      exact Or.inr (exists_mem_bucket hheld)
    · have hne : bucket.val ≠ (hashFunction key).val := fun heq => hhere (Fin.ext heq)
      exact Or.inl (by omega)
  | ended hexporter hbucket =>
    rw [hexporter] at hwill
    obtain ⟨-, hle⟩ := hwill
    omega
  | bucketDone hexporter =>
    rw [hexporter] at hwill
    obtain ⟨rfl, hbehind⟩ := hwill
    refine Or.inr ⟨rfl, ?_⟩
    rcases hbehind with hlt | ⟨node, hnode, -⟩
    · exact hlt
    · cases hnode
  | @entrySent x bucket node nodes message hexporter hmessage =>
    rw [hexporter] at hwill
    obtain ⟨rfl, hbehind⟩ := hwill
    rcases hbehind with hlt | ⟨node', hnode, hkey⟩
    · exact Or.inr ⟨rfl, Or.inl hlt⟩
    · rcases List.mem_cons.mp hnode with rfl | hnode
      · -- the entry is on the connection to the target
        obtain ⟨value, -, hentry⟩ := peerEntry_entryMessage hmessage
        rw [ht, ← hkey]
        exact Or.inl (sent_send hentry)
      · exact Or.inr ⟨rfl, Or.inr ⟨node', hnode, hkey⟩⟩
  | entryFailed hexporter hmessage =>
    simp only [SendsEntry, hexporter, ExporterAt.nextEntry, hmessage, Option.all_some,
      Option.isSome_none, Bool.false_eq_true] at hsends

/-- A request that waits is taken as one of the whole table. -/
theorem queued_step {key : CString} (hqueued : target ∈ (s.node w).exportQueue)
    (h : s.exportStep w = some t) :
    target ∈ (t.node w).exportQueue ∨ (t.node w).exporter.WillSend target key := by
  obtain ⟨queue, place, sent, hturn, ht⟩ := exportStep_turn h
  have hnode : t.node w = { s.node w with exportQueue := queue, exporter := place } := by
    rw [ht, node_exported]
  rw [hnode]
  cases hturn with
  | @taken x rest hexporter hqueue =>
    rw [hqueue] at hqueued
    rcases List.mem_cons.mp hqueued with rfl | hrest
    · exact Or.inr ⟨rfl, Or.inr (Nat.zero_le _)⟩
    · exact Or.inl hrest
  | counted | foundItems | foundNone | connected | notConnected | recounted | started | copied
  | ended | bucketDone | entrySent | entryFailed => exact Or.inl hqueued

/-- A turn of the export thread. -/
theorem Covered.exportStep (h : Covered w target s) (hsends : SendsEntry w s (.runExport w))
    (hstep : s.exportStep w = some t) : Covered w target t := by
  obtain ⟨queue, place, sent, -, ht⟩ := exportStep_turn hstep
  have hnode : t.node w = { s.node w with exportQueue := queue, exporter := place } := by
    rw [ht, node_exported]
  have hsent : ∀ key, Sent w target key s → Sent w target key t := by
    intro key hkey
    rw [ht]
    cases sent with
    | none => exact hkey
    | some sent => exact hkey.send _ _
  refine ⟨by rw [hnode]; exact h.connected, ?_⟩
  intro key hkey
  have hheld : lookup (s.node w).table key ≠ none := by rwa [hnode] at hkey
  rcases h.way key hheld with hold | hnotifies | hqueued | hwill
  · exact Or.inl (hsent key hold)
  · exact Or.inr (Or.inl (by rw [hnode]; exact hnotifies))
  · exact Or.inr (Or.inr (queued_step hqueued hstep))
  · exact (willSend_step h.connected hsends hheld hwill hstep).imp_right
      fun hwill => Or.inr (Or.inr hwill)

/-- The receiver thread moves without sending; what it drops from its
broadcast must have been sent. -/
theorem Covered.setNode (h : Covered w target s) {n : Node}
    (hpeers : target ∈ n.peers)
    (hway : ∀ key, lookup n.table key ≠ none → lookup (s.node w).table key ≠ none →
      Pending target key (s.node w) → Pending target key n)
    (hnew : ∀ key, lookup n.table key ≠ none → lookup (s.node w).table key = none →
      Pending target key n) :
    Covered w target (s.setNode w n) := by
  refine ⟨by rw [node_setNode_self]; exact hpeers, ?_⟩
  rw [node_setNode_self]
  intro key hkey
  by_cases hheld : lookup (s.node w).table key = none
  · exact Or.inr (hnew key hkey hheld)
  · exact (h.way key hheld).imp id (hway key hkey hheld)

/-- Registering peers and queueing exports leaves what is pending. -/
theorem Covered.receiveEntry (h : Covered w target s) (worker : Nat) (shouldExportData : Bool) :
    Covered w target (s.receiveEntry w worker shouldExportData) := by
  have hadd : Covered w target (s.addPeer w worker) := by
    unfold addPeer
    split
    · exact h
    · have hset := h.setNode (n := { s.node w with peers := (s.node w).peers ++ [worker] })
        (List.mem_append_left _ h.connected) (fun _ _ _ hpending => hpending)
        (fun _ hkey hnone => absurd hnone hkey)
      exact ⟨hset.connected, hset.way⟩
  unfold Cluster.receiveEntry
  split
  · unfold addExportRequest
    split
    · exact hadd
    · exact hadd.setNode hadd.connected
        (fun _ _ _ hpending => hpending.imp_right (Or.imp_left (List.mem_append_left _)))
        (fun _ hkey hnone => absurd hnone hkey)
  · exact hadd

/-- **Every step of the worker leaves no gap.** -/
theorem covered_step (hsound : Sound w known s) (h : Covered w target s)
    (hown : l.isOwn w = true) (hsends : SendsEntry w s l) (hstep : step d s l = some t) :
    Covered w target t := by
  have hmove := step_move hstep
  cases hmove with
  | dropped => exact h
  | @stored x payload allocated request table hx hidle hdecode hset =>
    obtain rfl : x = w := beq_iff_eq.mp hown
    obtain ⟨hkey, rfl⟩ := setHashTable_eq_one.mp (congrArg Prod.fst hset)
    have hlookup := lookup_setHashTable hkey (s.node x).table request.value
    rw [hset] at hlookup
    refine h.setNode h.connected ?_ ?_
    · intro key _ _ hpending
      refine hpending.imp_left fun hnotifies => ?_
      rw [hidle] at hnotifies
      cases hnotifies
    · intro key hheld hnone
      by_cases hk : key = request.key
      · -- the broadcast of the new key has the target before it
        exact Or.inl (by rw [hk]; exact if_pos h.connected)
      · rw [hlookup key, if_neg hk, hnone] at hheld
        exact absurd rfl hheld
  | @refused x payload allocated request result table hdecode hset hresult =>
    obtain rfl : x = w := beq_iff_eq.mp hown
    exact h.setNode h.connected (fun _ _ _ hpending => hpending)
      (fun key hkey hnone => absurd hnone ((lookup_of_refused hset hresult).2 key hkey))
  | @entry x worker shouldExportData =>
    obtain rfl : x = w := beq_iff_eq.mp hown
    exact h.receiveEntry worker shouldExportData
  | @notified x peer key value todo removed message hx hreceiver hmessage =>
    obtain rfl : x = w := beq_iff_eq.mp hown
    have hentry := peerEntry_sendPeerNotify hmessage
    refine ⟨?_, ?_⟩
    · rw [node_send, node_setNode_self]
      exact h.connected
    · rw [node_send, node_setNode_self]
      intro k hheld
      rcases h.way k hheld with hsent | hnotifies | hrest
      · exact Or.inl (Sent.send hsent _ _)
      · rw [hreceiver] at hnotifies
        rcases notifies_cons hnotifies with ⟨rfl, rfl⟩ | hlater
        · exact Or.inl (sent_send hentry)
        · exact Or.inr (Or.inl hlater)
      · exact Or.inr (Or.inr hrest)
  | @notifyFailed x peer key value todo removed hreceiver hmessage =>
    obtain rfl : x = w := beq_iff_eq.mp hown
    obtain ⟨hmem, -⟩ := hsound.receiver _ _ _ _ hreceiver
    obtain ⟨hkey, hvalue⟩ := hsound.valid key value hmem
    exact absurd hmessage (sendPeerNotify_ne_none hkey hvalue)
  | @broadcastDone x key value removed hreceiver =>
    obtain rfl : x = w := beq_iff_eq.mp hown
    obtain ⟨-, hremoved⟩ := hsound.receiver _ _ _ _ hreceiver
    have hset := h.setNode (n := { s.node x with
        receiver := .idle
        peers := (s.node x).peers.filter fun peer => peer ∉ removed })
      (by simp [hremoved, h.connected])
      (fun k _ _ hpending => hpending.imp_left fun hnotifies => by
        rw [hreceiver] at hnotifies
        cases hnotifies)
      (fun k hkey hnone => absurd hnone hkey)
    exact ⟨hset.connected, hset.way⟩
  | exportTaken | exportMoved | exportSent =>
    obtain rfl : _ = w := beq_iff_eq.mp hown
    simp only [step] at hstep
    split at hstep
    · exact h.exportStep hsends hstep
    · cases hstep
  | accepted | readOther | readKnown | readNew | hungUp | storedPeerData => cases hown

end Covered

/-! ## Runs -/

/-- Behind the request every key has the whole export before it. -/
theorem covered_of_queued {w target : Nat} {s : Cluster} (hconnected : target ∈ (s.node w).peers)
    (hqueued : target ∈ (s.node w).exportQueue) : Covered w target s :=
  ⟨hconnected, fun _ _ => Or.inr (Or.inr (Or.inl hqueued))⟩

/-- When everything is finished nothing is pending. -/
theorem Finished.not_pending {w target : Nat} {s : Cluster} (h : Finished w target s)
    (key : CString) : ¬ Pending target key (s.node w) := by
  rintro (hnotifies | hqueued | hwill)
  · rw [h.receiver] at hnotifies
    cases hnotifies
  · exact h.queue hqueued
  · exact h.exporter hwill.target_eq

/-- **Export and broadcast leave no gap.** A worker reads a WORKER_ENTRY
that asks for an export, registers the target and queues the request.
Once the stores and the export are finished, in whatever order the two
threads took their steps, every key of its table was sent to the target,
and a key that was stored once never with another value. -/
theorem export_leaves_no_gap (d : Delivery) {n w target : Nat} {before after : List Label}
    {m s : Cluster}
    (hentry : exec (step d) (start n)
      (before ++ [.receive w (.workerEntry target true)]) = some m)
    (hconnected : target ∈ (m.node w).peers) (hqueued : target ∈ (m.node w).exportQueue)
    (hrun : exec (step d) m after = some s)
    (hown : ∀ l ∈ before ++ after, l.isOwn w = true)
    (hsends : Along (step d) (SendsEntry w) m after) (hfinished : Finished w target s) :
    (∀ key, lookup (s.node w).table key ≠ none → Sent w target key s) ∧
    ∀ key value, (stores (before ++ after)).filter (fun entry => entry.1 = key) = [(key, value)] →
      ∀ message ∈ s.channel (w, target), ∀ sent,
        peerEntry message = some (key, sent) → sent = value := by
  have hownBefore : Along (step d) (fun _ l => l.isOwn w = true) (start n)
      (before ++ [.receive w (.workerEntry target true)]) := by
    rw [along_label_iff hentry]
    intro l hl
    rcases List.mem_append.mp hl with hl | hl
    · exact hown l (List.mem_append_left _ hl)
    · rw [List.mem_singleton.mp hl]
      exact beq_self_eq_true w
  have hownAfter : Along (step d) (fun _ l => l.isOwn w = true) m after :=
    (along_label_iff hrun).mpr fun l hl => hown l (List.mem_append_right _ hl)
  have hsound : Sound w (stores (before ++ [.receive w (.workerEntry target true)])) m :=
    exec_history_along (I := fun done s => Sound w (stores done) s)
      (fun done s l t hs hl hstep => by
        rw [stores_append]
        exact sound_move hs hl (step_move hstep))
      [] (sound_start w n) hownBefore hentry
  have hlast := exec_history_along
    (I := fun done s => Sound w (stores done) s ∧ Covered w target s)
    (fun done s l t hs hl hstep => by
      rw [stores_append]
      exact ⟨sound_move hs.1 hl.1 (step_move hstep), covered_step hs.1 hs.2 hl.1 hl.2 hstep⟩)
    _ ⟨hsound, covered_of_queued hconnected hqueued⟩ (hownAfter.and hsends) hrun
  obtain ⟨hsound, hcovered⟩ := hlast
  constructor
  · intro key hkey
    exact (hcovered.way key hkey).resolve_right (hfinished.not_pending key)
  · intro key value honce message hm sent hsent
    have hmem := hsound.channels target message hm key sent hsent
    have hstored : (key, sent) ∈ stores (before ++ after) := by
      simpa [stores, Label.stored?] using hmem
    have hfilter : (key, sent) ∈ (stores (before ++ after)).filter fun entry => entry.1 = key :=
      List.mem_filter.mpr ⟨hstored, decide_eq_true rfl⟩
    rw [honce] at hfilter
    exact (Prod.mk.inj (List.mem_singleton.mp hfilter)).2

/-- Worker 0 stores "k". -/
def storedFirst : List Label :=
  [.receive 0 (.storeRequest [0, 0, 0, 1, 0, 1, 107, 0, 1, 118] true), .notify 0]

/-- It stores "l" in the middle of its export to worker 1. -/
def storedMeanwhile : List Label :=
  List.replicate 100 (.runExport 0) ++
  [.receive 0 (.storeRequest [0, 0, 0, 1, 0, 1, 108, 0, 1, 119] true), .notify 0, .runExport 0,
    .notify 0] ++ List.replicate 34 (.runExport 0)

theorem export_leaves_no_gap_meanwhile :
    ∃ s, (exec (step .firstAccepted) (start 2)
        (storedFirst ++ [.receive 0 (.workerEntry 1 true)] ++ storedMeanwhile) = some s) ∧
      Sent 0 1 (CString.ofString "k") s ∧ Sent 0 1 (CString.ofString "l") s := by
  have hentry : (exec (step .firstAccepted) (start 2)
      (storedFirst ++ [.receive 0 (.workerEntry 1 true)])).map (fun m =>
        decide (1 ∈ (m.node 0).peers ∧ 1 ∈ (m.node 0).exportQueue)) = some true := by
    decide +kernel
  have hlast : (exec (step .firstAccepted) (start 2)
      (storedFirst ++ [.receive 0 (.workerEntry 1 true)] ++ storedMeanwhile)).map (fun s =>
        decide ((s.node 0).receiver = .idle ∧ 1 ∉ (s.node 0).exportQueue ∧
          (s.node 0).exporter.target ≠ some 1 ∧
          lookup (s.node 0).table (CString.ofString "k") ≠ none ∧
          lookup (s.node 0).table (CString.ofString "l") ≠ none)) = some true := by
    decide +kernel
  have hsends : Along (step .firstAccepted) (SendsEntry 0) (start 2)
      (storedFirst ++ [.receive 0 (.workerEntry 1 true)] ++ storedMeanwhile) := by
    decide +kernel
  obtain ⟨m, hm, hqueued⟩ := Option.map_eq_some_iff.mp hentry
  obtain ⟨s, hs, hfinished⟩ := Option.map_eq_some_iff.mp hlast
  obtain ⟨hconnected, hqueued⟩ := of_decide_eq_true hqueued
  obtain ⟨hreceiver, hqueue, hexporter, hk, hl⟩ := of_decide_eq_true hfinished
  have hafter : exec (step .firstAccepted) m storedMeanwhile = some s := by
    rw [exec_append, hm, Option.bind_some] at hs
    exact hs
  obtain ⟨hall, -⟩ := export_leaves_no_gap .firstAccepted hm hconnected hqueued hafter
    (by decide +kernel) ((along_append hm).mp hsends).2 ⟨hreceiver, hqueue, hexporter⟩
  exact ⟨s, hs, hall _ hk, hall _ hl⟩

end Cluster

end LoadBalancing.Worker
