/-
LoadBalancing.Worker.PeerBroadcast — runs of the peer table, and what one
`BroadcastData` does to it.

The pass over the slots and the removals behind it are told apart: the
pass only reads the table (`foldl_broadcastSlot`), and the removals take
out the workers it collected one after the other (`Represents.removeAll`).
No worker is collected twice, since a worker has one slot, so every
removal finds what it looks for.

No `sorry`, no `axiom`, no `native_decide`.
-/
import LoadBalancing.Lib.StreamReassembly
import LoadBalancing.Worker.PeerTable

namespace LoadBalancing.Worker

open LoadBalancing.Base LoadBalancing.Lib

/-! ## The pass -/

namespace PeerTable

section Pass

variable (answers : Nat → Nat → SocketAnswer) (key value : CString)

/-- A slot that `BroadcastData` sends to. -/
def notifies (slot : PeerConnection × Nat) : Bool := slot.1.workerId != -1 && slot.1.isConnected

/-- The result of the send to a slot. -/
def slotResult (slot : PeerConnection × Nat) : Int :=
  (sendPeerNotify slot.1.socket (answers slot.2) key value).1

/-- A send that succeeds loses no connection. -/
theorem not_connectionLost_of_pos {result : Int} (h : 0 < result) :
    connectionLost result = false := by
  unfold connectionLost
  simp only [Bool.or_eq_false_iff, beq_eq_false_iff_ne]
  omega

/-- A slot that is sent to. -/
theorem broadcastSlot_of_notifies {slot : PeerConnection × Nat} (hslot : notifies slot = true)
    (pass : Pass) :
    broadcastSlot answers key value pass slot =
      ⟨if 0 < slotResult answers key value slot then pass.successCount + 1
          else pass.successCount,
        if connectionLost (slotResult answers key value slot) then
          pass.peersToRemove ++ [slot.1.workerId] else pass.peersToRemove,
        pass.calls ++ (sendPeerNotify slot.1.socket (answers slot.2) key value).2⟩ := by
  unfold notifies at hslot
  unfold broadcastSlot slotResult
  rw [if_pos hslot]
  by_cases hsent : 0 < (sendPeerNotify slot.1.socket (answers slot.2) key value).1
  · simp [hsent, not_connectionLost_of_pos hsent]
  · by_cases hlost :
        connectionLost (sendPeerNotify slot.1.socket (answers slot.2) key value).1 = true
    · simp [hsent, hlost]
    · simp [hsent, hlost]

/-- **What the pass collects**: the sends that succeeded, the workers whose
send failed, and a call for each slot it sends to. -/
theorem foldl_broadcastSlot (slots : List (PeerConnection × Nat)) (pass : Pass) :
    slots.foldl (broadcastSlot answers key value) pass =
      ⟨pass.successCount +
          ((slots.filter notifies).countP fun slot => 0 < slotResult answers key value slot),
        pass.peersToRemove ++ ((slots.filter notifies).filter fun slot =>
          connectionLost (slotResult answers key value slot)).map fun slot => slot.1.workerId,
        pass.calls ++ (slots.filter notifies).flatMap fun slot =>
          (sendPeerNotify slot.1.socket (answers slot.2) key value).2⟩ := by
  induction slots generalizing pass with
  | nil => simp
  | cons slot slots ih =>
    rw [List.foldl_cons, ih]
    by_cases hslot : notifies slot = true
    · rw [broadcastSlot_of_notifies answers key value hslot, List.filter_cons_of_pos hslot,
        List.countP_cons, List.flatMap_cons]
      by_cases hsent : 0 < slotResult answers key value slot
      · simp [hsent, not_connectionLost_of_pos hsent]
        omega
      · by_cases hlost : connectionLost (slotResult answers key value slot) = true
        · simp [hsent, hlost]
        · simp [hsent, hlost]
    · have hstep : broadcastSlot answers key value pass slot = pass := by
        unfold notifies at hslot
        unfold broadcastSlot
        rw [if_neg hslot]
      rw [hstep, List.filter_cons_of_neg hslot]

end Pass

/-- The results of a broadcast, slot by slot. -/
def notifyResult (t : PeerTable) (answers : Nat → Nat → SocketAnswer) (key value : CString)
    (i : Nat) : Int :=
  (sendPeerNotify (t.peers[i]?.bind PeerConnection.socket) (answers i) key value).1

namespace Represents

variable {t : PeerTable} {m : PeerManager}

/-- Free slots are not sent to. -/
theorem filter_notifies (h : t.Represents m) : t.peers.zipIdx.filter notifies = m.notified := by
  obtain ⟨rest, hrest, hfree⟩ := h.peers
  have hnone : (rest.zipIdx (0 + m.peers.length)).filter notifies = [] := by
    refine List.filter_eq_nil_iff.mpr ?_
    intro slot hslot
    obtain ⟨hid, -, -⟩ := hfree slot.1 (List.fst_mem_of_mem_zipIdx hslot)
    simp [notifies, hid]
  have hsame : (notifies : PeerConnection × Nat → Bool) =
      fun slot => slot.1.workerId != -1 && slot.1.isConnected := rfl
  rw [hrest, List.zipIdx_append, List.filter_append, hnone, List.append_nil, hsame]
  rfl

/-- The slots that are sent to are in use. -/
theorem mem_notified {slot : PeerConnection × Nat} (hslot : slot ∈ m.notified) :
    m.peers[slot.2]? = some slot.1 ∧ slot.1.isConnected = true := by
  obtain ⟨hmem, hboth⟩ := List.mem_filter.mp hslot
  exact ⟨List.mem_zipIdx_iff_getElem?.mp hmem, (Bool.and_eq_true_iff.mp hboth).2⟩

theorem getElem?_of_mem_notified (h : t.Represents m) {slot : PeerConnection × Nat}
    (hslot : slot ∈ m.notified) : t.peers[slot.2]? = some slot.1 := by
  obtain ⟨rest, hrest, -⟩ := h.peers
  have hused := (mem_notified hslot).1
  rw [hrest, List.getElem?_append_left (List.getElem?_eq_some_iff.mp hused).1, hused]

theorem slotResult_eq (h : t.Represents m) (answers : Nat → Nat → SocketAnswer)
    (key value : CString) {slot : PeerConnection × Nat} (hslot : slot ∈ m.notified) :
    slotResult answers key value slot = t.notifyResult answers key value slot.2 := by
  rw [slotResult, notifyResult, h.getElem?_of_mem_notified hslot, Option.bind_some]

/-- **The pass** over all slots is one over the list. -/
theorem pass (h : t.Represents m) (answers : Nat → Nat → SocketAnswer) (key value : CString) :
    t.peers.zipIdx.foldl (broadcastSlot answers key value) ⟨0, [], []⟩ =
      ⟨m.notified.countP fun slot => 0 < t.notifyResult answers key value slot.2,
        m.peersToRemove (t.notifyResult answers key value),
        m.notified.flatMap fun slot =>
          (sendPeerNotify slot.1.socket (answers slot.2) key value).2⟩ := by
  have hcount : (m.notified.countP fun slot => 0 < slotResult answers key value slot) =
      m.notified.countP fun slot => 0 < t.notifyResult answers key value slot.2 := by
    refine List.countP_congr ?_
    intro slot hslot
    rw [h.slotResult_eq answers key value hslot]
  have hlost : (m.notified.filter fun slot =>
        connectionLost (slotResult answers key value slot)) =
      m.notified.filter fun slot => connectionLost (t.notifyResult answers key value slot.2) := by
    refine List.filter_congr ?_
    intro slot hslot
    rw [h.slotResult_eq answers key value hslot]
  rw [foldl_broadcastSlot, h.filter_notifies, hcount, hlost, Int.zero_add, List.nil_append,
    List.nil_append]
  rfl

/-- The removals, one after the other. -/
theorem removeAll (h : t.Represents m) (lost : List Int32) :
    (t.removeAll lost).1.Represents
      (lost.foldl (fun m workerId => (m.removeDisconnectedPeer workerId).2) m) := by
  induction lost generalizing t m with
  | nil => exact h
  | cons workerId lost ih => exact ih (h.removeDisconnectedPeer workerId).2

/-- **`BroadcastData`** on the array is the same on the list. -/
theorem broadcastData (h : t.Represents m) (answers : Nat → Nat → SocketAnswer)
    (key value : CString) :
    (t.broadcastData answers key value).1 =
        (m.broadcastData (t.notifyResult answers key value)).1 ∧
      (t.broadcastData answers key value).2.1.Represents
        (m.broadcastData (t.notifyResult answers key value)).2 := by
  unfold PeerTable.broadcastData PeerManager.broadcastData
  rw [h.pass]
  exact ⟨rfl, h.removeAll _⟩

end Represents

end PeerTable

/-! ## The removals -/

namespace PeerManager.WellFormed

variable {m : PeerManager}

/-- **Removing workers** one after the other is removing them all. -/
theorem removeAll (h : m.WellFormed) (lost : List Int32) :
    (lost.foldl (fun m workerId => (m.removeDisconnectedPeer workerId).2) m).WellFormed ∧
      (lost.foldl (fun m workerId => (m.removeDisconnectedPeer workerId).2) m).peers =
        m.peers.filter fun peer => peer.workerId ∉ lost := by
  induction lost generalizing m with
  | nil => exact ⟨h, by simp⟩
  | cons workerId lost ih =>
    obtain ⟨hformed, hpeers⟩ := ih (h.removeDisconnectedPeer workerId)
    refine ⟨hformed, ?_⟩
    rw [List.foldl_cons, hpeers, h.peers_removeDisconnectedPeer, PeerEntries.remove,
      List.filter_filter]
    refine List.filter_congr ?_
    intro peer _
    by_cases hid : peer.workerId = workerId
    · simp [hid]
    · simp [hid]

/-- **Who is removed**: a peer whose own send failed. A worker has one slot,
so no other slot's result removes it. -/
theorem mem_peersToRemove (h : m.WellFormed) (sends : Nat → Int) {slot : PeerConnection × Nat}
    (hslot : slot ∈ m.peers.zipIdx) :
    slot.1.workerId ∈ m.peersToRemove sends ↔
      slot.1.isConnected = true ∧ connectionLost (sends slot.2) = true := by
  have hindex : ∀ other ∈ m.peers.zipIdx, m.ids[other.2]? = some other.1.workerId := by
    intro other hother
    rw [ids, List.getElem?_map, List.mem_zipIdx_iff_getElem?.mp hother, Option.map_some]
  constructor
  · intro hmem
    obtain ⟨other, hother, hid⟩ := List.mem_map.mp hmem
    obtain ⟨htried, hlost⟩ := List.mem_filter.mp hother
    have hin : other ∈ m.peers.zipIdx := List.mem_of_mem_filter htried
    have hlt : other.2 < m.ids.length := (List.getElem?_eq_some_iff.mp (hindex other hin)).1
    have hsame : other.2 = slot.2 :=
      (List.getElem?_inj hlt h.nodup).mp (by rw [hindex other hin, hindex slot hslot, hid])
    have hpeer : some other.1 = some slot.1 := by
      rw [← List.mem_zipIdx_iff_getElem?.mp hin, ← List.mem_zipIdx_iff_getElem?.mp hslot, hsame]
    rw [← Option.some.inj hpeer, ← hsame]
    exact ⟨(Bool.and_eq_true_iff.mp (List.mem_filter.mp htried).2).2, hlost⟩
  · rintro ⟨hup, hlost⟩
    have hnamed : slot.1.workerId ≠ -1 := by
      intro heq
      exact h.named (heq ▸ List.mem_of_getElem? (hindex slot hslot))
    have htried : slot ∈ m.notified :=
      List.mem_filter.mpr ⟨hslot, by simp [hnamed, hup]⟩
    exact List.mem_map.mpr ⟨slot, List.mem_filter.mpr ⟨htried, hlost⟩, rfl⟩

/-- What a broadcast leaves. -/
theorem peers_broadcastData (h : m.WellFormed) (sends : Nat → Int) :
    (m.broadcastData sends).2.peers =
      (m.peers.zipIdx.filter fun slot =>
        !(slot.1.isConnected && connectionLost (sends slot.2))).map Prod.fst := by
  have hcongr : (m.peers.zipIdx.filter fun slot =>
        !(slot.1.isConnected && connectionLost (sends slot.2))) =
      m.peers.zipIdx.filter fun slot => slot.1.workerId ∉ m.peersToRemove sends := by
    refine List.filter_congr ?_
    intro slot hslot
    have hmem := h.mem_peersToRemove sends hslot
    rw [Bool.eq_iff_iff, decide_eq_true_iff, hmem, Bool.not_eq_true', ← Bool.not_eq_true,
      Bool.and_eq_true_iff]
  have hfst : m.peers = m.peers.zipIdx.map Prod.fst := (List.zipIdx_map_fst 0 m.peers).symm
  rw [hcongr, broadcastData, (h.removeAll _).2]
  conv_lhs => rw [hfst]
  rw [List.filter_map]
  rfl

theorem broadcastData (h : m.WellFormed) (sends : Nat → Int) :
    (m.broadcastData sends).2.WellFormed := (h.removeAll _).1

end PeerManager.WellFormed

/-! ## Runs -/

/-- A call of a function of the peer table. -/
inductive PeerCall where
  | addPeer (workerId : Int32) (address : CString) (port : Int32) (outcome : ConnectOutcome)
  | removeDisconnectedPeer (workerId : Int32)
  | broadcastData (answers : Nat → Nat → SocketAnswer) (key value : CString)
  | getPeerConnection (targetWorkerId : Int32)

namespace PeerCall

/-- The table behind a call. -/
def run (t : PeerTable) : PeerCall → PeerTable
  | .addPeer workerId address port outcome => (t.addPeer workerId address port outcome).2.1
  | .removeDisconnectedPeer workerId => (t.removeDisconnectedPeer workerId).2.1
  | .broadcastData answers key value => (t.broadcastData answers key value).2.1
  | .getPeerConnection _ => t

/-- The table behind calls in order. -/
def runAll (t : PeerTable) (calls : List PeerCall) : PeerTable := calls.foldl run t

/-- No worker is added under the id of a free slot. -/
def Named : PeerCall → Prop
  | .addPeer workerId _ _ _ => workerId ≠ -1
  | _ => True

instance (call : PeerCall) : Decidable call.Named := by
  unfold Named
  split <;> infer_instance

/-- **One call** keeps the list in the array, and the list well formed. -/
theorem represents_run {t : PeerTable} {m : PeerManager} (h : t.Represents m)
    (hformed : m.WellFormed) {call : PeerCall} (hnamed : call.Named) :
    ∃ m', (call.run t).Represents m' ∧ m'.WellFormed ∧ m'.peerPort = m.peerPort := by
  cases call with
  | addPeer workerId address port outcome =>
    exact ⟨_, (h.addPeer workerId address port outcome).2,
      hformed.addPeer hnamed address port outcome.socket, PeerManager.peerPort_addPeer ..⟩
  | removeDisconnectedPeer workerId =>
    exact ⟨_, (h.removeDisconnectedPeer workerId).2, hformed.removeDisconnectedPeer workerId,
      PeerManager.peerPort_removeDisconnectedPeer ..⟩
  | broadcastData answers key value =>
    exact ⟨_, (h.broadcastData answers key value).2, hformed.broadcastData _,
      PeerManager.peerPort_broadcastData ..⟩
  | getPeerConnection targetWorkerId => exact ⟨m, h, hformed, rfl⟩

/-- **All calls**, by induction on the sequence. -/
theorem represents_runAll {t : PeerTable} {m : PeerManager} (h : t.Represents m)
    (hformed : m.WellFormed) {calls : List PeerCall} (hnamed : ∀ call ∈ calls, call.Named) :
    ∃ m', (runAll t calls).Represents m' ∧ m'.WellFormed ∧ m'.peerPort = m.peerPort := by
  induction calls generalizing t m with
  | nil => exact ⟨m, h, hformed, rfl⟩
  | cons call calls ih =>
    obtain ⟨hcall, hcalls⟩ := List.forall_mem_cons.mp hnamed
    obtain ⟨m', h', hformed', hport'⟩ := represents_run h hformed hcall
    obtain ⟨m'', h'', hformed'', hport''⟩ := ih h' hformed' hcalls
    exact ⟨m'', h'', hformed'', hport''.trans hport'⟩

/-- From the initialised table on. -/
theorem represents_reached (peerPort : Int32) {calls : List PeerCall}
    (hnamed : ∀ call ∈ calls, call.Named) :
    ∃ m, (runAll (.initializePeerManager peerPort) calls).Represents m ∧ m.WellFormed ∧
      m.peerPort = peerPort :=
  represents_runAll (PeerTable.represents_initializePeerManager peerPort)
    (PeerManager.wellFormed_initializePeerManager peerPort) hnamed

end PeerCall

/-! ## The table in every run -/

/-- What holds of the array: the count is in range, no worker has two slots,
the slots that are not in use are free, and a slot is connected exactly
when its socket is valid. -/
structure PeerTable.WellFormed (t : PeerTable) : Prop where
  length_peers : t.peers.length = maxWorkers
  peerCount_nonneg : 0 ≤ t.peerCount
  peerCount_le : t.peerCount ≤ maxWorkers
  nodup : (t.entries.map PeerConnection.workerId).Nodup
  free : ∀ (i : Nat) (slot : PeerConnection), t.peerCount ≤ i → t.peers[i]? = some slot →
    slot.workerId = -1 ∧ slot.socket = none ∧ slot.isConnected = false
  connected : ∀ slot ∈ t.peers, slot.isConnected = slot.socket.isSome

/-- The search for a connection. -/
theorem PeerTable.getPeerConnection_eq (t : PeerTable) (targetWorkerId : Int32) :
    t.getPeerConnection targetWorkerId = PeerEntries.connection t.entries targetWorkerId := by
  unfold getPeerConnection PeerEntries.connection PeerEntries.find?
  cases t.entries.find? fun peer => peer.workerId == targetWorkerId with
  | none => rfl
  | some peer =>
    cases hsocket : peer.socket with
    | none => simp [hsocket]
    | some socket => simp [hsocket]

namespace PeerTable.Represents

variable {t : PeerTable} {m : PeerManager}

theorem wellFormed (h : t.Represents m) (hformed : m.WellFormed) : t.WellFormed := by
  have hcount := h.peerCount
  have hle := m.length_le
  have hentries := h.entries
  obtain ⟨rest, hrest, hfree⟩ := h.peers
  refine ⟨h.length_peers, by omega, by omega, hentries ▸ hformed.nodup, ?_, ?_⟩
  · intro i slot hi hslot
    rw [hrest, List.getElem?_append_right (by omega)] at hslot
    exact hfree slot (List.mem_of_getElem? hslot)
  · intro slot hslot
    rw [hrest] at hslot
    rcases List.mem_append.mp hslot with hused | hunused
    · exact hformed.connected slot hused
    · obtain ⟨-, hsocket, hdown⟩ := hfree slot hunused
      rw [hsocket, hdown]
      rfl

/-- An `AddPeer` that is not for this table leaves it as it is. -/
theorem addPeer_refused (h : t.Represents m) {workerId : Int32} {port : Int32}
    (hrefused : port = m.peerPort ∨
      workerId ∉ t.entries.map PeerConnection.workerId ∧ t.entries.length = maxWorkers)
    (address : CString) (outcome : ConnectOutcome) :
    (t.addPeer workerId address port outcome).2 = (t, []) := by
  unfold PeerTable.addPeer
  rw [h.peerPort]
  by_cases hport : port = m.peerPort
  · rw [if_pos hport]
  · obtain ⟨hnew, hfull⟩ := hrefused.resolve_left hport
    rw [h.entries] at hnew hfull
    have hnone : m.indexOf workerId = none := PeerManager.indexOf_eq_none.mpr hnew
    have hcount : (maxWorkers : Int) ≤ t.peerCount := by rw [h.peerCount]; omega
    rw [if_neg hport, h.indexOf, hnone]
    simp only [hcount, if_true]

/-- The entries behind a broadcast. -/
theorem entries_broadcastData (h : t.Represents m) (hformed : m.WellFormed)
    (answers : Nat → Nat → SocketAnswer) (key value : CString) :
    (t.broadcastData answers key value).2.1.entries =
      (t.entries.zipIdx.filter fun slot =>
        !(slot.1.isConnected && connectionLost (slotResult answers key value slot))).map
          Prod.fst := by
  rw [(h.broadcastData answers key value).2.entries, h.entries, hformed.peers_broadcastData]
  congr 1
  refine List.filter_congr ?_
  intro slot hslot
  by_cases hup : slot.1.isConnected = true
  · have hnamed : slot.1.workerId ≠ -1 := by
      intro heq
      exact hformed.named (List.mem_map.mpr ⟨slot.1, List.fst_mem_of_mem_zipIdx hslot, heq⟩)
    have htried : slot ∈ m.notified := List.mem_filter.mpr ⟨hslot, by simp [hnamed, hup]⟩
    rw [h.slotResult_eq answers key value htried]
  · simp [hup]

end PeerTable.Represents

open PeerCall PeerTable in
/-- **The peer table is an association list.** After any calls the array is
well formed, and its functions act on the slots below `peerCount` as on a
list of entries in the order they were added: `AddPeer` as
`PeerEntries.add`, and on nothing at all when it refuses, a removal as
`PeerEntries.remove`, a broadcast by taking out the connected peers whose
send fails, and `GetPeerConnection` as `PeerEntries.connection`. -/
theorem peerTable_represents (peerPort : Int32) (calls : List PeerCall)
    (hnamed : ∀ call ∈ calls, call.Named) :
    (runAll (initializePeerManager peerPort) calls).WellFormed ∧
    (∀ (workerId : Int32) (address : CString) (port : Int32) (outcome : ConnectOutcome),
      ((runAll (initializePeerManager peerPort) calls).addPeer
          workerId address port outcome).2.1.entries =
        PeerEntries.add peerPort (runAll (initializePeerManager peerPort) calls).entries
          workerId address port outcome.socket ∧
      (port = peerPort ∨
          workerId ∉ (runAll (initializePeerManager peerPort) calls).entries.map
              PeerConnection.workerId ∧
            (runAll (initializePeerManager peerPort) calls).entries.length = maxWorkers →
        ((runAll (initializePeerManager peerPort) calls).addPeer workerId address port outcome).2 =
          (runAll (initializePeerManager peerPort) calls, []))) ∧
    (∀ workerId : Int32,
      ((runAll (initializePeerManager peerPort) calls).removeDisconnectedPeer
          workerId).2.1.entries =
        PeerEntries.remove (runAll (initializePeerManager peerPort) calls).entries workerId) ∧
    (∀ (answers : Nat → Nat → SocketAnswer) (key value : CString),
      ((runAll (initializePeerManager peerPort) calls).broadcastData
          answers key value).2.1.entries =
        ((runAll (initializePeerManager peerPort) calls).entries.zipIdx.filter fun slot =>
          !(slot.1.isConnected && connectionLost (slotResult answers key value slot))).map
            Prod.fst) ∧
    ∀ targetWorkerId : Int32,
      (runAll (initializePeerManager peerPort) calls).getPeerConnection targetWorkerId =
        PeerEntries.connection (runAll (initializePeerManager peerPort) calls).entries
          targetWorkerId := by
  obtain ⟨m, h, hformed, rfl⟩ := represents_reached peerPort hnamed
  refine ⟨h.wellFormed hformed, ?_, ?_, ?_, ?_⟩
  · intro workerId address port outcome
    refine ⟨?_, ?_⟩
    · rw [(h.addPeer workerId address port outcome).2.entries, hformed.peers_addPeer,
        h.entries]
    · intro hrefused
      exact h.addPeer_refused hrefused address outcome
  · intro workerId
    rw [(h.removeDisconnectedPeer workerId).2.entries, hformed.peers_removeDisconnectedPeer,
      h.entries]
  · exact h.entries_broadcastData hformed
  · exact getPeerConnection_eq _

open PeerCall PeerTable in
/-- A run with three peers, of which the first is removed and the second
changes its port. -/
theorem peerTable_represents_run :
    let calls : List PeerCall :=
      [.addPeer 1 (.ofString "10.0.0.1") 7001 (.connected 4),
        .addPeer 2 (.ofString "10.0.0.2") 7002 .noSocket,
        .addPeer 3 (.ofString "10.0.0.3") 7003 (.connected 5), .removeDisconnectedPeer 1,
        .addPeer 2 (.ofString "10.0.0.4") 7004 .noSocket]
    (runAll (initializePeerManager 7000) calls).WellFormed ∧
      (runAll (initializePeerManager 7000) calls).entries =
        [⟨2, .ofString "10.0.0.4", 7004, none, false⟩,
          ⟨3, .ofString "10.0.0.3", 7003, some 5, true⟩] := by
  intro calls
  exact ⟨(peerTable_represents 7000 calls (by decide)).1, by decide +kernel⟩

/-! ## What a broadcast does -/

/-- The PEER_NOTIFY of a key and a value. -/
def peerNotify (key value : CString) : Message :=
  ⟨MessageType.peerNotify.value, lengthPrefixed key.bytes ++ lengthPrefixed value.bytes⟩

/-- The send of a message on the socket of a slot succeeds. -/
def delivered (answers : Nat → Nat → SocketAnswer) (message : Message) (slot : Nat) : Bool :=
  0 < (protocolSend (answers slot) message ⟨0, []⟩).1

theorem sendPeerNotify_of_valid {key value : CString} (hkey : validateKey key = true)
    (hvalue : validateValue value = true) :
    Lib.sendPeerNotify key value = some (peerNotify key value) := by
  simp [Lib.sendPeerNotify, hkey, hvalue, peerNotify]

/-- A send fails with a code behind which the peer is removed. -/
theorem connectionLost_iff_not_delivered (answers : Nat → Nat → SocketAnswer) (message : Message)
    (slot : Nat) :
    connectionLost (protocolSend (answers slot) message ⟨0, []⟩).1 =
      !delivered answers message slot := by
  unfold delivered
  rcases protocolSend_result (answers slot) message ⟨0, []⟩ with hsent | hlost | hlost | hlost
  · simp [hsent, PeerTable.not_connectionLost_of_pos hsent]
  · rw [hlost]
    rfl
  · rw [hlost]
    rfl
  · rw [hlost]
    rfl

namespace PeerManager.WellFormed

variable {m : PeerManager}

/-- The first entry of a worker is its only one. -/
theorem find?_workerId (h : m.WellFormed) {peer : PeerConnection} (hpeer : peer ∈ m.peers) :
    PeerEntries.find? m.peers peer.workerId = some peer := by
  cases hfind : PeerEntries.find? m.peers peer.workerId with
  | none =>
    have hnone := List.find?_eq_none.mp hfind peer hpeer
    simp at hnone
  | some found =>
    have hid : found.workerId = peer.workerId := by simpa using List.find?_some hfind
    exact congrArg some
      (List.inj_on_of_nodup_map h.nodup (List.mem_of_find?_eq_some hfind) hpeer hid)

/-- A broadcast sends to the connected peers. -/
theorem notified_eq (h : m.WellFormed) :
    m.notified = m.peers.zipIdx.filter fun slot => slot.1.isConnected := by
  refine List.filter_congr ?_
  intro slot hslot
  have hnamed : slot.1.workerId ≠ -1 := by
    intro heq
    exact h.named (List.mem_map.mpr ⟨slot.1, List.fst_mem_of_mem_zipIdx hslot, heq⟩)
  simp [hnamed]

/-- No worker is to be removed twice. -/
theorem nodup_peersToRemove (h : m.WellFormed) (sends : Nat → Int) :
    (m.peersToRemove sends).Nodup := by
  have hids : m.peers.zipIdx.map (fun slot => slot.1.workerId) = m.ids := by
    rw [ids, ← List.zipIdx_map_fst 0 m.peers, List.map_map]
    simp [Function.comp_def]
  have hsublist : (m.peersToRemove sends).Sublist m.ids := by
    rw [← hids]
    exact (List.filter_sublist.trans List.filter_sublist).map _
  exact h.nodup.sublist hsublist

end PeerManager.WellFormed

namespace PeerTable.Represents

variable {t : PeerTable} {m : PeerManager}

/-- The socket that a removal closes. -/
theorem calls_removeDisconnectedPeer (h : t.Represents m) (workerId : Int32) :
    (t.removeDisconnectedPeer workerId).2.2 =
      (((PeerEntries.find? m.peers workerId).bind PeerConnection.socket).map
        NetworkCall.close).toList := by
  have hfind : PeerEntries.find? m.peers workerId =
      (m.indexOf workerId).bind fun i => m.peers[i]? := List.find?_eq_bind_findIdx?_getElem?
  unfold PeerTable.removeDisconnectedPeer
  rw [h.indexOf, hfind]
  cases hindex : m.indexOf workerId with
  | none => rfl
  | some i =>
    obtain ⟨rest, hrest, -⟩ := h.peers
    have hslot : t.peers[i]? = m.peers[i]? := by
      rw [hrest, List.getElem?_append_left (indexOf_lt hindex)]
    simp only [hslot, Option.bind_some]

/-- The sockets that the removals close. -/
theorem calls_removeAll (h : t.Represents m) (hformed : m.WellFormed) {lost : List Int32}
    (hnodup : lost.Nodup) :
    (t.removeAll lost).2 = lost.flatMap fun workerId =>
      (((PeerEntries.find? m.peers workerId).bind PeerConnection.socket).map
        NetworkCall.close).toList := by
  induction lost generalizing t m with
  | nil => rfl
  | cons workerId lost ih =>
    obtain ⟨hfresh, hnodup⟩ := List.nodup_cons.mp hnodup
    have hrest := ih (h.removeDisconnectedPeer workerId).2
      (hformed.removeDisconnectedPeer workerId) hnodup
    have hsame : ∀ other ∈ lost,
        PeerEntries.find? (m.removeDisconnectedPeer workerId).2.peers other =
          PeerEntries.find? m.peers other := by
      intro other hother
      rw [hformed.peers_removeDisconnectedPeer]
      exact PeerEntries.find?_remove fun heq => hfresh (heq ▸ hother)
    rw [List.flatMap_cons, ← h.calls_removeDisconnectedPeer workerId]
    refine congrArg ((t.removeDisconnectedPeer workerId).2.2 ++ ·) (hrest.trans ?_)
    refine List.flatMap_congr ?_
    intro other hother
    rw [hsame other hother]

end PeerTable.Represents

open PeerCall PeerTable in
/-- **A broadcast reaches each live peer once.** In every run it sends one
PEER_NOTIFY to each connected peer and to no other, returns the number of
sends that succeeded, and leaves the entries whose send did not fail as
they are; the sockets it closes are those of the sends that failed. -/
theorem broadcastData_reaches (peerPort : Int32) (calls : List PeerCall)
    (hnamed : ∀ call ∈ calls, call.Named) {key value : CString} (hkey : validateKey key = true)
    (hvalue : validateValue value = true) (answers : Nat → Nat → SocketAnswer) :
    let t := runAll (initializePeerManager peerPort) calls
    let live := t.entries.zipIdx.filter fun slot => slot.1.isConnected
    let sent := fun slot : PeerConnection × Nat => delivered answers (peerNotify key value) slot.2
    (∀ slot ∈ live, slot.1.socket.isSome = true) ∧
    (t.broadcastData answers key value).1 = live.countP sent ∧
    (t.broadcastData answers key value).2.1.entries =
      (t.entries.zipIdx.filter fun slot => !slot.1.isConnected || sent slot).map Prod.fst ∧
    (t.broadcastData answers key value).2.2 =
      (live.filterMap fun slot => slot.1.socket.map (.send · (peerNotify key value))) ++
        (live.filter fun slot => !sent slot).filterMap fun slot => slot.1.socket.map .close := by
  intro t live sent
  obtain ⟨m, h, hformed, -⟩ := represents_reached peerPort hnamed
  have hentries : t.entries = m.peers := h.entries
  have hlive : m.notified = live := by rw [hformed.notified_eq, ← hentries]
  have hsocket : ∀ slot ∈ live, ∃ socket, slot.1.socket = some socket := by
    intro slot hslot
    obtain ⟨hmem, hup⟩ := List.mem_filter.mp hslot
    rw [hentries] at hmem
    have hconnected := hformed.connected slot.1 (List.fst_mem_of_mem_zipIdx hmem)
    exact Option.isSome_iff_exists.mp (by rw [← hconnected, hup])
  -- what each send on the pass is
  have hsend : ∀ slot ∈ live,
      PeerTable.sendPeerNotify slot.1.socket (answers slot.2) key value =
        ((protocolSend (answers slot.2) (peerNotify key value) ⟨0, []⟩).1,
          (slot.1.socket.map (NetworkCall.send · (peerNotify key value))).toList) := by
    intro slot hslot
    obtain ⟨socket, hsome⟩ := hsocket slot hslot
    rw [hsome]
    simp only [PeerTable.sendPeerNotify, sendPeerNotify_of_valid hkey hvalue]
    rfl
  have hresult : ∀ slot ∈ live, t.notifyResult answers key value slot.2 =
      (protocolSend (answers slot.2) (peerNotify key value) ⟨0, []⟩).1 := by
    intro slot hslot
    rw [← h.slotResult_eq answers key value (hlive ▸ hslot), slotResult, hsend slot hslot]
  have hlost : m.peersToRemove (t.notifyResult answers key value) =
      (live.filter fun slot => !sent slot).map fun slot => slot.1.workerId := by
    rw [PeerManager.peersToRemove, hlive]
    refine congrArg (List.map _) (List.filter_congr ?_)
    intro slot hslot
    rw [hresult slot hslot, connectionLost_iff_not_delivered]
  refine ⟨?_, ?_, ?_, ?_⟩
  · intro slot hslot
    exact Option.isSome_iff_exists.mpr (hsocket slot hslot)
  · have hcount : (m.notified.countP fun slot => 0 < t.notifyResult answers key value slot.2) =
        live.countP sent := by
      rw [hlive]
      refine List.countP_congr ?_
      intro slot hslot
      rw [hresult slot hslot]
      exact Iff.rfl
    rw [(h.broadcastData answers key value).1, PeerManager.broadcastData, hcount]
  · rw [h.entries_broadcastData hformed]
    refine congrArg (List.map Prod.fst) (List.filter_congr ?_)
    intro slot hslot
    by_cases hup : slot.1.isConnected = true
    · have hmem : slot ∈ live := List.mem_filter.mpr ⟨hslot, hup⟩
      rw [slotResult, hsend slot hmem, connectionLost_iff_not_delivered]
      simp [sent, hup]
    · simp [hup]
  · have hcloses := h.calls_removeAll hformed
      (hformed.nodup_peersToRemove (t.notifyResult answers key value))
    rw [hlost, List.flatMap_map] at hcloses
    unfold PeerTable.broadcastData
    rw [h.pass, hlive, hlost]
    refine congrArg₂ (· ++ ·) ?_ (hcloses.trans ?_)
    · rw [List.filterMap_eq_flatMap_toList]
      refine List.flatMap_congr ?_
      intro slot hslot
      rw [hsend slot hslot]
    · rw [List.filterMap_eq_flatMap_toList]
      refine List.flatMap_congr ?_
      intro slot hslot
      have hmem := List.mem_of_mem_filter (List.mem_of_mem_filter hslot)
      rw [hentries] at hmem
      rw [hformed.find?_workerId (List.fst_mem_of_mem_zipIdx hmem), Option.bind_some]

/-- Three peers, of which the one that is not connected is not sent to and
the one whose connection is reset is removed. -/
theorem broadcastData_reaches_run :
    let calls : List PeerCall :=
      [.addPeer 1 (.ofString "10.0.0.1") 7001 (.connected 4),
        .addPeer 2 (.ofString "10.0.0.2") 7002 .noSocket,
        .addPeer 3 (.ofString "10.0.0.3") 7003 (.connected 5)]
    let answers := fun slot => if slot = 0 then fun _ => SocketAnswer.error .connReset
      else fun _ => SocketAnswer.count 1024
    ((PeerCall.runAll (.initializePeerManager 7000) calls).broadcastData answers
        (.ofString "k") (.ofString "v")).1 = 1 ∧
      ((PeerCall.runAll (.initializePeerManager 7000) calls).broadcastData answers
        (.ofString "k") (.ofString "v")).2.1.entries =
          [⟨2, .ofString "10.0.0.2", 7002, none, false⟩,
            ⟨3, .ofString "10.0.0.3", 7003, some 5, true⟩] := by
  intro calls answers
  have hkey : validateKey (.ofString "k") = true := by decide
  have hvalue : validateValue (.ofString "v") = true := by decide
  have hsize : (peerNotify (.ofString "k") (.ofString "v")).payload.length ≤ maxMessageSize := by
    decide
  have hlive : (PeerCall.runAll (.initializePeerManager 7000) calls).entries =
      [⟨1, .ofString "10.0.0.1", 7001, some 4, true⟩, ⟨2, .ofString "10.0.0.2", 7002, none, false⟩,
        ⟨3, .ofString "10.0.0.3", 7003, some 5, true⟩] := by decide +kernel
  have hreset : delivered answers (peerNotify (.ofString "k") (.ofString "v")) 0 = false := by
    unfold delivered
    rw [protocolSend_error hsize (by decide) rfl]
    rfl
  have hsent : delivered answers (peerNotify (.ofString "k") (.ofString "v")) 2 = true := by
    have hhealthy : Healthy (answers 2) :=
      ⟨fun _ => Or.inr ⟨1024, by decide, rfl⟩, fun _ => ⟨0, by decide, nofun⟩⟩
    obtain ⟨sends, hframe⟩ := protocolSend_healthy hhealthy hsize ⟨0, []⟩
    unfold delivered
    rw [hframe]
    rfl
  obtain ⟨-, hcount, hentries, -⟩ :=
    broadcastData_reaches 7000 calls (by decide) hkey hvalue answers
  rw [hlive] at hcount hentries
  refine ⟨hcount.trans ?_, hentries.trans ?_⟩
  · simp [hreset, hsent]
  · simp [hreset, hsent]

end LoadBalancing.Worker
