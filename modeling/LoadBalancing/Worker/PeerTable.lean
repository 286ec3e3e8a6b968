/-
LoadBalancing.Worker.PeerTable — the peer table of
`Worker/PeerManager.c` as it is laid out: an array of `MAX_WORKERS`
slots with a count.

`PeerManager` has the slots in use as a list. Here is the array behind it,
with the loop that moves slots down and with the fields that a removal
clears, and the calls on the network that each function makes. The layers:
  • `Represents`: the array holds the list, and the slots behind it are
    free (`SlotArray.Holds`); every function keeps that
    (`represents_addPeer` and the like);
  • `PeerManager.WellFormed`: what holds of the list in every run;
  • `peerTable_represents`: the functions on an association list.

`BroadcastData` looks at all slots, used or not, so that a free slot is
not sent to is a fact about what a removal clears. A send is answered by
the socket, one call at a time.

Out of scope: the NULL checks, the lock around each function (what is
between the pass of a broadcast and its removals is `PeerManager`'s), and
`isStale`, which nothing reads.

No `sorry`, no `axiom`, no `native_decide`.
-/
import LoadBalancing.Base.SlotArray
import LoadBalancing.Lib.NetworkLib
import LoadBalancing.Worker.PeerManager

namespace LoadBalancing.Worker

open LoadBalancing.Base LoadBalancing.Lib

/-! ## The array -/

/-- `PeerManager`, with all its slots. -/
structure PeerTable where
  peers : List PeerConnection
  peerCount : Int
  peerPort : Int32
  deriving DecidableEq

/-- What a function does on the network: a `ProtocolSend` on a valid
socket, or a `SafeCloseSocket`. -/
inductive NetworkCall where
  | send (socket : Nat) (message : Message)
  | close (socket : Nat)
  deriving DecidableEq

/-- How the connect of `AddPeer` goes: no socket, an address that
`inet_pton` does not read, a `SafeConnect` that fails, or a connection. -/
inductive ConnectOutcome where
  | noSocket
  | badAddress (newSocket : Nat)
  | refused (newSocket : Nat)
  | connected (newSocket : Nat)
  deriving DecidableEq

namespace ConnectOutcome

/-- The socket of the peer behind it. -/
def socket : ConnectOutcome → Option Nat
  | .connected newSocket => some newSocket
  | _ => none

/-- A socket that does not get connected is closed. -/
def calls : ConnectOutcome → List NetworkCall
  | .badAddress newSocket | .refused newSocket => [.close newSocket]
  | .noSocket | .connected _ => []

end ConnectOutcome

namespace PeerTable

/-- A slot of `InitializePeerManager`. -/
def freeSlot : PeerConnection := ⟨-1, .empty, 0, none, false⟩

/-- `InitializePeerManager`. -/
def initializePeerManager (peerPort : Int32) : PeerTable :=
  ⟨List.replicate maxWorkers freeSlot, 0, peerPort⟩

/-- The slots below `peerCount`. -/
def entries (t : PeerTable) : List PeerConnection := t.peers.take t.peerCount.toNat

/-- The loop that looks for a worker below `peerCount`. -/
def indexOf (t : PeerTable) (workerId : Int32) : Option Nat :=
  t.entries.findIdx? fun peer => peer.workerId == workerId

/-- `AddPeer`. -/
def addPeer (t : PeerTable) (workerId : Int32) (address : CString) (port : Int32)
    (outcome : ConnectOutcome) : Int × PeerTable × List NetworkCall :=
  if port = t.peerPort then (0, t, [])
  else match t.indexOf workerId with
    | some i =>
      (0, { t with
        peers := t.peers.modify i fun peer =>
          { peer with address := address.truncate maxAddressLength, port := port } }, [])
    | none =>
      if (maxWorkers : Int) ≤ t.peerCount then (-1, t, [])
      else
        let slot := t.peerCount.toNat
        let peers :=
          t.peers.set slot ⟨workerId, address.truncate maxAddressLength, port, none, false⟩
        let peers := match outcome.socket with
          | some newSocket =>
            peers.modify slot fun peer =>
              { peer with socket := some newSocket, isConnected := true }
          | none => peers
        (1, { t with peers := peers, peerCount := t.peerCount + 1 }, outcome.calls)

/-- What `SafeCloseSocket` leaves. -/
def closed (peer : PeerConnection) : PeerConnection := { peer with socket := none }

/-- What a removal clears of the slot that is no longer used. -/
def cleared (peer : PeerConnection) : PeerConnection :=
  { peer with workerId := -1, socket := none, isConnected := false }

/-- `RemoveDisconnectedPeer`. -/
def removeDisconnectedPeer (t : PeerTable) (workerId : Int32) :
    Int × PeerTable × List NetworkCall :=
  match t.indexOf workerId with
  | some i =>
    let last := (t.peerCount - 1).toNat
    let calls := ((t.peers[i]?.bind PeerConnection.socket).map NetworkCall.close).toList
    let peers := SlotArray.shiftDown (t.peers.modify i closed) i (last - i)
    (0, { t with peers := peers.modify last cleared, peerCount := t.peerCount - 1 }, calls)
  | none => (-1, t, [])

/-- `GetPeerConnection`. -/
def getPeerConnection (t : PeerTable) (targetWorkerId : Int32) : Option Nat :=
  match t.entries.find? fun peer => peer.workerId == targetWorkerId with
  | some peer => if peer.isConnected && peer.socket.isSome then peer.socket else none
  | none => none

/-! ## The broadcast -/

/-- `SendPeerNotify` to a slot, with the answers of its socket. -/
def sendPeerNotify (socket : Option Nat) (answers : Nat → SocketAnswer) (key value : CString) :
    Int × List NetworkCall :=
  match Lib.sendPeerNotify key value, socket with
  | some message, some socket =>
    ((protocolSend answers message ⟨0, []⟩).1, [.send socket message])
  | _, _ => (-1, [])

/-- What the pass of `BroadcastData` over the slots collects. -/
structure Pass where
  successCount : Int
  peersToRemove : List Int32
  calls : List NetworkCall

/-- One slot of the pass. -/
def broadcastSlot (answers : Nat → Nat → SocketAnswer) (key value : CString) (pass : Pass)
    (slot : PeerConnection × Nat) : Pass :=
  if slot.1.workerId != -1 && slot.1.isConnected then
    let (result, calls) := sendPeerNotify slot.1.socket (answers slot.2) key value
    if 0 < result then ⟨pass.successCount + 1, pass.peersToRemove, pass.calls ++ calls⟩
    else if connectionLost result then
      ⟨pass.successCount, pass.peersToRemove ++ [slot.1.workerId], pass.calls ++ calls⟩
    else ⟨pass.successCount, pass.peersToRemove, pass.calls ++ calls⟩
  else pass

/-- The loop of `BroadcastData` that removes peers. -/
def removeAll (t : PeerTable) : List Int32 → PeerTable × List NetworkCall
  | [] => (t, [])
  | workerId :: rest =>
    let (_, t', calls) := t.removeDisconnectedPeer workerId
    let (t'', more) := t'.removeAll rest
    (t'', calls ++ more)

/-- `BroadcastData`: a pass over all `MAX_WORKERS` slots, then the
removals. -/
def broadcastData (t : PeerTable) (answers : Nat → Nat → SocketAnswer) (key value : CString) :
    Int × PeerTable × List NetworkCall :=
  let pass := t.peers.zipIdx.foldl (broadcastSlot answers key value) ⟨0, [], []⟩
  let (t', calls) := t.removeAll pass.peersToRemove
  (pass.successCount, t', pass.calls ++ calls)

/-! ## The array holds the list -/

/-- A slot that no function reads as a peer. -/
def Free (slot : PeerConnection) : Prop :=
  slot.workerId = -1 ∧ slot.socket = none ∧ slot.isConnected = false

/-- The array and the list of the slots in use. -/
structure Represents (t : PeerTable) (m : PeerManager) : Prop where
  peers : SlotArray.Holds Free t.peers m.peers
  length_peers : t.peers.length = maxWorkers
  peerCount : t.peerCount = m.peers.length
  peerPort : t.peerPort = m.peerPort

theorem represents_initializePeerManager (peerPort : Int32) :
    Represents (initializePeerManager peerPort) (.initializePeerManager peerPort) := by
  have hfree : Free freeSlot := ⟨rfl, rfl, rfl⟩
  exact ⟨SlotArray.holds_replicate hfree maxWorkers, List.length_replicate, rfl, rfl⟩

namespace Represents

variable {t : PeerTable} {m : PeerManager}

theorem toNat_peerCount (h : t.Represents m) : t.peerCount.toNat = m.peers.length := by
  rw [h.peerCount, Int.toNat_natCast]

theorem entries (h : t.Represents m) : t.entries = m.peers := by
  rw [PeerTable.entries, h.toNat_peerCount]
  exact h.peers.take

theorem indexOf (h : t.Represents m) (workerId : Int32) :
    t.indexOf workerId = m.indexOf workerId := by
  rw [PeerTable.indexOf, h.entries]
  rfl

/-- What the index that is found is good for. -/
theorem indexOf_lt {workerId : Int32} {i : Nat} (hi : m.indexOf workerId = some i) :
    i < m.peers.length := (List.findIdx?_eq_some_iff_getElem.mp hi).1

/-- **`AddPeer`** on the array is `AddPeer` on the list. -/
theorem addPeer (h : t.Represents m) (workerId : Int32) (address : CString) (port : Int32)
    (outcome : ConnectOutcome) :
    (t.addPeer workerId address port outcome).1 =
        (m.addPeer workerId address port outcome.socket).1 ∧
      (t.addPeer workerId address port outcome).2.1.Represents
        (m.addPeer workerId address port outcome.socket).2 := by
  unfold PeerTable.addPeer PeerManager.addPeer
  rw [h.peerPort, h.indexOf]
  by_cases hport : port = m.peerPort
  · rw [if_pos hport, if_pos hport]
    exact ⟨rfl, h⟩
  · rw [if_neg hport, if_neg hport]
    cases hindex : m.indexOf workerId with
    | some i =>
      have hpeers := h.peers.modify (indexOf_lt hindex) fun peer =>
        { peer with address := address.truncate maxAddressLength, port := port }
      have hlength := h.length_peers
      have hcount := h.peerCount
      exact ⟨rfl, hpeers, by simp only [List.length_modify, hlength],
        by simp only [List.length_modify, hcount], rfl⟩
    | none =>
      by_cases hfull : maxWorkers ≤ m.peers.length
      · have hcount : (maxWorkers : Int) ≤ t.peerCount := by rw [h.peerCount]; omega
        simp only [hfull, hcount, if_true, dif_pos]
        exact ⟨trivial, h⟩
      · have hcount : ¬ (maxWorkers : Int) ≤ t.peerCount := by rw [h.peerCount]; omega
        have hroom : m.peers.length < t.peers.length := by rw [h.length_peers]; omega
        have hslot := h.toNat_peerCount
        have hlength := h.length_peers
        have hset := h.peers.append hroom
          ⟨workerId, address.truncate maxAddressLength, port, none, false⟩
        have hmore : t.peerCount + 1 = ((m.peers.length + 1 : Nat) : Int) := by
          rw [h.peerCount]
          rfl
        simp only [hfull, hcount, if_false, dif_neg, not_false_iff, hslot]
        refine ⟨trivial, ?_, ?_, ?_, rfl⟩
        · cases outcome.socket with
          | none => exact hset
          | some newSocket =>
            have hmodify := hset.modify (i := m.peers.length) (by simp) fun peer =>
              { peer with socket := some newSocket, isConnected := true }
            rw [SlotArray.modify_append_cons] at hmodify
            exact hmodify
        · cases outcome.socket <;> simp [hlength]
        · simpa using hmore

/-- What is closed does not stay. -/
theorem eraseIdx_closed (i : Nat) : (m.peers.modify i closed).eraseIdx i = m.peers.eraseIdx i :=
  List.eraseIdx_modify_of_eq ..

/-- **`RemoveDisconnectedPeer`** on the array is the same on the list. -/
theorem removeDisconnectedPeer (h : t.Represents m) (workerId : Int32) :
    (t.removeDisconnectedPeer workerId).1 = (m.removeDisconnectedPeer workerId).1 ∧
      (t.removeDisconnectedPeer workerId).2.1.Represents (m.removeDisconnectedPeer workerId).2 := by
  unfold PeerTable.removeDisconnectedPeer PeerManager.removeDisconnectedPeer
  rw [h.indexOf]
  cases hindex : m.indexOf workerId with
  | none => exact ⟨rfl, h⟩
  | some i =>
    have hi := indexOf_lt hindex
    have hlast : (t.peerCount - 1).toNat = m.peers.length - 1 := by rw [h.peerCount]; omega
    have hlength := h.length_peers
    have hclosed := h.peers.modify hi closed
    have hmodified : (m.peers.modify i closed).length = m.peers.length := List.length_modify ..
    have hcleared : ∀ slot, Free (cleared slot) := fun slot => ⟨rfl, rfl, rfl⟩
    have hremove := hclosed.remove (hmodified.symm ▸ hi) hcleared
    rw [eraseIdx_closed, hmodified] at hremove
    have hfewer : t.peerCount - 1 = ((m.peers.eraseIdx i).length : Int) := by
      rw [List.length_eraseIdx_of_lt hi, h.peerCount]
      omega
    refine ⟨rfl, ?_, ?_, hfewer, h.peerPort⟩
    · simp only [hlast]
      exact hremove
    · simp only [List.length_modify, SlotArray.length_shiftDown, hlength]

end Represents

end PeerTable

/-! ## The association list -/

namespace PeerEntries

/-- The entry of a worker. -/
def find? (entries : List PeerConnection) (workerId : Int32) : Option PeerConnection :=
  entries.find? fun peer => peer.workerId == workerId

/-- The entries behind an `AddPeer` whose connect gave `socket`, at the
worker that listens on `peerPort`. -/
def add (peerPort : Int32) (entries : List PeerConnection) (workerId : Int32) (address : CString)
    (port : Int32) (socket : Option Nat) : List PeerConnection :=
  if port = peerPort then entries
  else if workerId ∈ entries.map PeerConnection.workerId then
    entries.map fun peer =>
      if peer.workerId = workerId then
        { peer with address := address.truncate maxAddressLength, port := port }
      else peer
  else if entries.length = maxWorkers then entries
  else entries ++
    [⟨workerId, address.truncate maxAddressLength, port, socket, socket.isSome⟩]

/-- The entries without a worker. -/
def remove (entries : List PeerConnection) (workerId : Int32) : List PeerConnection :=
  entries.filter fun peer => peer.workerId != workerId

/-- The socket to a worker that is connected. -/
def connection (entries : List PeerConnection) (workerId : Int32) : Option Nat :=
  (find? entries workerId).bind fun peer => if peer.isConnected then peer.socket else none

/-- Removing a worker leaves the others. -/
theorem find?_remove {entries : List PeerConnection} {workerId other : Int32}
    (hne : other ≠ workerId) : find? (remove entries workerId) other = find? entries other := by
  rw [find?, find?, remove, List.find?_filter]
  congr 1
  funext peer
  by_cases hother : peer.workerId = other
  · simp [hother, hne]
  · simp [hother]

end PeerEntries

namespace PeerManager

/-- What holds of the list of peers in every run. -/
structure WellFormed (m : PeerManager) : Prop where
  nodup : m.ids.Nodup
  named : -1 ∉ m.ids
  connected : ∀ peer ∈ m.peers, peer.isConnected = peer.socket.isSome

theorem wellFormed_initializePeerManager (peerPort : Int32) :
    (initializePeerManager peerPort).WellFormed := ⟨List.nodup_nil, nofun, nofun⟩

namespace WellFormed

variable {m : PeerManager}

/-- What `AddPeer` does to the entries. -/
theorem peers_addPeer (h : m.WellFormed) (workerId : Int32) (address : CString) (port : Int32)
    (connected : Option Nat) :
    (m.addPeer workerId address port connected).2.peers =
      PeerEntries.add m.peerPort m.peers workerId address port connected := by
  have hnone : m.indexOf workerId = none ↔ workerId ∉ m.ids := indexOf_eq_none
  unfold addPeer PeerEntries.add
  by_cases hport : port = m.peerPort
  · rw [if_pos hport, if_pos hport]
  · rw [if_neg hport, if_neg hport]
    cases hindex : m.indexOf workerId with
    | some i =>
      have hmem : workerId ∈ m.peers.map PeerConnection.workerId := by
        by_contra hnew
        rw [hnone.mpr hnew] at hindex
        cases hindex
      obtain ⟨hlt, hid, -⟩ := List.findIdx?_eq_some_iff_getElem.mp hindex
      have hchanged := modify_eq_map h.nodup (List.getElem?_eq_getElem hlt) fun peer =>
        { peer with address := address.truncate maxAddressLength, port := port }
      rw [if_pos hmem]
      rw [beq_iff_eq.mp hid] at hchanged
      exact hchanged
    | none =>
      have hnew : workerId ∉ m.peers.map PeerConnection.workerId := hnone.mp hindex
      have hle := m.length_le
      rw [if_neg hnew]
      by_cases hfull : maxWorkers ≤ m.peers.length
      · have heq : m.peers.length = maxWorkers := by omega
        rw [if_pos heq]
        simp only [hfull, dif_pos]
      · have hne : m.peers.length ≠ maxWorkers := by omega
        rw [if_neg hne]
        simp only [hfull, dif_neg, not_false_iff]

/-- What `RemoveDisconnectedPeer` does to the entries. -/
theorem peers_removeDisconnectedPeer (h : m.WellFormed) (workerId : Int32) :
    (m.removeDisconnectedPeer workerId).2.peers = PeerEntries.remove m.peers workerId := by
  have hnone : m.indexOf workerId = none ↔ workerId ∉ m.ids := indexOf_eq_none
  unfold removeDisconnectedPeer PeerEntries.remove
  cases hindex : m.indexOf workerId with
  | some i =>
    obtain ⟨hlt, hid, -⟩ := List.findIdx?_eq_some_iff_getElem.mp hindex
    have herase := eraseIdx_eq_filter h.nodup (List.getElem?_eq_getElem hlt)
    rw [beq_iff_eq.mp hid] at herase
    exact herase
  | none =>
    have hall : ∀ peer ∈ m.peers, (peer.workerId != workerId) = true := by
      intro peer hpeer
      refine bne_iff_ne.mpr fun heq => hnone.mp hindex ?_
      exact List.mem_map.mpr ⟨peer, hpeer, heq⟩
    exact (List.filter_eq_self.mpr hall).symm

theorem addPeer (h : m.WellFormed) {workerId : Int32} (hid : workerId ≠ -1) (address : CString)
    (port : Int32) (connected : Option Nat) :
    (m.addPeer workerId address port connected).2.WellFormed := by
  have hids := ids_addPeer m workerId address port connected
  by_cases hrefused : port = m.peerPort ∨ workerId ∈ m.ids ∨ maxWorkers ≤ m.peers.length
  · rw [if_pos hrefused] at hids
    refine ⟨hids ▸ h.nodup, hids ▸ h.named, ?_⟩
    rw [h.peers_addPeer, PeerEntries.add]
    by_cases hport : port = m.peerPort
    · rw [if_pos hport]
      exact h.connected
    · rw [if_neg hport]
      split
      · intro peer hpeer
        obtain ⟨old, hold, rfl⟩ := List.mem_map.mp hpeer
        have hconnected := h.connected old hold
        by_cases hthis : old.workerId = workerId
        · simp only [hthis, if_true, hconnected]
        · simp only [hthis, if_false, hconnected]
      · rename_i hnew
        have hle := m.length_le
        have hfull : m.peers.length = maxWorkers := by
          rcases hrefused with hp | hmem | hfull
          · exact absurd hp hport
          · exact absurd hmem hnew
          · omega
        rw [if_pos hfull]
        exact h.connected
  · obtain ⟨hport, hnew, hroom⟩ : port ≠ m.peerPort ∧ workerId ∉ m.ids ∧
        ¬ maxWorkers ≤ m.peers.length := by
      simpa only [not_or] using hrefused
    rw [if_neg hrefused] at hids
    refine ⟨?_, ?_, ?_⟩
    · rw [hids]
      exact List.nodup_append_comm.mp (List.nodup_cons.mpr ⟨hnew, h.nodup⟩)
    · rw [hids]
      intro hmem
      rcases List.mem_append.mp hmem with hold | hone
      · exact h.named hold
      · exact hid (List.mem_singleton.mp hone).symm
    · have hunknown : workerId ∉ m.peers.map PeerConnection.workerId := hnew
      have hnotFull : m.peers.length ≠ maxWorkers := by omega
      rw [h.peers_addPeer, PeerEntries.add, if_neg hport, if_neg hunknown, if_neg hnotFull]
      intro peer hpeer
      rcases List.mem_append.mp hpeer with hold | hone
      · exact h.connected peer hold
      · rw [List.mem_singleton.mp hone]

theorem removeDisconnectedPeer (h : m.WellFormed) (workerId : Int32) :
    (m.removeDisconnectedPeer workerId).2.WellFormed := by
  have hids := ids_removeDisconnectedPeer m workerId
  refine ⟨hids ▸ h.nodup.erase workerId, ?_, ?_⟩
  · rw [hids]
    exact fun hmem => h.named (List.mem_of_mem_erase hmem)
  · rw [h.peers_removeDisconnectedPeer]
    exact fun peer hpeer => h.connected peer (List.mem_of_mem_filter hpeer)

end WellFormed

end PeerManager

end LoadBalancing.Worker
