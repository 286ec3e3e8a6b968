/-
LoadBalancing.Worker.PeerManager — the peer table of
`Worker/PeerManager.c`.

The slots in use are the first `peerCount` of the array, so the table is
the list of these. A slot is taken by `AddPeer` before it connects, and
keeps its place whether that succeeds or not; it is given back by
`RemoveDisconnectedPeer`, which only `BroadcastData` calls, and that only
tries the peers it is connected to. Where every connect succeeds, the ids
in the table are the peers of the cluster model.

What `socket`, `inet_pton` and `SafeConnect` answer, and the results of the
sends, are arguments. Out of scope: the NULL checks, the sockets that are
closed, and `isStale`, which nothing reads.

No `sorry`, no `axiom`, no `native_decide`.
-/
import LoadBalancing.Base.CString
import LoadBalancing.Base.Membership
import LoadBalancing.Worker.PeerConnections

namespace LoadBalancing.Worker

open LoadBalancing.Base LoadBalancing.Lib

/-- `PeerConnection`; `INVALID_SOCKET` is `none`. -/
structure PeerConnection where
  workerId : Int32
  address : CString
  port : Int32
  socket : Option Nat
  isConnected : Bool
  deriving DecidableEq

/-- `PeerManager`, with the slots in use. -/
structure PeerManager where
  peers : List PeerConnection
  peerPort : Int32
  length_le : peers.length ≤ maxWorkers

/-- The longest string in `address`. -/
def maxAddressLength : Nat := 255

/-- A result of `SendPeerNotify` behind which the peer is removed. -/
def connectionLost (result : Int) : Bool := result == -2 || result == -3 || result == -1

namespace PeerManager

/-- `InitializePeerManager`. -/
def initializePeerManager (peerPort : Int32) : PeerManager := ⟨[], peerPort, Nat.zero_le _⟩

/-- The ids of the slots in use. -/
def ids (m : PeerManager) : List Int32 := m.peers.map PeerConnection.workerId

/-- The first slot with this id. -/
def indexOf (m : PeerManager) (workerId : Int32) : Option Nat :=
  m.peers.findIdx? fun peer => peer.workerId == workerId

/-- `AddPeer`, with the socket that `SafeConnect` connected, if it did. -/
def addPeer (m : PeerManager) (workerId : Int32) (address : CString) (port : Int32)
    (connected : Option Nat) : Int × PeerManager :=
  if port = m.peerPort then (0, m)
  else match m.indexOf workerId with
    | some i =>
      (0, { m with
        peers := m.peers.modify i fun peer =>
          { peer with address := address.truncate maxAddressLength, port := port }
        length_le := by rw [List.length_modify]; exact m.length_le })
    | none =>
      if h : maxWorkers ≤ m.peers.length then (-1, m)
      else (1, { m with
        peers := m.peers ++
          [⟨workerId, address.truncate maxAddressLength, port, connected, connected.isSome⟩]
        length_le := by rw [List.length_append, List.length_singleton]; omega })

/-- `RemoveDisconnectedPeer`. -/
def removeDisconnectedPeer (m : PeerManager) (workerId : Int32) : Int × PeerManager :=
  match m.indexOf workerId with
  | some i => (0, { m with
      peers := m.peers.eraseIdx i
      length_le := Nat.le_trans (List.length_eraseIdx_le _ _) m.length_le })
  | none => (-1, m)

/-- The peers `BroadcastData` sends to, with their slots. -/
def notified (m : PeerManager) : List (PeerConnection × Nat) :=
  m.peers.zipIdx.filter fun slot => slot.1.workerId != -1 && slot.1.isConnected

/-- `peersToRemove`, where `sends` has the result for each slot. -/
def peersToRemove (m : PeerManager) (sends : Nat → Int) : List Int32 :=
  (m.notified.filter fun slot => connectionLost (sends slot.2)).map fun slot => slot.1.workerId

/-- `BroadcastData`. -/
def broadcastData (m : PeerManager) (sends : Nat → Int) : Int × PeerManager :=
  (m.notified.countP fun slot => 0 < sends slot.2,
    (m.peersToRemove sends).foldl (fun m workerId => (m.removeDisconnectedPeer workerId).2) m)

/-! ## The ids in the table -/

@[simp] theorem ids_initializePeerManager (peerPort : Int32) :
    (initializePeerManager peerPort).ids = [] := rfl

theorem length_ids (m : PeerManager) : m.ids.length = m.peers.length := List.length_map ..

theorem indexOf_eq_none {m : PeerManager} {workerId : Int32} :
    m.indexOf workerId = none ↔ workerId ∉ m.ids := by
  rw [indexOf, List.findIdx?_eq_none_iff, ids, List.mem_map]
  constructor
  · rintro h ⟨peer, hmem, rfl⟩
    exact absurd (h peer hmem) (by simp)
  · intro h peer hmem
    exact beq_eq_false_iff_ne.mpr fun heq => h ⟨peer, hmem, heq⟩

/-- **`AddPeer` finds no slot** for a worker that is neither this one nor
in the table exactly when every slot is in use. -/
theorem addPeer_eq_neg_one {m : PeerManager} {workerId : Int32} {address : CString} {port : Int32}
    {connected : Option Nat} :
    (m.addPeer workerId address port connected).1 = -1 ↔
      port ≠ m.peerPort ∧ workerId ∉ m.ids ∧ maxWorkers ≤ m.ids.length := by
  rw [addPeer, length_ids, ← indexOf_eq_none]
  by_cases hport : port = m.peerPort
  · simp [hport]
  · cases hindex : m.indexOf workerId with
    | some i => simp [hport]
    | none =>
      by_cases hfull : maxWorkers ≤ m.peers.length
      · simp [hport, hfull]
      · simp [hport, hfull]

/-- What `AddPeer` does to the ids. -/
theorem ids_addPeer (m : PeerManager) (workerId : Int32) (address : CString) (port : Int32)
    (connected : Option Nat) :
    (m.addPeer workerId address port connected).2.ids =
      if port = m.peerPort ∨ workerId ∈ m.ids ∨ maxWorkers ≤ m.peers.length then m.ids
      else m.ids ++ [workerId] := by
  have hnone : m.indexOf workerId = none ↔ workerId ∉ m.ids := indexOf_eq_none
  rw [addPeer]
  by_cases hport : port = m.peerPort
  · rw [if_pos hport, if_pos (Or.inl hport)]
  · rw [if_neg hport]
    cases hindex : m.indexOf workerId with
    | some i =>
      have hknown : workerId ∈ m.ids := by
        by_contra hnew
        rw [hnone.mpr hnew] at hindex
        cases hindex
      rw [if_pos (Or.inr (Or.inl hknown))]
      simp only [ids]
      exact map_modify_of_eq m.peers i fun _ => rfl
    | none =>
      have hnew := hnone.mp hindex
      by_cases hfull : maxWorkers ≤ m.peers.length
      · simp [hfull]
      · have hroom : ¬ (port = m.peerPort ∨ workerId ∈ m.ids ∨ maxWorkers ≤ m.peers.length) := by
          simp [hport, hnew, hfull]
        rw [if_neg hroom]
        simp [hfull, ids]

@[simp] theorem peerPort_addPeer (m : PeerManager) (workerId : Int32) (address : CString)
    (port : Int32) (connected : Option Nat) :
    (m.addPeer workerId address port connected).2.peerPort = m.peerPort := by
  unfold addPeer
  split
  · rfl
  · split
    · rfl
    · split <;> rfl

/-- `AddPeer` keeps the peers and does not reconnect them. -/
theorem exists_mem_addPeer {m : PeerManager} {peer : PeerConnection} (hpeer : peer ∈ m.peers)
    (workerId : Int32) (address : CString) (port : Int32) (connected : Option Nat) :
    ∃ peer' ∈ (m.addPeer workerId address port connected).2.peers,
      peer'.workerId = peer.workerId ∧ peer'.isConnected = peer.isConnected := by
  unfold addPeer
  split
  · exact ⟨peer, hpeer, rfl, rfl⟩
  · split
    · rcases mem_modify_of_mem hpeer with hsame | ⟨-, hchanged⟩
      · exact ⟨peer, hsame, rfl, rfl⟩
      · exact ⟨_, hchanged, rfl, rfl⟩
    · split
      · exact ⟨peer, hpeer, rfl, rfl⟩
      · exact ⟨peer, List.mem_append_left _ hpeer, rfl, rfl⟩

/-- `RemoveDisconnectedPeer` erases an id. -/
theorem ids_removeDisconnectedPeer (m : PeerManager) (workerId : Int32) :
    (m.removeDisconnectedPeer workerId).2.ids = m.ids.erase workerId := by
  have hindex : m.ids.idxOf? workerId = m.indexOf workerId := List.findIdx?_map
  rw [List.erase_eq_eraseIdx, hindex, removeDisconnectedPeer]
  cases m.indexOf workerId with
  | none => rfl
  | some i => exact (List.eraseIdx_map ..).symm

@[simp] theorem peerPort_removeDisconnectedPeer (m : PeerManager) (workerId : Int32) :
    (m.removeDisconnectedPeer workerId).2.peerPort = m.peerPort := by
  unfold removeDisconnectedPeer
  split <;> rfl

/-- `BroadcastData` erases the ids of the lost connections. -/
theorem ids_broadcastData (m : PeerManager) (sends : Nat → Int) (hnodup : m.ids.Nodup) :
    (m.broadcastData sends).2.ids = m.ids.filter fun id => id ∉ m.peersToRemove sends := by
  have hfold : ∀ (lost : List Int32) (m : PeerManager),
      (lost.foldl (fun m workerId => (m.removeDisconnectedPeer workerId).2) m).ids =
        m.ids.diff lost := by
    intro lost
    induction lost with
    | nil => exact fun m => rfl
    | cons id lost ih =>
      intro m
      rw [List.foldl_cons, ih, ids_removeDisconnectedPeer, List.diff_cons]
  rw [broadcastData, hfold, hnodup.sdiff_eq_filter]

@[simp] theorem peerPort_broadcastData (m : PeerManager) (sends : Nat → Int) :
    (m.broadcastData sends).2.peerPort = m.peerPort := by
  rw [broadcastData]
  induction m.peersToRemove sends generalizing m with
  | nil => rfl
  | cons id lost ih => rw [List.foldl_cons, ih, peerPort_removeDisconnectedPeer]

/-- `RemoveDisconnectedPeer` takes no other peer. -/
theorem mem_removeDisconnectedPeer {m : PeerManager} {workerId : Int32} {peer : PeerConnection}
    (hpeer : peer ∈ m.peers) (hne : peer.workerId ≠ workerId) :
    peer ∈ (m.removeDisconnectedPeer workerId).2.peers := by
  rw [removeDisconnectedPeer]
  cases hindex : m.indexOf workerId with
  | none => exact hpeer
  | some i =>
    obtain ⟨j, hj⟩ := List.mem_iff_getElem?.mp hpeer
    obtain ⟨_, hid, -⟩ := List.findIdx?_eq_some_iff_getElem.mp hindex
    refine List.mem_eraseIdx_iff_getElem?.mpr ⟨j, ?_, hj⟩
    rintro rfl
    obtain ⟨hlt, rfl⟩ := List.getElem?_eq_some_iff.mp hj
    exact hne (beq_iff_eq.mp hid)

/-- **A failed connect keeps its slot**: the broadcast does not try the
peer, so it does not remove it either. -/
theorem mem_broadcastData {m : PeerManager} {sends : Nat → Int} (hnodup : m.ids.Nodup)
    {peer : PeerConnection} (hpeer : peer ∈ m.peers) (hdown : peer.isConnected = false) :
    peer ∈ (m.broadcastData sends).2.peers := by
  have hkept : ∀ id ∈ m.peersToRemove sends, peer.workerId ≠ id := by
    rintro id hlost rfl
    obtain ⟨slot, hslot, hid⟩ := List.mem_map.mp hlost
    obtain ⟨hmem, hup⟩ := List.mem_filter.mp (List.mem_of_mem_filter hslot)
    have hsame : slot.1 = peer :=
      List.inj_on_of_nodup_map hnodup (List.fst_mem_of_mem_zipIdx hmem) hpeer hid
    rw [hsame, hdown] at hup
    simp at hup
  rw [broadcastData]
  generalize m.peersToRemove sends = lost at hkept
  clear hnodup
  induction lost generalizing m with
  | nil => exact hpeer
  | cons id lost ih =>
    obtain ⟨hid, hlost⟩ := List.forall_mem_cons.mp hkept
    rw [List.foldl_cons]
    exact ih (mem_removeDisconnectedPeer hpeer hid) hlost

/-! ## The peers of the cluster -/

section Cluster

variable {m : PeerManager} {s : Cluster} {w : Nat} {idOf : Nat → Int32}

/-- **`AddPeer` on the table** is `AddPeer` of the cluster, where the table
has the ids of the worker's peers. -/
theorem ids_addPeer_cluster (hinj : idOf.Injective) (hids : m.ids = (s.node w).peers.map idOf)
    {peer : Nat} {port : Int32} (hport : port = m.peerPort ↔ peer = w) (address : CString)
    (connected : Option Nat) :
    (m.addPeer (idOf peer) address port connected).2.ids =
      ((s.addPeer w peer).node w).peers.map idOf := by
  have hlength : m.peers.length = (s.node w).peers.length := by
    rw [← length_ids, hids, List.length_map]
  have hmem : idOf peer ∈ m.ids ↔ peer ∈ (s.node w).peers := by
    rw [hids, List.mem_map_of_injective hinj]
  have hcond : (port = m.peerPort ∨ idOf peer ∈ m.ids ∨ maxWorkers ≤ m.peers.length) ↔
      (peer = w ∨ peer ∈ (s.node w).peers ∨ maxWorkers ≤ (s.node w).peers.length) := by
    rw [hport, hmem, hlength]
  rw [ids_addPeer, Cluster.addPeer]
  by_cases hrefused : peer = w ∨ peer ∈ (s.node w).peers ∨ maxWorkers ≤ (s.node w).peers.length
  · rw [if_pos (hcond.mpr hrefused), if_pos hrefused, hids]
  · have hpeers := Cluster.node_setNode_self (s := s) (w := w)
      (n := { s.node w with peers := (s.node w).peers ++ [peer] })
    rw [if_neg (mt hcond.mp hrefused), if_neg hrefused, hids]
    simp only [hpeers, List.map_append, List.map_singleton]

/-- **`BroadcastData` on the table** is the end of a broadcast of the
cluster, where the same peers were lost. -/
theorem ids_broadcastData_cluster {t : Cluster} (hinj : idOf.Injective)
    (hids : m.ids = (s.node w).peers.map idOf) (hnodup : (s.node w).peers.Nodup)
    {key value : CString} {removed : List Nat} {sends : Nat → Int}
    (hreceiver : (s.node w).receiver = .notifying key value [] removed)
    (hlost : m.peersToRemove sends = removed.map idOf) (hstep : s.notifyStep w = some t) :
    (m.broadcastData sends).2.ids = (t.node w).peers.map idOf := by
  rw [Cluster.notifyStep, hreceiver, Option.some.injEq] at hstep
  subst hstep
  have hdistinct : m.ids.Nodup := hids ▸ hnodup.map hinj
  have hkept : ∀ peer ∈ (s.node w).peers,
      decide (idOf peer ∉ removed.map idOf) = decide (peer ∉ removed) := by
    intro peer _
    exact decide_eq_decide.mpr (not_congr (List.mem_map_of_injective hinj))
  rw [ids_broadcastData m sends hdistinct, hlost, hids, List.filter_map]
  simp only [Cluster.node_setNode_self]
  exact congrArg (List.map idOf) (List.filter_congr hkept)

end Cluster

end PeerManager

end LoadBalancing.Worker
