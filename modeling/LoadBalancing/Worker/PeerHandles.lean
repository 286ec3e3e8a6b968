/-
LoadBalancing.Worker.PeerHandles — the handles of a worker process, and
what the functions of its peer table do with them.

A handle that has been closed is given out again, for another socket or for
anything else in the process, so that a call on it need not lead where it
used to. The layers:
  • `Handles` has what each handle leads to, and the calls made so far, with
    where each one led and where it was meant to;
  • `holdings` are the sockets of a peer table;
  • `Handles.Holds` is `Base.Ownership` for the handles, with one rule for
    each operation (`Holds.send`, `Holds.close` and so on).

No `sorry`, no `axiom`, no `native_decide`.
-/
import LoadBalancing.Base.Ownership
import LoadBalancing.Worker.PeerBroadcast
import Mathlib.Algebra.BigOperators.Group.List.Basic

namespace LoadBalancing.Worker

open LoadBalancing.Base LoadBalancing.Lib

namespace PeerSockets

/-! ## Handles -/

/-- What a handle of the process leads to: the connection to a peer, the
socket the listener listens on or one it has accepted, or something else. -/
inductive Endpoint where
  | peer (workerId : Int32)
  | listening
  | accepted
  | other
  deriving DecidableEq

/-- The socket of a call. -/
def socketOf : NetworkCall → Nat
  | .send socket _ | .close socket => socket

/-- The handles behind a call. -/
def effect (endpoint : Nat → Option Endpoint) : NetworkCall → Nat → Option Endpoint
  | .send _ _ => endpoint
  | .close socket => Function.update endpoint socket none

/-- A call that has been made: what it was meant for, and where its handle
led. `removed` is set for a send of an export whose target had been
removed. -/
structure Call where
  call : NetworkCall
  meant : Endpoint
  endpoint : Option Endpoint
  removed : Bool
  deriving DecidableEq

/-- A call that went where it was meant to, or a send of such an export. -/
def Call.Leads (c : Call) : Prop :=
  (∃ socket message, c.call = .send socket message) ∧ c.removed = true ∨
    c.endpoint = some c.meant

/-- The handles of a process, with the calls made on them so far. -/
structure Handles where
  endpoint : Nat → Option Endpoint
  calls : List Call

namespace Handles

/-- Make a call. -/
def call (h : Handles) (meant : Endpoint) (removed : Bool) (c : NetworkCall) : Handles :=
  ⟨effect h.endpoint c, h.calls ++ [⟨c, meant, h.endpoint (socketOf c), removed⟩]⟩

/-- Make some calls. -/
def callAll (h : Handles) (meant : Endpoint) (calls : List NetworkCall) : Handles :=
  calls.foldl (fun h c => h.call meant false c) h

/-- A new handle, if the system can give it out. -/
def openAs (h : Handles) (handle : Nat) (endpoint : Endpoint) : Option Handles :=
  if h.endpoint handle = none then
    some { h with endpoint := Function.update h.endpoint handle (some endpoint) }
  else none

end Handles

/-- The handle that the `socket` of `AddPeer` gives. -/
def newSocket : ConnectOutcome → Option Nat
  | .noSocket => none
  | .badAddress handle | .refused handle | .connected handle => some handle

/-- The sends of a pass of `BroadcastData`. -/
def sendAll (answers : Nat → Nat → SocketAnswer) (key value : CString)
    (slots : List (PeerConnection × Nat)) (h : Handles) : Handles :=
  slots.foldl (fun h slot => h.callAll (.peer slot.1.workerId)
    (PeerTable.sendPeerNotify slot.1.socket (answers slot.2) key value).2) h

/-- The loop of `DestroyPeerManager`. -/
def closeAll (peers : List PeerConnection) (h : Handles) : Handles :=
  peers.foldl (fun h peer => h.callAll (.peer peer.workerId)
    (peer.socket.map NetworkCall.close).toList) h

/-! ## The sockets of a table -/

/-- The socket of a peer. -/
def holding (peer : PeerConnection) : Multiset (Nat × Endpoint) :=
  peer.socket.elim 0 fun socket => {(socket, .peer peer.workerId)}

/-- The sockets of a table. -/
def holdings (peers : List PeerConnection) : Multiset (Nat × Endpoint) := (peers.map holding).sum

@[simp] theorem holdings_nil : holdings [] = 0 := rfl

@[simp] theorem holdings_cons (peer : PeerConnection) (peers : List PeerConnection) :
    holdings (peer :: peers) = holding peer + holdings peers := List.sum_cons

theorem holdings_append (peers more : List PeerConnection) :
    holdings (peers ++ more) = holdings peers + holdings more := by
  rw [holdings, List.map_append, List.sum_append]
  rfl

theorem mem_holdings {peers : List PeerConnection} {socket : Nat} {workerId : Int32} :
    (socket, Endpoint.peer workerId) ∈ holdings peers ↔
      ∃ peer ∈ peers, peer.socket = some socket ∧ peer.workerId = workerId := by
  induction peers with
  | nil => simp [holdings]
  | cons peer peers ih =>
    have hpeer : (socket, Endpoint.peer workerId) ∈ holding peer ↔
        peer.socket = some socket ∧ peer.workerId = workerId := by
      unfold holding
      cases peer.socket with
      | none => simp
      | some found => simp [eq_comm]
    rw [holdings_cons, Multiset.mem_add, ih, hpeer, List.exists_mem_cons_iff]

theorem holding_le {peers : List PeerConnection} {peer : PeerConnection} (hpeer : peer ∈ peers) :
    holding peer ≤ holdings peers := by
  obtain ⟨front, back, rfl⟩ := List.append_of_mem hpeer
  rw [holdings_append, holdings_cons]
  exact (Multiset.le_add_right _ _).trans (Multiset.le_add_left _ _)

/-- Free slots have no socket. -/
theorem holdings_free {slots : List PeerConnection} (hfree : ∀ slot ∈ slots, PeerTable.Free slot) :
    holdings slots = 0 := by
  apply List.sum_eq_zero
  intro held hheld
  obtain ⟨slot, hslot, rfl⟩ := List.mem_map.mp hheld
  rw [holding, (hfree slot hslot).2.1, Option.elim_none]

/-- **A removal** gives back the socket of the worker's entry. -/
theorem holdings_remove {peers : List PeerConnection}
    (hnodup : (peers.map PeerConnection.workerId).Nodup) (workerId : Int32) :
    holdings peers =
      (PeerEntries.find? peers workerId).elim 0 holding +
        holdings (PeerEntries.remove peers workerId) := by
  induction peers with
  | nil => rfl
  | cons peer peers ih =>
    rw [List.map_cons, List.nodup_cons] at hnodup
    by_cases hid : peer.workerId = workerId
    · have hrest : PeerEntries.remove peers workerId = peers := by
        refine List.filter_eq_self.mpr ?_
        intro other hother
        refine bne_iff_ne.mpr fun heq => hnodup.1 ?_
        exact List.mem_map.mpr ⟨other, hother, heq.trans hid.symm⟩
      have hfind : PeerEntries.find? (peer :: peers) workerId = some peer :=
        List.find?_cons_of_pos (beq_iff_eq.mpr hid)
      have hgone : PeerEntries.remove (peer :: peers) workerId = peers := by
        rw [PeerEntries.remove, List.filter_cons_of_neg (by simp [hid])]
        exact hrest
      rw [hfind, hgone, holdings_cons, Option.elim_some]
    · have hfind : PeerEntries.find? (peer :: peers) workerId =
          PeerEntries.find? peers workerId :=
        List.find?_cons_of_neg (by simp [hid])
      have hkept : PeerEntries.remove (peer :: peers) workerId =
          peer :: PeerEntries.remove peers workerId :=
        List.filter_cons_of_pos (bne_iff_ne.mpr hid)
      rw [hfind, hkept, holdings_cons, holdings_cons, ih hnodup.2, add_left_comm]

/-! ## Rules for the calls -/

/-- The handles are these, and no call has gone elsewhere. -/
structure Handles.Holds (h : Handles) (owned : Multiset (Nat × Endpoint)) : Prop where
  owns : Owns h.endpoint owned
  leads : ∀ c ∈ h.calls, c.Leads

namespace Handles.Holds

variable {h : Handles} {owned : Multiset (Nat × Endpoint)} {meant : Endpoint} {socket : Nat}

theorem openAs (hh : h.Holds owned) {endpoint : Endpoint} {h' : Handles}
    (hopen : h.openAs socket endpoint = some h') : h'.Holds ((socket, endpoint) ::ₘ owned) := by
  unfold Handles.openAs at hopen
  split at hopen
  · rename_i hfree
    rw [← Option.some.inj hopen]
    exact ⟨hh.owns.insert hfree endpoint, hh.leads⟩
  · cases hopen

/-- A call that leads where it is meant to. -/
theorem call (hh : h.Holds owned) {c : NetworkCall} {removed : Bool}
    {owned' : Multiset (Nat × Endpoint)} (howns : Owns (effect h.endpoint c) owned')
    (hleads : Call.Leads ⟨c, meant, h.endpoint (socketOf c), removed⟩) :
    (h.call meant removed c).Holds owned' := by
  refine ⟨howns, ?_⟩
  intro made hmade
  rcases List.mem_append.mp hmade with hold | hnew
  · exact hh.leads made hold
  · rw [List.mem_singleton.mp hnew]
    exact hleads

/-- **A send** on a socket that is held. -/
theorem send (hh : h.Holds owned) (hmem : (socket, meant) ∈ owned) (message : Message) :
    (h.call meant false (.send socket message)).Holds owned :=
  hh.call hh.owns (Or.inr ((hh.owns.mem_iff socket meant).mpr hmem))

/-- **A close** of a socket that is held. -/
theorem close (hh : h.Holds ((socket, meant) ::ₘ owned)) :
    (h.callAll meant [.close socket]).Holds owned :=
  hh.call hh.owns.erase
    (Or.inr ((hh.owns.mem_iff socket meant).mpr (Multiset.mem_cons_self _ _)))

/-- A send that need not lead anywhere. -/
theorem sendRemoved (hh : h.Holds owned) (message : Message) :
    (h.call meant true (.send socket message)).Holds owned :=
  hh.call hh.owns (Or.inl ⟨⟨socket, message, rfl⟩, rfl⟩)

theorem sends (hh : h.Holds owned) {calls : List NetworkCall}
    (hcalls : ∀ c ∈ calls, ∃ socket message, c = .send socket message ∧ (socket, meant) ∈ owned) :
    (h.callAll meant calls).Holds owned := by
  induction calls generalizing h with
  | nil => exact hh
  | cons c calls ih =>
    obtain ⟨hc, hrest⟩ := List.forall_mem_cons.mp hcalls
    obtain ⟨socket, message, rfl, hmem⟩ := hc
    exact ih (hh.send hmem message) hrest

/-- The socket of a peer, closed if there is one. -/
theorem closePeer {peer : PeerConnection} (hh : h.Holds (holding peer + owned)) :
    (h.callAll (.peer peer.workerId) (peer.socket.map NetworkCall.close).toList).Holds owned := by
  unfold holding at hh
  cases hsocket : peer.socket with
  | none =>
    rw [hsocket] at hh
    rwa [Option.elim_none, Multiset.zero_add] at hh
  | some socket =>
    rw [hsocket, Option.elim_some, Multiset.singleton_add] at hh
    exact hh.close

/-- **The sockets of a table**, closed one after the other. -/
theorem closePeers {peers : List PeerConnection} (hh : h.Holds (holdings peers + owned)) :
    (closeAll peers h).Holds owned := by
  induction peers generalizing h with
  | nil =>
    rwa [holdings_nil, Multiset.zero_add] at hh
  | cons peer peers ih =>
    rw [holdings_cons, add_assoc] at hh
    exact ih hh.closePeer

/-- What `SendPeerNotify` calls. -/
theorem mem_sendPeerNotify {found : Option Nat} {answers : Nat → SocketAnswer}
    {key value : CString} {c : NetworkCall}
    (hc : c ∈ (PeerTable.sendPeerNotify found answers key value).2) :
    ∃ socket message, c = .send socket message ∧ found = some socket := by
  unfold PeerTable.sendPeerNotify at hc
  split at hc
  · rename_i message socket _
    exact ⟨socket, message, List.mem_singleton.mp hc, rfl⟩
  · cases hc

/-- **The sends of a pass**, to peers whose sockets are held. -/
theorem notify (hh : h.Holds owned) {slots : List (PeerConnection × Nat)}
    (hslots : ∀ slot ∈ slots, holding slot.1 ≤ owned) (answers : Nat → Nat → SocketAnswer)
    (key value : CString) : (sendAll answers key value slots h).Holds owned := by
  induction slots generalizing h with
  | nil => exact hh
  | cons slot slots ih =>
    obtain ⟨hslot, hrest⟩ := List.forall_mem_cons.mp hslots
    refine ih (hh.sends ?_) hrest
    intro c hc
    obtain ⟨socket, message, hcall, hsocket⟩ := mem_sendPeerNotify hc
    rw [holding, hsocket, Option.elim_some] at hslot
    exact ⟨socket, message, hcall, Multiset.singleton_le.mp hslot⟩

end Handles.Holds

/-! ## The functions of the table -/

/-- `AddPeer` takes a slot for the peer, or leaves the sockets alone. -/
theorem peers_addPeer_cases (m : PeerManager) (workerId : Int32) (address : CString) (port : Int32)
    (connected : Option Nat) :
    (m.addPeer workerId address port connected).1 = 1 ∧
        (m.addPeer workerId address port connected).2.peers = m.peers ++
          [⟨workerId, address.truncate maxAddressLength, port, connected, connected.isSome⟩] ∨
      (m.addPeer workerId address port connected).1 ≠ 1 ∧
        holdings (m.addPeer workerId address port connected).2.peers = holdings m.peers := by
  unfold PeerManager.addPeer
  by_cases hport : port = m.peerPort
  · rw [if_pos hport]
    exact Or.inr ⟨zero_ne_one, rfl⟩
  · rw [if_neg hport]
    cases m.indexOf workerId with
    | some i =>
      refine Or.inr ⟨zero_ne_one, ?_⟩
      exact congrArg List.sum (map_modify_of_eq m.peers i fun _ => rfl)
    | none =>
      by_cases hfull : maxWorkers ≤ m.peers.length
      · simp only [hfull, dif_pos]
        exact Or.inr ⟨by omega, trivial⟩
      · simp only [hfull, dif_neg, not_false_iff]
        exact Or.inl ⟨trivial, trivial⟩

/-- The calls of an `AddPeer` that takes a slot. -/
theorem calls_addPeer {table : PeerTable} {workerId : Int32} {address : CString} {port : Int32}
    {outcome : ConnectOutcome} (h : (table.addPeer workerId address port outcome).1 = 1) :
    (table.addPeer workerId address port outcome).2.2 = outcome.calls := by
  unfold PeerTable.addPeer at h ⊢
  by_cases hport : port = table.peerPort
  · rw [if_pos hport] at h
    cases h
  · rw [if_neg hport] at h ⊢
    cases hindex : table.indexOf workerId with
    | some i =>
      rw [hindex] at h
      cases h
    | none =>
      by_cases hfull : (maxWorkers : Int) ≤ table.peerCount
      · simp [hindex, hfull] at h
      · simp [hfull]

/-- **The connect of `AddPeer`** leaves the socket of the new peer open, and
no other. -/
theorem Handles.Holds.connect {h h' : Handles} {owned : Multiset (Nat × Endpoint)}
    (hh : h.Holds owned) {outcome : ConnectOutcome} {handle : Nat} {workerId : Int32}
    (hsocket : newSocket outcome = some handle)
    (hopen : h.openAs handle (.peer workerId) = some h') :
    (h'.callAll (.peer workerId) outcome.calls).Holds
      ((outcome.socket.elim 0 fun socket => {(socket, .peer workerId)}) + owned) := by
  have hopened := hh.openAs hopen
  cases outcome with
  | noSocket => cases hsocket
  | badAddress socket =>
    cases hsocket
    exact (Multiset.zero_add owned).symm ▸ hopened.close
  | refused socket =>
    cases hsocket
    exact (Multiset.zero_add owned).symm ▸ hopened.close
  | connected socket =>
    cases hsocket
    exact hopened

end PeerSockets

end LoadBalancing.Worker
