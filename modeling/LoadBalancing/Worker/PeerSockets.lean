/-
LoadBalancing.Worker.PeerSockets — where the calls of a worker's threads on
their sockets lead, `Worker/PeerManager.c`, `Worker/HashTable.c` and
`Worker/PeerListenerThread.c`.

`ReceiverThread` adds peers to the table, sends to them and removes them,
under the lock of the table but removal by removal; `PeerListenerThread` has
the socket it listens on and the ones it accepts; `ExportThread` takes a
socket out of the table and sends on it with no lock held, while others may
remove the peer and close the socket.

The layers:
  • `Sound`: the threads have all the open handles, one each, and an export
    has the socket of its target until that is removed (`sound_step` is one
    step of a thread);
  • `exec_broadcast`: the steps of a broadcast are `BroadcastData` of
    `PeerTable`, when nothing comes between them;
  • `calls_lead_to_their_ends` is about the runs: every send and every close
    is of the socket it is meant for, but for the sends of an export whose
    target has been removed since.

Out of scope: what is sent, and a worker that stops with threads running.

No `sorry`, no `axiom`, no `native_decide`.
-/
import LoadBalancing.Base.Transition
import LoadBalancing.Worker.PeerHandles

namespace LoadBalancing.Worker

open LoadBalancing.Base LoadBalancing.Lib

namespace PeerSockets

/-! ## Threads -/

/-- Where `ExportThread` stands: outside of `ExportHashTableToPeer`, or in it
with the socket that `GetPeerConnection` gave. `removed` is set when the
target is removed from the table. -/
inductive ExporterAt where
  | idle
  | exporting (targetWorkerId : Int32) (peerSocket : Nat) (removed : Bool)

/-- The exporter behind a removal. -/
def ExporterAt.remove (workerId : Int32) : ExporterAt → ExporterAt
  | .idle => .idle
  | .exporting target peerSocket removed =>
    .exporting target peerSocket (removed || target == workerId)

/-- Where `PeerListenerThread` stands: before its socket, in its outer loop,
in its inner one with a client, or behind both. -/
inductive ListenerAt where
  | notStarted
  | listening (peerListenSocket : Nat)
  | serving (peerListenSocket clientSocket : Nat)
  | ended
  deriving DecidableEq

/-- The sockets of the listener. -/
def ListenerAt.held : ListenerAt → Multiset (Nat × Endpoint)
  | .listening peerListenSocket => {(peerListenSocket, .listening)}
  | .serving peerListenSocket clientSocket =>
    {(clientSocket, .accepted), (peerListenSocket, .listening)}
  | .notStarted | .ended => 0

/-- A worker: its peer table until it is destroyed, its handles, the peers
that a broadcast has still to remove, the threads, and the handles that
other code has. -/
structure State where
  peerManager : Option PeerTable
  handles : Handles
  toRemove : List Int32
  exporter : ExporterAt
  listener : ListenerAt
  others : List Nat

/-- A worker before its threads start. -/
def start (peerPort : Int32) : State :=
  ⟨some (.initializePeerManager peerPort), ⟨fun _ => none, []⟩, [], .idle, .notStarted, []⟩

/-- One step of a thread, with the handles the system gives out. -/
inductive Label where
  | addPeer (workerId : Int32) (address : CString) (port : Int32) (outcome : ConnectOutcome)
  | broadcast (answers : Nat → Nat → SocketAnswer) (key value : CString)
  | remove
  | lookup (targetWorkerId : Int32)
  | exportSend (message : Message) (result : Int) (last : Bool)
  | listen (peerListenSocket : Nat)
  | noListenSocket
  | cannotListen (peerListenSocket : Nat)
  | accept (clientSocket : Nat)
  | hangUp
  | endListener
  | openOther (handle : Nat)
  | closeOther (handle : Nat)
  | destroy

/-- Worker ids are process ids; -1 marks a free slot. -/
def Label.Named : Label → Prop
  | .addPeer workerId _ _ _ => workerId ≠ -1
  | _ => True

namespace State

/-- `AddPeer`, which asks for a socket only when the peer gets a slot. -/
def addPeerStep (s : State) (workerId : Int32) (address : CString) (port : Int32)
    (outcome : ConnectOutcome) : Option State :=
  match s.peerManager, s.toRemove with
  | some table, [] =>
    let (result, table', calls) := table.addPeer workerId address port outcome
    let s' := { s with peerManager := some table' }
    if result = 1 then
      (newSocket outcome).elim (some s') fun handle =>
        (s.handles.openAs handle (.peer workerId)).map fun handles =>
          { s' with handles := handles.callAll (.peer workerId) calls }
    else some s'
  | _, _ => none

/-- The pass of `BroadcastData` over the slots. -/
def broadcastStep (s : State) (answers : Nat → Nat → SocketAnswer) (key value : CString) :
    Option State :=
  match s.peerManager, s.toRemove with
  | some table, [] =>
    let pass := table.peers.zipIdx.foldl (PeerTable.broadcastSlot answers key value) ⟨0, [], []⟩
    let slots := table.peers.zipIdx.filter PeerTable.notifies
    some { s with
      handles := sendAll answers key value slots s.handles
      toRemove := pass.peersToRemove }
  | _, _ => none

/-- Behind the pass, the next `RemoveDisconnectedPeer`. -/
def removeStep (s : State) : Option State :=
  match s.peerManager, s.toRemove with
  | some table, workerId :: rest =>
    let (_, table', calls) := table.removeDisconnectedPeer workerId
    some { s with
      peerManager := some table'
      handles := s.handles.callAll (.peer workerId) calls
      toRemove := rest
      exporter := s.exporter.remove workerId }
  | _, _ => none

/-- The `GetPeerConnection` of `ExportHashTableToPeer`. -/
def lookupStep (s : State) (targetWorkerId : Int32) : Option State :=
  match s.peerManager, s.exporter with
  | some table, .idle =>
    some ((table.getPeerConnection targetWorkerId).elim s fun peerSocket =>
      { s with exporter := .exporting targetWorkerId peerSocket false })
  | _, _ => none

/-- A send of the export; one that fails, and the last one, ends it. Nothing
is sent on a handle that is not open. -/
def exportSendStep (s : State) (message : Message) (result : Int) (last : Bool) : Option State :=
  match s.exporter with
  | .exporting target peerSocket removed =>
    if s.handles.endpoint peerSocket = none ∧ 0 < result then none
    else
      some { s with
        handles := s.handles.call (.peer target) removed (.send peerSocket message)
        exporter := if result ≤ 0 ∨ last then .idle else s.exporter }
  | .idle => none

/-- `PeerListenerThread` up to its loop: it gets no socket, one that it
cannot listen on, or one that it listens on. -/
def listenStep (s : State) : Label → Option State
  | .listen peerListenSocket =>
    (s.handles.openAs peerListenSocket .listening).map fun handles =>
      { s with handles := handles, listener := .listening peerListenSocket }
  | .cannotListen peerListenSocket =>
    (s.handles.openAs peerListenSocket .listening).map fun handles =>
      { s with handles := handles.callAll .listening [.close peerListenSocket], listener := .ended }
  | .noListenSocket => some { s with listener := .ended }
  | _ => none

/-- `PeerListenerThread` in its loops. -/
def listenerStep (s : State) (l : Label) : Option State :=
  match s.listener, l with
  | .listening peerListenSocket, .accept clientSocket =>
    (s.handles.openAs clientSocket .accepted).map fun handles =>
      { s with handles := handles, listener := .serving peerListenSocket clientSocket }
  | .listening peerListenSocket, .endListener =>
    some { s with
      handles := s.handles.callAll .listening [.close peerListenSocket]
      listener := .ended }
  | .serving peerListenSocket clientSocket, .hangUp =>
    some { s with
      handles := s.handles.callAll .accepted [.close clientSocket]
      listener := .listening peerListenSocket }
  | .notStarted, l => if s.peerManager.isSome then s.listenStep l else none
  | _, _ => none

/-- `DestroyPeerManager`, when the threads have ended. `PeerListenerThread`
has closed its socket then. -/
def destroyStep (s : State) : Option State :=
  match s.peerManager, s.toRemove, s.exporter with
  | some table, [], .idle =>
    if s.listener = .notStarted ∨ s.listener = .ended then
      some { s with peerManager := none, handles := closeAll table.peers s.handles }
    else none
  | _, _, _ => none

end State

/-- One step. -/
def step (s : State) : Label → Option State
  | .addPeer workerId address port outcome => s.addPeerStep workerId address port outcome
  | .broadcast answers key value => s.broadcastStep answers key value
  | .remove => s.removeStep
  | .lookup targetWorkerId => s.lookupStep targetWorkerId
  | .exportSend message result last => s.exportSendStep message result last
  | .openOther handle =>
    (s.handles.openAs handle .other).map fun handles =>
      { s with handles := handles, others := handle :: s.others }
  | .closeOther handle =>
    if handle ∈ s.others then
      some { s with
        handles := s.handles.callAll .other [.close handle]
        others := s.others.erase handle }
    else none
  | .destroy => s.destroyStep
  | l => s.listenerStep l

/-! ## Who has which handle -/

/-- The sockets of the table of a worker. -/
def State.peerSockets (s : State) : Multiset (Nat × Endpoint) :=
  s.peerManager.elim 0 fun table => holdings table.entries

/-- The handles of a worker that are not in its table. -/
def State.elsewhere (s : State) : Multiset (Nat × Endpoint) :=
  s.listener.held + (s.others : Multiset Nat).map fun handle => (handle, .other)

/-! ## One step -/

/-- What holds of a worker: the table is in order, its threads have exactly
the open handles, and an export has the socket of its target unless that has
been removed. -/
structure Sound (s : State) : Prop where
  table : ∀ table, s.peerManager = some table → ∃ m, table.Represents m ∧ m.WellFormed
  handles : s.handles.Holds (s.peerSockets + s.elsewhere)
  exporter : ∀ target socket, s.exporter = .exporting target socket false →
    (socket, .peer target) ∈ s.peerSockets
  stopped : s.peerManager = none → s.listener.held = 0

theorem sound_start (peerPort : Int32) : Sound (start peerPort) where
  table := by
    intro table htable
    rw [← Option.some.inj htable]
    exact ⟨_, PeerTable.represents_initializePeerManager peerPort,
      PeerManager.wellFormed_initializePeerManager peerPort⟩
  handles := ⟨Owns.empty, nofun⟩
  exporter := nofun
  stopped := nofun

/-- A worker with this table. -/
theorem Sound.of_table {s : State} {table : PeerTable} {m : PeerManager}
    (htable : s.peerManager = some table) (hm : table.Represents m) (hformed : m.WellFormed)
    (hheld : s.handles.Holds (holdings m.peers + s.elsewhere))
    (hexports : ∀ target socket, s.exporter = .exporting target socket false →
      (socket, .peer target) ∈ holdings m.peers) : Sound s := by
  have hsockets : s.peerSockets = holdings m.peers := by
    rw [State.peerSockets, htable, Option.elim_some, hm.entries]
  refine ⟨?_, hsockets ▸ hheld, hsockets ▸ hexports, ?_⟩
  · intro table' htable'
    rw [← Option.some.inj (htable.symm.trans htable')]
    exact ⟨m, hm, hformed⟩
  · intro hnone
    rw [htable] at hnone
    cases hnone

namespace Sound

variable {s s' : State}

/-- The list behind the table. -/
theorem exists_peers (hs : Sound s) {table : PeerTable} (htable : s.peerManager = some table) :
    ∃ m, table.Represents m ∧ m.WellFormed ∧ s.peerSockets = holdings m.peers := by
  obtain ⟨m, hm, hformed⟩ := hs.table table htable
  refine ⟨m, hm, hformed, ?_⟩
  rw [State.peerSockets, htable, Option.elim_some, hm.entries]

/-- **`AddPeer`**: a peer more, with a socket if the connect gave one. -/
theorem addPeer (hs : Sound s) {workerId : Int32} (hid : workerId ≠ -1) {address : CString}
    {port : Int32} {outcome : ConnectOutcome}
    (h : s.addPeerStep workerId address port outcome = some s') : Sound s' := by
  unfold State.addPeerStep at h
  split at h
  · rename_i table htable _
    obtain ⟨m, hm, hformed, hsockets⟩ := hs.exists_peers htable
    obtain ⟨hresult, hm'⟩ := hm.addPeer workerId address port outcome
    have hformed' := hformed.addPeer hid address port outcome.socket
    have hheld := hs.handles
    have hexports := hs.exporter
    rw [hsockets] at hheld hexports
    rcases peers_addPeer_cases m workerId address port outcome.socket with
      ⟨hone, hadded⟩ | ⟨hnot, hsame⟩
    · have hcalls := calls_addPeer (hresult.trans hone)
      have hmore : holdings (m.addPeer workerId address port outcome.socket).2.peers =
          (outcome.socket.elim 0 fun socket => {(socket, .peer workerId)}) + holdings m.peers := by
        rw [hadded, holdings_append, holdings_cons, holdings_nil, add_zero, add_comm]
        rfl
      have hexports' : ∀ target socket, s.exporter = .exporting target socket false →
          (socket, .peer target) ∈
            holdings (m.addPeer workerId address port outcome.socket).2.peers := by
        intro target socket hexporting
        rw [hmore]
        exact Multiset.mem_add.mpr (Or.inr (hexports target socket hexporting))
      simp only [hresult, hone, if_true, hcalls] at h
      cases hsocket : newSocket outcome with
      | none =>
        rw [hsocket, Option.elim_none] at h
        rw [← Option.some.inj h]
        refine .of_table rfl hm' hformed' ?_ hexports'
        cases outcome with
        | noSocket =>
          rw [hmore]
          exact (zero_add (holdings m.peers)).symm ▸ hheld
        | badAddress socket | refused socket | connected socket => cases hsocket
      | some handle =>
        rw [hsocket, Option.elim_some] at h
        obtain ⟨handles, hopen, hs'⟩ := Option.map_eq_some_iff.mp h
        rw [← hs']
        refine .of_table rfl hm' hformed' ?_ hexports'
        rw [hmore, add_assoc]
        exact hheld.connect hsocket hopen
    · simp only [hresult, hnot, if_false] at h
      rw [← Option.some.inj h]
      exact .of_table rfl hm' hformed' (hsame ▸ hheld) (hsame ▸ hexports)
  · cases h

/-- **The pass of a broadcast** sends to sockets of the table. -/
theorem broadcast (hs : Sound s) {answers : Nat → Nat → SocketAnswer} {key value : CString}
    (h : s.broadcastStep answers key value = some s') : Sound s' := by
  unfold State.broadcastStep at h
  split at h
  · rename_i table htable _
    obtain ⟨m, hm, hformed, hsockets⟩ := hs.exists_peers htable
    have hheld := hs.handles
    rw [hsockets] at hheld
    rw [← Option.some.inj h]
    refine .of_table htable hm hformed ?_ (hsockets ▸ hs.exporter)
    refine hheld.notify ?_ answers key value
    intro slot hslot
    rw [hm.filter_notifies] at hslot
    have hpeer : slot.1 ∈ m.peers :=
      List.mem_of_getElem? (PeerTable.Represents.mem_notified hslot).1
    exact (holding_le hpeer).trans (Multiset.le_add_right _ _)
  · cases h

/-- **A removal** closes the socket of the peer that is removed, and an
export to that peer counts as one whose target is gone. -/
theorem remove (hs : Sound s) (h : s.removeStep = some s') : Sound s' := by
  unfold State.removeStep at h
  split at h
  · rename_i table workerId rest htable _
    obtain ⟨m, hm, hformed, hsockets⟩ := hs.exists_peers htable
    have hm' := (hm.removeDisconnectedPeer workerId).2
    have hpeers' := hformed.peers_removeDisconnectedPeer workerId
    have hsplit := holdings_remove hformed.nodup workerId
    have hheld := hs.handles
    rw [hsockets, hsplit, ← hpeers', add_assoc] at hheld
    simp only [Option.some.injEq] at h
    rw [← h]
    refine .of_table rfl hm' (hformed.removeDisconnectedPeer workerId) ?_ ?_
    · rw [hm.calls_removeDisconnectedPeer]
      cases hfind : PeerEntries.find? m.peers workerId with
      | none =>
        rw [hfind, Option.elim_none, zero_add] at hheld
        exact hheld
      | some peer =>
        have hfound := List.find?_some hfind
        have hid : peer.workerId = workerId := beq_iff_eq.mp hfound
        rw [hfind, Option.elim_some] at hheld
        rw [Option.bind_some, ← hid]
        exact hid ▸ hheld.closePeer
    · intro target socket hexporting
      cases hexporter : s.exporter with
      | idle =>
        rw [hexporter] at hexporting
        cases hexporting
      | exporting target' socket' removed =>
        simp only [hexporter, ExporterAt.remove, ExporterAt.exporting.injEq, Bool.or_eq_false_iff,
          beq_eq_false_iff_ne] at hexporting
        obtain ⟨rfl, rfl, rfl, hne⟩ := hexporting
        have hmem := hs.exporter target' socket' hexporter
        rw [hsockets] at hmem
        obtain ⟨peer, hpeer, hsocket, hid⟩ := mem_holdings.mp hmem
        rw [hpeers']
        refine mem_holdings.mpr ⟨peer, ?_, hsocket, hid⟩
        exact List.mem_filter.mpr ⟨hpeer, bne_iff_ne.mpr (hid ▸ hne)⟩
  · cases h

/-- **The lookup of an export** gives the socket of the target. -/
theorem lookup (hs : Sound s) {targetWorkerId : Int32}
    (h : s.lookupStep targetWorkerId = some s') : Sound s' := by
  unfold State.lookupStep at h
  split at h
  · rename_i table htable _
    obtain ⟨m, hm, hformed, hsockets⟩ := hs.exists_peers htable
    cases hsocket : table.getPeerConnection targetWorkerId with
    | none =>
      rw [hsocket, Option.elim_none] at h
      exact Option.some.inj h ▸ hs
    | some peerSocket =>
      rw [hsocket, Option.elim_some] at h
      rw [← Option.some.inj h]
      refine .of_table htable hm hformed (hsockets ▸ hs.handles) ?_
      intro target socket hexporting
      cases hexporting
      rw [PeerTable.getPeerConnection_eq, hm.entries, PeerEntries.connection] at hsocket
      obtain ⟨peer, hfind, hup⟩ := Option.bind_eq_some_iff.mp hsocket
      have hfound := List.find?_some hfind
      have hopen : peer.socket = some peerSocket := by
        by_cases hconnected : peer.isConnected = true
        · rwa [if_pos hconnected] at hup
        · rw [if_neg hconnected] at hup
          cases hup
      exact mem_holdings.mpr ⟨peer, List.mem_of_find?_eq_some hfind, hopen, beq_iff_eq.mp hfound⟩
  · cases h

/-- **A send of an export** goes to its target until that is removed. -/
theorem exportSend (hs : Sound s) {message : Message} {result : Int} {last : Bool}
    (h : s.exportSendStep message result last = some s') : Sound s' := by
  unfold State.exportSendStep at h
  split at h
  · rename_i target peerSocket removed hexporter
    split at h
    · cases h
    · rw [← Option.some.inj h]
      refine ⟨hs.table, ?_, ?_, hs.stopped⟩
      · cases removed with
        | false =>
          have hmem := hs.exporter target peerSocket hexporter
          exact hs.handles.send (Multiset.mem_add.mpr (Or.inl hmem)) message
        | true => exact hs.handles.sendRemoved message
      · intro target' socket' hexporting
        by_cases hend : result ≤ 0 ∨ last = true
        · simp only [hend, if_true] at hexporting
          cases hexporting
        · simp only [hend, if_false] at hexporting
          exact hs.exporter target' socket' hexporting
  · cases h

/-- A change of what other code has. -/
theorem of_elsewhere (hs : Sound s) {handles : Handles} {listener : ListenerAt} {others : List Nat}
    (hheld : handles.Holds (s.peerSockets +
      (listener.held + (others : Multiset Nat).map fun handle => (handle, .other))))
    (hstopped : s.peerManager = none → listener.held = 0) :
    Sound { s with handles := handles, listener := listener, others := others } :=
  ⟨hs.table, hheld, hs.exporter, hstopped⟩

/-- The start of the listener. -/
theorem listen (hs : Sound s) (htable : s.peerManager ≠ none) (hlistener : s.listener = .notStarted)
    {l : Label} (h : s.listenStep l = some s') : Sound s' := by
  have hheld := hs.handles
  unfold State.elsewhere at hheld
  rw [hlistener] at hheld
  unfold State.listenStep at h
  split at h
  · rename_i peerListenSocket
    obtain ⟨handles, hopen, rfl⟩ := Option.map_eq_some_iff.mp h
    have hopened := hheld.openAs hopen
    rw [← Multiset.add_cons] at hopened
    refine hs.of_elsewhere ?_ fun hnone => absurd hnone htable
    rw [ListenerAt.held, Multiset.singleton_add]
    rwa [ListenerAt.held, zero_add] at hopened
  · rename_i peerListenSocket
    obtain ⟨handles, hopen, rfl⟩ := Option.map_eq_some_iff.mp h
    exact hs.of_elsewhere (hheld.openAs hopen).close fun _ => rfl
  · rw [← Option.some.inj h]
    exact hs.of_elsewhere hheld fun _ => rfl
  · cases h

/-- **`PeerListenerThread`** opens and closes its own sockets. -/
theorem listener (hs : Sound s) {l : Label} (h : s.listenerStep l = some s') : Sound s' := by
  have hheld := hs.handles
  unfold State.elsewhere at hheld
  unfold State.listenerStep at h
  split at h
  · rename_i peerListenSocket clientSocket hlistener
    have hstopped := hs.stopped
    obtain ⟨handles, hopen, rfl⟩ := Option.map_eq_some_iff.mp h
    have hopened := hheld.openAs hopen
    rw [hlistener] at hopened hstopped
    rw [← Multiset.add_cons, ← Multiset.cons_add] at hopened
    exact hs.of_elsewhere hopened fun hnone =>
      absurd (hstopped hnone) (Multiset.singleton_ne_zero _)
  · rename_i peerListenSocket hlistener
    rw [hlistener] at hheld
    rw [ListenerAt.held, Multiset.singleton_add, Multiset.add_cons] at hheld
    rw [← Option.some.inj h]
    refine hs.of_elsewhere ?_ fun _ => rfl
    rw [ListenerAt.held, zero_add]
    exact hheld.close
  · rename_i peerListenSocket clientSocket hlistener
    have hstopped := hs.stopped
    rw [hlistener, ListenerAt.held, Multiset.insert_eq_cons] at hheld hstopped
    rw [Multiset.cons_add, Multiset.add_cons] at hheld
    rw [← Option.some.inj h]
    exact hs.of_elsewhere hheld.close fun hnone =>
      absurd (hstopped hnone) Multiset.cons_ne_zero
  · rename_i hlistener
    split at h
    · rename_i hsome
      refine hs.listen ?_ hlistener h
      intro hnone
      rw [hnone] at hsome
      cases hsome
    · cases h
  · cases h

/-- What other code does with its own handles. -/
theorem openOther (hs : Sound s) {handle : Nat} (h : step s (.openOther handle) = some s') :
    Sound s' := by
  obtain ⟨handles, hopen, rfl⟩ := Option.map_eq_some_iff.mp h
  have hopened := hs.handles.openAs hopen
  unfold State.elsewhere at hopened
  rw [← Multiset.add_cons, ← Multiset.add_cons] at hopened
  exact hs.of_elsewhere hopened hs.stopped

theorem closeOther (hs : Sound s) {handle : Nat} (h : step s (.closeOther handle) = some s') :
    Sound s' := by
  unfold step at h
  simp only at h
  split at h
  · rename_i hmem
    have hsplit : (s.others : Multiset Nat) = handle ::ₘ (s.others.erase handle : Multiset Nat) :=
      (Multiset.cons_erase (Multiset.mem_coe.mpr hmem)).symm
    have hheld := hs.handles
    unfold State.elsewhere at hheld
    rw [hsplit, Multiset.map_cons, Multiset.add_cons, Multiset.add_cons] at hheld
    rw [← Option.some.inj h]
    exact hs.of_elsewhere hheld.close hs.stopped
  · cases h

/-- **`DestroyPeerManager`** closes the sockets that are left. -/
theorem destroy (hs : Sound s) (h : s.destroyStep = some s') : Sound s' := by
  unfold State.destroyStep at h
  split at h
  · rename_i table htable _ hexporter
    split at h
    · rename_i hlistener
      obtain ⟨m, hm, hformed, hsockets⟩ := hs.exists_peers htable
      obtain ⟨slots, hslots, hfree⟩ := hm.peers
      have hpeers : holdings table.peers = holdings m.peers := by
        rw [hslots, holdings_append, holdings_free hfree, add_zero]
      have hheld := hs.handles
      rw [hsockets, ← hpeers] at hheld
      have hquiet : s.listener.held = 0 := by
        rcases hlistener with hnot | hended
        · rw [hnot]
          rfl
        · rw [hended]
          rfl
      rw [← Option.some.inj h]
      refine ⟨nofun, ?_, ?_, fun _ => hquiet⟩
      · exact (zero_add s.elsewhere).symm ▸ hheld.closePeers
      · intro target socket hexporting
        rw [hexporter] at hexporting
        cases hexporting
    · cases h
  · cases h

end Sound

/-- **One step**, by its label. -/
theorem sound_step {s s' : State} {l : Label} (hnamed : l.Named) (hs : Sound s)
    (h : step s l = some s') : Sound s' := by
  cases l with
  | addPeer workerId address port outcome => exact hs.addPeer hnamed h
  | broadcast answers key value => exact hs.broadcast h
  | remove => exact hs.remove h
  | lookup targetWorkerId => exact hs.lookup h
  | exportSend message result last => exact hs.exportSend h
  | listen peerListenSocket => exact hs.listener h
  | noListenSocket => exact hs.listener h
  | cannotListen peerListenSocket => exact hs.listener h
  | accept clientSocket => exact hs.listener h
  | hangUp => exact hs.listener h
  | endListener => exact hs.listener h
  | openOther handle => exact hs.openOther h
  | closeOther handle => exact hs.closeOther h
  | destroy => exact hs.destroy h

/-! ## A broadcast and its removals -/

theorem Handles.calls_callAll (h : Handles) (meant : Endpoint) (calls : List NetworkCall) :
    (h.callAll meant calls).calls.map Call.call = h.calls.map Call.call ++ calls := by
  induction calls generalizing h with
  | nil => simp [Handles.callAll]
  | cons c calls ih =>
    have hrest := ih (h.call meant false c)
    simp only [Handles.call, List.map_append, List.map_cons, List.map_nil, List.append_assoc,
      List.cons_append, List.nil_append] at hrest
    exact hrest

theorem calls_sendAll (answers : Nat → Nat → SocketAnswer) (key value : CString)
    (slots : List (PeerConnection × Nat)) (h : Handles) :
    (sendAll answers key value slots h).calls.map Call.call = h.calls.map Call.call ++
      slots.flatMap fun slot =>
        (PeerTable.sendPeerNotify slot.1.socket (answers slot.2) key value).2 := by
  induction slots generalizing h with
  | nil => simp [sendAll]
  | cons slot slots ih =>
    have hrest := ih (h.callAll (.peer slot.1.workerId)
      (PeerTable.sendPeerNotify slot.1.socket (answers slot.2) key value).2)
    rw [Handles.calls_callAll, List.append_assoc] at hrest
    rw [List.flatMap_cons]
    exact hrest

/-- **The removals**, by induction on the peers that are left. -/
theorem exec_removals {s : State} {table : PeerTable} (htable : s.peerManager = some table) :
    ∃ s', exec step s (List.replicate s.toRemove.length .remove) = some s' ∧
      s'.peerManager = some (table.removeAll s.toRemove).1 ∧ s'.toRemove = [] ∧
      s'.handles.calls.map Call.call =
        s.handles.calls.map Call.call ++ (table.removeAll s.toRemove).2 := by
  generalize hlost : s.toRemove = lost
  induction lost generalizing s table with
  | nil => exact ⟨s, rfl, htable, hlost, (List.append_nil _).symm⟩
  | cons workerId rest ih =>
    let s₁ : State := { s with
      peerManager := some (table.removeDisconnectedPeer workerId).2.1
      handles := s.handles.callAll (.peer workerId) (table.removeDisconnectedPeer workerId).2.2
      toRemove := rest
      exporter := s.exporter.remove workerId }
    have hstep : step s .remove = some s₁ := by
      show s.removeStep = _
      unfold State.removeStep
      rw [htable, hlost]
    obtain ⟨s', hexec, hpeers, hempty, hcalls⟩ := ih (s := s₁) rfl rfl
    refine ⟨s', exec_cons_eq_some.mpr ⟨s₁, hstep, hexec⟩, hpeers, hempty, ?_⟩
    rw [hcalls, Handles.calls_callAll, List.append_assoc]
    rfl

/-- **`BroadcastData`** is its pass and its removals, when nothing comes
between. -/
theorem exec_broadcast {s : State} {table : PeerTable} (htable : s.peerManager = some table)
    (hidle : s.toRemove = []) (answers : Nat → Nat → SocketAnswer) (key value : CString) :
    ∃ removals s', exec step s (.broadcast answers key value :: List.replicate removals .remove) =
        some s' ∧
      s'.peerManager = some (table.broadcastData answers key value).2.1 ∧ s'.toRemove = [] ∧
      s'.handles.calls.map Call.call =
        s.handles.calls.map Call.call ++ (table.broadcastData answers key value).2.2 := by
  have hsent : (table.peers.zipIdx.foldl (PeerTable.broadcastSlot answers key value)
        ⟨0, [], []⟩).calls = (table.peers.zipIdx.filter PeerTable.notifies).flatMap fun slot =>
      (PeerTable.sendPeerNotify slot.1.socket (answers slot.2) key value).2 := by
    rw [PeerTable.foldl_broadcastSlot]
    exact List.nil_append _
  let s₁ : State := { s with
    peerManager := some table
    handles := sendAll answers key value (table.peers.zipIdx.filter PeerTable.notifies) s.handles
    toRemove := (table.peers.zipIdx.foldl (PeerTable.broadcastSlot answers key value)
      ⟨0, [], []⟩).peersToRemove }
  have hstep : step s (.broadcast answers key value) = some s₁ := by
    show s.broadcastStep answers key value = _
    unfold State.broadcastStep
    rw [htable, hidle]
  obtain ⟨s', hexec, hpeers, hempty, hcalls⟩ := exec_removals (s := s₁) rfl
  refine ⟨_, s', exec_cons_eq_some.mpr ⟨s₁, hstep, hexec⟩, hpeers, hempty, ?_⟩
  rw [hcalls, calls_sendAll, List.append_assoc, ← hsent]
  rfl

/-! ## Runs -/

/-- **Every call goes where it is meant to.** In every run of a worker's
threads the open handles are those that the threads have, one each, and every
close and every send was on the socket it was meant for, but for the sends of
an export whose target had been removed; with the table the last of these
handles is closed. -/
theorem calls_lead_to_their_ends {peerPort : Int32} {labels : List Label} {t : State}
    (hnamed : ∀ l ∈ labels, l.Named) (h : exec step (start peerPort) labels = some t) :
    Owns t.handles.endpoint (t.peerSockets + t.elsewhere) ∧
      (∀ c ∈ t.handles.calls, c.Leads) ∧
      (t.peerManager = none → ∀ handle endpoint, t.handles.endpoint handle = some endpoint →
        endpoint = .other) := by
  have hsound : Sound t :=
    exec_invariant_along (fun _ _ _ hs hl hstep => sound_step hl hs hstep) (sound_start peerPort)
      ((along_label_iff h).mpr hnamed) h
  refine ⟨hsound.handles.owns, hsound.handles.leads, ?_⟩
  intro hnone handle endpoint hopen
  have hmem := (hsound.handles.owns.mem_iff handle endpoint).mp hopen
  have hnothing : t.peerSockets = 0 := by
    rw [State.peerSockets, hnone]
    rfl
  rw [hnothing, State.elsewhere, hsound.stopped hnone, zero_add, zero_add] at hmem
  obtain ⟨other, -, hother⟩ := Multiset.mem_map.mp hmem
  exact (congrArg Prod.snd hother).symm

/-- What a broadcast to one peer does when the connection is reset. -/
theorem broadcastStep_reset {s : State} {table : PeerTable} (htable : s.peerManager = some table)
    (hidle : s.toRemove = []) {peer : PeerConnection} {i socket : Nat}
    (hslots : table.peers.zipIdx.filter PeerTable.notifies = [(peer, i)])
    (hsocket : peer.socket = some socket) {key value : CString} (hkey : validateKey key = true)
    (hvalue : validateValue value = true)
    (hsize : (peerNotify key value).payload.length ≤ maxMessageSize) :
    s.broadcastStep (fun _ _ => .error .connReset) key value =
      some { s with
        handles := s.handles.call (.peer peer.workerId) false (.send socket (peerNotify key value))
        toRemove := [peer.workerId] } := by
  have hsend : PeerTable.sendPeerNotify peer.socket (fun _ => .error .connReset) key value =
      (-2, [.send socket (peerNotify key value)]) := by
    rw [hsocket]
    unfold PeerTable.sendPeerNotify
    rw [sendPeerNotify_of_valid hkey hvalue]
    show ((protocolSend _ _ _).1, _) = _
    rw [protocolSend_error hsize (by decide) rfl]
    rfl
  have hlost : (table.peers.zipIdx.foldl (PeerTable.broadcastSlot
      (fun _ _ => .error .connReset) key value) ⟨0, [], []⟩).peersToRemove = [peer.workerId] := by
    have hresult : connectionLost (PeerTable.slotResult (fun _ _ => .error .connReset) key value
        (peer, i)) = true := by
      rw [PeerTable.slotResult, hsend]
      rfl
    rw [PeerTable.foldl_broadcastSlot, hslots]
    simp [hresult]
  have hsent : sendAll (fun _ _ => .error .connReset) key value [(peer, i)] s.handles =
      s.handles.call (.peer peer.workerId) false (.send socket (peerNotify key value)) := by
    show s.handles.callAll _ (PeerTable.sendPeerNotify peer.socket _ key value).2 = _
    rw [hsend]
    rfl
  unfold State.broadcastStep
  rw [htable, hidle]
  simp only [hlost, hslots, hsent]

/-- A peer is added and an export to it begins. -/
def exportBegins : List Label :=
  [.addPeer 1 (.ofString "10.0.0.1") 7001 (.connected 4),
    .lookup 1,
    .exportSend ⟨MessageType.dataExportStart.value, [0, 0, 0, 1]⟩ 7 false]

/-- The peer is removed, its handle is given out for another one, and the
export ends. -/
def exportEndsElsewhere : List Label :=
  [.remove,
    .addPeer 2 (.ofString "10.0.0.2") 7002 (.connected 4),
    .exportSend ⟨MessageType.dataExportEnd.value, []⟩ 3 true]

/-- A peer that is lost while an export to it goes on: the rest of the export
goes to the peer that has its handle. -/
theorem calls_lead_to_their_ends_lostPeer : ∃ t,
    exec step (start 7000) (exportBegins ++
      .broadcast (fun _ _ => .error .connReset) (.ofString "k") (.ofString "v") ::
      exportEndsElsewhere) = some t ∧
    (∀ c ∈ t.handles.calls, c.Leads) ∧
    t.handles.calls.map (fun c => (socketOf c.call, c.meant, c.endpoint, c.removed)) =
      [(4, .peer 1, some (.peer 1), false), (4, .peer 1, some (.peer 1), false),
        (4, .peer 1, some (.peer 1), false), (4, .peer 1, some (.peer 2), true)] := by
  let table := ((PeerTable.initializePeerManager 7000).addPeer 1 (.ofString "10.0.0.1") 7001
    (.connected 4)).2.1
  let sent : Call :=
    ⟨.send 4 ⟨MessageType.dataExportStart.value, [0, 0, 0, 1]⟩, .peer 1, some (.peer 1), false⟩
  let before : State :=
    ⟨some table, ⟨Function.update (fun _ => none) 4 (some (.peer 1)), [sent]⟩,
      [], .exporting 1 4 false, .notStarted, []⟩
  have hbegins : exec step (start 7000) exportBegins = some before := rfl
  have hslots : table.peers.zipIdx.filter PeerTable.notifies =
      [(⟨1, .ofString "10.0.0.1", 7001, some 4, true⟩, 0)] := by decide +kernel
  have hlost := broadcastStep_reset (s := before) rfl rfl hslots rfl
    (show validateKey (.ofString "k") = true by decide)
    (show validateValue (.ofString "v") = true by decide) (by decide)
  have hexec : exec step (start 7000) (exportBegins ++
      .broadcast (fun _ _ => .error .connReset) (.ofString "k") (.ofString "v") ::
      exportEndsElsewhere) = _ := exec_append ..
  rw [hbegins, Option.bind_some, exec] at hexec
  have hstep : step before (.broadcast (fun _ _ => .error .connReset) (.ofString "k")
    (.ofString "v")) = before.broadcastStep _ _ _ := rfl
  rw [hstep, hlost, Option.bind_some] at hexec
  refine ⟨_, hexec.trans rfl, (calls_lead_to_their_ends ?_ (hexec.trans rfl)).2.1, ?_⟩
  · simp [exportBegins, exportEndsElsewhere, Label.Named]
  · decide +kernel

end PeerSockets

end LoadBalancing.Worker
