/-
LoadBalancing.Worker.PeerConnections — which connections between workers
are ever read.

The peer listener accepts connections in an outer loop and reads one of
them in an inner loop, which it leaves when that connection ends. Among
workers that stay alive no connection ends, so a listener reads the first
connection it accepts and no other. `unread_iff_first` says exactly when
nothing is left unread: every message was sent on the connection that
reached its receiver's listen socket first. With two workers that is
always so; `third_connection_stranded` is a run of three workers where it
is not.

No `sorry`, no `axiom`, no `native_decide`.
-/
import LoadBalancing.Base.Transition
import LoadBalancing.Worker.Cluster
import Mathlib.Data.List.Perm.Subperm

namespace LoadBalancing.Worker

open LoadBalancing.Base LoadBalancing.Lib

namespace Cluster

/-! ## Connections, messages and stuck states -/

/-- The workers whose connections have reached a listener and not ended,
in order: the accepted one first. -/
def arrivals (s : Cluster) (w : Nat) : List Nat := (s.node w).accepted.toList ++ s.backlog w

/-- The connection a step is about to send a message on. -/
def sendsOn (s : Cluster) : Label → Option (Nat × Nat)
  | .notify w =>
    match (s.node w).receiver with
    | .notifying key value (peer :: _) _ => (sendPeerNotify key value).map fun _ => (w, peer)
    | _ => none
  | .runExport w =>
    match (s.node w).exporter.message, (s.node w).exporter.connectedTo with
    | some _, some target => some (w, target)
    | _, _ => none
  | _ => none

/-- The condition on a step: a message goes on the connection that reached
its receiver first. -/
def OnFirst (s : Cluster) (l : Label) : Prop :=
  ∀ c, s.sendsOn l = some c → (s.arrivals c.2).head? = some c.1

instance (s : Cluster) (l : Label) : Decidable (OnFirst s l) :=
  inferInstanceAs (Decidable (∀ c ∈ s.sendsOn l, (s.arrivals c.2).head? = some c.1))

/-- No thread of any worker can take a step. -/
def Stuck (s : Cluster) : Prop :=
  ∀ w < s.size, step .firstAccepted s (.notify w) = none ∧
    step .firstAccepted s (.accept w) = none ∧
    (∀ source < s.size, step .firstAccepted s (.read w source) = none) ∧
    step .firstAccepted s (.hangUp w) = none ∧
    (∀ allocated, step .firstAccepted s (.storePeerData w allocated) = none) ∧
    step .firstAccepted s (.runExport w) = none

instance (s : Cluster) : Decidable s.Stuck := by
  unfold Stuck
  infer_instance

/-- No message is left unread in any connection. -/
def NoneUnread (s : Cluster) : Prop := ∀ c, s.channel c = []

/-- Every worker has connected to every other worker. -/
def FullyConnected (s : Cluster) : Prop :=
  ∀ i < s.size, ∀ j < s.size, i ≠ j → j ∈ (s.node i).peers

instance (s : Cluster) : Decidable s.FullyConnected := by
  unfold FullyConnected
  infer_instance

/-! ## One worker changes -/

section Frame

variable {s t : Cluster} {w : Nat} {n : Node}

@[simp] theorem node_setNode_self : (s.setNode w n).node w = n := Function.update_self ..

theorem node_setNode_of_ne {x : Nat} (hx : x ≠ w) : (s.setNode w n).node x = s.node x :=
  Function.update_of_ne hx ..

theorem forall_setNode {P : Node → Prop} (h : ∀ x, P (s.node x)) (hn : P n) :
    ∀ x, P ((s.setNode w n).node x) := by
  intro x
  by_cases hx : x = w
  · rw [hx, node_setNode_self]
    exact hn
  · rw [node_setNode_of_ne hx]
    exact h x

/-- What the change leaves alone is what it was, at every worker. -/
theorem proj_setNode {β : Type} (f : Node → β) (h : f n = f (s.node w)) (x : Nat) :
    f ((s.setNode w n).node x) = f (s.node x) := by
  by_cases hx : x = w
  · rw [hx, node_setNode_self]
    exact h
  · rw [node_setNode_of_ne hx]

/-- Nothing about peers, listen sockets and ended connections changes. -/
structure SameWiring (s t : Cluster) : Prop where
  size_eq : t.size = s.size
  backlog_eq : t.backlog = s.backlog
  ended_eq : t.ended = s.ended
  peers_eq : ∀ x, (t.node x).peers = (s.node x).peers
  accepted_eq : ∀ x, (t.node x).accepted = (s.node x).accepted

theorem sameWiring_setNode (hpeers : n.peers = (s.node w).peers)
    (haccepted : n.accepted = (s.node w).accepted) : SameWiring s (s.setNode w n) :=
  ⟨rfl, rfl, rfl, proj_setNode Node.peers hpeers, proj_setNode Node.accepted haccepted⟩

theorem SameWiring.send (h : SameWiring s t) (c : Nat × Nat) (message : Message) :
    SameWiring s (t.send c message) :=
  ⟨h.size_eq, h.backlog_eq, h.ended_eq, h.peers_eq, h.accepted_eq⟩

theorem SameWiring.setChannel (h : SameWiring s t) (c : Nat × Nat) (rest : List Message) :
    SameWiring s (t.setChannel c rest) :=
  ⟨h.size_eq, h.backlog_eq, h.ended_eq, h.peers_eq, h.accepted_eq⟩

theorem SameWiring.arrivals_eq (h : SameWiring s t) (x : Nat) : t.arrivals x = s.arrivals x := by
  rw [arrivals, arrivals, h.accepted_eq, h.backlog_eq]

end Frame

/-! ## No connection ends -/

/-- What a worker knows about its peers: a broadcast under way is of a
stored key, so that no send has failed, and both it and an export that has
looked up its connection go to connected peers. -/
structure NodeWired (n : Node) : Prop where
  broadcast : ∀ key value todo removed, n.receiver = .notifying key value todo removed →
    validateKey key = true ∧ validateValue value = true ∧ removed = [] ∧
      ∀ peer ∈ todo, peer ∈ n.peers
  exporting : ∀ target, n.exporter.connectedTo = some target → target ∈ n.peers

/-- Every worker is wired, every connection a worker has made has reached
its peer, and none has ended. -/
structure Wired (s : Cluster) : Prop where
  nodes : ∀ w, NodeWired (s.node w)
  none_ended : ∀ c, s.ended c = false
  arrived : ∀ w peer, peer ∈ (s.node w).peers → w ∈ s.arrivals peer
  inside : ∀ w, ∀ i ∈ s.arrivals w, i < s.size ∧ w < s.size ∧ i ≠ w

theorem wired_start (n : Nat) : Wired (start n) :=
  ⟨fun _ => ⟨nofun, nofun⟩, fun _ => rfl, fun _ _ h => by simp [start, Node.fresh] at h,
    fun _ _ h => by simp [start, arrivals, Node.fresh] at h⟩

section Steps

variable {d : Delivery} {s t : Cluster} {l : Label}

theorem Wired.of_same (h : Wired s) (hsame : SameWiring s t) (hnodes : ∀ w, NodeWired (t.node w)) :
    Wired t := by
  refine ⟨hnodes, fun c => ?_, fun w peer hpeer => ?_, fun w i hi => ?_⟩
  · rw [hsame.ended_eq]
    exact h.none_ended c
  · rw [hsame.peers_eq] at hpeer
    rw [hsame.arrivals_eq]
    exact h.arrived w peer hpeer
  · rw [hsame.arrivals_eq] at hi
    rw [hsame.size_eq]
    exact h.inside w i hi

/-- A connection that is made goes behind the others of its listener. -/
theorem arrivals_addPeer (s : Cluster) (w peer x : Nat) :
    ∃ more, (s.addPeer w peer).arrivals x = s.arrivals x ++ more ∧
      ∀ i ∈ more, i = w ∧ x = peer ∧ w ≠ peer := by
  unfold addPeer
  split
  · exact ⟨[], by simp, nofun⟩
  · rename_i hcond
    have haccepted := proj_setNode (n := { s.node w with peers := (s.node w).peers ++ [peer] })
      Node.accepted rfl x
    by_cases hx : x = peer
    · subst hx
      refine ⟨[w], ?_, fun i hi => ?_⟩
      · simp only [arrivals, Function.update_self, List.append_assoc]
        exact congrArg (·.toList ++ _) haccepted
      · exact ⟨List.mem_singleton.mp hi, rfl, fun hw => hcond (Or.inl hw.symm)⟩
    · refine ⟨[], ?_, nofun⟩
      simp only [arrivals, Function.update_of_ne hx, List.append_nil]
      exact congrArg (·.toList ++ _) haccepted

theorem Wired.addPeer (h : Wired s) {w peer : Nat} (hw : w < s.size) (hpeer : peer < s.size) :
    Wired (s.addPeer w peer) := by
  have hmore := arrivals_addPeer s w peer
  unfold Cluster.addPeer at hmore ⊢
  split
  · exact h
  · rename_i hcond
    simp only [if_neg hcond] at hmore
    have hwired := h.nodes w
    refine ⟨forall_setNode h.nodes ⟨fun key value todo removed hreceiver => ?_,
      fun target htarget => ?_⟩, h.none_ended, fun x y hy => ?_, fun x i hi => ?_⟩
    · obtain ⟨hkey, hvalue, hremoved, htodo⟩ := hwired.broadcast key value todo removed hreceiver
      exact ⟨hkey, hvalue, hremoved, fun p hp => List.mem_append_left _ (htodo p hp)⟩
    · exact List.mem_append_left _ (hwired.exporting target htarget)
    · obtain ⟨more, harrivals, -⟩ := hmore y
      by_cases hx : x = w
      · subst hx
        simp only [setNode, Function.update_self, List.mem_append, List.mem_singleton] at hy
        rcases hy with hy | rfl
        · rw [harrivals]
          exact List.mem_append_left _ (h.arrived x y hy)
        · simp [arrivals]
      · simp only [setNode, Function.update_of_ne hx] at hy
        rw [harrivals]
        exact List.mem_append_left _ (h.arrived x y hy)
    · obtain ⟨more, harrivals, hnew⟩ := hmore x
      rw [harrivals] at hi
      rcases List.mem_append.mp hi with hi | hi
      · exact h.inside x i hi
      · obtain ⟨rfl, rfl, hne⟩ := hnew i hi
        exact ⟨hw, hpeer, hne⟩

/-- An export request changes only the export queue. -/
theorem sameWiring_addExportRequest (s : Cluster) (w target : Nat) :
    SameWiring s (s.addExportRequest w target) := by
  unfold addExportRequest
  split
  · exact ⟨rfl, rfl, rfl, fun _ => rfl, fun _ => rfl⟩
  · exact sameWiring_setNode rfl rfl

theorem Wired.addExportRequest (h : Wired s) (w target : Nat) :
    Wired (s.addExportRequest w target) := by
  refine h.of_same (sameWiring_addExportRequest s w target) ?_
  unfold Cluster.addExportRequest
  split
  · exact h.nodes
  · exact forall_setNode h.nodes ⟨(h.nodes w).broadcast, (h.nodes w).exporting⟩

/-- A stored request is one that every encoder takes. -/
theorem valid_of_stored {payload : List UInt8} {request : StoreRequest} {table table' : HashTable}
    {allocated : Bool} (hdecode : storeRequest? payload = some request)
    (hset : setHashTable table request.key request.value allocated = (1, table')) :
    validateKey request.key = true ∧ validateValue request.value = true :=
  storeRequest?_valid hdecode (setHashTable_eq_one.mp (by rw [hset])).1

theorem sendPeerNotify_ne_none {key value : CString} (hkey : validateKey key = true)
    (hvalue : validateValue value = true) : sendPeerNotify key value ≠ none := by
  simp [sendPeerNotify, hkey, hvalue]

/-- **Every move keeps the workers wired.** The two moves that end a
connection do not occur: no broadcast has a peer to remove, and no
connection has ended. -/
theorem wired_move (h : Wired s) (hmove : Move d s l t) : Wired t := by
  cases hmove with
  | dropped => exact h
  | @stored w _ _ request table _ _ hdecode hset =>
    obtain ⟨hkey, hvalue⟩ := valid_of_stored hdecode hset
    refine h.of_same (sameWiring_setNode rfl rfl)
      (forall_setNode h.nodes ⟨fun key value todo removed hreceiver => ?_,
        (h.nodes w).exporting⟩)
    cases hreceiver
    exact ⟨hkey, hvalue, rfl, fun peer hpeer => hpeer⟩
  | @refused w =>
    exact h.of_same (sameWiring_setNode rfl rfl)
      (forall_setNode h.nodes ⟨(h.nodes w).broadcast, (h.nodes w).exporting⟩)
  | @entry w worker shouldExportData hw hworker =>
    unfold receiveEntry
    split
    · exact (h.addPeer hw hworker).addExportRequest w worker
    · exact h.addPeer hw hworker
  | @notified w peer key value todo removed message _ hreceiver hmessage =>
    obtain ⟨hkey, hvalue, hremoved, htodo⟩ := (h.nodes w).broadcast _ _ _ _ hreceiver
    refine h.of_same ?_ (forall_setNode h.nodes
      ⟨fun key' value' todo' removed' hreceiver' => ?_, (h.nodes w).exporting⟩)
    · apply SameWiring.send
      exact sameWiring_setNode rfl rfl
    · cases hreceiver'
      exact ⟨hkey, hvalue, hremoved, fun p hp => htodo p (List.mem_cons_of_mem _ hp)⟩
  | @notifyFailed w peer key value todo removed hreceiver hmessage =>
    obtain ⟨hkey, hvalue, -, -⟩ := (h.nodes w).broadcast _ _ _ _ hreceiver
    exact absurd hmessage (sendPeerNotify_ne_none hkey hvalue)
  | @broadcastDone w key value removed hreceiver =>
    obtain ⟨-, -, rfl, -⟩ := (h.nodes w).broadcast _ _ _ _ hreceiver
    have hpeers : ((s.node w).peers.filter fun peer => peer ∉ ([] : List Nat)) =
        (s.node w).peers := by simp
    have hsame : SameWiring s (s.setNode w { s.node w with
        receiver := .idle
        peers := (s.node w).peers.filter fun peer => peer ∉ ([] : List Nat) }) :=
      sameWiring_setNode hpeers rfl
    have hended : (fun c : Nat × Nat => s.ended c || (c.1 == w && ([] : List Nat).contains c.2))
        = s.ended := by simp
    rw [hended]
    refine h.of_same hsame (forall_setNode h.nodes ⟨nofun, fun target htarget => ?_⟩)
    rw [hpeers]
    exact (h.nodes w).exporting target htarget
  | @accepted w source rest haccepted hbacklog =>
    have harrivals : ∀ x, Cluster.arrivals
        { s.setNode w { s.node w with accepted := some source } with
          backlog := Function.update s.backlog w rest } x = s.arrivals x := by
      intro x
      by_cases hx : x = w
      · subst hx
        simp [arrivals, setNode, haccepted, hbacklog]
      · simp [arrivals, setNode, Function.update_of_ne hx]
    refine ⟨forall_setNode h.nodes ⟨(h.nodes w).broadcast, (h.nodes w).exporting⟩, h.none_ended,
      fun x peer hpeer => ?_, fun x i hi => ?_⟩
    · rw [harrivals]
      have hpeers := proj_setNode (n := { s.node w with accepted := some source }) Node.peers rfl x
      exact h.arrived x peer (hpeers ▸ hpeer)
    · rw [harrivals] at hi
      exact h.inside x i hi
  | readOther | readKnown =>
    exact h.of_same (SameWiring.setChannel ⟨rfl, rfl, rfl, fun _ => rfl, fun _ => rfl⟩ _ _) h.nodes
  | @readNew w =>
    refine h.of_same ?_
      (forall_setNode h.nodes ⟨(h.nodes w).broadcast, (h.nodes w).exporting⟩)
    apply SameWiring.setChannel
    exact sameWiring_setNode rfl rfl
  | @hungUp w source haccepted hended =>
    rw [h.none_ended] at hended
    cases hended
  | @storedPeerData w =>
    exact h.of_same (sameWiring_setNode rfl rfl)
      (forall_setNode h.nodes ⟨(h.nodes w).broadcast, (h.nodes w).exporting⟩)
  | @exportTaken w =>
    exact h.of_same (sameWiring_setNode rfl rfl)
      (forall_setNode h.nodes ⟨(h.nodes w).broadcast, nofun⟩)
  | @exportMoved w before after hexporter _ hconnected =>
    refine h.of_same (sameWiring_setNode rfl rfl)
      (forall_setNode h.nodes ⟨(h.nodes w).broadcast, fun target htarget => ?_⟩)
    rcases hconnected target htarget with hbefore | hpeer
    · exact (h.nodes w).exporting target (by rw [hexporter]; exact hbefore)
    · exact hpeer
  | @exportSent w target before after message hexporter _ htarget hconnected =>
    refine h.of_same ?_
      (forall_setNode h.nodes ⟨(h.nodes w).broadcast, fun peer hpeer => ?_⟩)
    · apply SameWiring.send
      exact sameWiring_setNode rfl rfl
    · rw [hconnected peer hpeer]
      exact (h.nodes w).exporting target (by rw [hexporter]; exact htarget)

/-- **The first connection stays the first.** -/
theorem arrivals_move (h : Wired s) (hmove : Move d s l t) (x : Nat) :
    ∃ more, t.arrivals x = s.arrivals x ++ more := by
  have hsame : ∀ {t : Cluster}, SameWiring s t → ∃ more, t.arrivals x = s.arrivals x ++ more := by
    intro t hsame
    exact ⟨[], by rw [hsame.arrivals_eq, List.append_nil]⟩
  cases hmove with
  | dropped => exact ⟨[], by simp⟩
  | stored | refused | storedPeerData | exportTaken | exportMoved | notifyFailed =>
    exact hsame (sameWiring_setNode rfl rfl)
  | @entry w worker shouldExportData =>
    obtain ⟨more, hmore, -⟩ := arrivals_addPeer s w worker x
    refine ⟨more, ?_⟩
    unfold receiveEntry
    split
    · rw [(sameWiring_addExportRequest _ w worker).arrivals_eq, hmore]
    · exact hmore
  | notified | exportSent =>
    refine hsame (SameWiring.send ?_ _ _)
    exact sameWiring_setNode rfl rfl
  | @broadcastDone w key value removed =>
    have haccepted := proj_setNode (n := { s.node w with
        receiver := .idle
        peers := (s.node w).peers.filter fun peer => peer ∉ removed }) Node.accepted rfl x
    refine ⟨[], ?_⟩
    rw [List.append_nil]
    exact congrArg (·.toList ++ s.backlog x) haccepted
  | @accepted w source rest haccepted hbacklog =>
    refine ⟨[], ?_⟩
    by_cases hx : x = w
    · subst hx
      simp [arrivals, setNode, haccepted, hbacklog]
    · simp [arrivals, setNode, Function.update_of_ne hx]
  | readOther | readKnown =>
    exact hsame (SameWiring.setChannel ⟨rfl, rfl, rfl, fun _ => rfl, fun _ => rfl⟩ _ _)
  | readNew =>
    refine hsame (SameWiring.setChannel ?_ _ _)
    exact sameWiring_setNode rfl rfl
  | @hungUp w source haccepted hended =>
    rw [h.none_ended] at hended
    cases hended

theorem first_move (h : Wired s) (hmove : Move d s l t) {x i : Nat}
    (hfirst : (s.arrivals x).head? = some i) : (t.arrivals x).head? = some i := by
  obtain ⟨more, hmore⟩ := arrivals_move h hmove x
  rw [hmore, List.head?_append, hfirst]
  rfl

/-- **What a move does to the channels**: it sends on the connection
`sendsOn` names, it reads from a connection the listener may read, or it
leaves them alone. -/
theorem channel_move (hmove : Move d s l t) :
    (∃ c message, s.sendsOn l = some c ∧
      t.channel = Function.update s.channel c (s.channel c ++ [message])) ∨
    (s.sendsOn l = none ∧ ∃ w source message rest, s.mayRead d w source = true ∧
      s.channel (source, w) = message :: rest ∧
      t.channel = Function.update s.channel (source, w) rest) ∨
    (s.sendsOn l = none ∧ t.channel = s.channel) := by
  cases hmove with
  | dropped | stored | refused | accepted | hungUp | storedPeerData =>
    exact Or.inr (Or.inr ⟨rfl, rfl⟩)
  | entry =>
    refine Or.inr (Or.inr ⟨rfl, ?_⟩)
    simp only [receiveEntry, addExportRequest, addPeer]
    repeat' split
    all_goals rfl
  | notified _ hreceiver hmessage =>
    refine Or.inl ⟨_, _, ?_, rfl⟩
    simp [sendsOn, hreceiver, hmessage]
  | notifyFailed hreceiver hmessage =>
    exact Or.inr (Or.inr ⟨by simp [sendsOn, hreceiver, hmessage], rfl⟩)
  | broadcastDone hreceiver =>
    exact Or.inr (Or.inr ⟨by simp [sendsOn, hreceiver], rfl⟩)
  | readOther hread hchannel | readKnown hread hchannel | readNew _ hread hchannel =>
    exact Or.inr (Or.inl ⟨rfl, _, _, _, _, hread, hchannel, rfl⟩)
  | exportTaken hexporter =>
    exact Or.inr (Or.inr ⟨by simp [sendsOn, hexporter, ExporterAt.message], rfl⟩)
  | exportMoved hexporter hquiet =>
    exact Or.inr (Or.inr ⟨by simp [sendsOn, hexporter, hquiet], rfl⟩)
  | exportSent hexporter hmessage htarget =>
    refine Or.inl ⟨_, _, ?_, rfl⟩
    simp [sendsOn, hexporter, hmessage, htarget]

/-- A message is sent to a connected peer. -/
theorem sendsOn_arrived (h : Wired s) {c : Nat × Nat} (hsend : s.sendsOn l = some c) :
    c.1 ∈ s.arrivals c.2 := by
  cases l with
  | receive | accept | read | hangUp | storePeerData => cases hsend
  | notify w =>
    simp only [sendsOn] at hsend
    split at hsend
    · rename_i key value peer todo removed hreceiver
      obtain ⟨-, -, -, htodo⟩ := (h.nodes w).broadcast _ _ _ _ hreceiver
      obtain ⟨-, -, rfl⟩ := Option.map_eq_some_iff.mp hsend
      exact h.arrived w peer (htodo peer (by simp))
    · cases hsend
  | runExport w =>
    simp only [sendsOn] at hsend
    split at hsend
    · rename_i target hmessage htarget
      cases hsend
      exact h.arrived w target ((h.nodes w).exporting target htarget)
    · cases hsend

end Steps

/-! ## Messages on the first connection, and on others -/

/-- Messages are only on first connections. -/
def FirstOnly (s : Cluster) : Prop :=
  ∀ c, s.channel c ≠ [] → (s.arrivals c.2).head? = some c.1

/-- Some message is on a connection behind the first. -/
def Stranded (s : Cluster) : Prop :=
  ∃ c i, s.channel c ≠ [] ∧ (s.arrivals c.2).head? = some i ∧ i ≠ c.1

section FirstConnection

variable {s t : Cluster} {l : Label}

/-- Sending on first connections only keeps messages there. -/
theorem firstOnly_move (h : Wired s) (hfirst : FirstOnly s) (hcond : OnFirst s l)
    (hmove : Move .firstAccepted s l t) : FirstOnly t := by
  intro c hc
  refine first_move h hmove ?_
  rcases channel_move hmove with ⟨c', message, hsend, hchannel⟩ |
    ⟨-, w, source, message, rest, -, hread, hchannel⟩ | ⟨-, hchannel⟩
  · by_cases hcc : c = c'
    · rw [hcc]
      exact hcond c' hsend
    · rw [hchannel, Function.update_of_ne hcc] at hc
      exact hfirst c hc
  · by_cases hcc : c = (source, w)
    · refine hfirst c ?_
      rw [hcc, hread]
      exact List.cons_ne_nil _ _
    · rw [hchannel, Function.update_of_ne hcc] at hc
      exact hfirst c hc
  · rw [hchannel] at hc
    exact hfirst c hc

/-- A stranded message stays: its connection is not the accepted one. -/
theorem stranded_move (h : Wired s) (hstranded : Stranded s)
    (hmove : Move .firstAccepted s l t) : Stranded t := by
  obtain ⟨c, i, hc, hi, hne⟩ := hstranded
  refine ⟨c, i, ?_, first_move h hmove hi, hne⟩
  rcases channel_move hmove with ⟨c', message, -, hchannel⟩ |
    ⟨-, w, source, message, rest, haccepted, -, hchannel⟩ | ⟨-, hchannel⟩
  · by_cases hcc : c = c'
    · rw [hchannel, hcc, Function.update_self]
      simp
    · rw [hchannel, Function.update_of_ne hcc]
      exact hc
  · have hcc : c ≠ (source, w) := by
      rintro rfl
      simp only [mayRead, beq_iff_eq] at haccepted
      simp only [arrivals, haccepted, Option.toList_some, List.singleton_append,
        List.head?_cons, Option.some.injEq] at hi
      exact hne hi.symm
    rw [hchannel, Function.update_of_ne hcc]
    exact hc
  · rw [hchannel]
    exact hc

/-- A message sent elsewhere is stranded. -/
theorem onFirst_or_stranded (h : Wired s) (hmove : Move .firstAccepted s l t) :
    OnFirst s l ∨ Stranded t := by
  cases hsend : s.sendsOn l with
  | none => exact Or.inl fun c hc => by rw [hsend] at hc; cases hc
  | some c =>
    by_cases hfirst : (s.arrivals c.2).head? = some c.1
    · refine Or.inl fun c' hc' => ?_
      rw [hsend] at hc'
      cases hc'
      exact hfirst
    · refine Or.inr ?_
      have harrived := sendsOn_arrived h hsend
      cases hhead : (s.arrivals c.2).head? with
      | none =>
        rw [List.head?_eq_none_iff.mp hhead] at harrived
        cases harrived
      | some i =>
        refine ⟨c, i, ?_, first_move h hmove hhead, fun hi => hfirst (by rw [hhead, hi])⟩
        rcases channel_move hmove with ⟨c', message, hsend', hchannel⟩ | ⟨hnone, -⟩ | ⟨hnone, -⟩
        · rw [hsend] at hsend'
          cases hsend'
          rw [hchannel, Function.update_self]
          simp
        · rw [hsend] at hnone
          cases hnone
        · rw [hsend] at hnone
          cases hnone

end FirstConnection

/-! ## Stuck states -/

/-- A thread that holds a bucket lock can go on. -/
theorem runExport_of_locked {s : Cluster} {d : Delivery} {w : Nat} {key : CString}
    (hw : w < s.size) (hlocked : (s.node w).locked key = true) :
    step d s (.runExport w) ≠ none := by
  unfold Node.locked at hlocked
  split at hlocked
  · rename_i target bucket nodes hexporter
    simp only [step, if_pos hw, exportStep, hexporter]
    cases nodes with
    | nil => simp
    | cons node nodes => cases hmessage : entryMessage node <;> simp [hmessage]
  · cases hlocked

/-- In a stuck state a first connection has nothing to read. -/
theorem Stuck.first_empty {s : Cluster} (hstuck : s.Stuck) (h : Wired s) {c : Nat × Nat}
    (hfirst : (s.arrivals c.2).head? = some c.1) : s.channel c = [] := by
  obtain ⟨source, w⟩ := c
  simp only at hfirst
  obtain ⟨hsource, hw, -⟩ := h.inside w source (List.mem_of_head? hfirst)
  obtain ⟨-, haccept, hread, -, hstore, hexport⟩ := hstuck w hw
  have hunlocked : ∀ key, (s.node w).locked key = false := by
    intro key
    by_contra hlocked
    exact runExport_of_locked hw (by simpa using hlocked) hexport
  have haccepted : (s.node w).accepted = some source := by
    cases hacc : (s.node w).accepted with
    | some x =>
      simpa [arrivals, hacc] using hfirst
    | none =>
      cases hbacklog : s.backlog w with
      | nil => simp [arrivals, hacc, hbacklog] at hfirst
      | cons x rest => simp [step, hw, acceptStep, hacc, hbacklog] at haccept
  have hlistener : (s.node w).listener = .idle := by
    cases hl : (s.node w).listener with
    | idle => rfl
    | storing key value =>
      have hnone := hstore true
      simp [step, hw, storePeerDataStep, hl, hunlocked] at hnone
  cases hchannel : s.channel (source, w) with
  | nil => rfl
  | cons message rest =>
    have hnone := hread source hsource
    simp only [step, if_pos (And.intro hw hsource), readStep, hlistener, mayRead, haccepted,
      hchannel, beq_self_eq_true, and_self, if_true] at hnone
    cases hentry : peerEntry message with
    | none =>
      rw [hentry] at hnone
      cases hnone
    | some entry =>
      obtain ⟨key, value⟩ := entry
      simp only [hentry, hunlocked] at hnone
      by_cases hhas : hasHashTable (s.node w).table key = 0
      · simp [hhas] at hnone
      · simp [hhas] at hnone

/-! ## Runs -/

/-- **When nothing is left unread.** In every stuck state that a run
reaches, no message is unread exactly when every step of the run that sent
one sent it on the connection that had reached its receiver first. -/
theorem unread_iff_first {n : Nat} {ls : List Label} {t : Cluster}
    (hrun : exec (step .firstAccepted) (start n) ls = some t) (hstuck : t.Stuck) :
    t.NoneUnread ↔ Along (step .firstAccepted) OnFirst (start n) ls := by
  constructor
  · intro hnone
    have hdichotomy : Along (step .firstAccepted) OnFirst (start n) ls ∨ Stranded t :=
      along_or_damaged
        (fun _ _ _ h hstep => wired_move h (step_move hstep))
        (fun _ _ _ h hstep => onFirst_or_stranded h (step_move hstep))
        (fun _ _ _ h hstranded hstep => stranded_move h hstranded (step_move hstep))
        (wired_start n) hrun
    rcases hdichotomy with halong | ⟨c, i, hc, -⟩
    · exact halong
    · exact absurd (hnone c) hc
  · intro halong c
    have hboth : Wired t ∧ FirstOnly t :=
      exec_invariant_along (I := fun s => Wired s ∧ FirstOnly s)
        (fun _ _ _ h hcond hstep => ⟨wired_move h.1 (step_move hstep),
          firstOnly_move h.1 h.2 hcond (step_move hstep)⟩)
        ⟨wired_start n, fun c hc => absurd rfl hc⟩ halong hrun
    by_contra hc
    exact hc (hstuck.first_empty hboth.1 (hboth.2 c hc))

/-- With two workers every connection is a first one. -/
theorem onFirst_of_two {s : Cluster} (h : Wired s) (hsize : s.size ≤ 2) (l : Label) :
    OnFirst s l := by
  intro c hsend
  have harrived := sendsOn_arrived h hsend
  cases hhead : (s.arrivals c.2).head? with
  | none =>
    rw [List.head?_eq_none_iff.mp hhead] at harrived
    cases harrived
  | some i =>
    obtain ⟨hi, hw, hne⟩ := h.inside c.2 i (List.mem_of_head? hhead)
    obtain ⟨hc, -, hne'⟩ := h.inside c.2 c.1 harrived
    rw [show i = c.1 by omega]

theorem size_move {d : Delivery} {s t : Cluster} {l : Label} (hmove : Move d s l t) :
    t.size = s.size := by
  cases hmove with
  | entry =>
    simp only [receiveEntry, addExportRequest, addPeer]
    repeat' split
    all_goals rfl
  | _ => rfl

/-- Two workers leave nothing unread. -/
theorem two_workers_none_unread {n : Nat} (hn : n ≤ 2) {ls : List Label} {t : Cluster}
    (hrun : exec (step .firstAccepted) (start n) ls = some t) (hstuck : t.Stuck) :
    t.NoneUnread := by
  intro c
  have hboth : (Wired t ∧ t.size ≤ 2) ∧ FirstOnly t :=
    exec_invariant (I := fun s => (Wired s ∧ s.size ≤ 2) ∧ FirstOnly s)
      (fun s l _ h hstep => ⟨⟨wired_move h.1.1 (step_move hstep),
          (size_move (step_move hstep)).trans_le h.1.2⟩,
        firstOnly_move h.1.1 h.2 (onFirst_of_two h.1.1 h.1.2 l) (step_move hstep)⟩)
      ⟨⟨wired_start n, hn⟩, fun c hc => absurd rfl hc⟩ hrun
  by_contra hc
  exact hc (hstuck.first_empty hboth.1.1 (hboth.2 c hc))

/-! ## The registries -/

/-- A registry holds other workers, each once. -/
def Registered (s : Cluster) : Prop :=
  ∀ w, (s.node w).peers.Nodup ∧ ∀ peer ∈ (s.node w).peers, peer < s.size ∧ peer ≠ w

section Registries

variable {d : Delivery} {s t : Cluster} {l : Label}

theorem Registered.addPeer (h : Registered s) {w peer : Nat} (hpeer : peer < s.size) :
    Registered (s.addPeer w peer) := by
  unfold Cluster.addPeer
  split
  · exact h
  · rename_i hcond
    simp only [not_or] at hcond
    intro x
    by_cases hx : x = w
    · subst hx
      simp only [setNode, Function.update_self]
      refine ⟨?_, ?_⟩
      · refine List.nodup_append.mpr ⟨(h x).1, List.nodup_singleton _, ?_⟩
        intro p hp q hq heq
        rw [List.mem_singleton.mp hq] at heq
        exact hcond.2.1 (heq ▸ hp)
      · intro p hp
        rcases List.mem_append.mp hp with hp | hp
        · exact (h x).2 p hp
        · rw [List.mem_singleton.mp hp]
          exact ⟨hpeer, hcond.1⟩
    · simp only [setNode, Function.update_of_ne hx]
      exact h x

/-- **Every move** leaves the registries in order. -/
theorem registered_move (h : Registered s) (hmove : Move d s l t) : Registered t := by
  have hsame : ∀ {t : Cluster}, t.size = s.size → (∀ x, (t.node x).peers = (s.node x).peers) →
      Registered t := by
    intro t hsize hpeers x
    rw [hpeers, hsize]
    exact h x
  cases hmove with
  | dropped | readOther | readKnown => exact h
  | @entry w worker shouldExportData hw hworker =>
    have hadd := h.addPeer (w := w) hworker
    unfold receiveEntry
    split
    · intro x
      rw [(sameWiring_addExportRequest _ w worker).peers_eq,
        (sameWiring_addExportRequest _ w worker).size_eq]
      exact hadd x
    · exact hadd
  | @broadcastDone w key value removed hreceiver =>
    intro x
    by_cases hx : x = w
    · subst hx
      simp only [setNode, Function.update_self]
      exact ⟨(h x).1.filter _, fun p hp => (h x).2 p (List.mem_filter.mp hp).1⟩
    · simp only [setNode, Function.update_of_ne hx]
      exact h x
  | stored | refused | notified | notifyFailed | accepted | readNew | hungUp | storedPeerData
  | exportTaken | exportMoved | exportSent => exact hsame rfl (proj_setNode Node.peers (by rfl))

/-- A registry has room for every worker, when there are no more than
`maxWorkers`. -/
theorem Registered.mem_addPeer (h : Registered s) (hsize : s.size ≤ maxWorkers) {w peer : Nat}
    (hw : w < s.size) (hpeer : peer ≠ w) : peer ∈ ((s.addPeer w peer).node w).peers := by
  have hroom : (s.node w).peers.length < s.size := by
    have hsub : (s.node w).peers ⊆ (List.range s.size).erase w := by
      intro p hp
      obtain ⟨hlt, hne⟩ := (h w).2 p hp
      exact (List.mem_erase_of_ne hne).mpr (List.mem_range.mpr hlt)
    have hlength := (List.subperm_of_subset (h w).1 hsub).length_le
    rw [List.length_erase_of_mem (List.mem_range.mpr hw), List.length_range] at hlength
    omega
  unfold Cluster.addPeer
  split
  · rename_i hcond
    rcases hcond with hself | hknown | hfull
    · exact absurd hself hpeer
    · exact hknown
    · omega
  · simp [setNode]

end Registries

/-! ## Three workers -/

/-- The payload of a STORE_REQUEST of client 1 for the key "k". -/
def storePayload (value : UInt8) : List UInt8 := [0, 0, 0, 1, 0, 1, 107, 0, 1, value]

/-- Every worker connects to every other one, worker 1 before the others,
and the listeners accept; then `storing` stores a key and notifies its two
peers. -/
def threeWorkersRun (storing : Nat) : List Label :=
  [.receive 1 (.workerEntry 0 false), .receive 1 (.workerEntry 2 false),
    .receive 0 (.workerEntry 1 false), .receive 0 (.workerEntry 2 false),
    .receive 2 (.workerEntry 0 false), .receive 2 (.workerEntry 1 false),
    .accept 0, .accept 1, .accept 2,
    .receive storing (.storeRequest (storePayload 118) true), .notify storing, .notify storing,
    .notify storing]

/-- Worker 1 stores: its two connections are first ones, and what it sends
is read. -/
theorem unread_iff_first_of_one :
    ∃ t, exec (step .firstAccepted) (start 3) (threeWorkersRun 1 ++
        [.read 0 1, .read 2 1, .storePeerData 0 true, .storePeerData 2 true]) = some t ∧
      t.NoneUnread := by
  obtain ⟨t, hrun, hstuck⟩ : ∃ t, exec (step .firstAccepted) (start 3) (threeWorkersRun 1 ++
      [.read 0 1, .read 2 1, .storePeerData 0 true, .storePeerData 2 true]) = some t ∧
      t.Stuck := ⟨_, rfl, by decide +kernel⟩
  exact ⟨t, hrun, (unread_iff_first hrun hstuck).mpr (by decide +kernel)⟩

/-- **Worker 2 stores**: its connection to worker 0 arrived behind worker
1's, and what it sends is never read. -/
theorem third_connection_stranded :
    ∃ t, exec (step .firstAccepted) (start 3) (threeWorkersRun 2) = some t ∧
      t.FullyConnected ∧ t.Stuck ∧ ¬ t.NoneUnread := by
  refine ⟨_, rfl, by decide +kernel, by decide +kernel, fun hnone => ?_⟩
  exact absurd (hnone (2, 0)) (by decide +kernel)

end Cluster

end LoadBalancing.Worker
