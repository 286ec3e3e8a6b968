/-
LoadBalancing.Worker.PeerChurn — the peer tables of workers that join and
leave.

A worker that leaves sends nothing to the others: their tables keep its
slot until a broadcast fails to reach it, and for good if the connection
to it was never made. A full table refuses a newcomer, although no more
than `maxWorkers` workers are alive. `slots_suffice_iff` says exactly in
which runs no newcomer is refused: those in which the departed workers
that hold a slot leave enough slots for the members. One of them does no
harm.

Any number of workers join over time, with ids and peer ports of their
own; a label says which one moves, whether a connect succeeds and what the
sends of a broadcast answer.

No `sorry`, no `axiom`, no `native_decide`.
-/
import LoadBalancing.Base.Transition
import LoadBalancing.Worker.PeerManager

namespace LoadBalancing.Worker.PeerChurn

open LoadBalancing.Base LoadBalancing.Lib

/-- What is announced of a worker. -/
structure WorkerEntry where
  workerId : Int32
  address : CString
  port : Int32
  deriving DecidableEq

/-- The workers that have ever joined, the ids of those alive, and the
peer table of each. -/
structure State where
  joined : List WorkerEntry
  alive : List Int32
  tables : Int32 → PeerManager

/-- One step; all but the first belong to the worker with the id. -/
inductive Label where
  | join (w : WorkerEntry)
  | leave (id : Int32)
  | announce (id : Int32) (w : WorkerEntry) (connected : Option Nat)
  | store (id : Int32) (sends : Nat → Int)

/-- Before the first worker. -/
def start : State := ⟨[], [], fun _ => .initializePeerManager 0⟩

namespace State

/-- The call of `AddPeer` for an announced worker. -/
def addPeer (s : State) (id : Int32) (w : WorkerEntry) (connected : Option Nat) :
    Int × PeerManager :=
  (s.tables id).addPeer w.workerId w.address w.port connected

/-- Replace one table. -/
def setTable (s : State) (id : Int32) (m : PeerManager) : State :=
  { s with tables := Function.update s.tables id m }

/-- A worker with an empty table comes to life. -/
def join (s : State) (w : WorkerEntry) : State :=
  ⟨s.joined ++ [w], s.alive ++ [w.workerId],
    Function.update s.tables w.workerId (.initializePeerManager w.port)⟩

/-- A worker that has never joined, and no worker like it. -/
def IsNew (s : State) (w : WorkerEntry) : Prop :=
  ∀ other ∈ s.joined, other.workerId ≠ w.workerId ∧ other.port ≠ w.port

instance (s : State) (w : WorkerEntry) : Decidable (s.IsNew w) :=
  inferInstanceAs (Decidable (∀ other ∈ s.joined, _ ∧ _))

/-- The slots of a worker's table that are held for departed workers. -/
def departed (s : State) (id : Int32) : Nat := Base.departed s.alive (s.tables id).ids

end State

/-- One step. A worker joins while fewer than `maxWorkers` are alive, and
is announced to others from then on, also when it has left meanwhile. -/
def step (s : State) : Label → Option State
  | .join w =>
    if s.IsNew w ∧ s.alive.length < maxWorkers then some (s.join w) else none
  | .leave id => if id ∈ s.alive then some { s with alive := s.alive.erase id } else none
  | .announce id w connected =>
    if id ∈ s.alive ∧ w ∈ s.joined then some (s.setTable id (s.addPeer id w connected).2) else none
  | .store id sends =>
    if id ∈ s.alive then some (s.setTable id ((s.tables id).broadcastData sends).2) else none

/-- The step does not refuse a slot to a live worker. -/
def HasSlot (s : State) : Label → Prop
  | .announce id w connected => w.workerId ∈ s.alive → (s.addPeer id w connected).1 ≠ -1
  | _ => True

/-- The condition on the state in which a live worker is announced to
another one that does not have it yet: with the slots of the departed, the
members that have or now need one are no more than the slots. -/
def Room (s : State) : Label → Prop
  | .announce id w _ =>
    w.workerId ∈ s.alive → w.workerId ≠ id → w.workerId ∉ (s.tables id).ids →
      s.alive.length + s.departed id ≤
        maxWorkers + 1 + unlisted s.alive (s.tables id).ids id w.workerId
  | _ => True

/-- At most one departed worker holds a slot where a worker is announced. -/
def OneDeparted (s : State) : Label → Prop
  | .announce id _ _ => s.departed id ≤ 1
  | _ => True

instance (s : State) (l : Label) : Decidable (HasSlot s l) := by
  cases l <;> unfold HasSlot <;> infer_instance

instance (s : State) (l : Label) : Decidable (Room s l) := by
  cases l <;> unfold Room <;> infer_instance

/-- The steps, with what is known when they are taken. -/
inductive Move (s : State) : Label → State → Prop
  | joins {w : WorkerEntry} (hnew : s.IsNew w) (hroom : s.alive.length < maxWorkers) :
      Move s (.join w) (s.join w)
  | leaves {id : Int32} : Move s (.leave id) { s with alive := s.alive.erase id }
  | announces {id : Int32} {w : WorkerEntry} (connected : Option Nat) (hid : id ∈ s.alive)
      (hw : w ∈ s.joined) :
      Move s (.announce id w connected) (s.setTable id (s.addPeer id w connected).2)
  | stores {id : Int32} (sends : Nat → Int) :
      Move s (.store id sends) (s.setTable id ((s.tables id).broadcastData sends).2)

theorem step_move {s t : State} {l : Label} (h : step s l = some t) : Move s l t := by
  cases l with
  | join w =>
    obtain ⟨⟨hnew, hroom⟩, h⟩ := Option.ite_none_right_eq_some.mp h
    cases h
    exact .joins hnew hroom
  | leave id =>
    obtain ⟨-, h⟩ := Option.ite_none_right_eq_some.mp h
    cases h
    exact .leaves
  | announce id w connected =>
    obtain ⟨⟨hid, hw⟩, h⟩ := Option.ite_none_right_eq_some.mp h
    cases h
    exact .announces connected hid hw
  | store id sends =>
    obtain ⟨-, h⟩ := Option.ite_none_right_eq_some.mp h
    cases h
    exact .stores sends

/-! ## What every run keeps -/

/-- A table and the worker it belongs to. -/
structure Owned (w : WorkerEntry) (m : PeerManager) : Prop where
  port_eq : m.peerPort = w.port
  not_listed : w.workerId ∉ m.ids
  nodup : m.ids.Nodup

namespace Owned

variable {w : WorkerEntry} {m : PeerManager}

theorem new (w : WorkerEntry) : Owned w (.initializePeerManager w.port) :=
  ⟨rfl, by simp, by simp⟩

/-- `AddPeer` lists another worker at most, since no other one has this
worker's id or port. -/
theorem addPeer (h : Owned w m) {v : WorkerEntry}
    (hsame : v.workerId = w.workerId ∨ v.port = w.port → v = w) (connected : Option Nat) :
    Owned w (m.addPeer v.workerId v.address v.port connected).2 := by
  have hids := m.ids_addPeer v.workerId v.address v.port connected
  by_cases hkept : v.port = m.peerPort ∨ v.workerId ∈ m.ids ∨ maxWorkers ≤ m.peers.length
  · rw [if_pos hkept] at hids
    exact ⟨(m.peerPort_addPeer ..).trans h.port_eq, hids ▸ h.not_listed, hids ▸ h.nodup⟩
  · rw [if_neg hkept] at hids
    have hnew : v.workerId ∉ m.ids := fun hmem => hkept (Or.inr (Or.inl hmem))
    have hother : w.workerId ≠ v.workerId := by
      intro hid
      have hvw := hsame (Or.inl hid.symm)
      exact hkept (Or.inl (hvw ▸ h.port_eq.symm))
    refine ⟨(m.peerPort_addPeer ..).trans h.port_eq, ?_, ?_⟩
    · rw [hids, List.mem_append, List.mem_singleton]
      rintro (hmem | hid)
      · exact h.not_listed hmem
      · exact hother hid
    · rw [hids, ← List.concat_eq_append]
      exact h.nodup.concat hnew

theorem broadcastData (h : Owned w m) (sends : Nat → Int) :
    Owned w (m.broadcastData sends).2 := by
  have hids := m.ids_broadcastData sends h.nodup
  refine ⟨(m.peerPort_broadcastData sends).trans h.port_eq, ?_, hids ▸ h.nodup.filter _⟩
  rw [hids]
  exact fun hmem => h.not_listed (List.mem_of_mem_filter hmem)

end Owned

/-- Workers differ in id and port, at most `maxWorkers` of them are alive,
and each has a table of its own. -/
structure Keeps (s : State) : Prop where
  distinct : ∀ v ∈ s.joined, ∀ w ∈ s.joined, v.workerId = w.workerId ∨ v.port = w.port → v = w
  alive_nodup : s.alive.Nodup
  alive_le : s.alive.length ≤ maxWorkers
  joined : ∀ id ∈ s.alive, ∃ w ∈ s.joined, w.workerId = id
  owned : ∀ w ∈ s.joined, Owned w (s.tables w.workerId)

theorem keeps_start : Keeps start :=
  ⟨nofun, List.nodup_nil, Nat.zero_le _, nofun, nofun⟩

section Steps

variable {s t : State} {l : Label}

/-- A change of one table that leaves it its owner's. -/
theorem Keeps.setTable (h : Keeps s) {id : Int32} {m : PeerManager}
    (hm : ∀ w ∈ s.joined, w.workerId = id → Owned w m) : Keeps (s.setTable id m) := by
  refine ⟨h.distinct, h.alive_nodup, h.alive_le, h.joined, ?_⟩
  intro w hw
  by_cases hid : w.workerId = id
  · simp only [State.setTable, hid, Function.update_self]
    exact hm w hw hid
  · simp only [State.setTable, Function.update_of_ne hid]
    exact h.owned w hw

theorem Keeps.join (h : Keeps s) {w : WorkerEntry} (hnew : s.IsNew w)
    (hroom : s.alive.length < maxWorkers) : Keeps (s.join w) := by
  have hunused : w.workerId ∉ s.alive := by
    intro hmem
    obtain ⟨other, hother, hid⟩ := h.joined _ hmem
    exact (hnew other hother).1 hid
  refine ⟨?_, ?_, ?_, ?_, ?_⟩
  · intro v hv v' hv' hsame
    rcases List.mem_append.mp hv with hold | hlast
    · rcases List.mem_append.mp hv' with hold' | hlast'
      · exact h.distinct v hold v' hold' hsame
      · rw [List.mem_singleton.mp hlast'] at hsame
        exact absurd hsame (not_or.mpr (hnew v hold))
    · rcases List.mem_append.mp hv' with hold' | hlast'
      · rw [List.mem_singleton.mp hlast] at hsame
        have hne := hnew v' hold'
        exact absurd hsame (not_or.mpr ⟨hne.1.symm, hne.2.symm⟩)
      · rw [List.mem_singleton.mp hlast, List.mem_singleton.mp hlast']
  · simp only [State.join, ← List.concat_eq_append]
    exact h.alive_nodup.concat hunused
  · simp only [State.join, List.length_append, List.length_singleton]
    exact hroom
  · intro id hid
    rcases List.mem_append.mp hid with hold | hlast
    · obtain ⟨v, hv, rfl⟩ := h.joined id hold
      exact ⟨v, List.mem_append_left _ hv, rfl⟩
    · exact ⟨w, List.mem_append_right _ (List.mem_singleton_self w),
        (List.mem_singleton.mp hlast).symm⟩
  · intro v hv
    rcases List.mem_append.mp hv with hold | hlast
    · simp only [State.join, Function.update_of_ne (hnew v hold).1]
      exact h.owned v hold
    · simp only [State.join, List.mem_singleton.mp hlast, Function.update_self]
      exact Owned.new w

/-- **Every step** keeps the tables with their workers. -/
theorem keeps_step (h : Keeps s) (hstep : step s l = some t) : Keeps t := by
  cases step_move hstep with
  | joins hnew hroom => exact h.join hnew hroom
  | leaves =>
    exact ⟨h.distinct, h.alive_nodup.erase _, Nat.le_trans (List.length_erase_le ..) h.alive_le,
      fun v hv => h.joined v (List.mem_of_mem_erase hv), h.owned⟩
  | @announces id v connected hid hv =>
    apply h.setTable
    rintro w hw rfl
    exact (h.owned w hw).addPeer (h.distinct v hv w hw) connected
  | stores sends =>
    apply h.setTable
    rintro w hw rfl
    exact (h.owned w hw).broadcastData sends

/-- **A newcomer is refused** exactly when there is no room for it. -/
theorem hasSlot_iff_room (h : Keeps s) (hstep : step s l = some t) : HasSlot s l ↔ Room s l := by
  cases step_move hstep with
  | joins | leaves | stores => exact Iff.rfl
  | @announces id v connected hid hv =>
    obtain ⟨w, hw, rfl⟩ := h.joined id hid
    have howned := h.owned w hw
    have hown : v.port = (s.tables w.workerId).peerPort ↔ v.workerId = w.workerId := by
      rw [howned.port_eq]
      constructor
      · exact fun hport => congrArg WorkerEntry.workerId (h.distinct v hv w hw (Or.inr hport))
      · exact fun hid => congrArg WorkerEntry.port (h.distinct v hv w hw (Or.inl hid))
    simp only [HasSlot, Room, State.addPeer, ne_eq, PeerManager.addPeer_eq_neg_one, hown,
      State.departed, not_and, not_le]
    refine forall_congr' fun hlive => forall_congr' fun hne => forall_congr' fun hunlisted => ?_
    have haccount := length_slots h.alive_nodup howned.nodup hid hlive hne howned.not_listed
      hunlisted
    omega

/-- **One departed worker** does no harm. -/
theorem room_of_oneDeparted (h : Keeps s) (hone : OneDeparted s l) : Room s l := by
  cases l with
  | join w => trivial
  | leave id => trivial
  | store id sends => trivial
  | announce id v connected =>
    intro _ _ _
    have halive := h.alive_le
    have hdeparted : s.departed id ≤ 1 := hone
    omega

/-! ## A slot lost for good -/

/-- The worker holds a slot for a peer it could not connect to. -/
def Unconnected (s : State) (w : WorkerEntry) (peerId : Int32) : Prop :=
  ∃ peer ∈ (s.tables w.workerId).peers, peer.workerId = peerId ∧ peer.isConnected = false

/-- **Every step** of the other workers and of this one leaves such a slot
where it is. -/
theorem unconnected_step (h : Keeps s) {w : WorkerEntry} (hw : w ∈ s.joined) {peerId : Int32}
    (hpeer : Unconnected s w peerId) (hstep : step s l = some t) : Unconnected t w peerId := by
  have htable : ∀ {id : Int32} {m : PeerManager},
      (w.workerId = id → ∃ peer ∈ m.peers, peer.workerId = peerId ∧ peer.isConnected = false) →
        Unconnected (s.setTable id m) w peerId := by
    intro id m hm
    by_cases hid : w.workerId = id
    · simp only [Unconnected, State.setTable, hid, Function.update_self]
      exact hm hid
    · simp only [Unconnected, State.setTable, Function.update_of_ne hid]
      exact hpeer
  cases step_move hstep with
  | joins hnew =>
    simp only [Unconnected, State.join, Function.update_of_ne (hnew w hw).1]
    exact hpeer
  | leaves => exact hpeer
  | @announces id v connected =>
    apply htable
    rintro rfl
    obtain ⟨peer, hmem, hid, hdown⟩ := hpeer
    obtain ⟨peer', hmem', hid', hdown'⟩ := PeerManager.exists_mem_addPeer hmem v.workerId v.address
      v.port connected
    exact ⟨peer', hmem', hid'.trans hid, hdown'.trans hdown⟩
  | stores sends =>
    apply htable
    rintro rfl
    obtain ⟨peer, hmem, hid, hdown⟩ := hpeer
    exact ⟨peer, PeerManager.mem_broadcastData (h.owned w hw).nodup hmem hdown, hid, hdown⟩

/-- A worker stays among those that have joined. -/
theorem joined_step {w : WorkerEntry} (hw : w ∈ s.joined) (hstep : step s l = some t) :
    w ∈ t.joined := by
  cases step_move hstep with
  | joins => exact List.mem_append_left _ hw
  | leaves | announces | stores => exact hw

/-- **Nothing gives back** the slot of a peer whose connect failed, whatever
is stored and whoever joins or leaves. -/
theorem unconnected_run {ls : List Label} (h : Keeps s) {w : WorkerEntry} (hw : w ∈ s.joined)
    {peerId : Int32} (hpeer : Unconnected s w peerId) (hexec : exec step s ls = some t) :
    Unconnected t w peerId := by
  have hrun := exec_invariant (I := fun s => Keeps s ∧ w ∈ s.joined ∧ Unconnected s w peerId)
    (fun _ _ _ ⟨hkeeps, hjoined, hslot⟩ hstep => ⟨keeps_step hkeeps hstep,
      joined_step hjoined hstep, unconnected_step hkeeps hjoined hslot hstep⟩)
    ⟨h, hw, hpeer⟩ hexec
  exact hrun.2.2

end Steps

/-! ## When the slots suffice -/

section Runs

variable {s : State} {ls : List Label}

/-- **The slots suffice** in a run exactly when there is room at each of its
announcements. -/
theorem slots_suffice_iff (hexec : exec step start ls = some s) :
    Along step HasSlot start ls ↔ Along step Room start ls :=
  along_congr (fun _ _ _ hkeeps _ hstep => keeps_step hkeeps hstep)
    (fun _ _ _ hkeeps hstep => hasSlot_iff_room hkeeps hstep) keeps_start hexec

/-- Worker `i`, which listens for peers on port 5000 + `i`. -/
def workerEntry (i : Nat) : WorkerEntry :=
  ⟨Int32.ofNat i, CString.ofString "127.0.0.1", Int32.ofNat (5000 + i)⟩

/-- Eight workers, of which worker 0 has a connection to each other one;
one of these is replaced. -/
def replacement : List Label :=
  .join (workerEntry 0) ::
    ([1, 2, 3, 4, 5, 6, 7].flatMap fun i =>
      [.join (workerEntry i), .announce 0 (workerEntry i) (some i)]) ++
    [.leave 7, .join (workerEntry 8), .announce 0 (workerEntry 8) (some 8)]

/-- The replacement has a slot. -/
theorem slots_suffice_iff_replacement : Along step HasSlot start replacement := by
  have hruns : (exec step start replacement).isSome = true := by decide +kernel
  obtain ⟨s, hs⟩ := Option.isSome_iff_exists.mp hruns
  exact (slots_suffice_iff hs).mpr (by decide +kernel)

/-- Eight workers come to worker 0 and go: the first four cannot be
connected to, and what is stored then reclaims nothing; nothing is stored
after the others. A ninth one comes. -/
def nineVisitors : List Label :=
  .join (workerEntry 0) ::
    ([1, 2, 3, 4].flatMap fun i =>
      [.join (workerEntry i), .announce 0 (workerEntry i) none, .leave (Int32.ofNat i),
        .store 0 fun _ => -1]) ++
    ([5, 6, 7, 8].flatMap fun i =>
      [.join (workerEntry i), .announce 0 (workerEntry i) (some i), .leave (Int32.ofNat i)]) ++
    [.join (workerEntry 9), .announce 0 (workerEntry 9) (some 9)]

/-- **The ninth visitor is refused**, as the only other worker alive. -/
theorem ninth_visitor_refused :
    ¬∀ ls s, exec step start ls = some s → Along step HasSlot start ls := by
  intro h
  have hruns : (exec step start nineVisitors).isSome = true := by decide +kernel
  obtain ⟨s, hs⟩ := Option.isSome_iff_exists.mp hruns
  have hslots : ¬Along step HasSlot start nineVisitors := by decide +kernel
  exact hslots (h nineVisitors s hs)

/-- **Churn does no harm** while no table holds slots for two departed
workers. -/
theorem hasSlot_of_oneDeparted (hexec : exec step start ls = some s)
    (hone : Along step OneDeparted start ls) : Along step HasSlot start ls := by
  have hboth : Along step (fun s l => OneDeparted s l ∧ HasSlot s l) start ls := by
    apply (along_congr (fun _ _ _ hkeeps _ hstep => keeps_step hkeeps hstep) _ keeps_start
      hexec).mp hone
    intro s l t hkeeps hstep
    have hslot := fun hone : OneDeparted s l =>
      (hasSlot_iff_room hkeeps hstep).mpr (room_of_oneDeparted hkeeps hone)
    exact (and_iff_left_of_imp hslot).symm
  exact hboth.imp_of_exec (fun _ _ _ _ h => h.2) hexec

end Runs

end LoadBalancing.Worker.PeerChurn
