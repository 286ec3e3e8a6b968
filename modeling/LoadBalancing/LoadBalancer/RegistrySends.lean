/-
LoadBalancing.LoadBalancer.RegistrySends — `SendWorkerRegistryToSingleWorker`
where sends may fail.

The code of a failed send comes up through three calls: `ProtocolSend`
tells a lost connection (-2, -3) from other failures (-1), `SendWorkerEntry`
hands that on, and `SendWorkerRegistryEntries` answers -1 to every failure.
So the branch of the caller that closes the socket and removes the worker is
never taken (`sendWorkerRegistryEntries_code`), and the call leaves the list
as it is, whatever happens to its sends.

The sends of one call go over one socket, so they read its answers one
behind the other.

No `sorry`, no `axiom`, no `native_decide`.
-/
import LoadBalancing.Lib.SendBuffer
import LoadBalancing.Lib.StreamReassembly
import LoadBalancing.LoadBalancer.AddResult

namespace LoadBalancing.LoadBalancer.RegistrySends

open LoadBalancing.Base LoadBalancing.Lib

/-! ## Sends -/

/-- `SendWorkerEntry` for a node of the registry. -/
def sendWorkerEntry (answers : Nat → SocketAnswer) (node : WorkerNode) (s : SendSide) :
    Int × SendSide :=
  match node.entry false with
  | none => (-1, s)
  | some message => protocolSend answers message s

/-- The loop of `SendWorkerRegistryEntries`, with its `sentCount`. -/
def sendEntries (answers : Nat → SocketAnswer) :
    List WorkerNode → Int → SendSide → Int × SendSide
  | [], sentCount, s => (sentCount, s)
  | node :: rest, sentCount, s =>
    let (result, s') := sendWorkerEntry answers node s
    if result ≤ 0 then (-1, s') else sendEntries answers rest (sentCount + 1) s'

/-- `SendWorkerRegistryEntries`. -/
def sendWorkerRegistryEntries (list : WorkerList) (socket : Option Socket)
    (answers : Nat → SocketAnswer) : Int × SendSide :=
  match socket with
  | none => (-1, ⟨0, []⟩)
  | some _ => sendEntries answers list.nodes 0 ⟨0, []⟩

/-- The loop of `SendWorkerRegistryToSingleWorker` that looks for its target:
the last node with the id among the first `maxWorkers`, and its index. -/
def findTarget (list : WorkerList) (targetWorkerId : Int32) : Option (WorkerNode × Nat) :=
  ((list.nodes.take maxWorkers).zipIdx.filter fun slot =>
    slot.1.workerId == targetWorkerId).getLast?

/-- `SendWorkerRegistryToSingleWorker`: its result, the list behind it and
the sockets it closes. -/
def sendWorkerRegistryToSingleWorker (list : WorkerList) (targetWorkerId : Int32)
    (answers : Nat → SocketAnswer) : Int × WorkerList × List Socket :=
  if list.count = 0 then (0, list, [])
  else match findTarget list targetWorkerId with
    | none => (-1, list, [])
    | some (target, i) =>
      match target.isConnected, target.workerSocket with
      | true, some socket =>
        let (result, _) := sendWorkerRegistryEntries list (some socket) answers
        if 0 ≤ result then (1, list, [])
        else if result = -2 ∨ result = -3 then
          let closed := { list with
            nodes := list.nodes.modify i fun node =>
              { node with isConnected := false, workerSocket := none } }
          (0, (closed.removeWorker targetWorkerId).2, [socket])
        else (0, list, [])
      | _, _ => (0, list, [])

/-! ## Every send succeeding -/

/-- Over a healthy socket the loop sends every entry and counts them. -/
theorem sendEntries_healthy {answers : Nat → SocketAnswer} (hhealthy : Healthy answers)
    (nodes : List WorkerNode) (sentCount : Int) (s : SendSide) :
    ∃ calls, sendEntries answers nodes sentCount s =
      (sentCount + nodes.length,
        ⟨calls, s.wire ++ (nodes.filterMap fun node =>
          (node.entry false).map Message.frame).flatten⟩) := by
  induction nodes generalizing sentCount s with
  | nil => exact ⟨s.calls, by simp [sendEntries]⟩
  | cons node nodes ih =>
    obtain ⟨message, hmessage⟩ : ∃ message, node.entry false = some message := ⟨_, rfl⟩
    have hsize : message.payload.length ≤ maxMessageSize :=
      SendBuffer.length_encode (f := .workerEntry ..) hmessage
    obtain ⟨calls, hsent⟩ := protocolSend_healthy hhealthy hsize s
    obtain ⟨calls', hrest⟩ := ih (sentCount + 1) ⟨calls, s.wire ++ message.frame⟩
    have hpos : ¬ ((headerSize + message.payload.length : Nat) : Int) ≤ 0 := by
      rw [headerSize]
      omega
    refine ⟨calls', ?_⟩
    unfold sendEntries sendWorkerEntry
    simp only [hmessage, hsent, if_neg hpos, hrest, List.filterMap_cons, Option.map_some,
      List.flatten_cons, List.length_cons, List.append_assoc]
    congr 1
    push_cast
    omega

/-- The target is the one that the loop of the list finds. -/
theorem map_findTarget (list : WorkerList) (targetWorkerId : Int32) :
    (findTarget list targetWorkerId).map Prod.fst =
      ((list.nodes.take maxWorkers).filter fun node =>
        node.workerId == targetWorkerId).getLast? := by
  have hslots : list.nodes.take maxWorkers =
      (list.nodes.take maxWorkers).zipIdx.map Prod.fst := (List.zipIdx_map_fst 0 _).symm
  conv_rhs => rw [hslots]
  rw [findTarget, List.filter_map, List.getLast?_map]
  rfl

/-- **Over a healthy socket** the call is that of the list. -/
theorem sendWorkerRegistryToSingleWorker_healthy {answers : Nat → SocketAnswer}
    (hhealthy : Healthy answers) (list : WorkerList) (targetWorkerId : Int32) :
    (sendWorkerRegistryToSingleWorker list targetWorkerId answers).1 =
      (list.sendWorkerRegistryToSingleWorker targetWorkerId).1 := by
  have htarget := map_findTarget list targetWorkerId
  unfold sendWorkerRegistryToSingleWorker WorkerList.sendWorkerRegistryToSingleWorker
  simp only
  rw [← htarget]
  by_cases hempty : list.count = 0
  · rw [if_pos hempty, if_pos hempty]
  · rw [if_neg hempty, if_neg hempty]
    cases findTarget list targetWorkerId with
    | none => rfl
    | some slot =>
      obtain ⟨target, i⟩ := slot
      obtain ⟨calls, hsent⟩ := sendEntries_healthy hhealthy list.nodes 0 ⟨0, []⟩
      have hcount : (0 : Int) ≤ 0 + list.nodes.length := by omega
      simp only [Option.map_some]
      cases hup : target.isConnected with
      | false => rfl
      | true =>
        cases hsocket : target.workerSocket with
        | none => rfl
        | some socket => simp only [sendWorkerRegistryEntries, hsent, if_pos hcount]

/-! ## The code that does not come up -/

/-- **`SendWorkerRegistryEntries` knows no lost connection**: it counts its
sends or returns -1. -/
theorem sendEntries_code (answers : Nat → SocketAnswer) (nodes : List WorkerNode) {sentCount : Int}
    (hcount : 0 ≤ sentCount) (s : SendSide) :
    0 ≤ (sendEntries answers nodes sentCount s).1 ∨
      (sendEntries answers nodes sentCount s).1 = -1 := by
  induction nodes generalizing sentCount s with
  | nil => exact Or.inl hcount
  | cons node nodes ih =>
    unfold sendEntries
    simp only
    split
    · exact Or.inr rfl
    · exact ih (by omega) _

theorem sendWorkerRegistryEntries_code (list : WorkerList) (socket : Option Socket)
    (answers : Nat → SocketAnswer) :
    0 ≤ (sendWorkerRegistryEntries list socket answers).1 ∨
      (sendWorkerRegistryEntries list socket answers).1 = -1 := by
  cases socket with
  | none => exact Or.inr rfl
  | some socket => exact sendEntries_code answers list.nodes (Int.le_refl 0) ⟨0, []⟩

/-- **The call changes nothing**: no worker is removed and no socket
closed. -/
theorem sendWorkerRegistryToSingleWorker_untouched (list : WorkerList) (targetWorkerId : Int32)
    (answers : Nat → SocketAnswer) :
    (sendWorkerRegistryToSingleWorker list targetWorkerId answers).2 = (list, []) := by
  unfold sendWorkerRegistryToSingleWorker
  split
  · rfl
  · split
    · rfl
    · split
      · rename_i target i hfound socket hup hsocket
        rcases sendWorkerRegistryEntries_code list (some socket) answers with hsent | hfailed
        · simp only [if_pos hsent]
        · simp [hfailed]
      · rfl

/-! ## The promise -/

/-- Sends of the entries, of which one fails with a lost connection and all
before it succeed. -/
def LostAt (answers : Nat → SocketAnswer) : List WorkerNode → SendSide → Prop
  | [], _ => False
  | node :: rest, s =>
    (sendWorkerEntry answers node s).1 = -2 ∨ (sendWorkerEntry answers node s).1 = -3 ∨
      0 < (sendWorkerEntry answers node s).1 ∧
        LostAt answers rest (sendWorkerEntry answers node s).2

/-- **The promise for a lost connection**: the socket of the target is closed
and the target out of the list. -/
structure Handled (target : WorkerNode) (list' : WorkerList) (closed : List Socket) : Prop where
  closed : ∀ socket ∈ target.workerSocket, socket ∈ closed
  removed : ∀ node ∈ list'.nodes, node.workerId ≠ target.workerId

/-- The semaphores of a list match its count. -/
def Matched (list : WorkerList) : Prop :=
  list.notEmpty.value = list.count ∧ list.notFull.value = maxWorkers - list.count

instance (list : WorkerList) : Decidable (Matched list) := inferInstanceAs (Decidable (_ ∧ _))

/-- **A lost connection is never handled**: whichever of the sends to a target
in the list is the one that fails, and also if none does, the target stays
in the list. -/
theorem not_handled {list : WorkerList} {target : WorkerNode} (htarget : target ∈ list.nodes)
    (answers : Nat → SocketAnswer) :
    ¬ Handled target
      (sendWorkerRegistryToSingleWorker list target.workerId answers).2.1
      (sendWorkerRegistryToSingleWorker list target.workerId answers).2.2 := by
  rw [sendWorkerRegistryToSingleWorker_untouched]
  intro h
  exact h.removed target htarget rfl

/-- The connection is reset at the first send. -/
def reset (_ : Nat) : SocketAnswer := .error .connReset

theorem lostAt_reset (node : WorkerNode) (rest : List WorkerNode) :
    LostAt reset (node :: rest) ⟨0, []⟩ := by
  obtain ⟨message, hmessage⟩ : ∃ message, node.entry false = some message := ⟨_, rfl⟩
  have hsize : message.payload.length ≤ maxMessageSize :=
    SendBuffer.length_encode (f := .workerEntry ..) hmessage
  have hreset : protocolSend reset message ⟨0, []⟩ = (errorResult .connReset, ⟨1, []⟩) :=
    protocolSend_error hsize (by decide) rfl
  unfold LostAt sendWorkerEntry
  rw [hmessage]
  simp only [hreset]
  exact Or.inl rfl

/-- The first worker registers. -/
def firstWorker : List AddResult.Label := [.addWorker (AddResult.registration 1 .object0)]

/-- The list behind that, and the node in it. -/
theorem exists_firstWorker :
    ∃ list target, exec AddResult.step initializeWorkerList firstWorker = some list ∧
      Matched list ∧ list.nodes = [target] := by
  have hrun : (exec AddResult.step initializeWorkerList firstWorker).map (fun list =>
      (list.nodes.length, decide (Matched list))) = some (1, true) := by decide
  obtain ⟨list, hlist, hvalues⟩ := Option.map_eq_some_iff.mp hrun
  obtain ⟨hlength, hmatched⟩ := Prod.mk.inj hvalues
  obtain ⟨target, htarget⟩ := List.length_eq_one_iff.mp hlength
  exact ⟨list, target, hlist, of_decide_eq_true hmatched, htarget⟩

/-- The connection to the only worker is reset. -/
theorem not_handled_firstWorker :
    ∃ list target, exec AddResult.step initializeWorkerList firstWorker = some list ∧
      Matched list ∧ LostAt reset list.nodes ⟨0, []⟩ ∧
      ¬ Handled target
        (sendWorkerRegistryToSingleWorker list target.workerId reset).2.1
        (sendWorkerRegistryToSingleWorker list target.workerId reset).2.2 := by
  obtain ⟨list, target, hlist, hmatched, hnodes⟩ := exists_firstWorker
  have htarget : target ∈ list.nodes := by rw [hnodes]; exact List.mem_singleton_self _
  exact ⟨list, target, hlist, hmatched, hnodes ▸ lostAt_reset target [],
    not_handled htarget reset⟩

/-- **A lost connection is not handled** in the list of one worker, either. -/
theorem lost_connection_stays :
    ¬ ∀ (labels : List AddResult.Label) (list : WorkerList) (target : WorkerNode)
        (answers : Nat → SocketAnswer),
      exec AddResult.step initializeWorkerList labels = some list → Matched list →
      target ∈ list.nodes → LostAt answers list.nodes ⟨0, []⟩ →
      Handled target
        (sendWorkerRegistryToSingleWorker list target.workerId answers).2.1
        (sendWorkerRegistryToSingleWorker list target.workerId answers).2.2 := by
  intro hall
  obtain ⟨list, target, hlist, hmatched, hnodes⟩ := exists_firstWorker
  have htarget : target ∈ list.nodes := by rw [hnodes]; exact List.mem_singleton_self _
  have hhandled := hall firstWorker list target reset hlist hmatched htarget
    (hnodes ▸ lostAt_reset target [])
  have hsame := sendWorkerRegistryToSingleWorker_untouched list target.workerId reset
  rw [hsame] at hhandled
  exact hhandled.removed target htarget rfl

end LoadBalancing.LoadBalancer.RegistrySends
