/-
LoadBalancing.LoadBalancer.AddResult — what the result of `AddWorker`
says, with every outcome of its wait and of its `malloc`.

`WorkerList.addWorker` is the call whose wait takes a permit if there is
one. Here the wait ends in any way, and the arguments may be invalid. Two
things in the source go wrong behind the wait: a timeout returns 0, as a
success does, and the two failures in the critical section keep the permit
they were given. `addWorker_faithful_iff` is what is left.

The lists in question are all lists, not only those of a run; that a full
list can give a permit is `removeWorker`'s doing, which releases one for an
id it does not find.

No `sorry`, no `axiom`, no `native_decide`.
-/
import LoadBalancing.Base.Transition
import LoadBalancing.LoadBalancer.WorkerList

namespace LoadBalancing.LoadBalancer.AddResult

open LoadBalancing.Base LoadBalancing.Lib

/-! ## Calls -/

/-- A call of `AddWorker`: its arguments, where `none` is `INVALID_SOCKET`
and NULL, how its wait ends and what its `malloc` answers. -/
structure AddCall where
  workerSocket : Option Socket
  workerId : Int32
  workerAddress : Option CString
  workerPeerPort : Int32
  wait : WaitResult
  allocated : Bool
  deriving DecidableEq

/-- `AddWorker`; `none` when the wait cannot end like that, for want of a
permit. -/
def addWorker (list : WorkerList) (call : AddCall) : Option (Int × WorkerList) :=
  match call.workerSocket, call.workerAddress with
  | none, _ => some (-1, list)
  | some _, none => some (-1, list)
  | some socket, some address =>
    match call.wait with
    | .timeout => some (0, list)
    | .failed => some (-1, list)
    | .object0 =>
      match list.notFull.wait with
      | none => none
      | some notFull =>
        match { list with notFull := notFull }.addSection
            ⟨some socket, call.workerId, address, call.workerPeerPort⟩ call.allocated with
        | none => some (-1, { list with notFull := notFull })
        | some list' => some (0, { list' with notEmpty := list'.notEmpty.release 1 })

/-- The call whose wait takes a permit if there is one is the `AddWorker`
of the list. -/
theorem addWorker_eq (list : WorkerList) (w : NewWorker) (allocated : Bool) :
    addWorker list ⟨w.workerSocket, w.workerId, some w.workerAddress, w.workerPeerPort,
        if list.notFull.wait = none then .timeout else .object0, allocated⟩ =
      some (list.addWorker w allocated) := by
  unfold addWorker WorkerList.addWorker
  obtain ⟨workerSocket, workerId, workerAddress, workerPeerPort⟩ := w
  cases workerSocket with
  | none => rfl
  | some socket =>
    cases hwait : list.notFull.wait with
    | none => simp
    | some notFull =>
      simp only [reduceCtorEq, if_false]
      cases WorkerList.addSection _ _ allocated <;> rfl

/-- A step of a run: a call of `AddWorker` or of `RemoveWorker`. -/
inductive Label where
  | addWorker (call : AddCall)
  | removeWorker (workerId : Int32)
  deriving DecidableEq

/-- The list behind a call. -/
def step (list : WorkerList) : Label → Option WorkerList
  | .addWorker call => (addWorker list call).map Prod.snd
  | .removeWorker workerId => some (list.removeWorker workerId).2

/-! ## The promise -/

/-- A node with what the call was given is behind the last one. -/
def Appended (list : WorkerList) (call : AddCall) (list' : WorkerList) : Prop :=
  ∃ node : WorkerNode, list'.nodes = list.nodes ++ [node] ∧ node.workerId = call.workerId ∧
    node.workerSocket = call.workerSocket ∧ some node.workerAddress = call.workerAddress ∧
    node.workerPeerPort = call.workerPeerPort

/-- **The promise of a result**: 0 when the node was appended and only
then; and when no node was, a failure that left no trace. -/
structure Faithful (list : WorkerList) (call : AddCall) (result : Int) (list' : WorkerList) :
    Prop where
  zero_iff : result = 0 ↔ Appended list call list'
  untouched : list'.nodes = list.nodes → result = -1 ∧ list' = list

/-- What it takes: an argument that is refused, or a wait that fails, or a
permit for a list with room, with memory, for an address that fits. -/
def Sound (list : WorkerList) (call : AddCall) : Prop :=
  call.workerSocket = none ∨ call.workerAddress = none ∨ call.wait = .failed ∨
    call.wait = .object0 ∧ list.count < maxWorkers ∧ call.allocated = true ∧
      ∀ address ∈ call.workerAddress, address.strlen ≤ 255

instance (list : WorkerList) (call : AddCall) : Decidable (Sound list call) := by
  unfold Sound
  cases call.workerAddress <;> simp only [Option.mem_def] <;> infer_instance

section Calls

variable {list list' : WorkerList} {call : AddCall} {result : Int}

/-- Nothing is appended to a list that stays as it is. -/
theorem not_appended (call : AddCall) (h : list'.nodes = list.nodes) :
    ¬ Appended list call list' := by
  rintro ⟨node, hnodes, -⟩
  rw [h] at hnodes
  have hlength := congrArg List.length hnodes
  simp at hlength

/-- A failure without a trace is faithful. -/
theorem faithful_refused (list : WorkerList) (call : AddCall) : Faithful list call (-1) list := by
  refine ⟨?_, fun _ => ⟨rfl, rfl⟩⟩
  exact iff_of_false (by decide) (not_appended call rfl)

/-- A permit that is not given back is a trace. -/
theorem not_faithful_of_permit {notFull : Semaphore maxWorkers}
    (hwait : list.notFull.wait = some notFull) :
    ¬ Faithful list call (-1) { list with notFull := notFull } := by
  intro h
  have hsame := congrArg (fun list => list.notFull.value) (h.untouched rfl).2
  have hvalue := Semaphore.wait_eq_some hwait
  simp only at hsame
  omega

/-- A success is faithful when the node it appended is the one of the call. -/
theorem faithful_zero_iff : Faithful list call 0 list' ↔ Appended list call list' := by
  constructor
  · exact fun h => h.zero_iff.mp rfl
  · intro happended
    refine ⟨iff_of_true rfl happended, ?_⟩
    exact fun hnodes => absurd happended (not_appended call hnodes)

/-- The critical section fails on a full list and without memory. -/
theorem addSection_eq_none {w : NewWorker} {allocated : Bool} :
    list.addSection w allocated = none ↔ maxWorkers ≤ list.count ∨ allocated = false := by
  unfold WorkerList.addSection
  by_cases hfull : maxWorkers ≤ list.count
  · simp [hfull]
  · cases allocated <;> simp [hfull]

/-- The node that is appended has the address up to its first 255 bytes. -/
theorem appended_iff {socket : Socket} {address : CString} {list₁ : WorkerList}
    (hsocket : call.workerSocket = some socket) (haddress : call.workerAddress = some address)
    (hsection : list.addSection ⟨some socket, call.workerId, address, call.workerPeerPort⟩
      call.allocated = some list₁) (hnodes : list'.nodes = list₁.nodes) :
    Appended list call list' ↔ address.strlen ≤ 255 := by
  have hlist₁ : list₁.nodes = list.nodes ++
      [NewWorker.node ⟨some socket, call.workerId, address, call.workerPeerPort⟩] := by
    unfold WorkerList.addSection at hsection
    split at hsection
    · cases hsection
    · split at hsection
      · rw [← Option.some.inj hsection]
      · cases hsection
  have hwhole : address.truncate 255 = address ↔ address.strlen ≤ 255 := by
    rw [CString.ext_iff]
    constructor
    · intro hsame
      have hlength := congrArg List.length hsame
      rw [CString.truncate, List.length_take] at hlength
      rw [CString.strlen]
      omega
    · exact List.take_of_length_le
  rw [← hwhole]
  constructor
  · rintro ⟨node, happended, -, -, hsame, -⟩
    rw [hnodes, hlist₁] at happended
    have hnode := List.singleton_inj.mp (List.append_cancel_left happended)
    rw [← hnode, haddress] at hsame
    exact Option.some.inj hsame
  · intro hsame
    refine ⟨_, hnodes.trans hlist₁, rfl, hsocket.symm, ?_, rfl⟩
    rw [haddress]
    exact congrArg some hsame

/-- **When the result of `AddWorker` is faithful**, of any list, for all
arguments and with any outcome of the wait and of `malloc`. -/
theorem addWorker_faithful_iff (h : addWorker list call = some (result, list')) :
    Faithful list call result list' ↔ Sound list call := by
  unfold addWorker at h
  cases hsocket : call.workerSocket with
  | none =>
    rw [hsocket] at h
    cases h
    exact iff_of_true (faithful_refused list call) (Or.inl hsocket)
  | some socket =>
    cases haddress : call.workerAddress with
    | none =>
      rw [hsocket, haddress] at h
      cases h
      exact iff_of_true (faithful_refused list call) (Or.inr (Or.inl haddress))
    | some address =>
      rw [hsocket, haddress] at h
      cases hwait : call.wait with
      | timeout =>
        rw [hwait] at h
        cases h
        refine iff_of_false ?_ ?_
        · intro hfaithful
          exact absurd (hfaithful.untouched rfl).1 (by decide)
        · simp [Sound, hsocket, haddress, hwait]
      | failed =>
        rw [hwait] at h
        cases h
        exact iff_of_true (faithful_refused list call) (Or.inr (Or.inr (Or.inl hwait)))
      | object0 =>
        have hsound : Sound list call ↔ list.count < maxWorkers ∧ call.allocated = true ∧
            address.strlen ≤ 255 := by
          simp [Sound, hsocket, haddress, hwait]
        rw [hwait] at h
        cases hpermit : list.notFull.wait with
        | none =>
          rw [hpermit] at h
          cases h
        | some notFull =>
          rw [hpermit] at h
          cases hsection : { list with notFull := notFull }.addSection
              ⟨some socket, call.workerId, address, call.workerPeerPort⟩ call.allocated with
          | none =>
            simp only [hsection] at h
            cases h
            refine iff_of_false (not_faithful_of_permit hpermit) ?_
            rw [hsound]
            rintro ⟨hroom, hmemory, -⟩
            rcases addSection_eq_none.mp hsection with hfull | hnone
            · exact absurd hroom (Nat.not_lt.mpr hfull)
            · rw [hmemory] at hnone
              cases hnone
          | some list₁ =>
            simp only [hsection] at h
            cases h
            have hboth := (not_congr addSection_eq_none).mp (by rw [hsection]; exact nofun)
            obtain ⟨hroom, hmemory⟩ := not_or.mp hboth
            have happended : Appended { list with notFull := notFull } call
                { list₁ with notEmpty := list₁.notEmpty.release 1 } ↔ address.strlen ≤ 255 :=
              appended_iff hsocket haddress hsection rfl
            rw [faithful_zero_iff, hsound]
            refine happended.trans ?_
            have hallocated := Bool.eq_true_of_not_eq_false hmemory
            exact ⟨fun hfits => ⟨Nat.lt_of_not_le hroom, hallocated, hfits⟩, fun hall => hall.2.2⟩

end Calls

/-- Registering a worker that a wait lets in. -/
def registration (workerId : Int32) (wait : WaitResult) : AddCall :=
  ⟨some workerId.toNatClampNeg, workerId, some (.ofString "10.0.0.1"), 7000, wait, true⟩

/-- A registration in the empty list. -/
theorem addWorker_faithful_iff_first :
    ∃ result list', addWorker initializeWorkerList (registration 1 .object0) =
        some (result, list') ∧ result = 0 ∧
      Faithful initializeWorkerList (registration 1 .object0) result list' := by
  have hcall : (addWorker initializeWorkerList (registration 1 .object0)).map Prod.fst
      = some 0 := by decide
  obtain ⟨⟨result, list'⟩, h, hresult⟩ := Option.map_eq_some_iff.mp hcall
  exact ⟨result, list', h, hresult, (addWorker_faithful_iff h).mpr (by decide)⟩

/-- **`AddWorker` returns 0 for a ninth worker**: the list is full, the wait
times out and nothing is appended. -/
theorem addWorker_timeout :
    ¬ ∀ (labels : List Label) (list list' : WorkerList) (call : AddCall) (result : Int),
      exec step initializeWorkerList labels = some list →
      addWorker list call = some (result, list') → Faithful list call result list' := by
  intro hall
  let eight := [1, 2, 3, 4, 5, 6, 7, 8].map fun id => Label.addWorker (registration id .object0)
  have hruns : (exec step initializeWorkerList eight).isSome = true := by decide +kernel
  obtain ⟨list, hlist⟩ := Option.isSome_iff_exists.mp hruns
  have hfaithful := hall eight list list (registration 9 .timeout) 0 hlist rfl
  exact absurd (hfaithful.untouched rfl).1 (by decide)

end LoadBalancing.LoadBalancer.AddResult
