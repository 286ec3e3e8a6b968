/-
LoadBalancing.LoadBalancer.WorkerListSemaphores — the two semaphores of
the worker list under concurrent `AddWorker` and `RemoveWorker` calls.

A call is a thread that waits on one semaphore, runs its critical section
and releases the other semaphore; other threads move in between. The
invariant `Accounts` counts permits against `count` and the calls in
between, up to the number of removals that have missed their id: such a
removal keeps the `notEmpty` permit it took and releases a `notFull`
permit nobody gave up.

`balanced_iff_removes_find`: between calls the semaphores agree with the
count exactly when no removal has missed.

No `sorry`, no `axiom`, no `native_decide`.
-/
import LoadBalancing.Base.Threads
import LoadBalancing.Base.Transition
import LoadBalancing.LoadBalancer.WorkerList

namespace LoadBalancing.LoadBalancer.WorkerListSemaphores

open LoadBalancing.Base LoadBalancing.Lib

/-! ## Calls -/

/-- Where a thread stands: in no call, behind the wait of a call, or
behind the critical section and in front of the release. -/
inductive Call where
  | idle
  | addWaited (w : NewWorker)
  | addLinked
  | removeWaited (workerId : Int32)
  | removeLeft
  deriving DecidableEq

/-- The list and the threads that use it. -/
structure State where
  list : WorkerList
  calls : List Call

/-- One step of thread `i`: a call up to its wait, its critical section,
its release. The critical section of `AddWorker` is told whether `malloc`
succeeds. -/
inductive Label where
  | addWorker (i : Nat) (w : NewWorker)
  | addSection (i : Nat) (allocated : Bool)
  | addRelease (i : Nat)
  | removeWorker (i : Nat) (workerId : Int32)
  | removeSection (i : Nat)
  | removeRelease (i : Nat)
  deriving DecidableEq

/-- One step. A call that fails its argument check or times out leaves
the thread where it was, as does a failing critical section of
`AddWorker`, which returns without a release. -/
def step (s : State) : Label → Option State
  | .addWorker i w =>
    match s.calls[i]? with
    | some .idle =>
      if w.workerSocket = none then some s
      else match s.list.notFull.wait with
        | none => some s
        | some notFull => some ⟨{ s.list with notFull := notFull }, s.calls.set i (.addWaited w)⟩
    | _ => none
  | .addSection i allocated =>
    match s.calls[i]? with
    | some (.addWaited w) =>
      match s.list.addSection w allocated with
      | none => some ⟨s.list, s.calls.set i .idle⟩
      | some list => some ⟨list, s.calls.set i .addLinked⟩
    | _ => none
  | .addRelease i =>
    match s.calls[i]? with
    | some .addLinked =>
      some ⟨{ s.list with notEmpty := s.list.notEmpty.release 1 }, s.calls.set i .idle⟩
    | _ => none
  | .removeWorker i workerId =>
    match s.calls[i]? with
    | some .idle =>
      if workerId ≤ 0 then some s
      else match s.list.notEmpty.wait with
        | none => some s
        | some notEmpty =>
          some ⟨{ s.list with notEmpty := notEmpty }, s.calls.set i (.removeWaited workerId)⟩
    | _ => none
  | .removeSection i =>
    match s.calls[i]? with
    | some (.removeWaited workerId) =>
      some ⟨(s.list.removeSection workerId).getD s.list, s.calls.set i .removeLeft⟩
    | _ => none
  | .removeRelease i =>
    match s.calls[i]? with
    | some .removeLeft =>
      some ⟨{ s.list with notFull := s.list.notFull.release 1 }, s.calls.set i .idle⟩
    | _ => none

/-- The initialised list and `threads` threads in no call. -/
def init (threads : Nat) : State := ⟨initializeWorkerList, List.replicate threads .idle⟩

/-- No call is in progress. -/
def State.Quiet (s : State) : Prop := ∀ call ∈ s.calls, call = .idle

/-- The semaphores agree with the count. -/
def State.Balanced (s : State) : Prop :=
  s.list.notEmpty.value = s.list.count ∧ s.list.notFull.value = maxWorkers - s.list.count

/-- `malloc` succeeds in this step. -/
def Label.Allocates : Label → Prop
  | .addSection _ allocated => allocated = true
  | _ => True

instance (l : Label) : Decidable l.Allocates := by
  cases l <;> simp only [Label.Allocates] <;> infer_instance

/-- If this step is the critical section of a removal, a node has the
id. -/
def RemoveFinds (s : State) : Label → Prop
  | .removeSection i =>
    match s.calls[i]? with
    | some (.removeWaited workerId) => ∃ node ∈ s.list.nodes, node.workerId = workerId
    | _ => True
  | _ => True

instance (s : State) (l : Label) : Decidable (RemoveFinds s l) := by
  cases l <;> simp only [RemoveFinds] <;> try infer_instance
  split <;> infer_instance

/-! ## What a step does -/

/-- The steps, with a constructor for each way through the calls. -/
inductive Move (s : State) : Label → State → Prop
  | addStays (i : Nat) (w : NewWorker) : Move s (.addWorker i w) s
  | addWaits {i : Nat} (w : NewWorker) {notFull : Semaphore maxWorkers}
      (hcall : s.calls[i]? = some .idle) (hwait : s.list.notFull.wait = some notFull) :
      Move s (.addWorker i w) ⟨{ s.list with notFull := notFull }, s.calls.set i (.addWaited w)⟩
  | addFails {i : Nat} {w : NewWorker} (allocated : Bool)
      (hcall : s.calls[i]? = some (.addWaited w))
      (hsection : s.list.addSection w allocated = none) :
      Move s (.addSection i allocated) ⟨s.list, s.calls.set i .idle⟩
  | addLinks {i : Nat} {w : NewWorker} {allocated : Bool} {list : WorkerList}
      (hcall : s.calls[i]? = some (.addWaited w))
      (hsection : s.list.addSection w allocated = some list) :
      Move s (.addSection i allocated) ⟨list, s.calls.set i .addLinked⟩
  | addReturns {i : Nat} (hcall : s.calls[i]? = some .addLinked) :
      Move s (.addRelease i)
        ⟨{ s.list with notEmpty := s.list.notEmpty.release 1 }, s.calls.set i .idle⟩
  | removeStays (i : Nat) (workerId : Int32) : Move s (.removeWorker i workerId) s
  | removeWaits {i : Nat} (workerId : Int32) {notEmpty : Semaphore maxWorkers}
      (hcall : s.calls[i]? = some .idle) (hwait : s.list.notEmpty.wait = some notEmpty) :
      Move s (.removeWorker i workerId)
        ⟨{ s.list with notEmpty := notEmpty }, s.calls.set i (.removeWaited workerId)⟩
  | removeLeaves {i : Nat} {workerId : Int32}
      (hcall : s.calls[i]? = some (.removeWaited workerId)) :
      Move s (.removeSection i)
        ⟨(s.list.removeSection workerId).getD s.list, s.calls.set i .removeLeft⟩
  | removeReturns {i : Nat} (hcall : s.calls[i]? = some .removeLeft) :
      Move s (.removeRelease i)
        ⟨{ s.list with notFull := s.list.notFull.release 1 }, s.calls.set i .idle⟩

/-- **Every step is one of the moves.** -/
theorem step_move {s t : State} {l : Label} (h : step s l = some t) : Move s l t := by
  cases l with
  | addWorker i w =>
    simp only [step] at h
    split at h
    · rename_i hcall
      split at h
      · cases h
        exact .addStays i w
      · split at h
        · cases h
          exact .addStays i w
        · rename_i notFull hwait
          cases h
          exact .addWaits w hcall hwait
    · cases h
  | addSection i allocated =>
    simp only [step] at h
    split at h
    · rename_i w hcall
      split at h
      · rename_i hsection
        cases h
        exact .addFails allocated hcall hsection
      · rename_i list hsection
        cases h
        exact .addLinks hcall hsection
    · cases h
  | addRelease i =>
    simp only [step] at h
    split at h
    · rename_i hcall
      cases h
      exact .addReturns hcall
    · cases h
  | removeWorker i workerId =>
    simp only [step] at h
    split at h
    · rename_i hcall
      split at h
      · cases h
        exact .removeStays i workerId
      · split at h
        · cases h
          exact .removeStays i workerId
        · rename_i notEmpty hwait
          cases h
          exact .removeWaits workerId hcall hwait
    · cases h
  | removeSection i =>
    simp only [step] at h
    split at h
    · rename_i workerId hcall
      cases h
      exact .removeLeaves hcall
    · cases h
  | removeRelease i =>
    simp only [step] at h
    split at h
    · rename_i hcall
      cases h
      exact .removeReturns hcall
    · cases h

/-! ## The invariant -/

/-- Calls between the wait and the critical section of `AddWorker`. -/
def Call.addWaiting : Call → Nat
  | .addWaited _ => 1
  | _ => 0

/-- Calls between the critical section and the release of `AddWorker`. -/
def Call.addPending : Call → Nat
  | .addLinked => 1
  | _ => 0

/-- Calls between the wait and the critical section of `RemoveWorker`. -/
def Call.removeWaiting : Call → Nat
  | .removeWaited _ => 1
  | _ => 0

/-- Calls between the critical section and the release of
`RemoveWorker`. -/
def Call.removePending : Call → Nat
  | .removeLeft => 1
  | _ => 0

/-- Permits against the count, after `missed` removals that found
nothing. -/
structure Accounts (missed : Nat) (s : State) : Prop where
  count_eq : s.list.count = s.list.nodes.length
  count_le : s.list.count ≤ maxWorkers
  notEmpty_eq : s.list.notEmpty.value + total Call.addPending s.calls
    + total Call.removeWaiting s.calls + missed = s.list.count
  notFull_eq : missed = 0 → s.list.notFull.value + total Call.addWaiting s.calls
    + total Call.removePending s.calls + s.list.count = maxWorkers

theorem total_replicate_idle (weight : Call → Nat) (h : weight .idle = 0) (n : Nat) :
    total weight (List.replicate n .idle) = 0 := by
  rw [total_eq_zero]
  intro call hcall
  rw [List.eq_of_mem_replicate hcall, h]

theorem accounts_init (threads : Nat) : Accounts 0 (init threads) := by
  have h := fun weight hw => total_replicate_idle weight hw threads
  refine ⟨rfl, Nat.zero_le _, ?_, fun _ => ?_⟩
  · simp [init, initializeWorkerList, h Call.addPending rfl, h Call.removeWaiting rfl]
  · simp [init, initializeWorkerList, h Call.addWaiting rfl, h Call.removePending rfl]

/-- How many more removals have missed after a step. -/
def missedBy (s : State) (l : Label) : Nat := if RemoveFinds s l then 0 else 1

section Steps

variable {missed : Nat} {s t : State} {i : Nat}

/-- A thread moves: each of the four totals trades its old weight for its
new one. -/
theorem totals_set {a : Call} (h : s.calls[i]? = some a) (b : Call) :
    (total Call.addWaiting (s.calls.set i b) + a.addWaiting
        = total Call.addWaiting s.calls + b.addWaiting) ∧
      (total Call.addPending (s.calls.set i b) + a.addPending
        = total Call.addPending s.calls + b.addPending) ∧
      (total Call.removeWaiting (s.calls.set i b) + a.removeWaiting
        = total Call.removeWaiting s.calls + b.removeWaiting) ∧
      (total Call.removePending (s.calls.set i b) + a.removePending
        = total Call.removePending s.calls + b.removePending) :=
  ⟨total_set _ h b, total_set _ h b, total_set _ h b, total_set _ h b⟩

/-- A thread's move keeps the accounts when what it and the list hold
together adds up. -/
theorem Accounts.moved {missed' : Nat} {a : Call} (hI : Accounts missed s)
    (hcall : s.calls[i]? = some a) (b : Call) {list : WorkerList}
    (hcount : list.count = list.nodes.length) (hle : list.count ≤ maxWorkers)
    (hempty : list.notEmpty.value + b.addPending + b.removeWaiting + missed' + s.list.count
      = s.list.notEmpty.value + a.addPending + a.removeWaiting + missed + list.count)
    (hfull : missed' = 0 → missed = 0 ∧
      list.notFull.value + b.addWaiting + b.removePending + list.count
        = s.list.notFull.value + a.addWaiting + a.removePending + s.list.count) :
    Accounts missed' ⟨list, s.calls.set i b⟩ := by
  obtain ⟨h₁, h₂, h₃, h₄⟩ := totals_set hcall b
  have hempty' := hI.notEmpty_eq
  refine ⟨hcount, hle, ?_, ?_⟩
  · simp only
    omega
  · intro h0
    obtain ⟨h0', hvalue⟩ := hfull h0
    have hfull' := hI.notFull_eq h0'
    simp only
    omega

/-- The wait of `AddWorker` moves one `notFull` permit to the caller. -/
theorem Accounts.addWaits {notFull : Semaphore maxWorkers} (hI : Accounts missed s)
    (hcall : s.calls[i]? = some .idle) (hwait : s.list.notFull.wait = some notFull)
    (w : NewWorker) :
    Accounts missed ⟨{ s.list with notFull := notFull }, s.calls.set i (.addWaited w)⟩ := by
  have hvalue := Semaphore.wait_eq_some hwait
  refine hI.moved hcall _ hI.count_eq hI.count_le rfl ?_
  intro h0
  refine ⟨h0, ?_⟩
  simp only [Call.addWaiting, Call.removePending]
  omega

/-- With memory, the critical section of `AddWorker` fails on a full list
only. -/
theorem addSection_eq (list : WorkerList) (w : NewWorker) :
    list.addSection w true = if maxWorkers ≤ list.count then none else
      some { list with
        nodes := list.nodes ++ [w.node]
        current := if list.nodes = [] then 0 else list.current
        count := list.count + 1 } := by
  unfold WorkerList.addSection
  split <;> rfl

/-- The critical section of `AddWorker` moves the permit into the count. -/
theorem Accounts.addLinks {w : NewWorker} {list : WorkerList} (hI : Accounts missed s)
    (hcall : s.calls[i]? = some (.addWaited w))
    (hsection : s.list.addSection w true = some list) :
    Accounts missed ⟨list, s.calls.set i .addLinked⟩ := by
  rw [addSection_eq] at hsection
  split at hsection
  · cases hsection
  · rename_i hroom
    cases hsection
    have hcount := hI.count_eq
    refine hI.moved hcall _ ?_ ?_ ?_ ?_
    · simp [hcount]
    · simp only
      omega
    · simp only [Call.addPending, Call.removeWaiting]
      omega
    · intro h0
      refine ⟨h0, ?_⟩
      simp only [Call.addWaiting, Call.removePending]
      omega

/-- Its failing branch takes the permit along, on a full list, which
there is only after a miss. -/
theorem Accounts.addFails {w : NewWorker} (hI : Accounts missed s)
    (hcall : s.calls[i]? = some (.addWaited w)) (hlist : maxWorkers ≤ s.list.count) :
    Accounts missed ⟨s.list, s.calls.set i .idle⟩ := by
  refine hI.moved hcall _ hI.count_eq hI.count_le rfl ?_
  intro h0
  have hfull := hI.notFull_eq h0
  obtain ⟨h₁, -, -, -⟩ := totals_set hcall .idle
  simp only [Call.addWaiting] at h₁
  omega

/-- The release of `AddWorker` stays within the maximum. -/
theorem Accounts.addReturns (hI : Accounts missed s) (hcall : s.calls[i]? = some .addLinked) :
    Accounts missed
      ⟨{ s.list with notEmpty := s.list.notEmpty.release 1 }, s.calls.set i .idle⟩ := by
  have hempty := hI.notEmpty_eq
  have hle := hI.count_le
  obtain ⟨-, h₂, -, -⟩ := totals_set hcall .idle
  simp only [Call.addPending] at h₂
  have hvalue := Semaphore.release_value (s := s.list.notEmpty) (n := 1) (by omega)
  refine hI.moved hcall _ hI.count_eq hle ?_ ?_
  · simp only [hvalue, Call.addPending, Call.removeWaiting]
  · intro h0
    exact ⟨h0, rfl⟩

/-- The wait of `RemoveWorker` moves one `notEmpty` permit to the
caller. -/
theorem Accounts.removeWaits {notEmpty : Semaphore maxWorkers} (hI : Accounts missed s)
    (hcall : s.calls[i]? = some .idle) (hwait : s.list.notEmpty.wait = some notEmpty)
    (workerId : Int32) :
    Accounts missed
      ⟨{ s.list with notEmpty := notEmpty }, s.calls.set i (.removeWaited workerId)⟩ := by
  have hvalue := Semaphore.wait_eq_some hwait
  refine hI.moved hcall _ hI.count_eq hI.count_le ?_ ?_
  · simp only [Call.addPending, Call.removeWaiting]
    omega
  · intro h0
    exact ⟨h0, rfl⟩

/-- The critical section of `RemoveWorker`: a removal that finds its id
takes the permit out of the count; one that misses keeps it. -/
theorem Accounts.removeLeaves {workerId : Int32} (hI : Accounts missed s)
    (hcall : s.calls[i]? = some (.removeWaited workerId)) :
    Accounts (missed + missedBy s (.removeSection i))
      ⟨(s.list.removeSection workerId).getD s.list, s.calls.set i .removeLeft⟩ := by
  cases hfind : s.list.indexOf workerId with
  | none =>
    have hmiss : missedBy s (.removeSection i) = 1 := by
      have hnone : s.list.removeSection workerId = none := by
        simp [WorkerList.removeSection, hfind]
      have hall := WorkerList.removeSection_eq_none.mp hnone
      rw [missedBy, if_neg]
      intro hfinds
      simp only [RemoveFinds, hcall] at hfinds
      obtain ⟨node, hmem, hid⟩ := hfinds
      exact hall node hmem hid
    simp only [WorkerList.removeSection, hfind, Option.map_none, Option.getD_none]
    rw [hmiss]
    refine hI.moved hcall _ hI.count_eq hI.count_le ?_ ?_
    · simp only [Call.addPending, Call.removeWaiting]
      omega
    · intro h0
      omega
  | some j =>
    have hlt := WorkerList.indexOf_lt hfind
    have hmiss : missedBy s (.removeSection i) = 0 := by
      rw [missedBy, if_pos]
      simp only [RemoveFinds, hcall]
      by_contra hno
      have hall : ∀ node ∈ s.list.nodes, node.workerId ≠ workerId :=
        fun node hmem hid => hno ⟨node, hmem, hid⟩
      have hnone := WorkerList.removeSection_eq_none.mpr hall
      simp [WorkerList.removeSection, hfind] at hnone
    have hcount := hI.count_eq
    have hle := hI.count_le
    have hlen := WorkerList.length_unlink hlt
    have hunlink : (s.list.unlink j).count = s.list.count - 1 := rfl
    have hsame : (s.list.unlink j).notEmpty = s.list.notEmpty ∧
        (s.list.unlink j).notFull = s.list.notFull := ⟨rfl, rfl⟩
    simp only [WorkerList.removeSection, hfind, Option.map_some, Option.getD_some]
    rw [hmiss]
    refine hI.moved hcall _ ?_ ?_ ?_ ?_
    · omega
    · omega
    · simp only [hsame.1, Call.addPending, Call.removeWaiting]
      omega
    · intro h0
      refine ⟨by omega, ?_⟩
      simp only [hsame.2, Call.addWaiting, Call.removePending]
      omega

/-- The release of `RemoveWorker`. -/
theorem Accounts.removeReturns (hI : Accounts missed s)
    (hcall : s.calls[i]? = some .removeLeft) :
    Accounts missed
      ⟨{ s.list with notFull := s.list.notFull.release 1 }, s.calls.set i .idle⟩ := by
  refine hI.moved hcall _ hI.count_eq hI.count_le rfl ?_
  intro h0
  have hfull := hI.notFull_eq h0
  obtain ⟨-, -, -, h₄⟩ := totals_set hcall .idle
  simp only [Call.removePending] at h₄
  have hvalue := Semaphore.release_value (s := s.list.notFull) (n := 1) (by omega)
  refine ⟨h0, ?_⟩
  simp only [hvalue, Call.addWaiting, Call.removePending]

/-- **Step lemma.** Every step keeps the accounts, a missing removal with
one more miss. -/
theorem accounts_step {l : Label} (hmalloc : l.Allocates) (hI : Accounts missed s)
    (h : step s l = some t) : Accounts (missed + missedBy s l) t := by
  cases step_move h with
  | addStays | removeStays => exact hI
  | addWaits w hcall hwait => exact hI.addWaits hcall hwait w
  | addFails allocated hcall hsection =>
    obtain rfl : allocated = true := hmalloc
    refine hI.addFails hcall ?_
    by_contra hroom
    rw [addSection_eq, if_neg hroom] at hsection
    cases hsection
  | @addLinks _ _ allocated _ hcall hsection =>
    obtain rfl : allocated = true := hmalloc
    exact hI.addLinks hcall hsection
  | addReturns hcall => exact hI.addReturns hcall
  | removeWaits workerId hcall hwait => exact hI.removeWaits hcall hwait workerId
  | removeLeaves hcall => exact hI.removeLeaves hcall
  | removeReturns hcall => exact hI.removeReturns hcall

end Steps

/-! ## Runs -/

/-- Along a run the misses add up, and there is none exactly when every
removal finds its id. -/
theorem accounts_run {missed : Nat} {s t : State} {ls : List Label}
    (hmalloc : ∀ l ∈ ls, l.Allocates) (hI : Accounts missed s) (h : exec step s ls = some t) :
    ∃ more, Accounts (missed + more) t ∧ (more = 0 ↔ Along step RemoveFinds s ls) := by
  induction ls generalizing s missed with
  | nil =>
    obtain rfl : s = t := by simpa using h
    exact ⟨0, hI, by simp⟩
  | cons l ls ih =>
    obtain ⟨m, hm, hrest⟩ := exec_cons_eq_some.mp h
    have hstep := accounts_step (hmalloc l (by simp)) hI hm
    obtain ⟨more, hacc, hiff⟩ := ih (fun l' hl' => hmalloc l' (by simp [hl'])) hstep hrest
    refine ⟨missedBy s l + more, by rwa [← Nat.add_assoc], ?_⟩
    rw [along_cons hm, ← hiff]
    by_cases hfinds : RemoveFinds s l
    · simp [missedBy, hfinds]
    · simp [missedBy, hfinds]

/-- **The semaphores between calls.** In a run in which `malloc`
succeeds, a state with no call in progress has `notEmpty` at the count
and `notFull` at the rest exactly when every removal so far found its
id. -/
theorem balanced_iff_removes_find {threads : Nat} {ls : List Label} {s : State}
    (hmalloc : ∀ l ∈ ls, l.Allocates) (h : exec step (init threads) ls = some s)
    (hquiet : s.Quiet) : s.Balanced ↔ Along step RemoveFinds (init threads) ls := by
  obtain ⟨missed, hacc, hiff⟩ := accounts_run hmalloc (accounts_init threads) h
  rw [Nat.zero_add] at hacc
  rw [← hiff]
  have hzero : ∀ weight : Call → Nat, weight .idle = 0 → total weight s.calls = 0 := by
    intro weight hw
    rw [total_eq_zero]
    intro call hcall
    rw [hquiet call hcall, hw]
  have h₁ := hzero Call.addWaiting rfl
  have h₂ := hzero Call.addPending rfl
  have h₃ := hzero Call.removeWaiting rfl
  have h₄ := hzero Call.removePending rfl
  have hempty := hacc.notEmpty_eq
  refine ⟨fun hbal => ?_, fun h0 => ?_⟩
  · have hvalue := hbal.1
    omega
  · have hfull := hacc.notFull_eq h0
    exact ⟨by omega, by omega⟩

/-- A worker with this id, on the socket of the same number. -/
def someWorker (id : Int32) : NewWorker := ⟨some id.toNatClampNeg, id, CString.empty, 5000⟩

/-- One thread registers workers 1 and 2 and removes worker 1. -/
def balancedRun : List Label :=
  [.addWorker 0 (someWorker 1), .addSection 0 true, .addRelease 0,
   .addWorker 0 (someWorker 2), .addSection 0 true, .addRelease 0,
   .removeWorker 0 1, .removeSection 0, .removeRelease 0]

/-- Another thread then removes worker 1 once more. -/
def missingRun : List Label :=
  balancedRun ++ [.removeWorker 1 1, .removeSection 1, .removeRelease 1]

theorem balanced_iff_removes_find_balancedRun :
    ∃ s, exec step (init 2) balancedRun = some s ∧ s.Quiet ∧
      (s.Balanced ↔ Along step RemoveFinds (init 2) balancedRun) := by
  have hrun : (exec step (init 2) balancedRun).isSome = true := by decide
  obtain ⟨s, hs⟩ := Option.isSome_iff_exists.mp hrun
  have hcalls : (exec step (init 2) balancedRun).map State.calls = some [.idle, .idle] := by
    decide
  have hquiet : s.Quiet := by
    rw [hs] at hcalls
    intro call hcall
    rw [Option.some.inj hcalls] at hcall
    simpa using hcall
  exact ⟨s, hs, hquiet, balanced_iff_removes_find (by decide) hs hquiet⟩

/-- **The second removal of a worker unbalances the semaphores**: one
worker is left in the list, and `notEmpty` has no permit for it. -/
theorem missing_remove_unbalances :
    ¬ ∀ (threads : Nat) (ls : List Label) (s : State), (∀ l ∈ ls, l.Allocates) →
      exec step (init threads) ls = some s → s.Quiet → s.Balanced := by
  intro hall
  have hrun : (exec step (init 2) missingRun).map
      (fun s => (s.calls, s.list.count, s.list.notEmpty.value))
        = some ([.idle, .idle], 1, 0) := by decide
  obtain ⟨s, hs, hvalues⟩ := Option.map_eq_some_iff.mp hrun
  obtain ⟨hcalls, hvalues⟩ := Prod.mk.inj hvalues
  obtain ⟨hcount, hempty⟩ := Prod.mk.inj hvalues
  have hquiet : s.Quiet := by
    intro call hcall
    rw [hcalls] at hcall
    simpa using hcall
  have hbal := hall 2 missingRun s (by decide) hs hquiet
  have hvalue := hbal.1
  omega

end LoadBalancing.LoadBalancer.WorkerListSemaphores
