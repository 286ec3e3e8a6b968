/-
LoadBalancing.LoadBalancer.Shutdown — who leaves the loop on
`finishSignal`.

`SetFinishSignal` releases one permit for each of the `threadCount`
threads that `main` joins. The input handler, which calls it, leaves
without taking one. Every receiver thread polls the same semaphore at the
top of its loop, so receivers and service threads compete for the
`threadCount` permits, although the semaphore was created with room for
all of them.

`enough_iff_one_signalled`: the permits suffice for the service threads
exactly as long as at most one receiver has left on the signal.
`five_receivers` runs into the other case: no permit is left and all four
service threads loop on, while `main` waits for them.

Out of scope: the bodies of the loops, which do not touch the signal. A
connection that ends and one that is accepted are steps of their own.

No `sorry`, no `axiom`, no `native_decide`.
-/
import LoadBalancing.Base.Semaphore
import LoadBalancing.Base.Threads
import LoadBalancing.Base.Transition
import LoadBalancing.Lib.SharedConfig

namespace LoadBalancing.LoadBalancer.Shutdown

open LoadBalancing.Base LoadBalancing.Lib

/-! ## Threads -/

/-- `THREAD_COUNT`. -/
def threadCount : Nat := 5

/-- The maximum that `finishSignal` is created with. -/
def finishSignalMaximum : Nat := maxClients + maxWorkers + threadCount

/-- The input handler: at its poll, at the keyboard, out of its loop. -/
inductive InputAt where
  | polling
  | reading
  | left
  deriving DecidableEq

/-- A listener or dispatcher: in its loop or out of it. -/
inductive ServiceAt where
  | looping
  | left
  deriving DecidableEq

/-- Whose messages a receiver thread reads. -/
inductive Kind where
  | client
  | worker
  deriving DecidableEq

/-- A receiver thread: in its loop, out of it on the signal, or out of it
because its connection ended. -/
inductive ReceiverAt where
  | looping (kind : Kind)
  | signalled
  | closed
  deriving DecidableEq

/-- The part of `Context` that shutdown is about, and the threads. The
service threads are `threads[1]` to `threads[4]` of `main`: the worker
listener, the client listener and the two dispatchers. -/
structure State where
  finishFlag : Bool
  finishSignal : Semaphore finishSignalMaximum
  inputHandler : InputAt
  services : List ServiceAt
  receivers : List ReceiverAt

/-- `ContextInitialize`, and the threads that `main` starts. -/
def init : State :=
  ⟨false, Semaphore.closed finishSignalMaximum, .polling,
    [.looping, .looping, .looping, .looping], []⟩

/-- `SetFinishSignal`. -/
def setFinishSignal (s : State) : State :=
  if s.finishFlag then s
  else { s with finishFlag := true, finishSignal := s.finishSignal.release threadCount }

/-- The limit on the receivers of a kind, and the listener that starts
them. -/
def Kind.limit : Kind → Nat
  | .client => maxClients
  | .worker => maxWorkers

def Kind.listener : Kind → Nat
  | .worker => 0
  | .client => 1

/-- Receivers of a kind that are in their loop. -/
def ReceiverAt.live (kind : Kind) : ReceiverAt → Nat
  | .looping kind' => if kind' = kind then 1 else 0
  | _ => 0

/-- One step: a poll of `finishSignal` at the top of a loop, a look at the
keyboard, a connection accepted or ended. -/
inductive Label where
  | inputPolls
  | inputReads (quit : Bool)
  | servicePolls (i : Nat)
  | receiverPolls (i : Nat)
  | receiverCloses (i : Nat)
  | accepts (kind : Kind)
  deriving DecidableEq

/-- One step. A poll that finds no permit goes on with the loop. -/
def step (s : State) : Label → Option State
  | .inputPolls =>
    match s.inputHandler with
    | .polling =>
      match s.finishSignal.wait with
      | some finishSignal => some { s with finishSignal := finishSignal, inputHandler := .left }
      | none => some { s with inputHandler := .reading }
    | _ => none
  | .inputReads quit =>
    match s.inputHandler with
    | .reading =>
      if quit then some { setFinishSignal s with inputHandler := .left }
      else some { s with inputHandler := .polling }
    | _ => none
  | .servicePolls i =>
    match s.services[i]? with
    | some .looping =>
      match s.finishSignal.wait with
      | some finishSignal =>
        some { s with finishSignal := finishSignal, services := s.services.set i .left }
      | none => some s
    | _ => none
  | .receiverPolls i =>
    match s.receivers[i]? with
    | some (.looping _) =>
      match s.finishSignal.wait with
      | some finishSignal =>
        some { s with finishSignal := finishSignal, receivers := s.receivers.set i .signalled }
      | none => some s
    | _ => none
  | .receiverCloses i =>
    match s.receivers[i]? with
    | some (.looping _) => some { s with receivers := s.receivers.set i .closed }
    | _ => none
  | .accepts kind =>
    match s.services[kind.listener]? with
    | some .looping =>
      if total (ReceiverAt.live kind) s.receivers < kind.limit then
        some { s with receivers := s.receivers ++ [.looping kind] }
      else none
    | _ => none

/-! ## Accounting -/

/-- A service thread that has not left its loop. -/
def ServiceAt.loops : ServiceAt → Nat
  | .looping => 1
  | .left => 0

/-- A receiver that took a permit. -/
def ReceiverAt.took : ReceiverAt → Nat
  | .signalled => 1
  | _ => 0

/-- The service threads that have not left their loop. -/
def State.looping (s : State) : Nat := total ServiceAt.loops s.services

/-- The receivers that have left on the signal. -/
def State.signalled (s : State) : Nat := total ReceiverAt.took s.receivers

/-- Once the flag is set, the permits left suffice for the service threads
in their loop, and it is not so that none is left while a thread that
`main` joins still loops. -/
def State.Enough (s : State) : Prop :=
  s.finishFlag = true →
    s.looping ≤ s.finishSignal.value ∧
      ¬(s.finishSignal.value = 0 ∧ (0 < s.looping ∨ s.inputHandler ≠ .left))

instance (s : State) : Decidable s.Enough := by
  unfold State.Enough
  infer_instance

/-- If a receiver finds a permit in this step, no receiver has before. -/
def FirstReceiver (s : State) : Label → Prop
  | .receiverPolls _ => 0 < s.finishSignal.value → s.signalled = 0
  | _ => True

instance (s : State) (l : Label) : Decidable (FirstReceiver s l) := by
  cases l <;> simp only [FirstReceiver] <;> infer_instance

/-! ## What a step does -/

/-- The steps, with a constructor for each way through. -/
inductive Move (s : State) : Label → State → Prop
  | inputLeaves {finishSignal : Semaphore finishSignalMaximum} (hinput : s.inputHandler = .polling)
      (hwait : s.finishSignal.wait = some finishSignal) :
      Move s .inputPolls { s with finishSignal := finishSignal, inputHandler := .left }
  | inputTurns (hinput : s.inputHandler = .polling) (hwait : s.finishSignal.wait = none) :
      Move s .inputPolls { s with inputHandler := .reading }
  | inputQuits (hinput : s.inputHandler = .reading) :
      Move s (.inputReads true) { setFinishSignal s with inputHandler := .left }
  | inputReturns (hinput : s.inputHandler = .reading) :
      Move s (.inputReads false) { s with inputHandler := .polling }
  | serviceLeaves {i : Nat} {finishSignal : Semaphore finishSignalMaximum}
      (hservice : s.services[i]? = some .looping)
      (hwait : s.finishSignal.wait = some finishSignal) :
      Move s (.servicePolls i)
        { s with finishSignal := finishSignal, services := s.services.set i .left }
  | serviceTurns (i : Nat) : Move s (.servicePolls i) s
  | receiverLeaves {i : Nat} {kind : Kind} {finishSignal : Semaphore finishSignalMaximum}
      (hreceiver : s.receivers[i]? = some (.looping kind))
      (hwait : s.finishSignal.wait = some finishSignal) :
      Move s (.receiverPolls i)
        { s with finishSignal := finishSignal, receivers := s.receivers.set i .signalled }
  | receiverTurns (i : Nat) (hwait : s.finishSignal.wait = none) : Move s (.receiverPolls i) s
  | receiverEnds {i : Nat} {kind : Kind} (hreceiver : s.receivers[i]? = some (.looping kind)) :
      Move s (.receiverCloses i) { s with receivers := s.receivers.set i .closed }
  | starts (kind : Kind) :
      Move s (.accepts kind) { s with receivers := s.receivers ++ [.looping kind] }

/-- **Every step is one of the moves.** -/
theorem step_move {s t : State} {l : Label} (h : step s l = some t) : Move s l t := by
  cases l with
  | inputPolls =>
    simp only [step] at h
    split at h
    · rename_i hinput
      split at h
      · rename_i finishSignal hwait
        cases h
        exact .inputLeaves hinput hwait
      · rename_i hwait
        cases h
        exact .inputTurns hinput hwait
    · cases h
  | inputReads quit =>
    simp only [step] at h
    split at h
    · rename_i hinput
      cases quit with
      | true =>
        cases h
        exact .inputQuits hinput
      | false =>
        cases h
        exact .inputReturns hinput
    · cases h
  | servicePolls i =>
    simp only [step] at h
    split at h
    · rename_i hservice
      split at h
      · rename_i finishSignal hwait
        cases h
        exact .serviceLeaves hservice hwait
      · cases h
        exact .serviceTurns i
    · cases h
  | receiverPolls i =>
    simp only [step] at h
    split at h
    · rename_i kind hreceiver
      split at h
      · rename_i finishSignal hwait
        cases h
        exact .receiverLeaves hreceiver hwait
      · rename_i hwait
        cases h
        exact .receiverTurns i hwait
    · cases h
  | receiverCloses i =>
    simp only [step] at h
    split at h
    · rename_i kind hreceiver
      cases h
      exact .receiverEnds hreceiver
    · cases h
  | accepts kind =>
    simp only [step] at h
    split at h
    · split at h
      · cases h
        exact .starts kind
      · cases h
    · cases h

/-! ## The balance of permits -/

/-- Before the signal there is no permit; after it there is one more than
the service threads and receivers account for, the input handler's. -/
structure Balanced (s : State) : Prop where
  before : s.finishFlag = false →
    s.finishSignal.value = 0 ∧ s.signalled = 0 ∧ s.looping + 1 = threadCount
  after : s.finishFlag = true →
    s.finishSignal.value + s.signalled = s.looping + 1 ∧ s.inputHandler = .left

theorem balanced_init : Balanced init := by
  refine ⟨fun _ => ⟨rfl, rfl, rfl⟩, ?_⟩
  intro h
  cases h

/-- `SetFinishSignal` releases within the maximum. -/
theorem Balanced.setFinishSignal {s : State} (h : Balanced s) (hflag : s.finishFlag = false) :
    Shutdown.setFinishSignal s =
      { s with finishFlag := true, finishSignal := s.finishSignal.release threadCount } ∧
    (s.finishSignal.release threadCount).value = threadCount := by
  obtain ⟨hzero, -, -⟩ := h.before hflag
  have hfits : s.finishSignal.value + threadCount ≤ finishSignalMaximum := by
    rw [hzero]
    decide
  refine ⟨by simp [Shutdown.setFinishSignal, hflag], ?_⟩
  rw [Semaphore.release_value hfits, hzero, Nat.zero_add]

/-- A poll that finds a permit is behind the signal. -/
theorem Balanced.flag_of_wait {s : State} (h : Balanced s)
    {finishSignal : Semaphore finishSignalMaximum}
    (hwait : s.finishSignal.wait = some finishSignal) : s.finishFlag = true := by
  have hvalue := Semaphore.wait_eq_some hwait
  cases hflag : s.finishFlag with
  | true => rfl
  | false =>
    obtain ⟨hzero, -, -⟩ := h.before hflag
    omega

/-- A step of the receivers in which none takes a permit. -/
theorem Balanced.of_took {s : State} (h : Balanced s) {receivers : List ReceiverAt}
    (hsame : total ReceiverAt.took receivers = total ReceiverAt.took s.receivers) :
    Balanced { s with receivers := receivers } := by
  refine ⟨fun hflag => ?_, fun hflag => ?_⟩
  · simp only [State.signalled, hsame]
    exact h.before hflag
  · simp only [State.signalled, hsame]
    exact h.after hflag

/-- **Every step keeps the balance.** -/
theorem balanced_step (s : State) (l : Label) (t : State) (h : Balanced s)
    (hstep : step s l = some t) : Balanced t := by
  cases step_move hstep with
  | inputLeaves hinput hwait =>
    have hleft := (h.after (h.flag_of_wait hwait)).2
    rw [hinput] at hleft
    cases hleft
  | inputTurns hinput hwait =>
    refine ⟨h.before, fun hflag => ?_⟩
    have hleft := (h.after hflag).2
    rw [hinput] at hleft
    cases hleft
  | inputQuits hinput =>
    cases hflag : s.finishFlag with
    | true =>
      have hleft := (h.after hflag).2
      rw [hinput] at hleft
      cases hleft
    | false =>
      obtain ⟨-, hnone, hall⟩ := h.before hflag
      obtain ⟨hset, hvalue⟩ := h.setFinishSignal hflag
      rw [hset]
      refine ⟨fun hfalse => (Bool.noConfusion hfalse), fun _ => ⟨?_, rfl⟩⟩
      show (s.finishSignal.release threadCount).value + s.signalled = s.looping + 1
      omega
  | inputReturns hinput =>
    refine ⟨h.before, fun hflag => ?_⟩
    have hleft := (h.after hflag).2
    rw [hinput] at hleft
    cases hleft
  | @serviceLeaves i finishSignal hservice hwait =>
    have hflag := h.flag_of_wait hwait
    have hvalue := Semaphore.wait_eq_some hwait
    have hloops := total_set ServiceAt.loops hservice .left
    obtain ⟨hbalance, hleft⟩ := h.after hflag
    refine ⟨fun hfalse => absurd (hflag.symm.trans hfalse) (by decide), fun _ => ⟨?_, hleft⟩⟩
    simp only [State.looping, State.signalled, ServiceAt.loops] at hbalance hloops ⊢
    omega
  | serviceTurns => exact h
  | @receiverLeaves i kind finishSignal hreceiver hwait =>
    have hflag := h.flag_of_wait hwait
    have hvalue := Semaphore.wait_eq_some hwait
    have htook := total_set ReceiverAt.took hreceiver .signalled
    obtain ⟨hbalance, hleft⟩ := h.after hflag
    refine ⟨fun hfalse => absurd (hflag.symm.trans hfalse) (by decide), fun _ => ⟨?_, hleft⟩⟩
    simp only [State.looping, State.signalled, ReceiverAt.took] at hbalance htook ⊢
    omega
  | receiverTurns => exact h
  | @receiverEnds i kind hreceiver =>
    have htook := total_set ReceiverAt.took hreceiver .closed
    simp only [ReceiverAt.took] at htook
    have hsame : total ReceiverAt.took (s.receivers.set i .closed)
        = total ReceiverAt.took s.receivers := by omega
    exact h.of_took hsame
  | starts kind =>
    have hsame : total ReceiverAt.took (s.receivers ++ [.looping kind])
        = total ReceiverAt.took s.receivers := by
      rw [total_append]
      rfl
    exact h.of_took hsame

/-! ## When the permits suffice -/

/-- **The permits suffice** as long as at most one receiver has taken one. -/
theorem Balanced.enough_iff {s : State} (h : Balanced s) : s.Enough ↔ s.signalled ≤ 1 := by
  cases hflag : s.finishFlag with
  | false =>
    obtain ⟨-, hnone, -⟩ := h.before hflag
    refine ⟨fun _ => by omega, fun _ htrue => ?_⟩
    rw [hflag] at htrue
    cases htrue
  | true =>
    obtain ⟨hbalance, hleft⟩ := h.after hflag
    constructor
    · intro henough
      have hle := (henough hflag).1
      omega
    · rintro hone -
      refine ⟨by omega, ?_⟩
      rintro ⟨hzero, hlooping | hinput⟩
      · omega
      · exact hinput hleft

/-- No step gives a permit back. -/
theorem signalled_le (s : State) (l : Label) (t : State)
    (hstep : step s l = some t) : s.signalled ≤ t.signalled := by
  cases step_move hstep with
  | inputLeaves => exact Nat.le_refl _
  | inputTurns => exact Nat.le_refl _
  | inputQuits hinput =>
    simp only [State.signalled, Shutdown.setFinishSignal]
    split <;> exact Nat.le_refl _
  | inputReturns => exact Nat.le_refl _
  | serviceLeaves => exact Nat.le_refl _
  | serviceTurns => exact Nat.le_refl _
  | receiverLeaves hreceiver hwait =>
    have htook := total_set ReceiverAt.took hreceiver .signalled
    simp only [ReceiverAt.took] at htook
    simp only [State.signalled]
    omega
  | receiverTurns => exact Nat.le_refl _
  | receiverEnds hreceiver =>
    have htook := total_set ReceiverAt.took hreceiver .closed
    simp only [ReceiverAt.took] at htook
    simp only [State.signalled]
    omega
  | starts => simp [State.signalled]

/-- A second receiver that finds a permit makes the count exceed 1. -/
theorem second_receiver (s : State) (l : Label) (t : State)
    (hstep : step s l = some t) : FirstReceiver s l ∨ 1 < t.signalled := by
  cases step_move hstep with
  | @receiverLeaves i kind finishSignal hreceiver hwait =>
    have htook := total_set ReceiverAt.took hreceiver .signalled
    simp only [ReceiverAt.took] at htook
    by_cases hzero : s.signalled = 0
    · exact Or.inl fun _ => hzero
    · refine Or.inr ?_
      simp only [State.signalled] at hzero ⊢
      omega
  | receiverTurns i hwait =>
    have hzero := Semaphore.wait_eq_none.mp hwait
    refine Or.inl fun hpermit => ?_
    omega
  | inputLeaves => exact Or.inl trivial
  | inputTurns => exact Or.inl trivial
  | inputQuits => exact Or.inl trivial
  | inputReturns => exact Or.inl trivial
  | serviceLeaves => exact Or.inl trivial
  | serviceTurns => exact Or.inl trivial
  | receiverEnds => exact Or.inl trivial
  | starts => exact Or.inl trivial

/-- The first receiver is the only one so far. -/
theorem signalled_step (s : State) (l : Label) (t : State) (h : s.signalled ≤ 1)
    (hfirst : FirstReceiver s l) (hstep : step s l = some t) : t.signalled ≤ 1 := by
  cases step_move hstep with
  | inputLeaves => exact h
  | inputTurns => exact h
  | inputQuits hinput =>
    simp only [State.signalled, Shutdown.setFinishSignal]
    split <;> exact h
  | inputReturns => exact h
  | serviceLeaves => exact h
  | serviceTurns => exact h
  | receiverLeaves hreceiver hwait =>
    have hvalue := Semaphore.wait_eq_some hwait
    have hzero := hfirst (by omega)
    have htook := total_set ReceiverAt.took hreceiver .signalled
    simp only [ReceiverAt.took] at htook
    simp only [State.signalled] at hzero ⊢
    omega
  | receiverTurns => exact h
  | receiverEnds hreceiver =>
    have htook := total_set ReceiverAt.took hreceiver .closed
    simp only [ReceiverAt.took] at htook
    simp only [State.signalled] at h ⊢
    omega
  | starts => simpa [State.signalled, ReceiverAt.took] using h

/-! ## Runs -/

/-- **Permits against receivers.** A run ends with enough permits for the
service threads exactly when at most one of the polls in it took a permit
for a receiver. -/
theorem enough_iff_one_signalled {ls : List Label} {s : State}
    (h : exec step init ls = some s) : s.Enough ↔ Along step FirstReceiver init ls := by
  have hbalanced : Balanced s := exec_invariant balanced_step balanced_init h
  rw [hbalanced.enough_iff]
  constructor
  · intro hone
    have hcases : Along step FirstReceiver init ls ∨ 1 < s.signalled :=
      along_or_damaged balanced_step (fun s l t _ hstep => second_receiver s l t hstep)
        (fun s l t _ hdamaged hstep => Nat.lt_of_lt_of_le hdamaged (signalled_le s l t hstep))
        balanced_init h
    exact hcases.resolve_right (Nat.not_lt.mpr hone)
  · intro halong
    have hstart : init.signalled ≤ 1 := by decide
    exact exec_invariant_along signalled_step hstart halong h

/-- One receiver, and all service threads leave. -/
def oneReceiver : List Label :=
  [.accepts .client, .inputPolls, .inputReads true, .receiverPolls 0, .servicePolls 0,
    .servicePolls 1, .servicePolls 2, .servicePolls 3]

theorem enough_iff_one_signalled_one :
    ∃ s, exec step init oneReceiver = some s ∧ s.Enough := by
  obtain ⟨s, hrun⟩ : ∃ s, exec step init oneReceiver = some s := ⟨_, rfl⟩
  have halong : Along step FirstReceiver init oneReceiver := by decide
  exact ⟨s, hrun, (enough_iff_one_signalled hrun).mpr halong⟩

/-- Three clients and two workers are connected, and their receivers poll
first. -/
def fiveReceivers : List Label :=
  [.accepts .client, .accepts .client, .accepts .client, .accepts .worker, .accepts .worker,
    .inputPolls, .inputReads true, .receiverPolls 0, .receiverPolls 1, .receiverPolls 2,
    .receiverPolls 3, .receiverPolls 4]

/-- **The receivers take every permit**: the flag is set, no permit is
left, and the four service threads that `main` joins still loop. -/
theorem five_receivers :
    ∃ s, exec step init fiveReceivers = some s ∧ s.finishFlag = true ∧
      s.finishSignal.value = 0 ∧ s.looping = 4 ∧ ¬s.Enough := by
  refine ⟨_, rfl, by decide, by decide, by decide, by decide⟩

end LoadBalancing.LoadBalancer.Shutdown
