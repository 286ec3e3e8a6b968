/-
LoadBalancing.Worker.Shutdown — how a worker's threads leave their loops,
`SetFinishSignal` of `Worker/Context.c` and the loops that poll its
semaphore.

`SetFinishSignal` releases one permit of `finishSignal` for each of the
`threadCount` threads, once, and the finish signal of the export queue at
every call. The input and the receiver thread need one permit each, and
none if they leave on their own. The peer listener has a loop in its loop
and needs two; the export thread polls another signal. So the permits are
as many as can be needed, with none to spare.

`Accounted` says so for one state, and `permits_suffice` for every state
behind the first call, in every run. A listener that has won a poll is out
of its inner loop for good, as the poll of the outer one finds a permit.

A call goes through the critical section in steps of its own, so that
polls, which do not take the lock, come in between. Not modelled: the
other sections under the same lock, which do not touch the signals, and
the bodies of the loops.

No `sorry`, no `axiom`, no `native_decide`.
-/
import LoadBalancing.Base.Semaphore
import LoadBalancing.Base.Transition
import LoadBalancing.Lib.SharedConfig

namespace LoadBalancing.Worker.Shutdown

open LoadBalancing.Base LoadBalancing.Lib

/-! ## Threads -/

/-- `THREAD_COUNT`. -/
def threadCount : Nat := 4

/-- A call of `SetFinishSignal`: in front of `EnterCriticalSection`, of the
test of the flag, of the release for the export thread, and of
`LeaveCriticalSection`. -/
inductive CallAt where
  | entering
  | testing
  | releasingExport
  | leaving
  deriving DecidableEq

/-- The threads that call `SetFinishSignal`. -/
inductive Caller where
  | input
  | receiver
  deriving DecidableEq

/-- `InputHandlerThread`: not created, at its poll, at the keyboard, in a
call, out of its loop. -/
inductive InputAt where
  | notStarted
  | polling
  | reading
  | calling (call : CallAt)
  | left
  deriving DecidableEq

/-- `ReceiverThread`: likewise, with a call for `MSG_SHUTDOWN`, behind which
the loop goes on, or for a connection that is lost. -/
inductive ReceiverAt where
  | notStarted
  | polling
  | receiving
  | calling (call : CallAt) (lost : Bool)
  | left
  deriving DecidableEq

/-- `PeerListenerThread`: not created, in front of `listen`, in the outer
loop at its poll and behind it, in the inner loop at its poll and behind
it, in front of `SafeCloseSocket`, out of its loops. -/
inductive ListenerAt where
  | notStarted
  | starting
  | outerPoll
  | accepting
  | innerPoll
  | receiving
  | closing
  | left
  deriving DecidableEq

/-- `ExportThread`. -/
inductive ExporterAt where
  | notStarted
  | waiting
  | exporting
  | left
  deriving DecidableEq

/-- The part of `Context` that shutdown is about, and the threads.
`exportFinish` is the finish signal of the export queue. `listenerWon` and
`returned` are not in the source: whether the listener has won a poll, and
the calls of `SetFinishSignal` that have returned. -/
structure State where
  lock : Option Caller
  finishFlag : Bool
  finishSignal : Semaphore threadCount
  exportSignal : Semaphore maxWorkers
  exportFinish : Semaphore 1
  input : InputAt
  receiver : ReceiverAt
  listener : ListenerAt
  listenerWon : Bool
  exporter : ExporterAt
  returned : Nat
  deriving DecidableEq

/-- `ContextInitialize`, in front of the first `CreateThread`. -/
def init : State :=
  ⟨none, false, .closed threadCount, .closed maxWorkers, .closed 1, .notStarted, .notStarted,
    .notStarted, false, .notStarted, 0⟩

/-! ## Steps -/

/-- One step of `SetFinishSignal`, with where the call is then, if it has
not returned; `none` where another thread has the lock. -/
def setFinishSignal (s : State) (caller : Caller) : CallAt → Option (State × Option CallAt)
  | .entering =>
    if s.lock = none then some ({ s with lock := some caller }, some .testing) else none
  | .testing =>
    if s.finishFlag then some (s, some .releasingExport)
    else
      some ({ s with finishFlag := true, finishSignal := s.finishSignal.release threadCount },
        some .releasingExport)
  | .releasingExport =>
    some ({ s with exportFinish := s.exportFinish.release 1 }, some .leaving)
  | .leaving => some ({ s with lock := none, returned := s.returned + 1 }, none)

/-- What the receiver meets in an iteration: nothing to stop for, a
`MSG_WORKER_ENTRY` whose export request is queued, a `MSG_SHUTDOWN`, or a
`ProtocolReceive` that fails. -/
inductive Received where
  | handled
  | exportQueued
  | shutdown
  | lost
  deriving DecidableEq

/-- One step of a thread, or of `main`. -/
inductive Label where
  | createThread
  | pollInput
  | readKey (quit : Bool)
  | callInput
  | pollReceiver
  | receive (received : Received)
  | callReceiver
  | listen (ok : Bool)
  | pollListener
  | accept (accepted : Bool)
  | receivePeer (closed : Bool)
  | closePeer
  | waitExport
  | exported
  deriving DecidableEq

/-- `CreateThread`, in the order of `main`. -/
def createThread (s : State) : Option State :=
  match s.input, s.receiver, s.listener, s.exporter with
  | .notStarted, _, _, _ => some { s with input := .polling }
  | _, .notStarted, _, _ => some { s with receiver := .polling }
  | _, _, .notStarted, _ => some { s with listener := .starting }
  | _, _, _, .notStarted => some { s with exporter := .waiting }
  | _, _, _, _ => none

/-- The body of the receiver's loop. -/
def receive (s : State) : Received → State
  | .handled => { s with receiver := .polling }
  | .exportQueued => { s with exportSignal := s.exportSignal.release 1, receiver := .polling }
  | .shutdown => { s with receiver := .calling .entering false }
  | .lost => { s with receiver := .calling .entering true }

/-- One step; `none` where the thread is elsewhere or has to wait. -/
def step (s : State) : Label → Option State
  | .createThread => createThread s
  | .pollInput =>
    match s.input with
    | .polling =>
      match s.finishSignal.wait with
      | some finishSignal => some { s with finishSignal := finishSignal, input := .left }
      | none => some { s with input := .reading }
    | _ => none
  | .readKey quit =>
    match s.input with
    | .reading => some { s with input := if quit then .calling .entering else .polling }
    | _ => none
  | .callInput =>
    match s.input with
    | .calling call =>
      match setFinishSignal s .input call with
      | some (t, some next) => some { t with input := .calling next }
      | some (t, none) => some { t with input := .left }
      | none => none
    | _ => none
  | .pollReceiver =>
    match s.receiver with
    | .polling =>
      match s.finishSignal.wait with
      | some finishSignal => some { s with finishSignal := finishSignal, receiver := .left }
      | none => some { s with receiver := .receiving }
    | _ => none
  | .receive received =>
    match s.receiver with
    | .receiving => some (receive s received)
    | _ => none
  | .callReceiver =>
    match s.receiver with
    | .calling call lost =>
      match setFinishSignal s .receiver call with
      | some (t, some next) => some { t with receiver := .calling next lost }
      | some (t, none) => some { t with receiver := if lost then .left else .polling }
      | none => none
    | _ => none
  | .listen ok =>
    match s.listener with
    | .starting => some { s with listener := if ok then .outerPoll else .left }
    | _ => none
  | .pollListener =>
    match s.listener with
    | .outerPoll =>
      match s.finishSignal.wait with
      | some finishSignal =>
        some { s with finishSignal := finishSignal, listener := .left, listenerWon := true }
      | none => some { s with listener := .accepting }
    | .innerPoll =>
      match s.finishSignal.wait with
      | some finishSignal =>
        some { s with finishSignal := finishSignal, listener := .closing, listenerWon := true }
      | none => some { s with listener := .receiving }
    | _ => none
  | .accept accepted =>
    match s.listener with
    | .accepting => some { s with listener := if accepted then .innerPoll else .outerPoll }
    | _ => none
  | .receivePeer closed =>
    match s.listener with
    | .receiving => some { s with listener := if closed then .closing else .innerPoll }
    | _ => none
  | .closePeer =>
    match s.listener with
    | .closing => some { s with listener := .outerPoll }
    | _ => none
  | .waitExport =>
    match s.exporter with
    | .waiting =>
      match s.exportSignal.wait, s.exportFinish.wait with
      | some exportSignal, _ => some { s with exportSignal := exportSignal, exporter := .exporting }
      | none, some exportFinish => some { s with exportFinish := exportFinish, exporter := .left }
      | none, none => none
    | _ => none
  | .exported =>
    match s.exporter with
    | .exporting => some { s with exporter := .waiting }
    | _ => none

/-! ## The polls still to win -/

/-- One poll, unless the thread leaves on its own or has left. -/
def InputAt.polls : InputAt → Nat
  | .notStarted | .polling | .reading => 1
  | .calling _ | .left => 0

/-- One poll, unless the thread leaves on its own or has left. -/
def ReceiverAt.polls : ReceiverAt → Nat
  | .notStarted | .polling | .receiving => 1
  | .calling _ lost => if lost then 0 else 1
  | .left => 0

/-- One poll for the inner and one for the outer loop, until one is won. -/
def ListenerAt.polls (won : Bool) : ListenerAt → Nat
  | .left => 0
  | _ => if won then 1 else 2

/-- The polls that the threads still have to win to leave all their loops. -/
def State.polls (s : State) : Nat :=
  s.input.polls + s.receiver.polls + s.listener.polls s.listenerWon

/-- **What is promised of a state**: there are permits enough; the export
thread's signal is set until it has taken it; a listener that has won a
poll is not in its inner loop again; and every poll finds a permit. -/
structure Accounted (s : State) : Prop where
  permits : s.polls ≤ s.finishSignal.value
  exportFinish : s.exporter ≠ .left → s.exportFinish.value = 1
  outside : s.listenerWon = true →
    s.listener = .closing ∨ s.listener = .outerPoll ∨ s.listener = .left
  wins : s.input = .polling ∨ s.receiver = .polling ∨ s.listener = .outerPoll ∨
    s.listener = .innerPoll → s.finishSignal.wait ≠ none

/-! ## What every state is like -/

/-- The call that a thread is in. -/
def InputAt.call? : InputAt → Option CallAt
  | .calling call => some call
  | _ => none

def ReceiverAt.call? : ReceiverAt → Option CallAt
  | .calling call _ => some call
  | _ => none

/-- The calls that threads are in. -/
def State.calls (s : State) : List CallAt := s.input.call?.toList ++ s.receiver.call?.toList

/-- A call behind the test of the flag. -/
def CallAt.tested : CallAt → Bool
  | .entering | .testing => false
  | .releasingExport | .leaving => true

/-- A listener that does not go into its inner loop before its next poll. -/
def ListenerAt.isOutside : ListenerAt → Bool
  | .closing | .outerPoll | .left => true
  | _ => false

/-- **The invariant**: before the flag is set there are no permits, and no
call is behind its test; then there are permits enough, and the export
thread's signal is set behind its release. -/
structure Balanced (s : State) : Prop where
  before : s.finishFlag = false →
    s.finishSignal.value = 0 ∧ s.listenerWon = false ∧ s.returned = 0 ∧
      ∀ call ∈ s.calls, call.tested = false
  after : s.finishFlag = true → s.polls ≤ s.finishSignal.value
  exportFinish : 0 < s.returned ∨ .leaving ∈ s.calls →
    s.exporter = .left ∨ s.exportFinish.value = 1
  outside : s.listenerWon = true → s.listener.isOutside = true

theorem balanced_init : Balanced init := by
  refine ⟨fun _ => ⟨rfl, rfl, rfl, fun _ hcall => nomatch hcall⟩, nofun, ?_, nofun⟩
  rintro (hreturned | hcall)
  · cases hreturned
  · cases hcall

theorem polls_le_threadCount (s : State) : s.polls ≤ threadCount := by
  have hinput : s.input.polls ≤ 1 := by
    cases s.input <;> simp [InputAt.polls]
  have hreceiver : s.receiver.polls ≤ 1 := by
    cases s.receiver with
    | calling call lost => cases lost <;> simp [ReceiverAt.polls]
    | notStarted | polling | receiving | left => simp [ReceiverAt.polls]
  have hlistener : s.listener.polls s.listenerWon ≤ 2 := by
    cases s.listener <;> cases s.listenerWon <;> simp [ListenerAt.polls]
  unfold State.polls threadCount
  omega

section Steps

variable {s t : State}

/-- A poll that is won is behind the first call. -/
theorem Balanced.flag_of_wait (h : Balanced s) {finishSignal : Semaphore threadCount}
    (hwait : s.finishSignal.wait = some finishSignal) : s.finishFlag = true := by
  have hvalue := Semaphore.wait_eq_some hwait
  cases hflag : s.finishFlag with
  | true => rfl
  | false =>
    have hzero := (h.before hflag).1
    omega

/-- Behind the flag three accounts are left. -/
theorem balanced_of_flag (hflag : t.finishFlag = true) (hpermits : t.polls ≤ t.finishSignal.value)
    (hfinish : 0 < t.returned ∨ .leaving ∈ t.calls →
      t.exporter = .left ∨ t.exportFinish.value = 1)
    (houtside : t.listenerWon = true → t.listener.isOutside = true) : Balanced t where
  before hfalse := by
    rw [hflag] at hfalse
    cases hfalse
  after _ := hpermits
  exportFinish := hfinish
  outside := houtside

/-- A step that leaves the signals and the flag alone. -/
theorem Balanced.of_same (h : Balanced s) (hflag : t.finishFlag = s.finishFlag)
    (hsignal : t.finishSignal = s.finishSignal) (hpolls : t.polls ≤ s.polls)
    (hreturned : t.returned = s.returned)
    (hcalls : ∀ call ∈ t.calls, call.tested = false ∨ call ∈ s.calls)
    (hexporter : s.exporter = .left ∨ s.exportFinish.value = 1 →
      t.exporter = .left ∨ t.exportFinish.value = 1)
    (hwon : t.listenerWon = s.listenerWon)
    (houtside : s.listenerWon = true → t.listener.isOutside = true) : Balanced t := by
  refine ⟨?_, ?_, ?_, ?_⟩
  · intro hfalse
    obtain ⟨hzero, hnone, hfirst, huntested⟩ := h.before (hflag ▸ hfalse)
    refine ⟨by rw [hsignal, hzero], by rw [hwon, hnone], by rw [hreturned, hfirst], ?_⟩
    intro call hcall
    exact (hcalls call hcall).elim id (huntested call)
  · intro htrue
    rw [hsignal]
    exact Nat.le_trans hpolls (h.after (hflag ▸ htrue))
  · intro hbehind
    refine hexporter (h.exportFinish ?_)
    rw [hreturned] at hbehind
    refine hbehind.imp_right fun hleaving => ?_
    exact (hcalls _ hleaving).resolve_left Bool.noConfusion
  · intro hlistener
    exact houtside (hwon ▸ hlistener)

/-- A poll that is won costs a permit, and leaves one poll less to win. -/
theorem Balanced.of_won (h : Balanced s) {finishSignal : Semaphore threadCount}
    (hwait : s.finishSignal.wait = some finishSignal) (hflag : t.finishFlag = s.finishFlag)
    (hsignal : t.finishSignal = finishSignal) (hpolls : t.polls < s.polls)
    (hreturned : t.returned = s.returned) (hcalls : t.calls = s.calls)
    (hexporter : t.exporter = s.exporter) (hfinish : t.exportFinish = s.exportFinish)
    (houtside : t.listenerWon = true → t.listener.isOutside = true) : Balanced t := by
  have htrue := h.flag_of_wait hwait
  have hvalue := Semaphore.wait_eq_some hwait
  have hafter := h.after htrue
  refine balanced_of_flag (hflag.trans htrue) ?_ ?_ houtside
  · rw [hsignal]
    omega
  · rw [hreturned, hcalls, hexporter, hfinish]
    exact h.exportFinish

/-- The signal of the export thread is set by a release. -/
theorem release_exportFinish (exportFinish : Semaphore 1) : (exportFinish.release 1).value = 1 := by
  have hle := exportFinish.value_le
  unfold Semaphore.release
  split
  · rename_i hroom
    show exportFinish.value + 1 = 1
    omega
  · omega

/-- **A step of a call**, with where its thread is then. -/
theorem Balanced.of_call (h : Balanced s) {caller : Caller} {call : CallAt} {next : Option CallAt}
    (hstep : setFinishSignal s caller call = some (t, next)) (hin : call ∈ s.calls)
    (input : InputAt) (receiver : ReceiverAt)
    (hpolls : input.polls + receiver.polls ≤ s.input.polls + s.receiver.polls)
    (hcalls : ∀ c ∈ input.call?.toList ++ receiver.call?.toList, next = some c ∨ c ∈ s.calls) :
    Balanced { t with input := input, receiver := receiver } := by
  have hflag : call.tested = true → s.finishFlag = true := by
    intro htested
    cases hfalse : s.finishFlag with
    | true => rfl
    | false =>
      rw [(h.before hfalse).2.2.2 call hin] at htested
      cases htested
  have hwithin : input.polls + receiver.polls + s.listener.polls s.listenerWon ≤ s.polls :=
    Nat.add_le_add_right hpolls _
  cases call with
  | entering =>
    simp only [setFinishSignal] at hstep
    split at hstep
    · cases hstep
      refine h.of_same rfl rfl hwithin rfl ?_ id rfl h.outside
      intro c hc
      refine (hcalls c hc).imp_left ?_
      rintro ⟨⟩
      rfl
    · cases hstep
  | testing =>
    have hleaving : next ≠ some .leaving → .leaving ∈ input.call?.toList ++ receiver.call?.toList →
        .leaving ∈ s.calls := fun hnext hc => (hcalls _ hc).resolve_left hnext
    simp only [setFinishSignal] at hstep
    split at hstep
    · rename_i htrue
      cases hstep
      refine balanced_of_flag htrue (Nat.le_trans hwithin (h.after htrue)) ?_ h.outside
      intro hbehind
      exact h.exportFinish (hbehind.imp_right (hleaving nofun))
    · rename_i hunset
      cases hstep
      have hzero := (h.before (Bool.eq_false_iff.mpr hunset)).1
      refine balanced_of_flag rfl ?_ ?_ h.outside
      · have hvalue : (s.finishSignal.release threadCount).value = threadCount := by
          rw [Semaphore.release_value (by omega), hzero, Nat.zero_add]
        have hfew := Nat.le_trans hwithin (polls_le_threadCount s)
        exact Nat.le_trans hfew (Nat.le_of_eq hvalue.symm)
      · intro hbehind
        exact h.exportFinish (hbehind.imp_right (hleaving nofun))
  | releasingExport =>
    cases hstep
    have htrue := hflag rfl
    refine balanced_of_flag htrue (Nat.le_trans hwithin (h.after htrue)) ?_ h.outside
    intro _
    exact Or.inr (release_exportFinish s.exportFinish)
  | leaving =>
    cases hstep
    have htrue := hflag rfl
    refine balanced_of_flag htrue (Nat.le_trans hwithin (h.after htrue)) ?_ h.outside
    intro _
    exact h.exportFinish (Or.inr hin)

/-- A step that moves the listener, other than by a poll that it wins. -/
theorem Balanced.of_listener (h : Balanced s) {listener : ListenerAt}
    (hstays : s.listener ≠ .left) (houtside : s.listenerWon = true → listener.isOutside = true) :
    Balanced { s with listener := listener } := by
  refine h.of_same rfl rfl ?_ rfl (fun _ hc => Or.inr hc) id rfl houtside
  have hle : listener.polls s.listenerWon ≤ s.listener.polls s.listenerWon := by
    cases hlistener : s.listener with
    | left => exact absurd hlistener hstays
    | notStarted | starting | outerPoll | accepting | innerPoll | receiving | closing =>
      cases listener <;> simp [ListenerAt.polls]
  exact Nat.add_le_add_left hle _

/-- A step that moves the input thread, and neither wins a poll nor takes a
call further. -/
theorem Balanced.of_input (h : Balanced s) (input : InputAt)
    (hpolls : input.polls ≤ s.input.polls) (hcall : ∀ c ∈ input.call?, c.tested = false) :
    Balanced { s with input := input } := by
  refine h.of_same rfl rfl ?_ rfl ?_ id rfl h.outside
  · exact Nat.add_le_add_right (Nat.add_le_add_right hpolls _) _
  · intro c hc
    rcases List.mem_append.mp hc with hnew | hother
    · exact Or.inl (hcall c (Option.mem_toList.mp hnew))
    · exact Or.inr (List.mem_append_right _ hother)

/-- Likewise for the receiver. -/
theorem Balanced.of_receiver (h : Balanced s) (receiver : ReceiverAt)
    (exportSignal : Semaphore maxWorkers) (hpolls : receiver.polls ≤ s.receiver.polls)
    (hcall : ∀ c ∈ receiver.call?, c.tested = false) :
    Balanced { s with receiver := receiver, exportSignal := exportSignal } := by
  refine h.of_same rfl rfl ?_ rfl ?_ id rfl h.outside
  · exact Nat.add_le_add_right (Nat.add_le_add_left hpolls _) _
  · intro c hc
    rcases List.mem_append.mp hc with hother | hnew
    · exact Or.inr (List.mem_append_left _ hother)
    · exact Or.inl (hcall c (Option.mem_toList.mp hnew))

/-- A step that moves the export thread, which leaves with its signal. -/
theorem Balanced.of_exporter (h : Balanced s) (exporter : ExporterAt)
    (exportSignal : Semaphore maxWorkers) (exportFinish : Semaphore 1)
    (hexporter : s.exporter = .left ∨ s.exportFinish.value = 1 →
      exporter = .left ∨ exportFinish.value = 1) :
    Balanced { s with
      exporter := exporter, exportSignal := exportSignal, exportFinish := exportFinish } :=
  h.of_same rfl rfl (Nat.le_refl _) rfl (fun _ hc => Or.inr hc) hexporter rfl h.outside

/-- `main` creates a thread. -/
theorem Balanced.createThread (h : Balanced s) (hstep : createThread s = some t) : Balanced t := by
  unfold Shutdown.createThread at hstep
  split at hstep
  · rename_i hinput
    cases hstep
    exact h.of_input .polling (by rw [hinput]; exact Nat.le_refl _) nofun
  · rename_i hreceiver _
    cases hstep
    exact h.of_receiver .polling s.exportSignal (by rw [hreceiver]; exact Nat.le_refl _) nofun
  · rename_i hlistener _ _
    cases hstep
    refine h.of_listener (by rw [hlistener]; exact nofun) ?_
    intro hwon
    have hnot := h.outside hwon
    rw [hlistener] at hnot
    cases hnot
  · rename_i hexporter _ _ _
    cases hstep
    refine h.of_exporter .waiting s.exportSignal s.exportFinish ?_
    rw [hexporter]
    exact fun hset => Or.inr (hset.resolve_left nofun)
  · cases hstep

/-- A call moves none of the threads. -/
theorem setFinishSignal_threads {caller : Caller} {call : CallAt} {next : Option CallAt}
    (h : setFinishSignal s caller call = some (t, next)) :
    t.input = s.input ∧ t.receiver = s.receiver := by
  cases call with
  | entering | testing =>
    simp only [setFinishSignal] at h
    split at h
    · cases h
      exact ⟨rfl, rfl⟩
    · cases h <;> exact ⟨rfl, rfl⟩
  | releasingExport | leaving =>
    cases h
    exact ⟨rfl, rfl⟩

theorem Balanced.pollInput (h : Balanced s) (hstep : step s .pollInput = some t) : Balanced t := by
  simp only [step] at hstep
  split at hstep
  · rename_i hinput
    split at hstep
    · rename_i finishSignal hwait
      cases hstep
      exact h.of_won hwait rfl rfl (by simp [State.polls, hinput, InputAt.polls]) rfl
        (by simp [State.calls, hinput, InputAt.call?]) rfl rfl h.outside
    · cases hstep
      exact h.of_input .reading (by rw [hinput]; exact Nat.le_refl _) nofun
  · cases hstep

theorem Balanced.readKey (h : Balanced s) {quit : Bool} (hstep : step s (.readKey quit) = some t) :
    Balanced t := by
  simp only [step] at hstep
  split at hstep
  · rename_i hinput
    cases hstep
    cases quit with
    | true =>
      refine h.of_input (.calling .entering) (Nat.zero_le _) ?_
      rintro c ⟨⟩
      rfl
    | false => exact h.of_input .polling (by rw [hinput]; exact Nat.le_refl _) nofun
  · cases hstep

/-- **The call of the input thread**, which leaves its loop behind it. -/
theorem Balanced.callInput (h : Balanced s) (hstep : step s .callInput = some t) : Balanced t := by
  simp only [step] at hstep
  split at hstep
  · rename_i call hinput
    have hin : call ∈ s.calls := by simp [State.calls, hinput, InputAt.call?]
    have hother : ∀ c ∈ s.receiver.call?.toList, c ∈ s.calls :=
      fun _ hc => List.mem_append_right _ hc
    split at hstep
    · rename_i u next hcall
      cases hstep
      obtain ⟨-, hreceiver⟩ := setFinishSignal_threads hcall
      have hnext := h.of_call hcall hin (.calling next) s.receiver
        (Nat.add_le_add_right (Nat.zero_le _) _) (by
          intro c hc
          rcases List.mem_cons.mp hc with rfl | hc
          · exact Or.inl rfl
          · exact Or.inr (hother c hc))
      rwa [← hreceiver] at hnext
    · rename_i u hcall
      cases hstep
      obtain ⟨-, hreceiver⟩ := setFinishSignal_threads hcall
      have hnext := h.of_call hcall hin .left s.receiver
        (Nat.add_le_add_right (Nat.zero_le _) _) (fun c hc => Or.inr (hother c hc))
      rwa [← hreceiver] at hnext
    · cases hstep
  · cases hstep

theorem Balanced.pollReceiver (h : Balanced s) (hstep : step s .pollReceiver = some t) :
    Balanced t := by
  simp only [step] at hstep
  split at hstep
  · rename_i hreceiver
    split at hstep
    · rename_i finishSignal hwait
      cases hstep
      exact h.of_won hwait rfl rfl (by simp [State.polls, hreceiver, ReceiverAt.polls]) rfl
        (by simp [State.calls, hreceiver, ReceiverAt.call?]) rfl rfl h.outside
    · cases hstep
      exact h.of_receiver .receiving s.exportSignal (by rw [hreceiver]; exact Nat.le_refl _) nofun
  · cases hstep

theorem Balanced.receive (h : Balanced s) {received : Received}
    (hstep : step s (.receive received) = some t) : Balanced t := by
  simp only [step] at hstep
  split at hstep
  · rename_i hreceiver
    have hone : 1 ≤ s.receiver.polls := by
      rw [hreceiver]
      exact Nat.le_refl _
    cases hstep
    cases received with
    | handled => exact h.of_receiver .polling s.exportSignal hone nofun
    | exportQueued => exact h.of_receiver .polling _ hone nofun
    | shutdown =>
      refine h.of_receiver (.calling .entering false) s.exportSignal hone ?_
      rintro c ⟨⟩
      rfl
    | lost =>
      refine h.of_receiver (.calling .entering true) s.exportSignal (Nat.zero_le _) ?_
      rintro c ⟨⟩
      rfl
  · cases hstep

/-- **The call of the receiver**, which polls again behind it unless the
connection is lost. -/
theorem Balanced.callReceiver (h : Balanced s) (hstep : step s .callReceiver = some t) :
    Balanced t := by
  simp only [step] at hstep
  split at hstep
  · rename_i call lost hreceiver
    have hin : call ∈ s.calls := by simp [State.calls, hreceiver, ReceiverAt.call?]
    have hother : ∀ c ∈ s.input.call?.toList, c ∈ s.calls :=
      fun _ hc => List.mem_append_left _ hc
    split at hstep
    · rename_i u next hcall
      cases hstep
      obtain ⟨hinput, -⟩ := setFinishSignal_threads hcall
      have hnext := h.of_call hcall hin s.input (.calling next lost)
        (Nat.add_le_add_left (by rw [hreceiver]; exact Nat.le_refl _) _) (by
          intro c hc
          rcases List.mem_append.mp hc with hc | hc
          · exact Or.inr (hother c hc)
          · cases List.mem_singleton.mp hc
            exact Or.inl rfl)
      rwa [← hinput] at hnext
    · rename_i u hcall
      cases hstep
      obtain ⟨hinput, -⟩ := setFinishSignal_threads hcall
      have hnext := h.of_call hcall hin s.input (if lost then .left else .polling)
        (Nat.add_le_add_left (by rw [hreceiver]; cases lost <;> exact Nat.le_refl _) _) (by
          intro c hc
          rcases List.mem_append.mp hc with hc | hc
          · exact Or.inr (hother c hc)
          · cases lost <;> cases hc)
      rwa [← hinput] at hnext
    · cases hstep
  · cases hstep

/-- A poll that the listener loses is in front of the first call, or at a
time at which it has won none. -/
theorem Balanced.won_false (h : Balanced s) (hwait : s.finishSignal.wait = none)
    (hlistener : s.listener ≠ .left) : s.listenerWon = false := by
  have hzero := Semaphore.wait_eq_none.mp hwait
  cases hwon : s.listenerWon with
  | false => rfl
  | true =>
    have htrue : s.finishFlag = true := by
      cases hflag : s.finishFlag with
      | true => rfl
      | false =>
        have hnone := (h.before hflag).2.1
        rw [hwon] at hnone
        cases hnone
    have hone : s.listener.polls s.listenerWon = 1 := by
      rw [hwon]
      cases hat : s.listener with
      | left => exact absurd hat hlistener
      | notStarted | starting | outerPoll | accepting | innerPoll | receiving | closing => rfl
    have hafter := h.after htrue
    unfold State.polls at hafter
    omega

/-- A listener that is inside has not won a poll. -/
theorem Balanced.won_of_inside (h : Balanced s) {listener : ListenerAt}
    (hat : s.listener = listener) (hinside : listener.isOutside = false) :
    s.listenerWon = false := by
  cases hwon : s.listenerWon with
  | false => rfl
  | true =>
    have houtside := h.outside hwon
    rw [hat, hinside] at houtside
    cases houtside

/-- **The polls of the listener.** -/
theorem Balanced.pollListener (h : Balanced s) (hstep : step s .pollListener = some t) :
    Balanced t := by
  simp only [step] at hstep
  split at hstep
  · rename_i houter
    split at hstep
    · rename_i finishSignal hwait
      cases hstep
      have hpolls : 0 < s.listener.polls s.listenerWon := by
        rw [houter]
        cases s.listenerWon <;> exact Nat.zero_lt_succ _
      exact h.of_won hwait rfl rfl (Nat.add_lt_add_left hpolls _) rfl rfl rfl rfl fun _ => rfl
    · rename_i hwait
      cases hstep
      refine h.of_listener (by rw [houter]; exact nofun) ?_
      intro hwon
      rw [h.won_false hwait (by rw [houter]; exact nofun)] at hwon
      cases hwon
  · rename_i hinner
    -- the first poll that the listener wins, as it would be outside otherwise
    have hnone := h.won_of_inside hinner rfl
    split at hstep
    · rename_i finishSignal hwait
      cases hstep
      have hpolls : ListenerAt.closing.polls true < s.listener.polls s.listenerWon := by
        rw [hinner, hnone]
        exact Nat.lt_succ_self 1
      exact h.of_won hwait rfl rfl (Nat.add_lt_add_left hpolls _) rfl rfl rfl rfl fun _ => rfl
    · cases hstep
      refine h.of_listener (by rw [hinner]; exact nofun) ?_
      intro hwon
      rw [hnone] at hwon
      cases hwon
  · cases hstep

/-- The other steps of the listener. -/
theorem Balanced.listener (h : Balanced s) {l : Label}
    (hl : (∃ ok, l = .listen ok) ∨ (∃ accepted, l = .accept accepted) ∨
      (∃ closed, l = .receivePeer closed) ∨ l = .closePeer)
    (hstep : step s l = some t) : Balanced t := by
  have hinside : ∀ {listener : ListenerAt}, s.listener = listener →
      listener.isOutside = false → s.listenerWon = true → False := by
    intro listener hat hinside hwon
    rw [h.won_of_inside hat hinside] at hwon
    cases hwon
  rcases hl with ⟨ok, rfl⟩ | ⟨accepted, rfl⟩ | ⟨closed, rfl⟩ | rfl
  all_goals
    simp only [step] at hstep
    split at hstep
  · rename_i hstarting
    cases hstep
    exact h.of_listener (by rw [hstarting]; exact nofun)
      fun hwon => (hinside hstarting rfl hwon).elim
  · cases hstep
  · rename_i haccepting
    cases hstep
    exact h.of_listener (by rw [haccepting]; exact nofun)
      fun hwon => (hinside haccepting rfl hwon).elim
  · cases hstep
  · rename_i hreceiving
    cases hstep
    exact h.of_listener (by rw [hreceiving]; exact nofun)
      fun hwon => (hinside hreceiving rfl hwon).elim
  · cases hstep
  · rename_i hclosing
    cases hstep
    exact h.of_listener (by rw [hclosing]; exact nofun) fun _ => rfl
  · cases hstep

/-- **The export thread.** -/
theorem Balanced.exporter (h : Balanced s) {l : Label} (hl : l = .waitExport ∨ l = .exported)
    (hstep : step s l = some t) : Balanced t := by
  rcases hl with rfl | rfl
  · simp only [step] at hstep
    split at hstep
    · rename_i hwaiting
      split at hstep
      · rename_i exportSignal _
        cases hstep
        refine h.of_exporter .exporting exportSignal s.exportFinish ?_
        rw [hwaiting]
        exact fun hset => Or.inr (hset.resolve_left nofun)
      · rename_i exportFinish _ _
        cases hstep
        exact h.of_exporter .left s.exportSignal exportFinish fun _ => Or.inl rfl
      · cases hstep
    · cases hstep
  · simp only [step] at hstep
    split at hstep
    · rename_i hexporting
      cases hstep
      refine h.of_exporter .waiting s.exportSignal s.exportFinish ?_
      rw [hexporting]
      exact fun hset => Or.inr (hset.resolve_left nofun)
    · cases hstep

end Steps

/-- **Every step keeps the balance.** -/
theorem balanced_step (s : State) (l : Label) (t : State) (h : Balanced s)
    (hstep : step s l = some t) : Balanced t := by
  cases l with
  | createThread => exact h.createThread hstep
  | pollInput => exact h.pollInput hstep
  | readKey quit => exact h.readKey hstep
  | callInput => exact h.callInput hstep
  | pollReceiver => exact h.pollReceiver hstep
  | receive received => exact h.receive hstep
  | callReceiver => exact h.callReceiver hstep
  | pollListener => exact h.pollListener hstep
  | listen ok => exact h.listener (Or.inl ⟨ok, rfl⟩) hstep
  | accept accepted => exact h.listener (Or.inr (Or.inl ⟨accepted, rfl⟩)) hstep
  | receivePeer closed => exact h.listener (Or.inr (Or.inr (Or.inl ⟨closed, rfl⟩))) hstep
  | closePeer => exact h.listener (Or.inr (Or.inr (Or.inr rfl))) hstep
  | waitExport => exact h.exporter (Or.inl rfl) hstep
  | exported => exact h.exporter (Or.inr rfl) hstep

/-! ## Every run -/

/-- A thread at a poll has that poll to win. -/
theorem polls_pos {s : State}
    (h : s.input = .polling ∨ s.receiver = .polling ∨ s.listener = .outerPoll ∨
      s.listener = .innerPoll) : 0 < s.polls := by
  unfold State.polls
  rcases h with hat | hat | hat | hat
  · rw [hat, InputAt.polls]
    omega
  · rw [hat, ReceiverAt.polls]
    omega
  · rw [hat]
    cases s.listenerWon <;> simp [ListenerAt.polls]
  · rw [hat]
    cases s.listenerWon <;> simp [ListenerAt.polls]

theorem Balanced.accounted {s : State} (h : Balanced s) (hreturned : 0 < s.returned) :
    Accounted s := by
  have htrue : s.finishFlag = true := by
    cases hflag : s.finishFlag with
    | true => rfl
    | false =>
      have hnone := (h.before hflag).2.2.1
      omega
  have hpermits := h.after htrue
  refine ⟨hpermits, ?_, ?_, ?_⟩
  · exact (h.exportFinish (Or.inl hreturned)).resolve_left
  · intro hwon
    have houtside := h.outside hwon
    cases hat : s.listener with
    | closing => exact Or.inl rfl
    | outerPoll => exact Or.inr (Or.inl rfl)
    | left => exact Or.inr (Or.inr rfl)
    | notStarted | starting | accepting | innerPoll | receiving =>
      rw [hat] at houtside
      cases houtside
  · intro hat hwait
    have hzero := Semaphore.wait_eq_none.mp hwait
    have hpos := polls_pos hat
    omega

/-- **The permits suffice** in every state behind the first call of
`SetFinishSignal`, in every run. -/
theorem permits_suffice {ls : List Label} {s : State} (h : exec step init ls = some s)
    (hreturned : 0 < s.returned) : Accounted s :=
  (exec_invariant balanced_step balanced_init h).accounted hreturned

/-- A peer is connected when a `MSG_SHUTDOWN` comes; the listener wins its
inner poll. -/
def shutdownRun : List Label :=
  [.createThread, .createThread, .createThread, .createThread, .listen true, .pollListener,
    .accept true, .pollReceiver, .receive .shutdown, .callReceiver, .callReceiver, .callReceiver,
    .callReceiver, .pollListener]

theorem permits_suffice_shutdown : ∃ s, exec step init shutdownRun = some s ∧ Accounted s := by
  obtain ⟨s, hs, hreturned⟩ : ∃ s, exec step init shutdownRun = some s ∧ 0 < s.returned :=
    ⟨_, rfl, Nat.zero_lt_one⟩
  exact ⟨s, hs, permits_suffice hs hreturned⟩

end LoadBalancing.Worker.Shutdown
