/-
LoadBalancing.Client.BackOff — how long the client's receiver keeps the
sender paused, `Client/ReceiverThread.c`.

At a `MSG_ERROR` with `ERR_SERVER_BUSY` the receiver pauses the sender,
sleeps for a time that a multiplier scales, and doubles the multiplier.
The multiplier is set back to 1 behind the `switch`, which the error
reaches as any other message does. So it is 1 at the top of every
iteration (`handled_eq`), and every pause has the same length.

`backs_off_iff` is the consequence for the doubling pauses: a run has them
exactly when no busy error follows directly on another one.

A step is one iteration of the loop, labelled with what it meets. The
counters of `VerificationRun` are kept, as the exit test reads them.
Out of scope: the log output.

No `sorry`, no `axiom`, no `native_decide`.
-/
import LoadBalancing.Base.Transition
import LoadBalancing.Client.VerificationRun
import Mathlib.Data.List.Chain
import Mathlib.Data.List.Induction

namespace LoadBalancing.Client.BackOff

open LoadBalancing.Base LoadBalancing.Lib

/-! ## The loop of the receiver -/

/-- `CLIENT_SERVER_FULL_SLEEP_TIME`. -/
def clientServerFullSleepTime : Int := 1000

/-- A call that the sender notices, or that makes it wait longer. -/
inductive SenderCall where
  | setPauseSender (pause : Bool)
  | sleep (milliseconds : Int)
  deriving DecidableEq

/-- The locals of `ReceiverThread` that last from one iteration to the next,
the counters, whether this thread has called `SetFinishSignal`, whether it
has left its loop, and every message it has handled with the calls made
for it. -/
structure Receiver where
  serverFullSleepTimeMultiplier : Int
  testData : TestVerification
  finishFlag : Bool
  ended : Bool
  handled : List (Message × List SenderCall)
  deriving DecidableEq

/-- A receiver in front of its loop. -/
def start : Receiver := ⟨1, ⟨0, 0, 0, 0, 0, 0⟩, false, false, []⟩

/-- The calls of a pause. -/
def pause (milliseconds : Int) : List SenderCall :=
  [.setPauseSender true, .sleep milliseconds, .setPauseSender false]

/-- The `switch` over a message, with the calls made in it. -/
def switchMessage (r : Receiver) (message : Message) : Receiver × List SenderCall :=
  match MessageType.ofValue? message.type with
  | some .putResponse => ({ r with testData := countPutResponse r.testData message.payload }, [])
  | some .getResponse => ({ r with testData := countGetResponse r.testData message.payload }, [])
  | some .shutdown => ({ r with finishFlag := true }, [])
  | some .error =>
    if pausesSender message.payload then
      ({ r with serverFullSleepTimeMultiplier := r.serverFullSleepTimeMultiplier * 2 },
        pause (clientServerFullSleepTime * r.serverFullSleepTimeMultiplier))
    else (r, [])
  | _ => (r, [])

/-- The `switch` and what follows it. -/
def handleMessage (r : Receiver) (message : Message) : Receiver :=
  let (switched, calls) := switchMessage r message
  let handled := switched.handled ++ [(message, calls)]
  if switched.serverFullSleepTimeMultiplier ≠ 1 then
    { switched with serverFullSleepTimeMultiplier := 1, handled := handled }
  else { switched with handled := handled }

/-- What an iteration meets: a permit of `finishSignal`, a socket that is
not valid, enough replies counted, a message, or a `ProtocolReceive` that
fails. -/
inductive Iteration where
  | finishSignal
  | invalidSocket
  | allReceived
  | received (message : Message)
  | failed
  deriving DecidableEq

/-- One iteration; `none` where the thread is behind its loop or does not
get that far. -/
def step (messageCount : Int) (r : Receiver) (iteration : Iteration) : Option Receiver :=
  if r.ended then none
  else match iteration with
    | .finishSignal => some { r with ended := true }
    | .invalidSocket =>
      if r.finishFlag then none else some { r with finishFlag := true, ended := true }
    | .allReceived =>
      if r.finishFlag ∨ r.testData.getResponses < messageCount then none
      else some { r with finishFlag := true, ended := true }
    | .received message =>
      if r.finishFlag ∨ messageCount ≤ r.testData.getResponses then none
      else some (handleMessage r message)
    | .failed =>
      if r.finishFlag ∨ messageCount ≤ r.testData.getResponses then none
      else some { r with finishFlag := true, ended := true }

/-- The message of an iteration. -/
def Iteration.message? : Iteration → Option Message
  | .received message => some message
  | _ => none

/-- The messages of a run. -/
def messages (iterations : List Iteration) : List Message :=
  iterations.filterMap Iteration.message?

/-! ## What is promised -/

/-- `INT_MAX`. -/
def intMax : Int := 2147483647

/-- A well-formed `ERR_SERVER_BUSY`. -/
def isBusy (message : Message) : Bool :=
  MessageType.ofValue? message.type == some .error && pausesSender message.payload

/-- The busy errors at the end of the messages, with no other message
between them. -/
def streak (received : List Message) : Nat := (received.reverse.takeWhile isBusy).length

/-- **The promised pauses**: the sender is paused twice as long at each busy
error as at the one in front of it, as long as the time fits an `int`. -/
def BacksOff (handled : List (Message × List SenderCall)) : Prop :=
  ∀ before message calls after, handled = before ++ (message, calls) :: after →
    isBusy message = true →
    clientServerFullSleepTime * 2 ^ streak (before.map Prod.fst) ≤ intMax →
    calls = pause (clientServerFullSleepTime * 2 ^ streak (before.map Prod.fst))

/-- No busy error follows directly on another one. -/
def NoStreak (received : List Message) : Prop :=
  received.IsChain fun message next => ¬ (isBusy message = true ∧ isBusy next = true)

instance (received : List Message) : Decidable (NoStreak received) :=
  inferInstanceAs (Decidable (List.IsChain _ _))

/-! ## What is done -/

/-- The calls made for a message. -/
def callsFor (message : Message) : List SenderCall :=
  if isBusy message then pause clientServerFullSleepTime else []

/-- **One iteration** starts with the multiplier at 1 and leaves it there. -/
theorem handleMessage_eq {r : Receiver} (h : r.serverFullSleepTimeMultiplier = 1)
    (message : Message) :
    (handleMessage r message).serverFullSleepTimeMultiplier = 1 ∧
      (handleMessage r message).handled = r.handled ++ [(message, callsFor message)] := by
  have hcalls : (switchMessage r message).1.handled = r.handled ∧
      (switchMessage r message).2 = callsFor message := by
    unfold switchMessage callsFor isBusy
    cases MessageType.ofValue? message.type with
    | none => exact ⟨rfl, rfl⟩
    | some type =>
      cases type with
      | error =>
        cases pausesSender message.payload with
        | true => simp [h]
        | false => exact ⟨rfl, rfl⟩
      | putResponse | getResponse | shutdown | put | get | storeRequest | storeResponse
      | retrieveRequest | retrieveResponse | workerEntry | dataExportStart | dataEntry
      | dataExportEnd | workerReady | peerNotify => exact ⟨rfl, rfl⟩
  unfold handleMessage
  simp only [hcalls.1, hcalls.2]
  split
  · exact ⟨rfl, rfl⟩
  · rename_i hone
    exact ⟨not_not.mp hone, rfl⟩

/-- **Every step** adds its message, with a pause that does not depend on
the messages before. -/
theorem step_handled {messageCount : Int} {r r' : Receiver} {iteration : Iteration}
    (h : r.serverFullSleepTimeMultiplier = 1) (hstep : step messageCount r iteration = some r') :
    r'.serverFullSleepTimeMultiplier = 1 ∧
      r'.handled = r.handled ++ iteration.message?.toList.map fun m => (m, callsFor m) := by
  unfold step at hstep
  split at hstep
  · cases hstep
  · cases iteration with
    | finishSignal =>
      cases hstep
      exact ⟨h, (List.append_nil _).symm⟩
    | received message =>
      simp only at hstep
      split at hstep
      · cases hstep
      · cases hstep
        exact handleMessage_eq h message
    | invalidSocket | allReceived | failed =>
      simp only at hstep
      split at hstep
      · cases hstep
      · cases hstep
        exact ⟨h, (List.append_nil _).symm⟩

/-- **Every run** pauses for the same time at each busy error. -/
theorem handled_eq {messageCount : Int} {iterations : List Iteration} {r : Receiver}
    (h : exec (step messageCount) start iterations = some r) :
    r.handled = (messages iterations).map fun m => (m, callsFor m) := by
  have hrun := exec_history_along (P := fun _ _ => True)
    (I := fun done r => r.serverFullSleepTimeMultiplier = 1 ∧
      r.handled = (messages done).map fun m => (m, callsFor m))
    (fun done r iteration r' hI _ hstep => by
      obtain ⟨hone, hhandled⟩ := step_handled hI.1 hstep
      refine ⟨hone, ?_⟩
      rw [hhandled, hI.2, messages, messages, List.filterMap_append, List.map_append]
      cases hmessage : iteration.message? <;> simp [hmessage])
    [] ⟨rfl, rfl⟩ (along_of_forall (fun _ _ => trivial) _ _) h
  exact hrun.2

/-! ## Streaks -/

theorem streak_concat (received : List Message) (message : Message) :
    streak (received ++ [message]) = if isBusy message then streak received + 1 else 0 := by
  unfold streak
  rw [List.reverse_append, List.reverse_singleton, List.singleton_append, List.takeWhile_cons]
  cases isBusy message <;> simp

theorem streak_eq_zero {received : List Message} :
    streak received = 0 ↔ ∀ last ∈ received.getLast?, isBusy last = false := by
  rcases List.eq_nil_or_concat received with rfl | ⟨front, last, rfl⟩
  · simp [streak]
  · rw [List.concat_eq_append, streak_concat, List.getLast?_append_of_ne_nil _ (by simp)]
    cases hlast : isBusy last <;> simp [hlast]

/-- One more message: if it is a busy error, none may be in front of it. -/
theorem noStreak_concat {received : List Message} {message : Message} :
    NoStreak (received ++ [message]) ↔
      NoStreak received ∧ (isBusy message = true → streak received = 0) := by
  rw [NoStreak, List.isChain_append, streak_eq_zero]
  refine and_congr_right fun _ => ?_
  constructor
  · rintro ⟨-, hlast⟩ hbusy last hmem
    rw [Bool.eq_false_iff]
    exact fun hother => hlast last hmem message rfl ⟨hother, hbusy⟩
  · intro hlast
    refine ⟨List.IsChain.singleton _, ?_⟩
    rintro last hmem next hnext ⟨hother, hbusy⟩
    cases hnext
    rw [hlast hbusy last hmem] at hother
    cases hother

theorem streak_le_one {received : List Message} (h : NoStreak received) :
    streak received ≤ 1 := by
  rcases List.eq_nil_or_concat received with rfl | ⟨front, last, rfl⟩
  · exact Nat.zero_le _
  · rw [List.concat_eq_append] at h ⊢
    rw [streak_concat]
    cases hlast : isBusy last with
    | true =>
      rw [if_pos rfl, (noStreak_concat.mp h).2 hlast]
    | false => exact Nat.zero_le _

theorem backsOff_concat {handled : List (Message × List SenderCall)} {message : Message}
    {calls : List SenderCall} :
    BacksOff (handled ++ [(message, calls)]) ↔ BacksOff handled ∧
      (isBusy message = true →
        clientServerFullSleepTime * 2 ^ streak (handled.map Prod.fst) ≤ intMax →
        calls = pause (clientServerFullSleepTime * 2 ^ streak (handled.map Prod.fst))) := by
  constructor
  · intro h
    refine ⟨?_, h handled message calls [] rfl⟩
    rintro before other otherCalls after rfl
    exact h before other otherCalls (after ++ [(message, calls)]) (by simp)
  · rintro ⟨hfront, hlast⟩ before other otherCalls after hsplit
    rcases List.eq_nil_or_concat after with rfl | ⟨between, last, rfl⟩
    · obtain ⟨rfl, hsame⟩ := List.append_inj' hsplit rfl
      cases hsame
      exact hlast
    · rw [List.concat_eq_append, ← List.cons_append, ← List.append_assoc] at hsplit
      obtain ⟨rfl, -⟩ := List.append_inj' hsplit rfl
      exact hfront before other otherCalls between rfl

/-- Pauses that are all of the same length double as promised if and only
if there is no streak. -/
theorem backsOff_iff_noStreak (received : List Message) :
    BacksOff (received.map fun m => (m, callsFor m)) ↔ NoStreak received := by
  induction received using List.reverseRecOn with
  | nil => simp [BacksOff, NoStreak]
  | append_singleton received message ih =>
    have hfst : (received.map fun m => (m, callsFor m)).map Prod.fst = received := by
      rw [List.map_map]
      exact List.map_id _
    rw [List.map_append, List.map_singleton, backsOff_concat, ih, noStreak_concat, hfst]
    refine and_congr_right fun hno => imp_congr_right fun hbusy => ?_
    have hle := streak_le_one hno
    rw [callsFor, if_pos hbusy]
    constructor
    · intro hpause
      by_contra hstreak
      have hone : streak received = 1 := by omega
      rw [hone] at hpause
      have hsame := hpause (by decide)
      cases hsame
    · intro hzero _
      rw [hzero]
      rfl

/-! ## Every run -/

/-- **When the client backs off**: in the runs in which no busy error
follows directly on another one. -/
theorem backs_off_iff {messageCount : Int} {iterations : List Iteration} {r : Receiver}
    (h : exec (step messageCount) start iterations = some r) :
    BacksOff r.handled ↔ NoStreak (messages iterations) := by
  rw [handled_eq h]
  exact backsOff_iff_noStreak _

/-- An error with a code and no text. -/
def errorMessage (code : ErrorCode) : Message :=
  ⟨MessageType.error.value, [code.value, 0, 0]⟩

/-- Two busy errors with a reply between them. -/
theorem backs_off_iff_between :
    ∃ r, exec (step 100) start [.received (errorMessage .serverBusy),
        .received ⟨MessageType.putResponse.value, []⟩, .received (errorMessage .serverBusy)] =
          some r ∧ BacksOff r.handled :=
  Exists.imp (fun _ h => ⟨h, (backs_off_iff h).mpr (by decide)⟩) ⟨_, rfl⟩

/-- **The second of two busy errors** finds the multiplier set back. -/
theorem second_pause_not_doubled :
    ¬ ∀ (messageCount : Int) (iterations : List Iteration) (r : Receiver),
      exec (step messageCount) start iterations = some r → BacksOff r.handled := by
  intro hall
  have hback := hall 100
    [.received (errorMessage .serverBusy), .received (errorMessage .serverBusy)] _ rfl
  have hsecond := hback [(errorMessage .serverBusy, pause 1000)] (errorMessage .serverBusy)
    (pause 1000) [] rfl (by decide) (by decide)
  cases hsecond

end LoadBalancing.Client.BackOff
