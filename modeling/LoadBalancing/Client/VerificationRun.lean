/-
LoadBalancing.Client.VerificationRun — the client's PUT and GET requests
and the replies to them, `Client/SenderThread.c` and
`Client/ReceiverThread.c`.

The sender stores `messageCount` keys and then asks for them; the receiver
counts the replies and ends when as many replies to GETs have been counted
as there are messages. Here they run against any server that answers each
request once, in any order, with the response of its kind, well formed or
not, or with an error.

An error in place of a response is not counted, whatever it was for. So
the number of GETs that are sent and never counted only grows, by one with
each error for a GET (`uncounted_step`), and `exit_test_iff` is the
consequence: when all is sent and processed, the receiver's exit test
holds in exactly the runs where no GET was answered with an error.

A step of a thread has one access to what it shares with others. The
finish signal is one flag, as it is released for all threads at once. A
send that fails is taken to deliver nothing. Out of scope: the input
thread, a socket that is not valid, the sleeps, and the log output.

No `sorry`, no `axiom`, no `native_decide`.
-/
import LoadBalancing.Base.Transition
import LoadBalancing.Lib.Protocol
import Mathlib.Data.List.Perm.Basic

namespace LoadBalancing.Client

open LoadBalancing.Base LoadBalancing.Lib

/-! ## Keys and values -/

/-- `GenerateKey`: `"%d|%lu|%d"` into a buffer of `MAX_KEY_SIZE` bytes. -/
def generateKey (localPort : Int32) (processId : UInt32) (id : Int) : CString :=
  (CString.ofString (toString localPort.toInt ++ "|" ++ toString processId.toNat ++ "|" ++
    toString id)).truncate (maxKeySize - 1)

/-- The characters of a random value: `'A' + rand() % 26`. -/
def randomLetters (rand : Nat → Nat) (length : Nat) : List UInt8 :=
  (List.range length).map fun i => UInt8.ofNat (65 + rand (i + 1) % 26)

theorem zero_notMem_randomLetters (rand : Nat → Nat) (length : Nat) :
    (0 : UInt8) ∉ randomLetters rand length := by
  intro hzero
  obtain ⟨i, -, hletter⟩ := List.mem_map.mp hzero
  have hnat := congrArg UInt8.toNat hletter
  rw [UInt8.toNat_ofNat', UInt8.toNat_zero] at hnat
  omega

/-- `GenerateRandomValue`; `rand` are the results of the calls of `rand`. -/
def generateRandomValue (rand : Nat → Nat) : CString :=
  let length := rand 0 % (maxValueSize - 1) + 1
  ⟨randomLetters rand length, zero_notMem_randomLetters rand length⟩

/-! ## State -/

/-- The counters of `TestVerification`. -/
structure TestVerification where
  putSuccessCount : Int
  getSuccessCount : Int
  putFailureCount : Int
  getFailureCount : Int
  putCount : Int
  getCount : Int
  deriving DecidableEq

/-- What stays the same in a run. -/
structure Settings where
  messageCount : Int
  localPort : Int32
  processId : UInt32

/-- A request that the sender is about to make. -/
inductive ClientRequest where
  | put (key value : CString)
  | get (key : CString)
  deriving DecidableEq

/-- `SendPut` or `SendGet`. -/
def ClientRequest.message : ClientRequest → Option Message
  | .put key value => sendPut key value
  | .get key => sendGet key

/-- `SenderThread`: at the top of its loop, behind the test of the finish
signal, with a request that is not counted yet, in front of its send, and
behind the loop. -/
inductive SenderAt where
  | top
  | running
  | generated (request : ClientRequest)
  | counted (request : ClientRequest)
  | ended
  deriving DecidableEq

/-- `ReceiverThread`: at the top of its loop, in front of `ProtocolReceive`,
in the two halves of its pause, in front of `SetFinishSignal` with the loop
to go on or to end, and behind the loop. -/
inductive ReceiverAt where
  | top
  | receiving
  | busy
  | pausing
  | shutdown
  | closing
  | ended
  deriving DecidableEq

/-- The client, the requests that are not answered, the replies that are not
processed, and all that was ever sent. -/
structure State where
  finishFlag : Bool
  pauseSender : Bool
  testData : TestVerification
  sender : SenderAt
  messageCounter : Int
  verificationPhase : Int
  verificationCounter : Int
  receiver : ReceiverAt
  requests : List Message
  replies : List Message
  sent : List Message
  deriving DecidableEq

/-- A client whose threads have not run. -/
def start : State :=
  ⟨false, false, ⟨0, 0, 0, 0, 0, 0⟩, .top, 0, 0, 0, .top, [], [], []⟩

/-! ## The sender -/

/-- The body of the loop up to the request, with `GetPauseSender` at its
beginning. -/
def prepare (c : Settings) (s : State) (rand : Nat → Nat) : State :=
  if s.pauseSender then { s with sender := .top }
  else if s.verificationPhase = 0 ∧ c.messageCount ≤ s.messageCounter then
    { s with verificationPhase := 1, sender := .top }
  else if s.verificationPhase = 1 ∧ c.messageCount ≤ s.verificationCounter then
    { s with sender := .ended }
  else if s.verificationPhase = 1 then
    let key := generateKey c.localPort c.processId (s.verificationCounter + 1)
    if 0 < key.strlen ∧ key.strlen ≤ maxKeySize then { s with sender := .generated (.get key) }
    else { s with verificationCounter := s.verificationCounter + 1, sender := .top }
  else
    let key := generateKey c.localPort c.processId (s.messageCounter + 1)
    let value := generateRandomValue rand
    if key.strlen ≤ 0 ∨ maxKeySize < key.strlen then { s with sender := .top }
    else if value.strlen ≤ 0 ∨ maxValueSize < value.strlen then { s with sender := .top }
    else { s with sender := .generated (.put key value) }

/-- `putCount++` or `getCount++`, under the lock. -/
def countRequest (testData : TestVerification) : ClientRequest → TestVerification
  | .put _ _ => { testData with putCount := testData.putCount + 1 }
  | .get _ => { testData with getCount := testData.getCount + 1 }

/-- The counter of a request that was sent. -/
def advance (s : State) : ClientRequest → State
  | .put _ _ => { s with messageCounter := s.messageCounter + 1 }
  | .get _ => { s with verificationCounter := s.verificationCounter + 1 }

/-- `SendPut` or `SendGet` with the result of `ProtocolSend`, and what
follows in the loop. -/
def sendRequest (s : State) (request : ClientRequest) (sendResult : Int) : State :=
  match request.message with
  | none => { s with sender := .top }
  | some message =>
    if 0 < sendResult then
      { advance s request with
        sender := .top, requests := s.requests ++ [message], sent := s.sent ++ [message] }
    else if sendResult = 0 then { s with sender := .ended }
    else { s with sender := .top }

/-! ## The receiver -/

/-- The exit test of the receiver. -/
def ExitTest (c : Settings) (s : State) : Prop :=
  c.messageCount ≤ s.testData.getSuccessCount + s.testData.getFailureCount

instance (c : Settings) (s : State) : Decidable (ExitTest c s) :=
  inferInstanceAs (Decidable (_ ≤ _))

/-- `case MSG_PUT_RESPONSE`. -/
def countPutResponse (testData : TestVerification) (payload : List UInt8) : TestVerification :=
  match receivePutResponse payload with
  | .accept (errorCode, _) =>
    if errorCode = ErrorCode.none.value then
      { testData with putSuccessCount := testData.putSuccessCount + 1 }
    else { testData with putFailureCount := testData.putFailureCount + 1 }
  | _ => { testData with putFailureCount := testData.putFailureCount + 1 }

/-- `case MSG_GET_RESPONSE`. -/
def countGetResponse (testData : TestVerification) (payload : List UInt8) : TestVerification :=
  match receiveGetResponse payload with
  | .accept (errorCode, _, _) =>
    if errorCode = ErrorCode.none.value then
      { testData with getSuccessCount := testData.getSuccessCount + 1 }
    else { testData with getFailureCount := testData.getFailureCount + 1 }
  | _ => { testData with getFailureCount := testData.getFailureCount + 1 }

/-- Whether `case MSG_ERROR` pauses the sender. -/
def pausesSender (payload : List UInt8) : Bool :=
  match receiveError payload with
  | .accept (errorCode, _) => errorCode == ErrorCode.serverBusy.value
  | _ => false

/-- The `switch` over a message that was received. -/
def receiveMessage (s : State) (message : Message) : State :=
  match MessageType.ofValue? message.type with
  | some .putResponse =>
    { s with testData := countPutResponse s.testData message.payload, receiver := .top }
  | some .getResponse =>
    { s with testData := countGetResponse s.testData message.payload, receiver := .top }
  | some .shutdown => { s with receiver := .shutdown }
  | some .error => { s with receiver := if pausesSender message.payload then .busy else .top }
  | _ => { s with receiver := .top }

/-! ## Steps -/

/-- A `MSG_PUT`. -/
def isPut (message : Message) : Bool := message.type == MessageType.put.value

/-- A `MSG_GET`. -/
def isGet (message : Message) : Bool := message.type == MessageType.get.value

/-- A `MSG_GET_RESPONSE`. -/
def isGetResponse (message : Message) : Bool := message.type == MessageType.getResponse.value

/-- The reply is the response of the kind of the request, or an error. -/
def Answers (request reply : Message) : Prop :=
  reply.type = MessageType.error.value ∨
    isPut request = true ∧ reply.type = MessageType.putResponse.value ∨
    isGet request = true ∧ reply.type = MessageType.getResponse.value

instance (request reply : Message) : Decidable (Answers request reply) :=
  inferInstanceAs (Decidable (_ ∨ _))

/-- One step of the sender, of the server, or of the receiver. -/
inductive Label where
  | testFinish
  | prepare (rand : Nat → Nat)
  | count
  | send (sendResult : Int)
  | answer (i : Nat) (reply : Message)
  | testExit
  | receive
  | receiveFailed
  | pause
  | resume
  | setFinishSignal

/-- One step; `none` where the thread is elsewhere, or the server has no such
request or no such answer. -/
def step (c : Settings) (s : State) : Label → Option State
  | .testFinish =>
    match s.sender with
    | .top => some { s with sender := if s.finishFlag then .ended else .running }
    | _ => none
  | .prepare rand =>
    match s.sender with
    | .running => some (prepare c s rand)
    | _ => none
  | .count =>
    match s.sender with
    | .generated request =>
      some { s with testData := countRequest s.testData request, sender := .counted request }
    | _ => none
  | .send sendResult =>
    match s.sender with
    | .counted request => some (sendRequest s request sendResult)
    | _ => none
  | .answer i reply =>
    match s.requests[i]? with
    | some request =>
      if Answers request reply then
        some { s with requests := s.requests.eraseIdx i, replies := s.replies ++ [reply] }
      else none
    | none => none
  | .testExit =>
    match s.receiver with
    | .top =>
      some { s with
        receiver := if s.finishFlag then .ended
          else if ExitTest c s then .closing else .receiving }
    | _ => none
  | .receive =>
    match s.receiver, s.replies with
    | .receiving, message :: replies => some { receiveMessage s message with replies := replies }
    | _, _ => none
  | .receiveFailed =>
    match s.receiver with
    | .receiving => some { s with receiver := .closing }
    | _ => none
  | .pause =>
    match s.receiver with
    | .busy => some { s with pauseSender := true, receiver := .pausing }
    | _ => none
  | .resume =>
    match s.receiver with
    | .pausing => some { s with pauseSender := false, receiver := .top }
    | _ => none
  | .setFinishSignal =>
    match s.receiver with
    | .shutdown => some { s with finishFlag := true, receiver := .top }
    | .closing => some { s with finishFlag := true, receiver := .ended }
    | _ => none

/-- A step of the server that answers a GET with an error. -/
def RefusesGet (s : State) : Label → Prop
  | .answer i reply =>
    (∃ request ∈ s.requests[i]?, isGet request = true) ∧ reply.type = MessageType.error.value
  | _ => False

instance (s : State) (l : Label) : Decidable (RefusesGet s l) := by
  cases l <;> simp only [RefusesGet] <;> infer_instance

/-! ## GETs that are never counted -/

/-- The replies to GETs that the receiver has counted. -/
def TestVerification.getResponses (testData : TestVerification) : Int :=
  testData.getSuccessCount + testData.getFailureCount

/-- The GETs sent that are not counted, and neither waiting for an answer nor
answered by a response that is not processed. -/
def uncounted (s : State) : Int :=
  s.sent.countP isGet -
    (s.requests.countP isGet + s.replies.countP isGetResponse + s.testData.getResponses)

theorem uncounted_start : uncounted start = 0 := rfl

theorem getResponses_countRequest (testData : TestVerification) (request : ClientRequest) :
    (countRequest testData request).getResponses = testData.getResponses := by
  cases request <;> rfl

theorem getResponses_countPutResponse (testData : TestVerification) (payload : List UInt8) :
    (countPutResponse testData payload).getResponses = testData.getResponses := by
  unfold countPutResponse
  split
  · split <;> rfl
  · rfl

/-- **Every `MSG_GET_RESPONSE` is counted**, whatever its payload. -/
theorem getResponses_countGetResponse (testData : TestVerification) (payload : List UInt8) :
    (countGetResponse testData payload).getResponses = testData.getResponses + 1 := by
  have hfailure : testData.getSuccessCount + (testData.getFailureCount + 1) =
      testData.getSuccessCount + testData.getFailureCount + 1 := by omega
  have hsuccess : testData.getSuccessCount + 1 + testData.getFailureCount =
      testData.getSuccessCount + testData.getFailureCount + 1 := by omega
  unfold countGetResponse
  split
  · split
    · exact hsuccess
    · exact hfailure
  · exact hfailure

/-- Nothing but messages and replies is counted. -/
theorem uncounted_congr {s t : State} (hsent : t.sent = s.sent)
    (hrequests : t.requests = s.requests) (hreplies : t.replies = s.replies)
    (hcounted : t.testData.getResponses = s.testData.getResponses) :
    uncounted t = uncounted s := by
  rw [uncounted, uncounted, hsent, hrequests, hreplies, hcounted]

/-- What `prepare` leaves alone. -/
theorem prepare_eq (c : Settings) (s : State) (rand : Nat → Nat) :
    ∃ sender phase counter, prepare c s rand =
      { s with sender := sender, verificationPhase := phase, verificationCounter := counter } := by
  unfold prepare
  split
  · exact ⟨_, _, _, rfl⟩
  · split
    · exact ⟨_, _, _, rfl⟩
    · split
      · exact ⟨_, _, _, rfl⟩
      · split
        · simp only
          split
          · exact ⟨_, _, _, rfl⟩
          · exact ⟨_, _, _, rfl⟩
        · simp only
          split
          · exact ⟨_, _, _, rfl⟩
          · split
            · exact ⟨_, _, _, rfl⟩
            · exact ⟨_, _, _, rfl⟩

/-- **A request that is sent** waits for its answer. -/
theorem uncounted_sendRequest (s : State) (request : ClientRequest) (sendResult : Int) :
    uncounted (sendRequest s request sendResult) = uncounted s := by
  unfold sendRequest
  split
  · exact uncounted_congr rfl rfl rfl rfl
  · rename_i message hmessage
    split
    · have hcounted : (advance s request).testData = s.testData := by cases request <;> rfl
      have hreplies : (advance s request).replies = s.replies := by cases request <;> rfl
      simp only [uncounted, hcounted, hreplies, List.countP_append, Nat.cast_add]
      omega
    · split <;> exact uncounted_congr rfl rfl rfl rfl

theorem isGetResponse_iff {message : Message} :
    isGetResponse message = true ↔ MessageType.ofValue? message.type = some .getResponse := by
  constructor
  · intro hresponse
    rw [beq_iff_eq.mp hresponse, MessageType.ofValue?_value]
  · intro htype
    have hfound := List.find?_some htype
    exact beq_iff_eq.mpr (beq_iff_eq.mp hfound).symm

/-- **A reply that is processed** is counted if it is a response to a GET. -/
theorem uncounted_receiveMessage {s : State} {message : Message} {replies : List Message}
    (hreplies : s.replies = message :: replies) :
    uncounted { receiveMessage s message with replies := replies } = uncounted s := by
  have hcons : (s.replies.countP isGetResponse : Int) =
      replies.countP isGetResponse + (isGetResponse message).toNat := by
    rw [hreplies, List.countP_cons]
    cases isGetResponse message <;> simp
  have hother : MessageType.ofValue? message.type ≠ some .getResponse →
      isGetResponse message = false := by
    intro htype
    rw [Bool.eq_false_iff]
    exact fun hresponse => htype (isGetResponse_iff.mp hresponse)
  cases htype : MessageType.ofValue? message.type with
  | none =>
    rw [hother (by rw [htype]; exact nofun)] at hcons
    simp only [uncounted, receiveMessage, htype, hcons, Bool.toNat_false, Nat.cast_zero, add_zero]
  | some type =>
    cases type with
    | getResponse =>
      rw [isGetResponse_iff.mpr htype] at hcons
      simp only [uncounted, receiveMessage, htype, hcons, Bool.toNat_true, Nat.cast_one,
        getResponses_countGetResponse]
      omega
    | putResponse =>
      rw [hother (by rw [htype]; exact nofun)] at hcons
      simp only [uncounted, receiveMessage, htype, hcons, Bool.toNat_false, Nat.cast_zero, add_zero,
        getResponses_countPutResponse]
    | put | get | storeRequest | storeResponse | retrieveRequest | retrieveResponse | workerEntry
    | dataExportStart | dataEntry | dataExportEnd | workerReady | peerNotify | shutdown | error =>
      rw [hother (by rw [htype]; exact nofun)] at hcons
      simp only [uncounted, receiveMessage, htype, hcons, Bool.toNat_false, Nat.cast_zero, add_zero]

/-- **An answer** takes a request from the server and adds a reply, which is
a response to a GET only if the request was one. -/
theorem uncounted_answer {s : State} {i : Nat} {request reply : Message}
    (hrequest : s.requests[i]? = some request) (hanswers : Answers request reply) :
    uncounted { s with requests := s.requests.eraseIdx i, replies := s.replies ++ [reply] } =
      uncounted s +
        if isGet request = true ∧ reply.type = MessageType.error.value then 1 else 0 := by
  have herased : (s.requests.countP isGet : Int) =
      (s.requests.eraseIdx i).countP isGet + (isGet request).toNat := by
    obtain ⟨hi, rfl⟩ := List.getElem?_eq_some_iff.mp hrequest
    rw [← (List.getElem_cons_eraseIdx_perm hi).countP_eq, List.countP_cons]
    cases isGet s.requests[i] <;> simp
  have hadded : ((s.replies ++ [reply]).countP isGetResponse : Int) =
      s.replies.countP isGetResponse + (isGetResponse reply).toNat := by
    rw [List.countP_append, List.countP_singleton]
    cases isGetResponse reply <;> simp
  simp only [uncounted, herased, hadded]
  rcases hanswers with herror | ⟨hput, hresponse⟩ | ⟨hget, hresponse⟩
  · have hnone : isGetResponse reply = false := by
      simp [isGetResponse, herror, MessageType.value]
    cases hget : isGet request
    · simp [hnone]
    · simp [hnone, herror]
      omega
  · have hnone : isGetResponse reply = false := by
      simp [isGetResponse, hresponse, MessageType.value]
    have hget : isGet request = false := by
      simp [isGet, beq_iff_eq.mp hput, MessageType.value]
    simp [hnone, hget]
  · have hone : isGetResponse reply = true := by
      simp [isGetResponse, hresponse]
    have herror : reply.type ≠ MessageType.error.value := by
      rw [hresponse]
      decide
    simp [hone, hget, herror]
    omega

/-- **The client's own steps** lose no reply and no request. -/
theorem uncounted_thread {c : Settings} {s t : State} {l : Label}
    (hl : ∀ i reply, l ≠ .answer i reply) (hstep : step c s l = some t) :
    uncounted t = uncounted s := by
  cases l with
  | answer i reply => exact absurd rfl (hl i reply)
  | prepare rand =>
    simp only [step] at hstep
    split at hstep
    · cases hstep
      obtain ⟨sender, phase, counter, hprepare⟩ := prepare_eq c s rand
      rw [hprepare]
      exact uncounted_congr rfl rfl rfl rfl
    · cases hstep
  | count =>
    simp only [step] at hstep
    split at hstep
    · rename_i request hgenerated
      cases hstep
      exact uncounted_congr rfl rfl rfl (getResponses_countRequest s.testData request)
    · cases hstep
  | send sendResult =>
    simp only [step] at hstep
    split at hstep
    · rename_i request hcounted
      cases hstep
      exact uncounted_sendRequest s request sendResult
    · cases hstep
  | receive =>
    simp only [step] at hstep
    split at hstep
    · rename_i message replies hreceiving hreplies
      cases hstep
      exact uncounted_receiveMessage hreplies
    · cases hstep
  | testFinish | testExit | receiveFailed | pause | resume | setFinishSignal =>
    simp only [step] at hstep
    split at hstep
    all_goals cases hstep
    all_goals exact uncounted_congr rfl rfl rfl rfl

/-- **What a step adds** to the GETs that are never counted. -/
theorem uncounted_step {c : Settings} {s t : State} {l : Label} (hstep : step c s l = some t) :
    uncounted t = uncounted s + if RefusesGet s l then 1 else 0 := by
  cases l with
  | answer i reply =>
    simp only [step] at hstep
    split at hstep
    · rename_i request hrequest
      split at hstep
      · rename_i hanswers
        cases hstep
        rw [uncounted_answer hrequest hanswers]
        simp [RefusesGet, hrequest]
      · cases hstep
    · cases hstep
  | testFinish | prepare | count | send | testExit | receive | receiveFailed | pause | resume
  | setFinishSignal =>
    rw [uncounted_thread (fun _ _ h => by cases h) hstep]
    exact (add_zero _).symm

/-- Their number never falls, and rises with an error for a GET. -/
theorem uncounted_le {c : Settings} {s t : State} {l : Label} (hstep : step c s l = some t) :
    uncounted s ≤ uncounted t := by
  rw [uncounted_step hstep]
  split <;> omega

theorem uncounted_lt {c : Settings} {s t : State} {l : Label} (hrefuses : RefusesGet s l)
    (hstep : step c s l = some t) : uncounted s < uncounted t := by
  rw [uncounted_step hstep, if_pos hrefuses]
  omega

/-! ## The end of a run -/

/-- All GETs are sent, and all that was sent is answered and processed. -/
structure AllProcessed (c : Settings) (s : State) : Prop where
  sent : (s.sent.countP isGet : Int) = c.messageCount
  requests : s.requests = []
  replies : s.replies = []

/-- Then what the exit test misses are the GETs that are never counted. -/
theorem AllProcessed.exitTest_iff {c : Settings} {s : State} (h : AllProcessed c s) :
    ExitTest c s ↔ uncounted s ≤ 0 := by
  have hcounted : uncounted s = c.messageCount - s.testData.getResponses := by
    rw [uncounted, h.sent, h.requests, h.replies]
    simp
  rw [hcounted, ExitTest, TestVerification.getResponses]
  omega

/-- **When the client recognises that it is done**: in the runs where the
server answers no GET with an error. -/
theorem exit_test_iff {c : Settings} {ls : List Label} {s : State}
    (h : exec (step c) start ls = some s) (hprocessed : AllProcessed c s) :
    ExitTest c s ↔ Along (step c) (fun s l => ¬ RefusesGet s l) start ls := by
  rw [hprocessed.exitTest_iff]
  constructor
  · intro hcounted
    have hnonneg : ∀ s l t, 0 ≤ uncounted s → step c s l = some t → 0 ≤ uncounted t :=
      fun _ _ _ hs hstep => hs.trans (uncounted_le hstep)
    have hpositive : ∀ s l t, 0 ≤ uncounted s → 0 < uncounted s → step c s l = some t →
        0 < uncounted t :=
      fun _ _ _ _ hs hstep => Int.lt_of_lt_of_le hs (uncounted_le hstep)
    have hrefused : ∀ s l t, 0 ≤ uncounted s → step c s l = some t →
        ¬ RefusesGet s l ∨ 0 < uncounted t := by
      intro s l t hs hstep
      by_cases hrefuses : RefusesGet s l
      · exact Or.inr (Int.lt_of_le_of_lt hs (uncounted_lt hrefuses hstep))
      · exact Or.inl hrefuses
    have hcases := along_or_damaged hnonneg hrefused hpositive uncounted_start.ge h
    exact hcases.resolve_right (Int.not_lt.mpr hcounted)
  · intro halong
    refine exec_invariant_along (I := fun s => uncounted s ≤ 0) ?_ uncounted_start.le halong h
    intro s l t hs hrefuses hstep
    rw [uncounted_step hstep, if_neg hrefuses]
    omega

/-! ## One message -/

/-- A client with one message. -/
def oneMessage : Settings := ⟨1, 50000, 7⟩

/-- The PUT and the GET of one message, with `reply` to the GET: the sender
goes through the loop for the PUT, the end of the first phase and the GET;
the receiver reads each answer as it comes. -/
def oneMessageRun (reply : Message) : List Label :=
  [.testFinish, .prepare fun _ => 0, .count, .send 20,
    .answer 0 ⟨MessageType.putResponse.value, []⟩, .testExit, .receive,
    .testFinish, .prepare fun _ => 0, .testFinish, .prepare fun _ => 0, .count, .send 17,
    .answer 0 reply, .testExit, .receive]

/-- The GET is answered by a response that does not parse. -/
theorem exit_test_iff_malformed :
    ∃ s, exec (step oneMessage) start (oneMessageRun ⟨MessageType.getResponse.value, []⟩) = some s ∧
      ExitTest oneMessage s := by
  let reply : Message := ⟨MessageType.getResponse.value, []⟩
  have hrun : ((exec (step oneMessage) start (oneMessageRun reply)).any fun s =>
      decide ((s.sent.countP isGet : Int) = 1 ∧ s.requests = [] ∧ s.replies = [])) = true := by
    decide +kernel
  obtain ⟨s, hs, hprocessed⟩ := (Option.any_eq_true _ _).mp hrun
  obtain ⟨hsent, hrequests, hreplies⟩ := of_decide_eq_true hprocessed
  have halong : Along (step oneMessage) (fun s l => ¬ RefusesGet s l) start
      (oneMessageRun reply) := by
    decide +kernel
  exact ⟨s, hs, (exit_test_iff hs ⟨hsent, hrequests, hreplies⟩).mpr halong⟩

/-- **The client can wait forever**: its only GET is answered with an error
and nothing more will come. -/
theorem refused_get_is_not_counted :
    ¬ ∀ (c : Settings) (ls : List Label) (s : State), exec (step c) start ls = some s →
      AllProcessed c s → ExitTest c s := by
  intro hall
  let reply : Message := ⟨MessageType.error.value, [4, 0, 0]⟩
  have hrun : ((exec (step oneMessage) start (oneMessageRun reply)).any fun s =>
      decide (((s.sent.countP isGet : Int) = 1 ∧ s.requests = [] ∧ s.replies = []) ∧
        ¬ ExitTest oneMessage s)) = true := by
    decide +kernel
  obtain ⟨s, hs, hstuck⟩ := (Option.any_eq_true _ _).mp hrun
  obtain ⟨⟨hsent, hrequests, hreplies⟩, hexit⟩ := of_decide_eq_true hstuck
  exact hexit (hall oneMessage _ s hs ⟨hsent, hrequests, hreplies⟩)

end LoadBalancing.Client
