/-
LoadBalancing.LoadBalancer.SendFailures — the stream of one worker socket
when sends fail.

`WorkerClientRequestDispatcherThread` hands the requests it translates to
`ProtocolSend`, one after another; a step is one request taken up or the
outcome of one `send`. `ProtocolSend` is cut into its `send` calls here:
`Sending` is a call in progress, with the counters of the `SendBuffer`
loop. After -2 or -3 the worker is removed; after -1 the dispatcher goes
on with the next request on the same socket, whatever part of the frame
has gone.

`frames_follow_of_clean`: as long as -1 comes only in front of the first
byte of a frame, the worker receives messages that were passed on, in
their order. `torn_frame_misread` is a run where half a frame is read as
another message. `exec_protocolSend` says that the steps of one call are
the call of `NetworkLib`.

No `sorry`, no `axiom`, no `native_decide`.
-/
import LoadBalancing.Base.Transition
import LoadBalancing.Lib.PartialFrames
import LoadBalancing.LoadBalancer.RequestDispatcher

namespace LoadBalancing.LoadBalancer.SendFailures

open LoadBalancing.Base LoadBalancing.Lib

/-! ## Sends -/

/-- A `ProtocolSend` in progress: its message, whether the header is
through, and `totalSent` and `retries` of the `SendBuffer` under way. -/
structure Sending where
  message : Message
  headerSent : Bool
  totalSent : Nat
  retries : Nat
  deriving DecidableEq

namespace Sending

/-- What the `SendBuffer` under way sends. -/
def buffer (p : Sending) : List UInt8 :=
  if p.headerSent then p.message.payload
  else header p.message.type (UInt16.ofNat p.message.payload.length)

/-- Behind `moved` bytes more: the rest of the buffer, the payload behind
the header, or the end of the call. -/
def advance (p : Sending) (moved : Nat) : Option Sending :=
  if p.totalSent + moved < p.buffer.length then
    some { p with totalSent := p.totalSent + moved, retries := 0 }
  else if p.headerSent = false ∧ 0 < p.message.payload.length then
    some { p with headerSent := true, totalSent := 0, retries := 0 }
  else none

/-- A byte of the frame is on the wire. -/
def started (p : Sending) : Prop := p.headerSent = true ∨ 0 < p.totalSent

instance (p : Sending) : Decidable p.started := inferInstanceAs (Decidable (_ ∨ _))

/-- The outcome makes `ProtocolSend` return -1: an error without a code of
its own, or one would-block too many. -/
def fails (p : Sending) (answer : SocketAnswer) : Prop :=
  answer = .error .other ∨ answer = .error .wouldBlock ∧ maxRetries ≤ p.retries + 1

instance (p : Sending) (answer : SocketAnswer) : Decidable (p.fails answer) :=
  inferInstanceAs (Decidable (_ ∨ _))

end Sending

/-- The dispatcher's side of one worker socket: the call in progress,
whether the worker is removed, the bytes on the wire, and the messages
passed to `ProtocolSend` so far. -/
structure State where
  sending : Option Sending
  lost : Bool
  wire : List UInt8
  passed : List Message

/-- A request is dispatched to the worker; a `send` ends. -/
inductive Label where
  | dispatch (request : ClientRequest)
  | send (answer : SocketAnswer)

/-- A connection before its first message. -/
def start : State := ⟨none, false, [], []⟩

/-- One step. A request that is not translated into a message sends
nothing, like one whose message is too large. -/
def step (s : State) : Label → Option State
  | .dispatch request =>
    if s.sending = none ∧ s.lost = false then
      match translate request with
      | .encoded (some m) =>
        if maxMessageSize < m.payload.length then some { s with passed := s.passed ++ [m] }
        else some { s with sending := some ⟨m, false, 0, 0⟩, passed := s.passed ++ [m] }
      | _ => some s
    else none
  | .send answer =>
    match s.sending with
    | none => none
    | some p =>
      let moved := safeSend answer (p.buffer.length - p.totalSent)
      let wire := s.wire ++ (p.buffer.drop p.totalSent).take moved.toNat
      if 0 < moved then some { s with sending := p.advance moved.toNat, wire := wire }
      else if moved = 0 then
        if p.retries + 1 < maxRetries then
          some { s with sending := some { p with retries := p.retries + 1 }, wire := wire }
        else some { s with sending := none, wire := wire }
      else if moved = -2 ∨ moved = -3 then
        some { s with sending := none, lost := true, wire := wire }
      else some { s with sending := none, wire := wire }

/-- A send that makes `ProtocolSend` return -1 finds no byte of the frame
on the wire. -/
def CleanFailure (s : State) : Label → Prop
  | .send answer =>
    match s.sending with
    | some p => p.started → ¬ p.fails answer
    | none => True
  | .dispatch _ => True

instance (s : State) (l : Label) : Decidable (CleanFailure s l) := by
  cases l <;> simp only [CleanFailure] <;> try infer_instance
  split <;> infer_instance

/-! ## What a step does -/

/-- The steps of a `send`, by its outcome. -/
theorem step_send {s t : State} {answer : SocketAnswer} {p : Sending} (hp : s.sending = some p)
    (hrest : p.totalSent < p.buffer.length) (h : step s (.send answer) = some t) :
    (∃ n, 0 < n ∧ p.totalSent + n ≤ p.buffer.length ∧ t = { s with
        sending := p.advance n
        wire := s.wire ++ (p.buffer.drop p.totalSent).take n }) ∨
    (t = { s with sending := some { p with retries := p.retries + 1 } }) ∨
    (t = { s with sending := none, lost := true }) ∨
    (p.fails answer ∧ t = { s with sending := none }) := by
  have hlen : p.buffer.length - p.totalSent ≠ 0 := by omega
  simp only [step, hp] at h
  cases answer with
  | count n =>
    by_cases hzero : min n (p.buffer.length - p.totalSent) = 0
    · have hmoved : safeSend (.count n) (p.buffer.length - p.totalSent) = -2 := by
        simp only [safeSend, if_neg hlen, countResult, if_pos hzero]
      simp only [hmoved] at h
      cases h
      exact Or.inr (Or.inr (Or.inl (by simp)))
    · have hmoved : safeSend (.count n) (p.buffer.length - p.totalSent)
          = (min n (p.buffer.length - p.totalSent) : Nat) := by
        simp only [safeSend, if_neg hlen, countResult, if_neg hzero]
      simp only [hmoved, Int.toNat_natCast] at h
      rw [if_pos (by omega)] at h
      cases h
      exact Or.inl ⟨_, Nat.pos_of_ne_zero hzero, by omega, rfl⟩
  | error code =>
    have hmoved : safeSend (.error code) (p.buffer.length - p.totalSent) = errorResult code := by
      simp only [safeSend, if_neg hlen]
    simp only [hmoved, toNat_errorResult, List.take_zero, List.append_nil] at h
    cases code with
    | wouldBlock =>
      simp only [errorResult, Int.lt_irrefl, if_false, if_true] at h
      split at h
      · cases h
        exact Or.inr (Or.inl rfl)
      · rename_i hretries
        cases h
        exact Or.inr (Or.inr (Or.inr ⟨Or.inr ⟨rfl, Nat.le_of_not_lt hretries⟩, rfl⟩))
    | other =>
      cases h
      exact Or.inr (Or.inr (Or.inr ⟨Or.inl rfl, rfl⟩))
    | notInitialised => cases h; exact Or.inr (Or.inr (Or.inl rfl))
    | connReset => cases h; exact Or.inr (Or.inr (Or.inl rfl))
    | connAborted => cases h; exact Or.inr (Or.inr (Or.inl rfl))
    | netUnreach => cases h; exact Or.inr (Or.inr (Or.inl rfl))
    | hostUnreach => cases h; exact Or.inr (Or.inr (Or.inl rfl))

/-- A translated request is one that every receiver takes. -/
theorem fits_of_translate {request : ClientRequest} {m : Message}
    (h : translate request = .encoded (some m)) : m.Fits := by
  have hacc : accepts request = true := by
    unfold translate at h
    split at h
    · rename_i htype
      split at h
      · rename_i hdec
        simp only [accepts, htype, hdec]
      · cases h
    · rename_i htype
      split at h
      · rename_i hdec
        simp only [accepts, htype, hdec]
      · cases h
    · cases h
  obtain ⟨message, htranslate, -, hmessage⟩ := translate_of_accepts hacc
  rw [htranslate] at h
  cases h
  obtain ⟨htype, hsize⟩ := hmessage m rfl
  refine ⟨?_, hsize⟩
  rcases htype with htype | htype <;> rw [htype] <;> decide

/-! ## The bytes of a call in progress -/

namespace Sending

/-- What a call has put on the wire so far. -/
def onWire (p : Sending) : List UInt8 :=
  if p.headerSent then
    header p.message.type (UInt16.ofNat p.message.payload.length)
      ++ p.message.payload.take p.totalSent
  else (header p.message.type (UInt16.ofNat p.message.payload.length)).take p.totalSent

/-- It is a beginning of the frame, and not all of it. -/
theorem onWire_beginning {p : Sending} (hrest : p.totalSent < p.buffer.length) :
    p.onWire <+: p.message.frame ∧ p.onWire.length < p.message.frame.length := by
  unfold onWire
  unfold buffer at hrest
  cases hsent : p.headerSent with
  | true =>
    rw [hsent, if_pos rfl] at hrest
    rw [if_pos rfl]
    constructor
    · exact (List.prefix_append_right_inj _).mpr (List.take_prefix _ _)
    · simp only [Message.frame, List.length_append, List.length_take]
      omega
  | false =>
    rw [hsent, if_neg (by simp)] at hrest
    rw [if_neg (by simp)]
    constructor
    · exact (List.take_prefix _ _).trans (List.prefix_append _ _)
    · simp only [Message.frame, List.length_append, List.length_take]
      omega

/-- Before a byte has gone there is none. -/
theorem onWire_of_not_started {p : Sending} (h : ¬ p.started) : p.onWire = [] := by
  simp only [started, not_or, Bool.not_eq_true, Nat.not_lt, Nat.le_zero] at h
  rw [onWire, if_neg (by simp [h.1]), h.2, List.take_zero]

/-- Bytes moved go behind them. -/
theorem onWire_append (p : Sending) (n : Nat) :
    p.onWire ++ (p.buffer.drop p.totalSent).take n
      = onWire { p with totalSent := p.totalSent + n } := by
  unfold onWire buffer
  cases p.headerSent with
  | true => simp only [if_true, List.append_assoc, List.take_add]
  | false => simp only [Bool.false_eq_true, if_false, List.take_add]

/-- Behind the last byte of its buffer a call goes on with the payload or
has sent the frame. -/
theorem advance_cases {p : Sending} {n : Nat} (hfit : p.totalSent + n ≤ p.buffer.length) :
    (∃ q, p.advance n = some q ∧ q.message = p.message ∧ q.totalSent < q.buffer.length ∧
      q.onWire = onWire { p with totalSent := p.totalSent + n }) ∨
    (p.advance n = none ∧ onWire { p with totalSent := p.totalSent + n } = p.message.frame) := by
  unfold advance
  split
  · rename_i hlt
    exact Or.inl ⟨_, rfl, rfl, hlt, rfl⟩
  · rename_i hge
    have hall : p.totalSent + n = p.buffer.length := by omega
    split
    · rename_i hheader
      refine Or.inl ⟨_, rfl, rfl, hheader.2, ?_⟩
      simp only [onWire, hheader.1, if_true, Bool.false_eq_true, if_false, List.take_zero,
        List.append_nil]
      rw [hall, buffer, hheader.1, if_neg (by simp), List.take_length]
    · rename_i hlast
      refine Or.inr ⟨rfl, ?_⟩
      unfold onWire Message.frame
      unfold buffer at hall
      cases hsent : p.headerSent with
      | true =>
        rw [hsent, if_pos rfl] at hall
        simp only [if_true, hall, List.take_length]
      | false =>
        rw [hsent, if_neg (by simp)] at hall
        have hempty : p.message.payload = [] := by
          simp only [hsent, true_and, Nat.not_lt, Nat.le_zero] at hlast
          exact List.length_eq_zero_iff.mp hlast
        simp only [Bool.false_eq_true, if_false, hall, List.take_length]
        rw [hempty, List.append_nil]

end Sending

/-! ## Frames on the wire -/

/-- The wire holds the frames of some of the messages passed on, in their
order, and behind them the beginning of one more: that of the call in
progress, none between calls, any once the worker is removed. -/
structure Framed (s : State) (whole : List Message) (beginning : List UInt8) : Prop where
  fits : ∀ m ∈ s.passed, m.Fits
  wire_eq : s.wire = whole.flatMap Message.frame ++ beginning
  sublist : whole.Sublist s.passed
  sending : ∀ p, s.sending = some p → s.lost = false ∧ p.totalSent < p.buffer.length ∧
    beginning = p.onWire ∧ ∃ earlier, s.passed = earlier ++ [p.message] ∧ whole.Sublist earlier
  idle : s.sending = none → s.lost = false → beginning = []
  beginning_lt : ∃ last : Message, last.Fits ∧ beginning <+: last.frame ∧
    beginning.length < last.frame.length

theorem framed_start : Framed start [] [] :=
  { fits := by simp [start]
    wire_eq := rfl
    sublist := List.Sublist.refl _
    sending := by simp [start]
    idle := fun _ _ => rfl
    beginning_lt := ⟨⟨1, []⟩, ⟨by decide, by decide⟩, List.nil_prefix, by decide⟩ }

section Steps

variable {s t : State} {whole : List Message} {beginning : List UInt8}

theorem Framed.dispatch (h : Framed s whole beginning) {request : ClientRequest}
    (hstep : step s (.dispatch request) = some t) : Framed t whole beginning := by
  simp only [step] at hstep
  split at hstep
  · rename_i hready
    obtain ⟨hsending, hlost⟩ := hready
    have hnil := h.idle hsending hlost
    split at hstep
    · rename_i m htranslate
      have hm := fits_of_translate htranslate
      rw [if_neg (Nat.not_lt.mpr hm.2)] at hstep
      cases hstep
      refine
        { fits := ?_
          wire_eq := h.wire_eq
          sublist := h.sublist.trans (List.sublist_append_left _ _)
          sending := ?_
          idle := by simp
          beginning_lt := h.beginning_lt }
      · intro m' hm'
        rcases List.mem_append.mp hm' with hold | hnew
        · exact h.fits m' hold
        · rw [List.mem_singleton.mp hnew]
          exact hm
      · rintro p hp
        cases hp
        refine ⟨hlost, ?_, hnil, _, rfl, h.sublist⟩
        simp only [Sending.buffer, Bool.false_eq_true, if_false, length_header]
        decide
    · cases hstep
      exact h
  · cases hstep

/-- The outcome of a `send` that is no failure behind a first byte. -/
theorem Framed.send (h : Framed s whole beginning) {answer : SocketAnswer}
    (hclean : CleanFailure s (.send answer)) (hstep : step s (.send answer) = some t) :
    ∃ whole' beginning', Framed t whole' beginning' := by
  cases hp : s.sending with
  | none => simp [step, hp] at hstep
  | some p =>
    obtain ⟨hlost, hrest, rfl, earlier, hpassed, hearlier⟩ := h.sending p hp
    have hlast : p.message.Fits := h.fits _ (by rw [hpassed]; simp)
    rcases step_send hp hrest hstep with ⟨n, hn, hfit, rfl⟩ | rfl | rfl | ⟨hfails, rfl⟩
    · have hwire : s.wire ++ (p.buffer.drop p.totalSent).take n
          = whole.flatMap Message.frame
            ++ Sending.onWire { p with totalSent := p.totalSent + n } := by
        rw [h.wire_eq, List.append_assoc, Sending.onWire_append]
      rcases Sending.advance_cases hfit with ⟨q, hq, hmessage, hqrest, hqwire⟩ | ⟨hdone, hframe⟩
      · refine ⟨whole, q.onWire, ⟨h.fits, by rw [hqwire]; exact hwire, h.sublist, ?_, ?_, ?_⟩⟩
        · intro q' hq'
          rw [hq] at hq'
          cases hq'
          exact ⟨hlost, hqrest, rfl, earlier, by rw [hmessage]; exact hpassed, hearlier⟩
        · intro hnone
          rw [hq] at hnone
          cases hnone
        · exact ⟨q.message, by rw [hmessage]; exact hlast, Sending.onWire_beginning hqrest⟩
      · refine ⟨whole ++ [p.message], [], ⟨h.fits, ?_, ?_, ?_, fun _ _ => rfl, ?_⟩⟩
        · rw [List.flatMap_append, List.append_nil, List.flatMap_singleton, ← hframe]
          exact hwire
        · show (whole ++ [p.message]).Sublist s.passed
          rw [hpassed]
          exact hearlier.append_right _
        · intro q hq
          rw [hdone] at hq
          cases hq
        · exact framed_start.beginning_lt
    · refine ⟨whole, p.onWire, ⟨h.fits, h.wire_eq, h.sublist, ?_, by simp, h.beginning_lt⟩⟩
      rintro q hq
      cases hq
      exact ⟨hlost, hrest, rfl, earlier, hpassed, hearlier⟩
    · exact ⟨whole, p.onWire, ⟨h.fits, h.wire_eq, h.sublist, by simp, by simp, h.beginning_lt⟩⟩
    · have hnil : p.onWire = [] := by
        refine Sending.onWire_of_not_started fun hstarted => ?_
        simp only [CleanFailure, hp] at hclean
        exact hclean hstarted hfails
      exact ⟨whole, p.onWire, ⟨h.fits, h.wire_eq, h.sublist, by simp, fun _ _ => hnil,
        h.beginning_lt⟩⟩

end Steps

/-- The messages a receiver gets are whole ones that were passed on. -/
theorem Framed.received {s : State} {whole : List Message} {beginning : List UInt8}
    (h : Framed s whole beginning) (answers : Nat → SocketAnswer) (n : Nat) :
    (receiveUntilFailed answers maxMessageSize n ⟨0, s.wire⟩).Sublist
      (s.passed.map Message.received) := by
  obtain ⟨last, hlast, hpre, hlt⟩ := h.beginning_lt
  have hprefix := receiveUntilFailed_frames (fun m hm => h.fits m (h.sublist.subset hm)) hlast
    hpre hlt answers n 0
  rw [← h.wire_eq] at hprefix
  exact hprefix.sublist.trans (h.sublist.map _)

/-- **While -1 comes only in front of the first byte of a frame, the
worker receives what was sent.** For every sequence of requests and of
`send` outcomes that meets this, and for every way the worker's own calls
go: the frames it gets are messages passed to `ProtocolSend`, in the
order sent. -/
theorem frames_follow_of_clean {ls : List Label} {s : State} (h : exec step start ls = some s)
    (hclean : Along step CleanFailure start ls) (answers : Nat → SocketAnswer) (n : Nat) :
    (receiveUntilFailed answers maxMessageSize n ⟨0, s.wire⟩).Sublist
      (s.passed.map Message.received) := by
  have hframed := exec_invariant_along (I := fun s => ∃ whole beginning, Framed s whole beginning)
    (fun s l t hI hl hstep => by
      obtain ⟨whole, beginning, hI⟩ := hI
      cases l with
      | dispatch request => exact ⟨whole, beginning, hI.dispatch hstep⟩
      | send answer => exact hI.send hl hstep)
    ⟨[], [], framed_start⟩ hclean h
  obtain ⟨whole, beginning, hframed⟩ := hframed
  exact hframed.received answers n

/-- A PUT of `k` with value `v`, as the receiver thread of client 1 queues
it. -/
def putRequest : ClientRequest :=
  { Payload.ofMessage MessageType.put.value [0, 1, 107, 0, 1, 118] with
    clientSocket := some 5
    clientId := 1 }

/-- A call that fails before its first byte, and the same request sent in
two pieces. -/
theorem frames_follow_of_clean_resent :
    ∃ s, exec step start
      [.dispatch putRequest, .send (.error .wouldBlock), .send (.error .other),
        .dispatch putRequest, .send (.count 2), .send (.count 1), .send (.count 10)] = some s ∧
      ∀ (answers : Nat → SocketAnswer) (n : Nat),
        (receiveUntilFailed answers maxMessageSize n ⟨0, s.wire⟩).Sublist
          (s.passed.map Message.received) :=
  Exists.imp (fun _ h => ⟨h, frames_follow_of_clean h (by decide)⟩) ⟨_, rfl⟩

/-- The header goes out and the payload fails with -1; sent again, the
frame is read as the payload of the first header. -/
theorem torn_frame_misread :
    ¬ ∀ (ls : List Label) (s : State), exec step start ls = some s →
      ∀ (answers : Nat → SocketAnswer) (n : Nat),
        (receiveUntilFailed answers maxMessageSize n ⟨0, s.wire⟩).Sublist
          (s.passed.map Message.received) := by
  intro h
  have hhealthy : Healthy fun _ => .count 4096 :=
    ⟨fun _ => Or.inr ⟨4096, by decide, rfl⟩, fun _ => ⟨0, by decide, by simp⟩⟩
  have hread := h
    [.dispatch putRequest, .send (.count 3), .send (.error .other),
      .dispatch putRequest, .send (.count 3), .send (.count 10)] _ rfl (fun _ => .count 4096) 1
  obtain ⟨calls, hreceive⟩ := protocolReceive_healthy hhealthy
    (m := ⟨10, [10, 0, 10, 0, 0, 0, 1, 0, 1, 107]⟩) (by decide) (by decide) 0 [0, 1, 118]
  have hmember : (⟨10, 10, [10, 0, 10, 0, 0, 0, 1, 0, 1, 107]⟩ : Received) ∈
      [(⟨10, [0, 0, 0, 1, 0, 1, 107, 0, 1, 118]⟩ : Message),
        ⟨10, [0, 0, 0, 1, 0, 1, 107, 0, 1, 118]⟩].map Message.received := by
    refine hread.subset ?_
    have hwire : (Message.frame ⟨10, [10, 0, 10, 0, 0, 0, 1, 0, 1, 107]⟩ ++ [0, 1, 118])
        = [10, 0, 10, 10, 0, 10, 0, 0, 0, 1, 0, 1, 107, 0, 1, 118] := by decide
    rw [hwire] at hreceive
    have hfirst : receiveUntilFailed (fun _ => .count 4096) maxMessageSize 1
        ⟨0, [10, 0, 10, 10, 0, 10, 0, 0, 0, 1, 0, 1, 107, 0, 1, 118]⟩
        = [⟨10, 10, [10, 0, 10, 0, 0, 0, 1, 0, 1, 107]⟩] := by
      simp only [receiveUntilFailed, hreceive]
      rfl
    exact List.mem_of_mem_head? (congrArg List.head? hfirst)
  exact absurd hmember (by decide)

/-! ## The steps of a call are the call

`ProtocolSend` of `NetworkLib` makes its calls of `send` in a row; told
the same outcomes, the steps above end where it ends. -/

/-- Where a `SendBuffer` stands with these counters: in its loop, failed,
or through. -/
def Sending.place (p : Sending) (total retries : Nat) : Option Sending :=
  if total < p.buffer.length then
    if retries < maxRetries then some { p with totalSent := total, retries := retries } else none
  else if p.headerSent = false ∧ 0 < p.message.payload.length then
    some { p with headerSent := true, totalSent := 0, retries := 0 }
  else none

/-- `n` outcomes in a row. -/
def outcomes (answers : Nat → SocketAnswer) (calls n : Nat) : List Label :=
  (List.range' calls n).map fun k => .send (answers k)

theorem outcomes_add (answers : Nat → SocketAnswer) (calls n k : Nat) :
    outcomes answers calls (n + k)
      = outcomes answers calls n ++ outcomes answers (calls + n) k := by
  simp [outcomes, ← List.map_append, List.range'_append_1]

/-- A `SendBuffer` with its result. -/
def State.sent (s : State) (p : Sending) (result : Int) (wire : List UInt8) : State :=
  { s with
    sending := if result = 0 then p.place p.buffer.length 0 else none
    lost := s.lost || (result == -2 || result == -3)
    wire := wire }

theorem outcomes_succ (answers : Nat → SocketAnswer) (calls n : Nat) :
    outcomes answers calls (n + 1)
      = .send (answers calls) :: outcomes answers (calls + 1) n := by
  simp [outcomes, List.range'_succ]

theorem Sending.advance_eq_place (p : Sending) (total retries n : Nat) :
    ({ p with totalSent := total, retries := retries } : Sending).advance n
      = p.place (total + n) 0 := by
  have hmax : 0 < maxRetries := by decide
  simp only [advance, place, buffer, if_pos hmax]

/-- A result that is no error loses no connection. -/
theorem not_lost_of_nonneg {result : Int} (h : 0 ≤ result) :
    (result == -2 || result == -3) = false := by
  simp only [Bool.or_eq_false_iff, beq_eq_false_iff_ne]
  omega

/-- One turn of the loop, with the state the step leads to. -/
theorem step_attempt {answers : Nat → SocketAnswer} {p : Sending} (s : State)
    {side side' : SendSide} {total retries : Nat} {moved : Int}
    (hcond : total < p.buffer.length ∧ retries < maxRetries)
    (hatt : sendAttempt answers p.buffer side total (p.buffer.length - total) = (moved, side')) :
    side'.calls = side.calls + 1 ∧
    step { s with sending := p.place total retries, wire := side.wire }
        (.send (answers side.calls))
      = some { s with
          sending :=
            if 0 < moved then p.place (total + moved.toNat) 0
            else if moved = 0 then p.place total (retries + 1)
            else none
          lost := s.lost || (moved == -2 || moved == -3)
          wire := side'.wire } := by
  simp only [sendAttempt, Prod.mk.injEq] at hatt
  obtain ⟨hmoved, rfl⟩ := hatt
  refine ⟨rfl, ?_⟩
  have hplace : p.place total retries
      = some { p with totalSent := total, retries := retries } := by
    rw [Sending.place, if_pos hcond.1, if_pos hcond.2]
  have hbuffer : ({ p with totalSent := total, retries := retries } : Sending).buffer
      = p.buffer := rfl
  simp only [step, hplace, hbuffer, hmoved, Sending.advance_eq_place]
  by_cases hpos : 0 < moved
  · simp only [if_pos hpos, not_lost_of_nonneg (Int.le_of_lt hpos), Bool.or_false]
  · by_cases hzero : moved = 0
    · subst hzero
      simp only [Int.lt_irrefl, if_false, if_true]
      split
      · rename_i hretries
        simp [Sending.place, hcond.1, hretries]
      · rename_i hretries
        simp [Sending.place, hcond.1, hretries]
    · simp only [if_neg hpos, if_neg hzero]
      by_cases hlost : moved = -2 ∨ moved = -3
      · rcases hlost with rfl | rfl <;> simp
      · have hnot : (moved == -2 || moved == -3) = false := by
          simpa [Bool.or_eq_false_iff, beq_eq_false_iff_ne] using hlost
        simp only [if_neg hlost, hnot, Bool.or_false]

theorem exec_transferLoop (answers : Nat → SocketAnswer) (p : Sending) (s : State)
    (side : SendSide) (total retries : Nat) (hle : total ≤ p.buffer.length) :
    ∃ n, (transferLoop (sendAttempt answers p.buffer) p.buffer.length side total retries).2.calls
        = side.calls + n ∧
      exec step { s with sending := p.place total retries, wire := side.wire }
          (outcomes answers side.calls n)
        = some (s.sent p
            (transferLoop (sendAttempt answers p.buffer) p.buffer.length side total retries).1
            (transferLoop (sendAttempt answers p.buffer) p.buffer.length side total
              retries).2.wire) := by
  fun_induction transferLoop (sendAttempt answers p.buffer) p.buffer.length side total retries with
  | case1 side total retries hcond moved side' hatt hpos ih =>
    obtain ⟨hcalls, hstep⟩ := step_attempt s hcond hatt
    have hfit : total + moved.toNat ≤ p.buffer.length := by
      have hmoved := congrArg Prod.fst hatt
      have hle := toNat_safeSend_le (answers side.calls) (p.buffer.length - total)
      simp only [sendAttempt] at hmoved
      rw [hmoved] at hle
      omega
    obtain ⟨n, hn, hexec⟩ := ih hfit
    refine ⟨n + 1, by omega, ?_⟩
    rw [outcomes_succ, exec_cons_eq_some]
    refine ⟨_, hstep, ?_⟩
    simp only [if_pos hpos, not_lost_of_nonneg (Int.le_of_lt hpos), Bool.or_false]
    rw [← hcalls]
    exact hexec
  | case2 side total retries hcond side' hatt hpos ih =>
    obtain ⟨hcalls, hstep⟩ := step_attempt s hcond hatt
    obtain ⟨n, hn, hexec⟩ := ih hle
    refine ⟨n + 1, by omega, ?_⟩
    rw [outcomes_succ, exec_cons_eq_some]
    refine ⟨_, hstep, ?_⟩
    rw [← hcalls]
    simpa using hexec
  | case3 side total retries hcond moved side' hatt hpos hzero hlost =>
    obtain ⟨hcalls, hstep⟩ := step_attempt s hcond hatt
    refine ⟨1, hcalls, ?_⟩
    rw [outcomes_succ, exec_cons_eq_some]
    refine ⟨_, hstep, ?_⟩
    simp [outcomes, State.sent, if_neg hpos, if_neg hzero]
  | case4 side total retries hcond moved side' hatt hpos hzero hlost =>
    obtain ⟨hcalls, hstep⟩ := step_attempt s hcond hatt
    refine ⟨1, hcalls, ?_⟩
    have hnot : (moved == -2 || moved == -3) = false := by
      simpa [Bool.or_eq_false_iff, beq_eq_false_iff_ne] using hlost
    rw [outcomes_succ, exec_cons_eq_some]
    refine ⟨_, hstep, ?_⟩
    simp [outcomes, State.sent, if_neg hpos, if_neg hzero, hnot]
  | case5 side total retries hcond hlt =>
    refine ⟨0, rfl, ?_⟩
    simp [outcomes, State.sent, Sending.place, hlt]
    omega
  | case6 side total retries hcond hlt =>
    obtain rfl : total = p.buffer.length := by omega
    refine ⟨0, rfl, ?_⟩
    simp [outcomes, State.sent, Sending.place]

/-- The codes of a lost connection are handed on. -/
theorem transferCode_lost (result : Int) :
    (transferCode result == -2 || transferCode result == -3) = (result == -2 || result == -3) := by
  unfold transferCode
  by_cases hneg : result < 0
  · by_cases h₂ : result = -2
    · simp [h₂]
    · by_cases h₃ : result = -3
      · simp [h₃]
      · simp [hneg, h₂, h₃]
  · have h₂ : result ≠ -2 := by omega
    have h₃ : result ≠ -3 := by omega
    simp [hneg, h₂, h₃]

theorem transferCode_eq_zero {result : Int} (hle : result ≤ 0) :
    transferCode result = 0 ↔ result = 0 := by
  constructor
  · exact eq_zero_of_transferCode hle
  · rintro rfl
    rfl

/-- The steps of a `SendBuffer` are the call. -/
theorem exec_sendBuffer (answers : Nat → SocketAnswer) (p : Sending) (hne : p.buffer.length ≠ 0)
    (s : State) (side : SendSide) :
    ∃ n, (sendBuffer answers p.buffer side).2.calls = side.calls + n ∧
      (sendBuffer answers p.buffer side).1 ≤ 0 ∧
      exec step { s with sending := p.place 0 0, wire := side.wire }
          (outcomes answers side.calls n)
        = some (s.sent p (sendBuffer answers p.buffer side).1
            (sendBuffer answers p.buffer side).2.wire) := by
  rw [sendBuffer, if_neg hne]
  obtain ⟨n, hn, hexec⟩ := exec_transferLoop answers p s side 0 0 (Nat.zero_le _)
  exact ⟨n, hn, transferLoop_le_zero side 0 0, hexec⟩

/-- The steps behind the header are the `SendBuffer` of the payload. -/
theorem exec_payload (answers : Nat → SocketAnswer) {m : Message} (hpayload : 0 < m.payload.length)
    (s : State) (side : SendSide) :
    ∃ n, (sendBuffer answers m.payload side).2.calls = side.calls + n ∧
      (sendBuffer answers m.payload side).1 ≤ 0 ∧
      exec step { s with sending := some ⟨m, true, 0, 0⟩, wire := side.wire }
          (outcomes answers side.calls n)
        = some { s with
            sending := none
            lost := s.lost || ((sendBuffer answers m.payload side).1 == -2 ||
              (sendBuffer answers m.payload side).1 == -3)
            wire := (sendBuffer answers m.payload side).2.wire } := by
  obtain ⟨n, hn, hle, hexec⟩ := exec_sendBuffer answers ⟨m, true, 0, 0⟩ (Nat.ne_of_gt hpayload)
    s side
  have hbuffer : Sending.buffer ⟨m, true, 0, 0⟩ = m.payload := rfl
  have hplace : Sending.place ⟨m, true, 0, 0⟩ 0 0 = some ⟨m, true, 0, 0⟩ := by
    simp [Sending.place, hbuffer, hpayload, maxRetries]
  have hend : Sending.place ⟨m, true, 0, 0⟩ m.payload.length 0 = none := by
    simp [Sending.place, hbuffer]
  rw [hplace] at hexec
  simp only [State.sent, hbuffer, hend, ite_self] at hn hle hexec
  exact ⟨n, hn, hle, hexec⟩

/-- **The steps of a `ProtocolSend` are the call**: the same bytes on the
wire, and the worker removed behind the same results. -/
theorem exec_protocolSend (answers : Nat → SocketAnswer) {m : Message}
    (hm : m.payload.length ≤ maxMessageSize) (s : State) (side : SendSide) :
    ∃ n, (protocolSend answers m side).2.calls = side.calls + n ∧
      exec step { s with sending := some ⟨m, false, 0, 0⟩, wire := side.wire }
          (outcomes answers side.calls n)
        = some { s with
            sending := none
            lost := s.lost || ((protocolSend answers m side).1 == -2 ||
              (protocolSend answers m side).1 == -3)
            wire := (protocolSend answers m side).2.wire } := by
  have hplace : Sending.place ⟨m, false, 0, 0⟩ 0 0 = some ⟨m, false, 0, 0⟩ := by
    simp [Sending.place, Sending.buffer, headerSize, maxRetries]
  obtain ⟨n, hn, hle, hexec⟩ := exec_sendBuffer answers ⟨m, false, 0, 0⟩
    (by simp [Sending.buffer, headerSize]) s side
  have hbuffer : Sending.buffer ⟨m, false, 0, 0⟩
      = header m.type (UInt16.ofNat m.payload.length) := rfl
  have hwhole : (((headerSize + m.payload.length : Nat) : Int) == -2 ||
      ((headerSize + m.payload.length : Nat) : Int) == -3) = false :=
    not_lost_of_nonneg (Int.natCast_nonneg _)
  rw [hplace] at hexec
  rw [hbuffer] at hn hle hexec
  unfold protocolSend
  rw [if_neg (Nat.not_lt.mpr hm)]
  cases hheader : sendBuffer answers (header m.type (UInt16.ofNat m.payload.length)) side with
  | mk headerResult side₁ =>
    simp only [hheader] at hn hle hexec ⊢
    by_cases hzero : headerResult = 0
    · subst hzero
      have hcode : ¬ transferCode 0 ≠ 0 := by decide
      by_cases hpayload : 0 < m.payload.length
      · -- the header is through, and the payload goes on behind it
        have hnext : s.sent ⟨m, false, 0, 0⟩ 0 side₁.wire
            = { s with sending := some ⟨m, true, 0, 0⟩, wire := side₁.wire } := by
          simp [State.sent, Sending.place, hpayload]
        obtain ⟨k, hk, hle', hexec'⟩ := exec_payload answers hpayload s side₁
        simp only [if_neg hcode, if_pos hpayload]
        cases hsend : sendBuffer answers m.payload side₁ with
        | mk payloadResult side₂ =>
          simp only [hsend] at hk hle' hexec' ⊢
          have hrun : exec step { s with sending := some ⟨m, false, 0, 0⟩, wire := side.wire }
              (outcomes answers side.calls (n + k))
              = some { s with
                  sending := none
                  lost := s.lost || (payloadResult == -2 || payloadResult == -3)
                  wire := side₂.wire } := by
            rw [outcomes_add, exec_append, hexec, Option.bind_some, hnext, ← hn]
            exact hexec'
          by_cases hdone : payloadResult = 0
          · subst hdone
            simp only [if_neg hcode, hwhole]
            refine ⟨n + k, by omega, ?_⟩
            rw [hrun, not_lost_of_nonneg (Int.le_refl 0)]
          · have hcode' : transferCode payloadResult ≠ 0 :=
              fun h => hdone ((transferCode_eq_zero hle').mp h)
            simp only [if_pos hcode', transferCode_lost]
            exact ⟨n + k, by omega, hrun⟩
      · have hend : Sending.place ⟨m, false, 0, 0⟩ (Sending.buffer ⟨m, false, 0, 0⟩).length 0
            = none := by
          simp [Sending.place, hpayload]
        simp only [if_neg hcode, if_neg hpayload, hwhole, Bool.or_false]
        refine ⟨n, hn, ?_⟩
        rw [hexec, State.sent, hend]
        simp
    · have hcode : transferCode headerResult ≠ 0 := fun h => hzero ((transferCode_eq_zero hle).mp h)
      simp only [if_pos hcode, transferCode_lost]
      refine ⟨n, hn, ?_⟩
      rw [hexec, State.sent, if_neg hzero]

end LoadBalancing.LoadBalancer.SendFailures
