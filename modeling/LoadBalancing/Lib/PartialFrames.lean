/-
LoadBalancing.Lib.PartialFrames — what a receiver makes of a stream of
whole frames with at most the beginning of one more behind them.

Unlike in `StreamReassembly` nothing is assumed about the receiver's
answers: its calls may stall, fail or time out. `transferLoop_eq_zero` is
the loop rule for that: a transfer that reports success has moved every
byte. So a `ProtocolReceive` that returns a frame has taken a whole one
(`protocolReceive_some`), and a thread that stops at the first failure,
as the worker's receiver does, gets a beginning of the messages whose
frames are there (`receiveUntilFailed_frames`).

No `sorry`, no `axiom`, no `native_decide`.
-/
import LoadBalancing.Lib.Connection

namespace LoadBalancing.Lib

open LoadBalancing.Base

/-! ## Transfers that succeed -/

section TransferLoop

variable {σ : Type} {attempt : σ → Nat → Nat → Int × σ} {length : Nat} {I : Nat → σ → Prop}

/-- **Loop rule.** With any answers: what every attempt keeps, blocked or
moving some of the rest, holds of the whole length when the loop ends
with 0. -/
theorem transferLoop_eq_zero
    (hblock : ∀ s total, I total s → total < length → (attempt s total (length - total)).1 = 0 →
      I total (attempt s total (length - total)).2)
    (hmove : ∀ s total, I total s → total < length → 0 < (attempt s total (length - total)).1 →
      total + (attempt s total (length - total)).1.toNat ≤ length ∧
        I (total + (attempt s total (length - total)).1.toNat)
          (attempt s total (length - total)).2)
    {s s' : σ} {total retries : Nat} (hI : I total s) (hle : total ≤ length)
    (h : transferLoop attempt length s total retries = (0, s')) : I length s' := by
  fun_induction transferLoop attempt length s total retries with
  | case1 s total retries hcond moved s₁ hatt hpos ih =>
    have hres := hmove s total hI hcond.1
    rw [hatt] at hres
    obtain ⟨hfit, hI'⟩ := hres hpos
    exact ih hI' hfit h
  | case2 s total retries hcond s₁ hatt hpos ih =>
    have hres := hblock s total hI hcond.1
    rw [hatt] at hres
    exact ih (hres rfl) hle h
  | case3 s total retries hcond moved s₁ hatt hpos hzero hlost =>
    exact absurd (congrArg Prod.fst h) hzero
  | case4 s total retries hcond moved s₁ hatt hpos hzero hlost =>
    exact absurd (congrArg Prod.fst h) (by simp)
  | case5 s total retries hcond hlt =>
    exact absurd (congrArg Prod.fst h) (by simp)
  | case6 s total retries hcond hlt =>
    obtain rfl : total = length := by omega
    cases h
    exact hI

/-- The loop reports success or a negative code. -/
theorem transferLoop_le_zero (s : σ) (total retries : Nat) :
    (transferLoop attempt length s total retries).1 ≤ 0 := by
  fun_induction transferLoop attempt length s total retries with
  | case1 s total retries hcond moved s₁ hatt hpos ih => exact ih
  | case2 s total retries hcond s₁ hatt hpos ih => exact ih
  | case3 s total retries hcond moved s₁ hatt hpos hzero hlost => exact Int.not_lt.mp hpos
  | case4 => simp
  | case5 => simp
  | case6 => exact Int.le_refl 0

end TransferLoop

/-- Only success is handed on as 0. -/
theorem eq_zero_of_transferCode {result : Int} (hle : result ≤ 0)
    (h : transferCode result = 0) : result = 0 := by
  unfold transferCode at h
  split at h
  · split at h
    · cases h
    · split at h <;> cases h
  · omega

theorem toNat_errorResult (code : SocketError) : (errorResult code).toNat = 0 := by
  cases code <;> rfl

theorem toNat_countResult (moved : Nat) : (countResult moved).toNat = moved := by
  unfold countResult
  split
  · rename_i hzero
    rw [hzero]
    rfl
  · rfl

/-- A send moves no more than it was asked for. -/
theorem toNat_safeSend_le (answer : SocketAnswer) (length : Nat) :
    (safeSend answer length).toNat ≤ length := by
  unfold safeSend
  split
  · exact Nat.zero_le _
  · cases answer with
    | error code => simp only [toNat_errorResult, Nat.zero_le]
    | count n =>
      simp only [toNat_countResult]
      exact Nat.min_le_right _ _

/-- A receive moves no more than it was asked for and than there is. -/
theorem toNat_safeReceive_le (answer : SocketAnswer) (length available : Nat) :
    (safeReceive answer length available).toNat ≤ min length available := by
  unfold safeReceive
  split
  · exact Nat.zero_le _
  · cases answer with
    | error code => simp only [toNat_errorResult, Nat.zero_le]
    | count n =>
      simp only
      split
      · simp only [toNat_errorResult, Nat.zero_le]
      · rw [toNat_countResult]
        exact Nat.min_le_right _ _

/-- A `ReceiveBuffer` that succeeds has taken exactly the bytes asked for
off the stream. -/
theorem receiveBuffer_eq_zero {answers : Nat → SocketAnswer} {length : Nat} {s s' : ReceiveSide}
    {bytes : List UInt8} (h : receiveBuffer answers length s = (0, s', bytes)) :
    length ≤ s.stream.length ∧ s'.stream = s.stream.drop length ∧
      bytes = s.stream.take length := by
  unfold receiveBuffer at h
  split at h
  · cases h
  · have hattempt : ∀ (t : ReceiveSide × List UInt8) (total rest : Nat),
        total ≤ s.stream.length ∧ t.1.stream = s.stream.drop total ∧
          t.2 = s.stream.take total →
        total + (receiveAttempt answers t total rest).1.toNat ≤ s.stream.length ∧
        (receiveAttempt answers t total rest).2.1.stream
          = s.stream.drop (total + (receiveAttempt answers t total rest).1.toNat) ∧
        (receiveAttempt answers t total rest).2.2
          = s.stream.take (total + (receiveAttempt answers t total rest).1.toNat) := by
      rintro t total rest ⟨hle, hstream, hgot⟩
      have hmoved := toNat_safeReceive_le (answers t.1.calls) rest t.1.stream.length
      rw [hstream, List.length_drop] at hmoved
      simp only [receiveAttempt]
      rw [hstream, hgot, List.drop_drop, List.take_add, List.length_drop]
      exact ⟨by omega, rfl, rfl⟩
    have hdone := transferLoop_eq_zero (I := fun total t => total ≤ s.stream.length ∧
      t.1.stream = s.stream.drop total ∧ t.2 = s.stream.take total)
      (fun t total hI _ hzero => by
        have hnext := hattempt t total (length - total) hI
        rw [hzero] at hnext
        exact hnext)
      (fun t total hI hlt _ => by
        refine ⟨?_, hattempt t total (length - total) hI⟩
        have hmoved := toNat_safeReceive_le (answers t.1.calls) (length - total) t.1.stream.length
        simp only [receiveAttempt]
        omega)
      ⟨Nat.zero_le _, rfl, rfl⟩ (Nat.zero_le _) h
    exact hdone

theorem receiveBuffer_le_zero {answers : Nat → SocketAnswer} {length : Nat} {s s' : ReceiveSide}
    {result : Int} {bytes : List UInt8} (h : receiveBuffer answers length s = (result, s', bytes)) :
    result ≤ 0 := by
  unfold receiveBuffer at h
  split at h
  · cases h
    decide
  · have hle : (transferLoop (receiveAttempt answers) length (s, []) 0 0).1 ≤ 0 :=
      transferLoop_le_zero (s, []) 0 0
    rw [h] at hle
    exact hle

/-! ## One frame -/

/-- What a receiver gets out of a message. -/
def Message.received (m : Message) : Received := ⟨m.type, m.payload.length, m.payload⟩

/-- **A `ProtocolReceive` with a frame has taken a whole one**: three
header bytes and as many more as they say. -/
theorem protocolReceive_some {answers : Nat → SocketAnswer} {bufferSize : Nat}
    {s s' : ReceiveSide} {result : Int} {out : Received}
    (h : protocolReceive answers bufferSize s = (result, s', some out)) :
    headerSize + out.actualSize ≤ s.stream.length ∧
      out.type = UInt8.ofNat (ofBigEndian ((s.stream.take headerSize).take 1)) ∧
      out.actualSize = ofBigEndian ((s.stream.take headerSize).drop 1) ∧
      out.data = (s.stream.drop headerSize).take out.actualSize ∧
      s'.stream = s.stream.drop (headerSize + out.actualSize) := by
  unfold protocolReceive at h
  cases hheader : receiveBuffer answers headerSize s with
  | mk headerResult rest =>
    obtain ⟨s₁, bytes⟩ := rest
    simp only [hheader] at h
    split at h
    · cases h
    · rename_i hcode
      have hzero := eq_zero_of_transferCode (receiveBuffer_le_zero hheader) (not_not.mp hcode)
      subst hzero
      obtain ⟨hfits, hrest, hbytes⟩ := receiveBuffer_eq_zero hheader
      subst hbytes
      split at h
      · cases h
      · split at h
        · cases h
        · split at h
          · split at h
            · cases h
            · cases hpayload : receiveBuffer answers
                (ofBigEndian ((s.stream.take headerSize).drop 1)) s₁ with
              | mk payloadResult rest =>
                obtain ⟨s₂, data⟩ := rest
                simp only [hpayload] at h
                split at h
                · cases h
                · rename_i hcode
                  have hzero := eq_zero_of_transferCode (receiveBuffer_le_zero hpayload)
                    (not_not.mp hcode)
                  subst hzero
                  obtain ⟨hfits', hrest', hdata⟩ := receiveBuffer_eq_zero hpayload
                  cases h
                  rw [hrest, List.length_drop] at hfits'
                  rw [hrest, List.drop_drop] at hrest'
                  rw [hrest] at hdata
                  exact ⟨by simp only; omega, rfl, rfl, hdata, hrest'⟩
          · rename_i hsize
            cases h
            have hnone : ofBigEndian ((s.stream.take headerSize).drop 1) = 0 := by omega
            exact ⟨hfits, rfl, hnone.symm, by simp, by simpa using hrest⟩

/-- A receiver whose stream starts with a frame gets that frame or
nothing. -/
theorem protocolReceive_frame {answers : Nat → SocketAnswer} {s s' : ReceiveSide} {result : Int}
    {out : Received} {m : Message} {rest : List UInt8} (hm : m.Fits)
    (hstream : s.stream = m.frame ++ rest)
    (h : protocolReceive answers maxMessageSize s = (result, s', some out)) :
    out = m.received ∧ s'.stream = rest := by
  obtain ⟨-, htype, hsize, hdata, hrest⟩ := protocolReceive_some h
  have htake : s.stream.take headerSize = header m.type (UInt16.ofNat m.payload.length) := by
    rw [hstream, Message.frame, List.append_assoc]
    exact List.take_left' (length_header _ _)
  have hdrop : s.stream.drop headerSize = m.payload ++ rest := by
    rw [hstream, Message.frame, List.append_assoc]
    exact List.drop_left' (length_header _ _)
  rw [htake, header_type] at htype
  rw [htake, header_dataSize, toNat_payloadSize hm.2] at hsize
  rw [hdrop, hsize, List.take_left] at hdata
  rw [← List.drop_drop, hdrop, hsize, List.drop_left] at hrest
  refine ⟨?_, hrest⟩
  cases out
  simp only at htype hsize hdata
  rw [htype, hsize, hdata, Message.received]

/-- From less than a frame it gets nothing. -/
theorem protocolReceive_short {answers : Nat → SocketAnswer} {s s' : ReceiveSide}
    {result : Int} {out : Option Received} {m : Message} (hm : m.Fits)
    (hpre : s.stream <+: m.frame) (hlt : s.stream.length < m.frame.length)
    (h : protocolReceive answers maxMessageSize s = (result, s', out)) : out = none := by
  cases out with
  | none => rfl
  | some out =>
    exfalso
    obtain ⟨hlen, -, hsize, -, -⟩ := protocolReceive_some h
    have htake : s.stream.take headerSize = header m.type (UInt16.ofNat m.payload.length) := by
      obtain ⟨more, hmore⟩ := hpre
      have hframe : (s.stream ++ more).take headerSize = s.stream.take headerSize :=
        List.take_append_of_le_length (by omega)
      rw [← hframe, hmore, Message.frame]
      exact List.take_left' (length_header _ _)
    rw [htake, header_dataSize, toNat_payloadSize hm.2] at hsize
    rw [Message.frame, List.length_append, length_header] at hlt
    omega

/-! ## Until the first failure -/

/-- A thread that makes up to `n` calls of `ProtocolReceive` and stops at
the first that fails, with the frames it gets. -/
def receiveUntilFailed (answers : Nat → SocketAnswer) (bufferSize : Nat) :
    Nat → ReceiveSide → List Received
  | 0, _ => []
  | n + 1, s =>
    match protocolReceive answers bufferSize s with
    | (_, s', some out) => out :: receiveUntilFailed answers bufferSize n s'
    | (_, _, none) => []

/-- **Whole frames, and a beginning of one behind them.** Whatever the
system answers, the receiver gets the first of these messages in their
order. -/
theorem receiveUntilFailed_frames {messages : List Message} (hmessages : ∀ m ∈ messages, m.Fits)
    {last : Message} (hlast : last.Fits) {beginning : List UInt8}
    (hpre : beginning <+: last.frame) (hlt : beginning.length < last.frame.length)
    (answers : Nat → SocketAnswer) (n : Nat) (calls : Nat) :
    receiveUntilFailed answers maxMessageSize n
        ⟨calls, messages.flatMap Message.frame ++ beginning⟩
      <+: messages.map Message.received := by
  induction messages generalizing n calls with
  | nil =>
    cases n with
    | zero => exact List.nil_prefix
    | succ n =>
      simp only [receiveUntilFailed, List.flatMap_nil, List.nil_append]
      split
      · rename_i result s' out hreceive
        exact absurd (protocolReceive_short hlast hpre hlt hreceive) (by simp)
      · exact List.nil_prefix
  | cons m rest ih =>
    cases n with
    | zero => exact List.nil_prefix
    | succ n =>
      simp only [receiveUntilFailed, List.flatMap_cons, List.append_assoc]
      split
      · rename_i result s' out hreceive
        obtain ⟨rfl, hstream⟩ :=
          protocolReceive_frame (hmessages m (List.mem_cons_self ..)) rfl hreceive
        obtain ⟨calls', stream⟩ := s'
        simp only at hstream
        subst hstream
        rw [List.map_cons, List.prefix_cons_inj]
        exact ih (fun m' hm' => hmessages m' (List.mem_cons_of_mem _ hm')) n calls'
      · exact List.nil_prefix

end LoadBalancing.Lib
