/-
LoadBalancing.Lib.StreamReassembly — what one side sends is what the
other side receives, however the transfers are split.

`transferLoop_completes` is the loop rule: against answers that never
fail and never block 5000 times in a row, the loop ends with 0 and with
whatever an exact transfer of each piece preserves. `sendBuffer_healthy`
and `receiveBuffer_healthy` instantiate it; `protocolSend_healthy` and
`protocolReceive_healthy` put header and payload together, and
`stream_reassembly` runs them along a sequence of messages.
-/
import LoadBalancing.Lib.NetworkLib
import LoadBalancing.Lib.ProtocolCodec

namespace LoadBalancing.Lib

open LoadBalancing.Base

/-- A socket without errors: every call moves at least one byte or would
block, and there are fewer than `MAX_RETRIES` would-block results in a
row. -/
structure Healthy (answers : Nat → SocketAnswer) : Prop where
  moves_or_blocks : ∀ k, answers k = .error .wouldBlock ∨ ∃ n, 0 < n ∧ answers k = .count n
  unblocks : ∀ k, ∃ j, j < maxRetries ∧ answers (k + j) ≠ .error .wouldBlock

/-! ## The transfer loop -/

section TransferLoop

variable {σ : Type} {attempt : σ → Nat → Nat → Int × σ} {length : Nat}
  {answers : Nat → SocketAnswer} {calls : σ → Nat} {I : Nat → σ → Prop}

/-- What an attempt has to do for the loop rule: consume one answer, and
either block and keep `I`, or move some of the rest and carry `I`
along. -/
structure Attempts (answers : Nat → SocketAnswer) (attempt : σ → Nat → Nat → Int × σ)
    (length : Nat) (calls : σ → Nat) (I : Nat → σ → Prop) : Prop where
  calls_succ : ∀ s total rest, calls (attempt s total rest).2 = calls s + 1
  blocks : ∀ s total, I total s → total < length →
    answers (calls s) = .error .wouldBlock →
    (attempt s total (length - total)).1 = 0 ∧ I total (attempt s total (length - total)).2
  moves : ∀ s total, I total s → total < length →
    ∀ n, 0 < n → answers (calls s) = .count n →
    ∃ m, 0 < m ∧ total + m ≤ length ∧ (attempt s total (length - total)).1 = (m : Int) ∧
      I (total + m) (attempt s total (length - total)).2

/-- An attempt blocks or makes progress; it never fails. -/
theorem Attempts.result (ha : Attempts answers attempt length calls I)
    (hh : Healthy answers) {s : σ} {total : Nat} (hI : I total s) (hlt : total < length) :
    (answers (calls s) = .error .wouldBlock ∧ (attempt s total (length - total)).1 = 0 ∧
      I total (attempt s total (length - total)).2) ∨
    ∃ m : Nat, 0 < m ∧ total + m ≤ length ∧ (attempt s total (length - total)).1 = m ∧
      I (total + m) (attempt s total (length - total)).2 := by
  rcases hh.moves_or_blocks (calls s) with hb | ⟨n, hn, hc⟩
  · exact Or.inl ⟨hb, ha.blocks s total hI hlt hb⟩
  · exact Or.inr (ha.moves s total hI hlt n hn hc)

/-- **Loop rule.** The induction is the loop's own: the answer that ends
the current stall is still ahead, within the retries that are left. -/
theorem transferLoop_completes (hh : Healthy answers)
    (ha : Attempts answers attempt length calls I) (s : σ) (total retries : Nat)
    (hI : I total s) (hle : total ≤ length)
    (hstall : ∃ j, j + retries < maxRetries ∧ answers (calls s + j) ≠ .error .wouldBlock) :
    ∃ s', transferLoop attempt length s total retries = (0, s') ∧ I length s' := by
  fun_induction transferLoop attempt length s total retries with
  | case1 s total retries hcond moved s' hatt hpos ih =>
    have hres := ha.result hh hI hcond.1
    rw [hatt] at hres
    rcases hres with ⟨-, hzero, -⟩ | ⟨m, hm, hfit, hmoved, hI'⟩
    · simp only at hzero
      omega
    · simp only at hmoved hI'
      obtain rfl : moved.toNat = m := by omega
      exact ih hI' hfit (by simpa using hh.unblocks (calls s'))
  | case2 s total retries hcond s' hatt hpos ih =>
    have hcalls := ha.calls_succ s total (length - total)
    have hres := ha.result hh hI hcond.1
    rw [hatt] at hcalls hres
    rcases hres with ⟨hblock, -, hI'⟩ | ⟨m, hm, -, hmoved, -⟩
    · refine ih hI' hle ?_
      obtain ⟨j, hj, hne⟩ := hstall
      cases j with
      | zero => exact absurd hblock hne
      | succ j => exact ⟨j, by omega, by rwa [hcalls, Nat.add_assoc, Nat.add_comm 1 j]⟩
    · simp only at hmoved
      omega
  | case3 s total retries hcond moved s' hatt hpos hzero hlost =>
    have hres := ha.result hh hI hcond.1
    rw [hatt] at hres
    rcases hres with ⟨-, hz, -⟩ | ⟨m, hm, -, hmoved, -⟩ <;> simp only at * <;> omega
  | case4 s total retries hcond moved s' hatt hpos hzero hlost =>
    have hres := ha.result hh hI hcond.1
    rw [hatt] at hres
    rcases hres with ⟨-, hz, -⟩ | ⟨m, hm, -, hmoved, -⟩ <;> simp only at * <;> omega
  | case5 s total retries hcond hlt =>
    obtain ⟨j, hj, -⟩ := hstall
    omega
  | case6 s total retries hcond hlt =>
    obtain rfl : total = length := by omega
    exact ⟨s, rfl, hI⟩

/-- The loop from its start. -/
theorem transferLoop_healthy (hh : Healthy answers)
    (ha : Attempts answers attempt length calls I) (s : σ) (hI : I 0 s) :
    ∃ s', transferLoop attempt length s 0 0 = (0, s') ∧ I length s' :=
  transferLoop_completes hh ha s 0 0 hI (Nat.zero_le _) (by simpa using hh.unblocks (calls s))

end TransferLoop

/-! ## Buffers -/

/-- Sending to a healthy socket puts the whole buffer on the wire. -/
theorem sendBuffer_healthy {answers : Nat → SocketAnswer} (hh : Healthy answers)
    {buffer : List UInt8} (hne : buffer ≠ []) (s : SendSide) :
    ∃ calls, sendBuffer answers buffer s = (0, ⟨calls, s.wire ++ buffer⟩) := by
  have hlen : 0 < buffer.length := List.length_pos_iff.mpr hne
  have ha : Attempts answers (sendAttempt answers buffer) buffer.length SendSide.calls
      (fun total t => t.wire = s.wire ++ buffer.take total) := by
    refine ⟨fun _ _ _ => rfl, fun t total hI hlt hb => ?_, fun t total hI hlt n hn hc => ?_⟩
    · have hrest : buffer.length - total ≠ 0 := by omega
      have hzero : safeSend (answers t.calls) (buffer.length - total) = 0 := by
        simp [safeSend, hrest, hb, errorResult]
      exact ⟨hzero, by simp [sendAttempt, hzero, hI]⟩
    · have hrest : buffer.length - total ≠ 0 := by omega
      have hpos : min n (buffer.length - total) ≠ 0 := by omega
      have hres : safeSend (answers t.calls) (buffer.length - total)
          = (min n (buffer.length - total) : Nat) := by
        simp only [safeSend, if_neg hrest, hc, countResult, if_neg hpos]
      refine ⟨min n (buffer.length - total), by omega, by omega, hres, ?_⟩
      simp only [sendAttempt, hres, Int.toNat_natCast, hI, List.append_assoc]
      rw [List.take_add]
  obtain ⟨s', hloop, hwire⟩ := transferLoop_healthy hh ha s (by simp)
  refine ⟨s'.calls, ?_⟩
  rw [sendBuffer, if_neg (by omega), hloop]
  rw [List.take_length] at hwire
  rw [← hwire]

/-- Receiving from a healthy socket takes exactly the bytes asked for
off the stream. -/
theorem receiveBuffer_healthy {answers : Nat → SocketAnswer} (hh : Healthy answers)
    {bytes : List UInt8} (hne : bytes ≠ []) (calls : Nat) (rest : List UInt8) :
    ∃ calls', receiveBuffer answers bytes.length ⟨calls, bytes ++ rest⟩
      = (0, ⟨calls', rest⟩, bytes) := by
  have hlen : 0 < bytes.length := List.length_pos_iff.mpr hne
  have ha : Attempts answers (receiveAttempt answers) bytes.length (fun t => t.1.calls)
      (fun total t => t.1.stream = bytes.drop total ++ rest ∧ t.2 = bytes.take total) := by
    refine ⟨fun _ _ _ => rfl, fun t total hI hlt hb => ?_, fun t total hI hlt n hn hc => ?_⟩
    · have hrest : bytes.length - total ≠ 0 := by omega
      have hzero : safeReceive (answers t.1.calls) (bytes.length - total) t.1.stream.length
          = 0 := by
        simp [safeReceive, hrest, hb, errorResult]
      refine ⟨hzero, ?_⟩
      simp only [receiveAttempt, hzero]
      simpa using hI
    · obtain ⟨hstream, hgot⟩ := hI
      have hrest : bytes.length - total ≠ 0 := by omega
      have havail : t.1.stream.length = bytes.length - total + rest.length := by
        rw [hstream]; simp
      have hcap : min (bytes.length - total) t.1.stream.length = bytes.length - total := by
        omega
      have hpos : min n (bytes.length - total) ≠ 0 := by omega
      have hres : safeReceive (answers t.1.calls) (bytes.length - total) t.1.stream.length
          = (min n (bytes.length - total) : Nat) := by
        simp only [safeReceive, if_neg hrest, hc, hcap, countResult, if_neg hpos]
        rw [if_neg (by omega)]
      have hfit : min n (bytes.length - total) ≤ (bytes.drop total).length := by
        simp only [List.length_drop]; omega
      refine ⟨min n (bytes.length - total), by omega, by omega, hres, ?_, ?_⟩
      · simp only [receiveAttempt, hres, Int.toNat_natCast]
        rw [hstream, List.drop_append_of_le_length hfit, List.drop_drop]
      · simp only [receiveAttempt, hres, Int.toNat_natCast]
        rw [hstream, hgot, List.take_append_of_le_length hfit, List.take_add]
  obtain ⟨s', hloop, hstream, hgot⟩ :=
    transferLoop_healthy hh ha (⟨calls, bytes ++ rest⟩, []) (by simp)
  refine ⟨s'.1.calls, ?_⟩
  rw [receiveBuffer, if_neg (by omega), hloop]
  rw [List.drop_length, List.nil_append] at hstream
  rw [List.take_length] at hgot
  rw [← hstream, ← hgot]

/-! ## Frames -/

@[simp] theorem length_header (type : UInt8) (dataSize : UInt16) :
    (header type dataSize).length = headerSize := by
  simp [header, writeUInt8, writeUInt16, headerSize]

theorem header_ne_nil (type : UInt8) (dataSize : UInt16) : header type dataSize ≠ [] := by
  intro h
  have hlen := length_header type dataSize
  rw [h] at hlen
  simp [headerSize] at hlen

/-- The first header byte is the type. -/
theorem header_type (type : UInt8) (dataSize : UInt16) :
    UInt8.ofNat (ofBigEndian ((header type dataSize).take 1)) = type := by
  have htake : (header type dataSize).take 1 = writeUInt8 type :=
    List.take_left' (by simp [writeUInt8])
  rw [htake, writeUInt8, ofBigEndian_toBigEndian 1 _ (by simpa using type.toNat_lt)]
  exact UInt8.ofNat_toNat

/-- The other two are the size. -/
theorem header_dataSize (type : UInt8) (dataSize : UInt16) :
    ofBigEndian ((header type dataSize).drop 1) = dataSize.toNat := by
  have hdrop : (header type dataSize).drop 1 = writeUInt16 dataSize :=
    List.drop_left' (by simp [writeUInt8])
  rw [hdrop, writeUInt16, ofBigEndian_toBigEndian 2 _ (by simpa using dataSize.toNat_lt)]

/-- A payload within the limit has a size that fits the header field. -/
theorem toNat_payloadSize {m : Message} (hsize : m.payload.length ≤ maxMessageSize) :
    (UInt16.ofNat m.payload.length).toNat = m.payload.length := by
  rw [UInt16.toNat_ofNat_of_lt']
  simp only [maxMessageSize] at hsize
  simp only [UInt16.size]
  omega

/-- `ProtocolSend` to a healthy socket puts the message's frame on the
wire and returns its length. -/
theorem protocolSend_healthy {answers : Nat → SocketAnswer} (hh : Healthy answers)
    {m : Message} (hsize : m.payload.length ≤ maxMessageSize) (s : SendSide) :
    ∃ calls, protocolSend answers m s
      = (((headerSize + m.payload.length : Nat) : Int), ⟨calls, s.wire ++ m.frame⟩) := by
  obtain ⟨c₁, hheader⟩ := sendBuffer_healthy hh
    (header_ne_nil m.type (UInt16.ofNat m.payload.length)) s
  by_cases hempty : m.payload = []
  · refine ⟨c₁, ?_⟩
    simp only [protocolSend, hheader]
    simp [transferCode, Message.frame, hempty]
  · obtain ⟨c₂, hpayload⟩ := sendBuffer_healthy hh hempty
      ⟨c₁, s.wire ++ header m.type (UInt16.ofNat m.payload.length)⟩
    have hpos : 0 < m.payload.length := List.length_pos_iff.mpr hempty
    refine ⟨c₂, ?_⟩
    simp [protocolSend, Nat.not_lt.mpr hsize, hheader, hpayload, transferCode, hpos,
      Message.frame]

/-- `ProtocolReceive` from a healthy socket whose stream starts with a
frame returns its message and takes exactly the frame. -/
theorem protocolReceive_healthy {answers : Nat → SocketAnswer} (hh : Healthy answers)
    {m : Message} (htype : m.type ≠ 0) (hsize : m.payload.length ≤ maxMessageSize)
    (calls : Nat) (rest : List UInt8) :
    ∃ calls', protocolReceive answers maxMessageSize ⟨calls, m.frame ++ rest⟩
      = (0, ⟨calls', rest⟩, some ⟨m.type, m.payload.length, m.payload⟩) := by
  obtain ⟨c₁, hheader⟩ := receiveBuffer_healthy hh
    (header_ne_nil m.type (UInt16.ofNat m.payload.length)) calls (m.payload ++ rest)
  rw [length_header] at hheader
  have hfits : ¬ maxMessageSize * 4 < m.payload.length := by omega
  by_cases hempty : m.payload = []
  · refine ⟨c₁, ?_⟩
    rw [Message.frame, List.append_assoc]
    simp only [protocolReceive, hheader, header_type, header_dataSize, toNat_payloadSize hsize]
    simp [transferCode, htype, hempty]
  · obtain ⟨c₂, hpayload⟩ := receiveBuffer_healthy hh hempty c₁ rest
    have hpos : 0 < m.payload.length := List.length_pos_iff.mpr hempty
    refine ⟨c₂, ?_⟩
    rw [Message.frame, List.append_assoc]
    simp only [protocolReceive, hheader, header_type, header_dataSize,
      toNat_payloadSize hsize, hpayload]
    simp [transferCode, htype, hfits, hpos, Nat.not_lt.mpr hsize]

/-! ## Sequences of messages -/

/-- What a sequence of messages puts on the wire. -/
theorem sendAll_healthy {answers : Nat → SocketAnswer} (hh : Healthy answers)
    (messages : List Message) (hsize : ∀ m ∈ messages, m.payload.length ≤ maxMessageSize)
    (s : SendSide) :
    (sendAll answers messages s).1
        = messages.map (fun m => ((headerSize + m.payload.length : Nat) : Int)) ∧
      (sendAll answers messages s).2.wire = s.wire ++ messages.flatMap Message.frame := by
  induction messages generalizing s with
  | nil => simp [sendAll]
  | cons m ms ih =>
    obtain ⟨calls, hsend⟩ := protocolSend_healthy hh (hsize m (by simp)) s
    obtain ⟨hresults, hwire⟩ := ih (fun m' hm' => hsize m' (by simp [hm']))
      ⟨calls, s.wire ++ m.frame⟩
    simp only [sendAll, hsend]
    exact ⟨by simp [hresults], by simp [hwire]⟩

/-- Reading as many messages off their frames as were sent. -/
theorem receiveAll_healthy {answers : Nat → SocketAnswer} (hh : Healthy answers)
    (messages : List Message)
    (hvalid : ∀ m ∈ messages, m.type ≠ 0 ∧ m.payload.length ≤ maxMessageSize) (calls : Nat) :
    ∃ calls', receiveAll answers maxMessageSize messages.length
        ⟨calls, messages.flatMap Message.frame⟩
      = (messages.map (fun m => (0, some ⟨m.type, m.payload.length, m.payload⟩)),
          ⟨calls', []⟩) := by
  induction messages generalizing calls with
  | nil => exact ⟨calls, rfl⟩
  | cons m ms ih =>
    obtain ⟨htype, hsize⟩ := hvalid m (by simp)
    obtain ⟨c₁, hreceive⟩ :=
      protocolReceive_healthy hh htype hsize calls (ms.flatMap Message.frame)
    obtain ⟨c₂, hrest⟩ := ih (fun m' hm' => hvalid m' (by simp [hm'])) c₁
    refine ⟨c₂, ?_⟩
    simp [receiveAll, hreceive, hrest]

/-- **Stream reassembly.** For every sequence of messages and every way
the two systems split, stall and resume the transfers, the receiver's
calls return the messages that were sent, in order, and the stream is
empty afterwards. -/
theorem stream_reassembly (messages : List Message)
    (hvalid : ∀ m ∈ messages, m.type ≠ 0 ∧ m.payload.length ≤ maxMessageSize)
    {sendAnswers receiveAnswers : Nat → SocketAnswer}
    (hsend : Healthy sendAnswers) (hreceive : Healthy receiveAnswers) :
    let sent := sendAll sendAnswers messages ⟨0, []⟩
    let received := receiveAll receiveAnswers maxMessageSize messages.length ⟨0, sent.2.wire⟩
    sent.1 = messages.map (fun m => ((headerSize + m.payload.length : Nat) : Int)) ∧
      received.1 = messages.map (fun m => (0, some ⟨m.type, m.payload.length, m.payload⟩)) ∧
      received.2.stream = [] := by
  obtain ⟨hresults, hwire⟩ := sendAll_healthy hsend messages (fun m hm => (hvalid m hm).2) ⟨0, []⟩
  obtain ⟨calls, hall⟩ := receiveAll_healthy hreceive messages hvalid 0
  rw [List.nil_append] at hwire
  rw [← hwire] at hall
  refine ⟨hresults, ?_, ?_⟩
  · rw [hall]
  · rw [hall]

/-- Byte-by-byte transfers with a stall before each byte are one of the
ways. -/
theorem healthy_stutter :
    Healthy (fun k => if k % 2 = 0 then .error .wouldBlock else .count 1) := by
  refine ⟨fun k => ?_, fun k => ?_⟩
  · by_cases hk : k % 2 = 0
    · exact Or.inl (if_pos hk)
    · exact Or.inr ⟨1, by omega, if_neg hk⟩
  · by_cases hk : k % 2 = 0
    · refine ⟨1, by decide, ?_⟩
      rw [if_neg (by omega)]
      simp
    · refine ⟨0, by decide, ?_⟩
      rw [Nat.add_zero, if_neg hk]
      simp

/-- The theorem at work: an empty message between two others, sent and
received one byte at a time. -/
theorem stream_reassembly_stutter :
    let answers : Nat → SocketAnswer :=
      fun k => if k % 2 = 0 then .error .wouldBlock else .count 1
    let messages : List Message := [⟨3, [0, 1, 107]⟩, ⟨90, []⟩, ⟨4, [0]⟩]
    let sent := sendAll answers messages ⟨0, []⟩
    let received := receiveAll answers maxMessageSize messages.length ⟨0, sent.2.wire⟩
    sent.1 = messages.map (fun m => ((headerSize + m.payload.length : Nat) : Int)) ∧
      received.1 = messages.map (fun m => (0, some ⟨m.type, m.payload.length, m.payload⟩)) ∧
      received.2.stream = [] :=
  stream_reassembly [⟨3, [0, 1, 107]⟩, ⟨90, []⟩, ⟨4, [0]⟩] (by decide)
    healthy_stutter healthy_stutter

end LoadBalancing.Lib
