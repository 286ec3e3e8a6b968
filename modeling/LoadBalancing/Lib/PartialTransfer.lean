/-
LoadBalancing.Lib.PartialTransfer — the partial-transfer loops are exact.

`transferLoop_ends` is the rule: the loop of `SendBuffer` and
`ReceiveBuffer` makes the calls of a `ChunkedTransfer` and turns its ending
into a code. `sends` and `receives` are the transfers of the two, with the
results of `SafeSend` and `SafeReceive`, and `ExactTransfer` is what is said
about one of them: how many calls it makes, the chunks it moves and what each of
its four codes means. `transfers_exact` holds for every sequence of socket
answers.

No `sorry`, no `axiom`, no `native_decide`.
-/
import LoadBalancing.Base.ChunkedTransfer
import LoadBalancing.Lib.PartialFrames

namespace LoadBalancing.Lib

open LoadBalancing.Base

/-! ## The loop -/

section TransferLoop

variable {σ : Type} {attempt : σ → Nat → Nat → Int × σ} {t : ChunkedTransfer}
  {stateAt : Nat → σ}

/-- The code the loop gives an ending. -/
def endingCode : ChunkedTransfer.Ending → Int
  | .complete => 0
  | .stalled => -1
  | .failed result => if result = -2 ∨ result = -3 then result else -1

/-- An iteration of the loop makes the next call. -/
theorem call_of_attempt (hlimit : t.limit = maxRetries)
    (hattempt : ∀ k, t.Made k → attempt (stateAt k) (t.moved k) (t.length - t.moved k) =
      (t.call k, stateAt (k + 1)))
    {k : Nat} (hmade : ∀ j < k, t.Made j) (hintact : ∀ j < k, 0 ≤ t.call j)
    (hcond : t.moved k < t.length ∧ t.stall k < maxRetries) {moved : Int} {s' : σ}
    (hatt : attempt (stateAt k) (t.moved k) (t.length - t.moved k) = (moved, s')) :
    t.Made k ∧ t.call k = moved ∧ stateAt (k + 1) = s' := by
  have hk : t.Made k := t.made_of_forall hmade hintact hcond.1 (hlimit ▸ hcond.2)
  rw [hattempt k hk, Prod.mk.injEq] at hatt
  exact ⟨hk, hatt⟩

/-- The loop from the call number `k` on. The induction is the loop's own;
`total` and `retries` are what is moved and stalled before that call. -/
theorem transferLoop_ends_from (hlimit : t.limit = maxRetries)
    (hattempt : ∀ k, t.Made k → attempt (stateAt k) (t.moved k) (t.length - t.moved k) =
      (t.call k, stateAt (k + 1)))
    {s : σ} {total retries k : Nat} (hs : s = stateAt k) (htotal : total = t.moved k)
    (hretries : retries = t.stall k) (hmade : ∀ j < k, t.Made j)
    (hintact : ∀ j < k, 0 ≤ t.call j) :
    ∃ n e, t.Ends n e ∧
      transferLoop attempt t.length s total retries = (endingCode e, stateAt n) := by
  fun_induction transferLoop attempt t.length s total retries generalizing k with
  | case1 s total retries hcond moved s' hatt hpos ih =>
    subst hs htotal hretries
    obtain ⟨hk, rfl, rfl⟩ := call_of_attempt hlimit hattempt hmade hintact hcond hatt
    refine ih rfl rfl ?_ (Nat.forall_lt_succ_right.mpr ⟨hmade, hk⟩)
      (Nat.forall_lt_succ_right.mpr ⟨hintact, Int.le_of_lt hpos⟩)
    rw [t.stall_succ, if_neg (Int.ne_of_gt hpos)]
  | case2 s total retries hcond s' hatt hpos ih =>
    subst hs htotal hretries
    obtain ⟨hk, hcall, rfl⟩ := call_of_attempt hlimit hattempt hmade hintact hcond hatt
    refine ih rfl ?_ ?_ (Nat.forall_lt_succ_right.mpr ⟨hmade, hk⟩)
      (Nat.forall_lt_succ_right.mpr ⟨hintact, Int.le_of_eq hcall.symm⟩)
    · rw [t.moved_succ, hcall, Int.toNat_zero, Nat.add_zero]
    · rw [t.stall_succ, if_pos hcall]
  | case3 s total retries hcond moved s' hatt hpos hzero hlost =>
    subst hs htotal hretries
    obtain ⟨hk, rfl, rfl⟩ := call_of_attempt hlimit hattempt hmade hintact hcond hatt
    refine ⟨k + 1, .failed (t.call k), .failed hk (by omega), ?_⟩
    rw [endingCode, if_pos hlost]
  | case4 s total retries hcond moved s' hatt hpos hzero hlost =>
    subst hs htotal hretries
    obtain ⟨hk, rfl, rfl⟩ := call_of_attempt hlimit hattempt hmade hintact hcond hatt
    refine ⟨k + 1, .failed (t.call k), .failed hk (by omega), ?_⟩
    rw [endingCode, if_neg hlost]
  | case5 s total retries hcond hlt =>
    subst hs htotal hretries
    exact ⟨k, .stalled, .stalled hmade hintact hlt (by omega), rfl⟩
  | case6 s total retries hcond hlt =>
    subst hs htotal hretries
    exact ⟨k, .complete, .complete hmade hintact (Nat.not_lt.mp hlt), rfl⟩

/-- **Loop rule.** The loop makes the calls of the transfer and stops where
the transfer ends, with the code of its ending. -/
theorem transferLoop_ends (hlimit : t.limit = maxRetries)
    (hattempt : ∀ k, t.Made k → attempt (stateAt k) (t.moved k) (t.length - t.moved k) =
      (t.call k, stateAt (k + 1))) :
    ∃ n e, t.Ends n e ∧
      transferLoop attempt t.length (stateAt 0) 0 0 = (endingCode e, stateAt n) :=
  transferLoop_ends_from hlimit hattempt rfl rfl rfl (fun _ hj => absurd hj (Nat.not_lt_zero _))
    (fun _ hj => absurd hj (Nat.not_lt_zero _))

end TransferLoop

/-! ## Results of a call -/

/-- What `SafeSend` and `SafeReceive` return for `rest` bytes: a positive
count of at most `rest`, would-block, connection lost, unreachable, or
another error. -/
inductive SocketResult (rest : Nat) : Int → Prop
  | moved {n : Nat} (hpos : 0 < n) (hfits : n ≤ rest) : SocketResult rest n
  | wouldBlock : SocketResult rest 0
  | lost : SocketResult rest (-2)
  | unreachable : SocketResult rest (-3)
  | other : SocketResult rest (-1)

theorem SocketResult.le {rest : Nat} {result : Int} (h : SocketResult rest result) :
    result ≤ rest := by
  cases h with
  | moved hpos hfits => exact Int.ofNat_le.mpr hfits
  | wouldBlock | lost | unreachable | other => omega

theorem errorResult_result (code : SocketError) (rest : Nat) :
    SocketResult rest (errorResult code) := by
  cases code with
  | wouldBlock => exact .wouldBlock
  | notInitialised | connReset | connAborted => exact .lost
  | netUnreach | hostUnreach => exact .unreachable
  | other => exact .other

theorem countResult_result {n rest : Nat} (h : n ≤ rest) : SocketResult rest (countResult n) := by
  unfold countResult
  split
  · exact .lost
  · rename_i hne
    exact .moved (Nat.pos_of_ne_zero hne) h

theorem safeSend_result (answer : SocketAnswer) (rest : Nat) :
    SocketResult rest (safeSend answer rest) := by
  unfold safeSend
  split
  · exact .other
  · cases answer with
    | error code => exact errorResult_result code rest
    | count n => exact countResult_result (Nat.min_le_right n rest)

theorem safeReceive_result (answer : SocketAnswer) (rest available : Nat) :
    SocketResult rest (safeReceive answer rest available) := by
  unfold safeReceive
  split
  · exact .other
  · cases answer with
    | error code => exact errorResult_result code rest
    | count n =>
      simp only
      split
      · exact .wouldBlock
      · exact countResult_result ((Nat.min_le_right _ _).trans (Nat.min_le_left _ _))

/-! ## The two transfers -/

/-- The transfer of a `SendBuffer`. -/
def sends (answers : Nat → SocketAnswer) (buffer : List UInt8) (s : SendSide) :
    ChunkedTransfer where
  results k rest := safeSend (answers (s.calls + k)) rest
  length := buffer.length
  limit := maxRetries
  fits _ rest := (safeSend_result _ rest).le
  limit_pos := by decide

/-- The transfer of a `ReceiveBuffer`: with `rest` bytes to go the stream
is shorter by the others. -/
def receives (answers : Nat → SocketAnswer) (length : Nat) (s : ReceiveSide) :
    ChunkedTransfer where
  results k rest := safeReceive (answers (s.calls + k)) rest (s.stream.length - (length - rest))
  length := length
  limit := maxRetries
  fits _ rest := (safeReceive_result _ rest _).le
  limit_pos := by decide

/-- `SendBuffer` before its call number `k`. -/
def sendSideAt (answers : Nat → SocketAnswer) (buffer : List UInt8) (s : SendSide) (k : Nat) :
    SendSide :=
  ⟨s.calls + k, s.wire ++ buffer.take ((sends answers buffer s).moved k)⟩

/-- `ReceiveBuffer` before its call number `k`, with the bytes received so
far. -/
def receiveSideAt (answers : Nat → SocketAnswer) (length : Nat) (s : ReceiveSide) (k : Nat) :
    ReceiveSide × List UInt8 :=
  (⟨s.calls + k, s.stream.drop ((receives answers length s).moved k)⟩,
    s.stream.take ((receives answers length s).moved k))

theorem sendAttempt_at (answers : Nat → SocketAnswer) (buffer : List UInt8) (s : SendSide)
    (k : Nat) :
    sendAttempt answers buffer (sendSideAt answers buffer s k) ((sends answers buffer s).moved k)
        (buffer.length - (sends answers buffer s).moved k) =
      ((sends answers buffer s).call k, sendSideAt answers buffer s (k + 1)) := by
  have hcall : safeSend (answers (s.calls + k))
      (buffer.length - (sends answers buffer s).moved k) = (sends answers buffer s).call k := rfl
  simp only [sendAttempt, sendSideAt]
  rw [hcall, List.append_assoc, ChunkedTransfer.moved_succ, List.take_add, Nat.add_assoc]

theorem receiveAttempt_at (answers : Nat → SocketAnswer) (length : Nat) (s : ReceiveSide)
    (k : Nat) :
    receiveAttempt answers (receiveSideAt answers length s k)
        ((receives answers length s).moved k) (length - (receives answers length s).moved k) =
      ((receives answers length s).call k, receiveSideAt answers length s (k + 1)) := by
  have hle : (receives answers length s).moved k ≤ length := (receives answers length s).moved_le k
  have hcall : safeReceive (answers (s.calls + k))
      (length - (receives answers length s).moved k)
      (s.stream.length - (receives answers length s).moved k) =
      (receives answers length s).call k := by
    change _ = safeReceive _ _ (s.stream.length - (length - (length - _)))
    rw [Nat.sub_sub_self hle]
    rfl
  simp only [receiveAttempt, receiveSideAt, List.length_drop]
  rw [hcall, ChunkedTransfer.moved_succ, List.take_add, List.drop_drop, Nat.add_assoc]

/-- A receive takes no more than the stream has. -/
theorem receives_moved_le (answers : Nat → SocketAnswer) (length : Nat) (s : ReceiveSide)
    (k : Nat) : (receives answers length s).moved k ≤ s.stream.length := by
  refine (receives answers length s).moved_le_of_fits (fun k m hm => ?_) k
  have hle := toNat_safeReceive_le (answers (s.calls + k)) (length - m)
    (s.stream.length - (length - (length - m)))
  change m + (safeReceive _ (length - m) (s.stream.length - (length - (length - m)))).toNat ≤ _
  omega

/-! ## Exactness -/

/-- The last `MAX_RETRIES` calls of `n` would block, and the one before
them, if any, moved something. -/
def TimedOut (t : ChunkedTransfer) (n : Nat) : Prop :=
  ∃ first, first + maxRetries = n ∧ (∀ j, j + 1 = first → 0 < t.call j) ∧
    ∀ k, first ≤ k → k < n → t.call k = 0

/-- A transfer from the beginning of `source` that makes `n` calls, moves
`transferred` and returns `code`. -/
structure ExactTransfer (t : ChunkedTransfer) (source : List UInt8) (n : Nat) (code : Int)
    (transferred : List UInt8) : Prop where
  terminates : n ≤ maxRetries * t.length
  made_iff : ∀ k, t.Made k ↔ k < n
  results : ∀ k < n, SocketResult (t.length - t.moved k) (t.call k)
  chunks : transferred = (List.range n).flatMap (t.chunk source)
  in_order : transferred = source.take (t.moved n)
  within : t.moved n ≤ t.length ∧ t.moved n ≤ source.length
  success_iff : code = 0 ↔ t.length ≤ source.length ∧ transferred = source.take t.length
  lost_iff : code = -2 ↔ ∃ k < n, t.call k = -2
  unreachable_iff : code = -3 ↔ ∃ k < n, t.call k = -3
  failed_iff : code = -1 ↔ (∃ k < n, t.call k = -1) ∨ TimedOut t n
  codes : code = 0 ∨ code = -1 ∨ code = -2 ∨ code = -3

section ExactTransfer

variable {t : ChunkedTransfer} {n : Nat} {e : ChunkedTransfer.Ending}

/-- -2 and -3 are handed through. -/
theorem endingCode_eq_iff {result : Int} (h : result = -2 ∨ result = -3) :
    endingCode e = result ↔ e = .failed result := by
  constructor
  · intro hcode
    cases e with
    | complete | stalled =>
      simp only [endingCode] at hcode
      omega
    | failed r =>
      simp only [endingCode] at hcode
      split at hcode
      · rw [hcode]
      · omega
  · rintro rfl
    rw [endingCode, if_pos h]

/-- 0 is only returned at the end. -/
theorem endingCode_eq_zero_iff : endingCode e = 0 ↔ e = .complete := by
  constructor
  · intro hcode
    cases e with
    | complete => rfl
    | stalled => cases hcode
    | failed r =>
      simp only [endingCode] at hcode
      split at hcode <;> omega
  · rintro rfl
    rfl

/-- -1 stands for a timeout and for the other errors. -/
theorem endingCode_eq_neg_one_iff (h : t.Ends n e)
    (hresults : ∀ k, SocketResult (t.length - t.moved k) (t.call k)) :
    endingCode e = -1 ↔ e = .failed (-1) ∨ e = .stalled := by
  constructor
  · intro hcode
    cases h with
    | complete => cases hcode
    | stalled => exact Or.inr rfl
    | @failed k hmade hfailed =>
      have hresult := hresults k
      rw [endingCode] at hcode
      generalize t.call k = result at *
      cases hresult with
      | moved | wouldBlock => omega
      | lost | unreachable => cases hcode
      | other => exact Or.inl rfl
  · rintro (rfl | rfl)
    · rfl
    · rfl

/-- **A transfer that ends is exact.** -/
theorem exact_of_ends (h : t.Ends n e) (hlimit : t.limit = maxRetries) {source : List UInt8}
    (hsource : t.moved n ≤ source.length)
    (hresults : ∀ k, SocketResult (t.length - t.moved k) (t.call k)) :
    ExactTransfer t source n (endingCode e) (source.take (t.moved n)) where
  terminates := hlimit ▸ h.le
  made_iff := h.made_iff
  results k _ := hresults k
  chunks := (t.flatMap_chunk source n).symm
  in_order := rfl
  within := ⟨t.moved_le n, hsource⟩
  success_iff := by
    rw [endingCode_eq_zero_iff, h.moved_iff]
    constructor
    · intro hall
      rw [hall] at hsource ⊢
      exact ⟨hsource, rfl⟩
    · rintro ⟨hle, htake⟩
      have hlength := congrArg List.length htake
      rw [List.length_take_of_le hsource, List.length_take_of_le hle] at hlength
      exact hlength
  lost_iff := by
    rw [endingCode_eq_iff (Or.inl rfl), h.failed_iff (by decide)]
  unreachable_iff := by
    rw [endingCode_eq_iff (Or.inr rfl), h.failed_iff (by decide)]
  failed_iff := by
    rw [endingCode_eq_neg_one_iff h hresults, h.failed_iff (by decide), h.stalled_iff, hlimit]
    rfl
  codes := by
    cases h with
    | complete => exact Or.inl rfl
    | stalled => exact Or.inr (Or.inl rfl)
    | failed hmade hfailed =>
      rw [endingCode]
      split <;> omega

end ExactTransfer

/-- `SendBuffer` puts the beginning of the buffer on the wire. -/
theorem sendBuffer_exact (answers : Nat → SocketAnswer) (buffer : List UInt8) (s : SendSide)
    (hlength : 0 < buffer.length) :
    ∃ n code sent, sendBuffer answers buffer s = (code, ⟨s.calls + n, s.wire ++ sent⟩) ∧
      ExactTransfer (sends answers buffer s) buffer n code sent := by
  obtain ⟨n, e, hend, hloop⟩ := transferLoop_ends (t := sends answers buffer s) rfl
    (fun k _ => sendAttempt_at answers buffer s k)
  refine ⟨n, endingCode e, buffer.take ((sends answers buffer s).moved n), ?_, ?_⟩
  · rw [sendBuffer, if_neg (Nat.ne_of_gt hlength)]
    have hstart : sendSideAt answers buffer s 0 = s := by
      simp [sendSideAt]
    rw [hstart] at hloop
    exact hloop
  · exact exact_of_ends hend rfl ((sends answers buffer s).moved_le n)
      (fun k => safeSend_result _ _)

/-- `ReceiveBuffer` fills the buffer from the front of the stream. -/
theorem receiveBuffer_exact (answers : Nat → SocketAnswer) (length : Nat) (s : ReceiveSide)
    (hlength : 0 < length) :
    ∃ n code received, receiveBuffer answers length s =
        (code, ⟨s.calls + n, s.stream.drop received.length⟩, received) ∧
      ExactTransfer (receives answers length s) s.stream n code received := by
  obtain ⟨n, e, hend, hloop⟩ := transferLoop_ends (t := receives answers length s) rfl
    (fun k _ => receiveAttempt_at answers length s k)
  have hsource := receives_moved_le answers length s n
  refine ⟨n, endingCode e, s.stream.take ((receives answers length s).moved n), ?_, ?_⟩
  · rw [receiveBuffer, if_neg (Nat.ne_of_gt hlength), List.length_take_of_le hsource]
    have hstart : receiveSideAt answers length s 0 = (s, []) := by
      simp [receiveSideAt]
    rw [hstart] at hloop
    exact hloop
  · exact exact_of_ends hend rfl hsource (fun k => safeReceive_result _ _ _)

/-- **The partial-transfer loops are exact.** For every positive length and
every sequence of socket answers both loops terminate; what they transfer
is the chunks of their calls, which are the bytes asked for from the
beginning on; and each code says what happened. -/
theorem transfers_exact (answers : Nat → SocketAnswer) :
    (∀ (buffer : List UInt8) (s : SendSide), 0 < buffer.length →
      ∃ n code sent, sendBuffer answers buffer s = (code, ⟨s.calls + n, s.wire ++ sent⟩) ∧
        ExactTransfer (sends answers buffer s) buffer n code sent) ∧
    (∀ (length : Nat) (s : ReceiveSide), 0 < length →
      ∃ n code received, receiveBuffer answers length s =
          (code, ⟨s.calls + n, s.stream.drop received.length⟩, received) ∧
        ExactTransfer (receives answers length s) s.stream n code received) :=
  ⟨sendBuffer_exact answers, receiveBuffer_exact answers⟩

/-- Two bytes at a time, with a would-block before each chunk. -/
theorem transfers_exact_stutter :
    let answers := fun k => if k % 2 = 0 then .error .wouldBlock else .count 2
    (∃ n code sent, sendBuffer answers [1, 2, 3] ⟨0, [9]⟩ = (code, ⟨0 + n, [9] ++ sent⟩) ∧
      ExactTransfer (sends answers [1, 2, 3] ⟨0, [9]⟩) [1, 2, 3] n code sent) ∧
    ∃ n code received, receiveBuffer answers 3 ⟨0, [1, 2, 3, 4]⟩ =
        (code, ⟨0 + n, [1, 2, 3, 4].drop received.length⟩, received) ∧
      ExactTransfer (receives answers 3 ⟨0, [1, 2, 3, 4]⟩) [1, 2, 3, 4] n code received :=
  ⟨(transfers_exact _).1 [1, 2, 3] ⟨0, [9]⟩ (by decide),
    (transfers_exact _).2 3 ⟨0, [1, 2, 3, 4]⟩ (by decide)⟩

end LoadBalancing.Lib
