/-
LoadBalancing.Base.ChunkedTransfer — a transfer of a fixed length in
chunks, with a bound on the calls in a row that move nothing.

The results come from outside: `results k rest` is what the call number
`k` returns when `rest` units are left, a count of at most `rest`, 0 when
nothing could be moved now, and a negative code when the call failed. The
transfer asks again until the length is moved, a call fails, or `limit`
calls in a row moved nothing.

`Ends n e` says that it stops before the call number `n`, and how. Each of
the three endings is read off the results: the length is moved
(`Ends.moved_iff`), a call that was made failed (`Ends.failed_iff`), or the
last `limit` calls moved nothing (`Ends.stalled_iff`). Every call either
moves something or lengthens the stall, so no more than `limit * length`
calls are made (`Ends.le`), and the chunks of the calls are one behind the
other in the source (`flatMap_chunk`).

No `sorry`, no `axiom`, no `native_decide`.
-/
import Mathlib.Data.List.Range

namespace LoadBalancing.Base

/-- The results of the calls of a transfer, its length and how many calls
in a row may move nothing. No call moves more than it was asked for. -/
structure ChunkedTransfer where
  results : Nat → Nat → Int
  length : Nat
  limit : Nat
  fits : ∀ k rest, results k rest ≤ rest
  limit_pos : 0 < limit

namespace ChunkedTransfer

variable (t : ChunkedTransfer)

/-! ## The calls -/

/-- What is moved before the call number `k`. -/
def moved : Nat → Nat
  | 0 => 0
  | k + 1 => moved k + (t.results k (t.length - moved k)).toNat

/-- The result of the call number `k`. -/
def call (k : Nat) : Int := t.results k (t.length - t.moved k)

/-- How many calls in a row moved nothing, just before the call number
`k`. -/
def stall : Nat → Nat
  | 0 => 0
  | k + 1 => if t.call k = 0 then stall k + 1 else 0

/-- The call number `k` is made. -/
structure Made (k : Nat) : Prop where
  short : ∀ j ≤ k, t.moved j < t.length
  patient : ∀ j ≤ k, t.stall j < t.limit
  intact : ∀ j < k, 0 ≤ t.call j

/-- How a transfer ends. -/
inductive Ending where
  | complete
  | stalled
  | failed (result : Int)
  deriving DecidableEq, Repr

/-- The transfer stops before the call number `n`. -/
inductive Ends : Nat → Ending → Prop
  | complete {n : Nat} (hmade : ∀ k < n, t.Made k) (hintact : ∀ k < n, 0 ≤ t.call k)
      (hfull : t.length ≤ t.moved n) : Ends n .complete
  | stalled {n : Nat} (hmade : ∀ k < n, t.Made k) (hintact : ∀ k < n, 0 ≤ t.call k)
      (hshort : t.moved n < t.length) (hstall : t.limit ≤ t.stall n) : Ends n .stalled
  | failed {k : Nat} (hmade : t.Made k) (hfailed : t.call k < 0) : Ends (k + 1) (.failed (t.call k))

/-- What the call number `k` moves of a source. -/
def chunk {α : Type u} (source : List α) (k : Nat) : List α :=
  (source.drop (t.moved k)).take (t.call k).toNat

@[simp] theorem moved_zero : t.moved 0 = 0 := rfl

theorem moved_succ (k : Nat) : t.moved (k + 1) = t.moved k + (t.call k).toNat := rfl

@[simp] theorem stall_zero : t.stall 0 = 0 := rfl

theorem stall_succ (k : Nat) : t.stall (k + 1) = if t.call k = 0 then t.stall k + 1 else 0 := rfl

/-! ## What is moved -/

/-- A bound that every call respects is respected by what is moved. -/
theorem moved_le_of_fits {bound : Nat}
    (h : ∀ k m, m ≤ bound → m + (t.results k (t.length - m)).toNat ≤ bound) (k : Nat) :
    t.moved k ≤ bound := by
  induction k with
  | zero => exact Nat.zero_le bound
  | succ k ih => exact h k (t.moved k) ih

/-- Never more than the length is moved. -/
theorem moved_le (k : Nat) : t.moved k ≤ t.length := by
  refine t.moved_le_of_fits (fun k m hm => ?_) k
  have hfits := t.fits k (t.length - m)
  omega

theorem moved_mono {j k : Nat} (h : j ≤ k) : t.moved j ≤ t.moved k := by
  induction h with
  | refl => exact Nat.le_refl _
  | step _ ih => exact Nat.le_trans ih (Nat.le_add_right _ _)

/-- **The chunks of the calls are one behind the other in the source**:
together they are its beginning. -/
theorem flatMap_chunk {α : Type u} (source : List α) (n : Nat) :
    (List.range n).flatMap (t.chunk source) = source.take (t.moved n) := by
  induction n with
  | zero => rfl
  | succ n ih =>
    rw [List.range_succ, List.flatMap_append, ih, List.flatMap_singleton, moved_succ,
      List.take_add]
    rfl

/-! ## Stalls -/

/-- The calls of a stall moved nothing. -/
theorem call_eq_zero_of_stall {j k : Nat} (hj : j < k) (h : k ≤ j + t.stall k) :
    t.call j = 0 := by
  induction k with
  | zero => exact absurd hj (Nat.not_lt_zero j)
  | succ k ih =>
    rw [stall_succ] at h
    split at h
    · rename_i hzero
      rcases Nat.lt_succ_iff_lt_or_eq.mp hj with hlt | rfl
      · exact ih hlt (by omega)
      · exact hzero
    · omega

/-- Calls in a row that moved nothing are a stall. -/
theorem le_stall {first k : Nat} (h : ∀ j, first ≤ j → j < k → t.call j = 0) :
    k - first ≤ t.stall k := by
  induction k with
  | zero => omega
  | succ k ih =>
    by_cases hfirst : first ≤ k
    · have hle := ih (fun j hj hlt => h j hj (Nat.lt_succ_of_lt hlt))
      rw [stall_succ, if_pos (h k hfirst (Nat.lt_succ_self k))]
      omega
    · omega

/-- The calls before a stall are there. -/
theorem stall_le (k : Nat) : t.stall k ≤ k := by
  induction k with
  | zero => exact Nat.le_refl 0
  | succ k ih =>
    rw [stall_succ]
    split
    · exact Nat.succ_le_succ ih
    · exact Nat.zero_le _

/-! ## Calls that are made -/

theorem Made.mono {j k : Nat} (h : t.Made k) (hj : j ≤ k) : t.Made j :=
  ⟨fun i hi => h.short i (hi.trans hj), fun i hi => h.patient i (hi.trans hj),
    fun i hi => h.intact i (hi.trans_le hj)⟩

/-- The next call is made when the one before it did not end the transfer. -/
theorem made_of_forall {k : Nat} (hmade : ∀ j < k, t.Made j) (hintact : ∀ j < k, 0 ≤ t.call j)
    (hshort : t.moved k < t.length) (hstall : t.stall k < t.limit) : t.Made k := by
  refine ⟨fun j hj => ?_, fun j hj => ?_, hintact⟩
  · exact (t.moved_mono hj).trans_lt hshort
  · rcases Nat.lt_or_eq_of_le hj with hlt | rfl
    · exact (hmade j hlt).patient j (Nat.le_refl j)
    · exact hstall

/-- Every call moved something or lengthened the stall, so there were at
most `limit` of them for each unit that is moved. -/
theorem Made.le {k : Nat} (h : t.Made k) : k ≤ t.limit * t.moved k + t.stall k := by
  induction k with
  | zero => exact Nat.zero_le _
  | succ k ih =>
    have hle := ih (h.mono t (Nat.le_succ k))
    have hpatient := h.patient k (Nat.le_succ k)
    have hcall := h.intact k (Nat.lt_succ_self k)
    rw [stall_succ]
    by_cases hzero : t.call k = 0
    · rw [if_pos hzero, moved_succ, hzero]
      exact Nat.succ_le_succ hle
    · rw [if_neg hzero]
      have hmore : t.moved k + 1 ≤ t.moved (k + 1) := by
        rw [moved_succ]
        omega
      have hscaled := Nat.mul_le_mul_left t.limit hmore
      rw [Nat.mul_add, Nat.mul_one] at hscaled
      omega

/-- No call is made from the number `limit * length` on. -/
theorem Made.lt {k : Nat} (h : t.Made k) : k < t.limit * t.length := by
  have hle := h.le
  have hpatient := h.patient k (Nat.le_refl k)
  have hscaled := Nat.mul_le_mul_left t.limit (h.short k (Nat.le_refl k))
  rw [Nat.succ_eq_add_one, Nat.mul_add, Nat.mul_one] at hscaled
  omega

/-! ## Endings -/

section Endings

variable {t}
variable {n : Nat} {e : Ending}

/-- The calls that are made are the ones before the end. -/
theorem Ends.made_iff (h : t.Ends n e) (k : Nat) : t.Made k ↔ k < n := by
  cases h with
  | complete hmade hintact hfull =>
    refine ⟨fun hk => Nat.not_le.mp fun hle => ?_, hmade k⟩
    exact absurd (hk.short n hle) (Nat.not_lt.mpr hfull)
  | stalled hmade hintact hshort hstall =>
    refine ⟨fun hk => Nat.not_le.mp fun hle => ?_, hmade k⟩
    exact absurd (hk.patient n hle) (Nat.not_lt.mpr hstall)
  | failed hmade hfailed =>
    refine ⟨fun hk => Nat.not_le.mp fun hle => ?_, fun hk => hmade.mono t (Nat.le_of_lt_succ hk)⟩
    exact absurd (hk.intact _ hle) (Int.not_le.mpr hfailed)

/-- **The transfer ends**, within `limit` calls for each unit. -/
theorem Ends.le (h : t.Ends n e) : n ≤ t.limit * t.length := by
  cases n with
  | zero => exact Nat.zero_le _
  | succ n => exact ((h.made_iff n).mpr (Nat.lt_succ_self n)).lt

/-- It is complete exactly when the whole length is moved. -/
theorem Ends.moved_iff (h : t.Ends n e) : e = .complete ↔ t.moved n = t.length := by
  have hle := t.moved_le n
  cases h with
  | complete hmade hintact hfull => exact ⟨fun _ => Nat.le_antisymm hle hfull, fun _ => rfl⟩
  | stalled hmade hintact hshort hstall =>
    exact ⟨fun h => Ending.noConfusion h, fun h => absurd h (Nat.ne_of_lt hshort)⟩
  | failed hmade hfailed =>
    refine ⟨fun h => Ending.noConfusion h, fun h => ?_⟩
    have hshort := hmade.short _ (Nat.le_refl _)
    rw [moved_succ, Int.toNat_of_nonpos (Int.le_of_lt hfailed), Nat.add_zero] at h
    exact absurd h (Nat.ne_of_lt hshort)

/-- It fails exactly with the result of a call that is made and failed. -/
theorem Ends.failed_iff (h : t.Ends n e) {result : Int} (hresult : result < 0) :
    e = .failed result ↔ ∃ k < n, t.call k = result := by
  constructor
  · rintro rfl
    cases h with
    | failed hmade hfailed => exact ⟨_, Nat.lt_succ_self _, rfl⟩
  · rintro ⟨k, hk, rfl⟩
    cases h with
    | complete hmade hintact hfull => exact absurd (hintact k hk) (Int.not_le.mpr hresult)
    | stalled hmade hintact hshort hstall => exact absurd (hintact k hk) (Int.not_le.mpr hresult)
    | failed hmade hfailed =>
      rcases Nat.lt_succ_iff_lt_or_eq.mp hk with hlt | rfl
      · exact absurd (hmade.intact k hlt) (Int.not_le.mpr hresult)
      · rfl

/-- What comes before the last `limit` calls moved something: the stall
began behind it. -/
theorem Ends.moves_before (h : t.Ends n e) {first : Nat} (hn : first + t.limit = n)
    (hzero : ∀ k, first ≤ k → k < n → t.call k = 0) {j : Nat} (hj : j + 1 = first) :
    0 < t.call j := by
  have hpos := t.limit_pos
  have hmade : t.Made (n - 1) := (h.made_iff (n - 1)).mpr (by omega)
  have hintact := hmade.intact j (by omega)
  refine Int.lt_iff_le_and_ne.mpr ⟨hintact, fun hidle => ?_⟩
  -- with one more call that moved nothing the limit was reached before
  have hstall : n - 1 - j ≤ t.stall (n - 1) := by
    refine t.le_stall (fun i hi hlt => ?_)
    rcases Nat.lt_or_eq_of_le hi with hlater | rfl
    · exact hzero i (by omega) (by omega)
    · exact hidle.symm
  have hpatient := hmade.patient (n - 1) (Nat.le_refl _)
  omega

/-- It stalls exactly when its last `limit` calls moved nothing, and these
are all calls since the last one that moved something. -/
theorem Ends.stalled_iff (h : t.Ends n e) :
    e = .stalled ↔ ∃ first, first + t.limit = n ∧ (∀ j, j + 1 = first → 0 < t.call j) ∧
      ∀ k, first ≤ k → k < n → t.call k = 0 := by
  have hpos := t.limit_pos
  constructor
  · rintro rfl
    have hend := h
    cases h with
    | stalled hmade hintact hshort hstall =>
      have hle := t.stall_le n
      have hn : n - t.limit + t.limit = n := by omega
      have hzero : ∀ k, n - t.limit ≤ k → k < n → t.call k = 0 := fun k hfirst hk =>
        t.call_eq_zero_of_stall hk (by omega)
      exact ⟨n - t.limit, hn, fun j => hend.moves_before hn hzero, hzero⟩
  · rintro ⟨first, hn, -, hzero⟩
    have hlast : t.call (n - 1) = 0 := hzero (n - 1) (by omega) (by omega)
    cases h with
    | complete hmade hintact hfull =>
      -- the last call moved nothing, so the length was moved before it
      have hshort := (hmade (n - 1) (by omega)).short (n - 1) (Nat.le_refl _)
      obtain ⟨last, rfl⟩ : ∃ last, n = last + 1 := ⟨n - 1, by omega⟩
      rw [Nat.add_sub_cancel] at hlast hshort
      rw [moved_succ, hlast] at hfull
      exact absurd hfull (Nat.not_le.mpr hshort)
    | stalled => rfl
    | failed hmade hfailed => exact absurd hlast (Int.ne_of_lt hfailed)

end Endings

end ChunkedTransfer

end LoadBalancing.Base
