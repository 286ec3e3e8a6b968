/-
LoadBalancing.Base.Semaphore — counting semaphores with a maximum.

The maximum is part of the type, fixed at creation, and the value never
exceeds it by construction. A wait takes a permit or, when there is
none, times out; a release past the maximum fails and changes nothing,
which is how the system call behaves.

No `sorry`, no `axiom`, no `native_decide`.
-/

namespace LoadBalancing.Base

/-- How a wait with a timeout ends. -/
inductive WaitResult where
  | object0
  | timeout
  | failed
  deriving DecidableEq

/-- A counting semaphore with its value and the bound on it. -/
structure Semaphore (maximum : Nat) where
  value : Nat
  value_le : value ≤ maximum
  deriving DecidableEq

namespace Semaphore

variable {maximum : Nat}

/-- A semaphore created with no permit. -/
def closed (maximum : Nat) : Semaphore maximum := ⟨0, Nat.zero_le _⟩

/-- A semaphore created with every permit. -/
def full (maximum : Nat) : Semaphore maximum := ⟨maximum, Nat.le_refl _⟩

/-- A wait with a timeout: `none` when no permit is left. -/
def wait (s : Semaphore maximum) : Option (Semaphore maximum) :=
  if 0 < s.value then some ⟨s.value - 1, Nat.le_trans (Nat.sub_le _ _) s.value_le⟩ else none

/-- Give back `n` permits; past the maximum nothing is given back. -/
def release (s : Semaphore maximum) (n : Nat) : Semaphore maximum :=
  if h : s.value + n ≤ maximum then ⟨s.value + n, h⟩ else s

@[simp] theorem closed_value : (closed maximum).value = 0 := rfl

@[simp] theorem full_value : (full maximum).value = maximum := rfl

/-- A release that stays within the maximum adds its permits. -/
theorem release_value {s : Semaphore maximum} {n : Nat} (h : s.value + n ≤ maximum) :
    (s.release n).value = s.value + n := by
  simp [release, h]

/-- A wait that does not time out takes exactly one permit. -/
theorem wait_eq_some {s t : Semaphore maximum} (h : s.wait = some t) :
    t.value + 1 = s.value := by
  unfold wait at h
  split at h
  · cases h
    show s.value - 1 + 1 = s.value
    omega
  · cases h

/-- A permit that is taken and given back. -/
theorem release_of_wait {s t : Semaphore maximum} (h : s.wait = some t) : t.release 1 = s := by
  have hvalue := wait_eq_some h
  have hle := s.value_le
  obtain ⟨value, value_le⟩ := s
  rw [release, dif_pos (by omega)]
  simp only [hvalue]

/-- A wait times out exactly when no permit is left. -/
theorem wait_eq_none {s : Semaphore maximum} : s.wait = none ↔ s.value = 0 := by
  unfold wait
  split
  · simp only [reduceCtorEq, false_iff]; omega
  · simp only [true_iff]; omega

end Semaphore

end LoadBalancing.Base
