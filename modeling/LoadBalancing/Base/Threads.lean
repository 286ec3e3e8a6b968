/-
LoadBalancing.Base.Threads — a family of threads as the list of their
local states.

A thread moves by `List.set` at its index. What an invariant says about
all of them, how many stand at a program point or how often a token
occurs in their hands, is `total` of a weight on local states, and
`total_set` is all a step lemma needs: the moved thread's old weight goes
and its new weight comes.

No `sorry`, no `axiom`, no `native_decide`.
-/
import Mathlib.Algebra.GroupWithZero.Nat

namespace LoadBalancing.Base

variable {α : Type u}

/-- The sum of a weight over all threads. -/
def total (weight : α → Nat) (threads : List α) : Nat := (threads.map weight).sum

@[simp] theorem total_nil (weight : α → Nat) : total weight [] = 0 := rfl

@[simp] theorem total_cons (weight : α → Nat) (a : α) (threads : List α) :
    total weight (a :: threads) = weight a + total weight threads := by
  simp [total]

@[simp] theorem total_append (weight : α → Nat) (xs ys : List α) :
    total weight (xs ++ ys) = total weight xs + total weight ys := by
  simp [total]

/-- **One thread moves**: its weight before is traded for its weight
after. -/
theorem total_set {threads : List α} {i : Nat} {a : α} (weight : α → Nat)
    (h : threads[i]? = some a) (b : α) :
    total weight (threads.set i b) + weight a = total weight threads + weight b := by
  induction threads generalizing i with
  | nil => simp at h
  | cons c cs ih =>
    cases i with
    | zero =>
      obtain rfl : c = a := by simpa using h
      simp only [List.set_cons_zero, total_cons]
      omega
    | succ i =>
      have hrec := ih (i := i) (by simpa using h)
      simp only [List.set_cons_succ, total_cons]
      omega

/-- One thread's weight is part of the total. -/
theorem weight_le_total {threads : List α} {i : Nat} {a : α} (weight : α → Nat)
    (h : threads[i]? = some a) : weight a ≤ total weight threads := by
  induction threads generalizing i with
  | nil => simp at h
  | cons c cs ih =>
    cases i with
    | zero =>
      obtain rfl : c = a := by simpa using h
      simp
    | succ i =>
      have hi : cs[i]? = some a := by simpa using h
      have hrec := ih hi
      simp only [total_cons]
      omega

/-- The total is zero exactly when every thread's weight is. -/
theorem total_eq_zero (weight : α → Nat) (threads : List α) :
    total weight threads = 0 ↔ ∀ a ∈ threads, weight a = 0 := by
  induction threads with
  | nil => simp
  | cons c cs ih => simp [ih]

/-- Where a thread stands after its move. -/
theorem getElem?_set_moved {threads : List α} {i : Nat} {a : α} (h : threads[i]? = some a)
    (b : α) : (threads.set i b)[i]? = some b :=
  List.getElem?_set_self (List.getElem?_eq_some_iff.mp h).1

/-- What stands in the list behind a move: what stood there, or the thread
that has moved. -/
theorem getElem?_set_cases {threads : List α} {i j : Nat} {a b : α}
    (h : (threads.set i a)[j]? = some b) : (i ≠ j ∧ threads[j]? = some b) ∨ (i = j ∧ b = a) := by
  by_cases hij : i = j
  · subst hij
    rw [List.getElem?_set_self'] at h
    obtain ⟨old, -, heq⟩ := Option.map_eq_some_iff.mp h
    exact Or.inr ⟨rfl, heq.symm⟩
  · rw [List.getElem?_set_ne hij] at h
    exact Or.inl ⟨hij, h⟩

/-! ## Counting threads -/

/-- A count is the total of a weight of one. -/
theorem total_toNat (p : α → Bool) (threads : List α) :
    total (fun a => (p a).toNat) threads = threads.countP p := by
  induction threads with
  | nil => rfl
  | cons c cs ih =>
    rw [total_cons, ih, List.countP_cons, Nat.add_comm]
    cases p c <;> rfl

/-- One thread moves: it is counted where it stands now. -/
theorem countP_set_add {threads : List α} {i : Nat} {a : α} (p : α → Bool)
    (h : threads[i]? = some a) (b : α) :
    (threads.set i b).countP p + (p a).toNat = threads.countP p + (p b).toNat := by
  rw [← total_toNat, ← total_toNat]
  exact total_set _ h b

/-- A thread that is counted. -/
theorem countP_pos_of_getElem? {threads : List α} {i : Nat} {a : α} {p : α → Bool}
    (h : threads[i]? = some a) (hp : p a = true) : 0 < threads.countP p :=
  List.countP_pos_iff.mpr ⟨a, List.mem_of_getElem? h, hp⟩

/-- A thread is started. -/
theorem countP_concat (p : α → Bool) (threads : List α) (a : α) :
    (threads ++ [a]).countP p = threads.countP p + (p a).toNat := by
  rw [List.countP_append, List.countP_singleton]
  cases p a <;> rfl

end LoadBalancing.Base
