/-
LoadBalancing.Base.BoundedBuffer — a ring buffer guarded by two
semaphores and a lock.

`Ring` is the array with its head, its tail and its count; the relation
between the three is part of the type. Its `contents` are the list it
stands for, and `contents_put` and `contents_take` say that it is a FIFO
queue across any number of wrap-arounds.

A producer waits on `notFull`, puts inside the lock and releases
`notEmpty`; a consumer mirrors it. Each of the three is a step of its
own. `Accounts` counts the permits against the count and the threads
between two of their steps; every step keeps it, no release exceeds its
maximum, and a thread that got its permit never finds the ring full or
empty.

No `sorry`, no `axiom`, no `native_decide`.
-/
import Mathlib.Logic.Function.Basic
import LoadBalancing.Base.Semaphore

namespace LoadBalancing.Base

variable {α : Type u} {capacity : Nat}

/-! ## The ring -/

/-- A circular array of `capacity` slots. -/
structure Ring (α : Type u) (capacity : Nat) where
  slots : Nat → α
  head : Nat
  tail : Nat
  count : Nat
  head_lt : head < capacity
  tail_eq : tail = (head + count) % capacity
  count_le : count ≤ capacity

namespace Ring

/-- The ring before its first element; what its slots hold is whatever
the memory held. -/
def new (slots : Nat → α) (h : 0 < capacity) : Ring α capacity :=
  ⟨slots, 0, 0, 0, h, (Nat.zero_mod capacity).symm, Nat.zero_le _⟩

/-- Write the tail slot and move the tail; `none` when the ring is full.
The write sees the slot's old contents. -/
def put (r : Ring α capacity) (write : α → α) : Option (Ring α capacity) :=
  if h : r.count < capacity then
    some
      { slots := Function.update r.slots r.tail (write (r.slots r.tail))
        head := r.head
        tail := (r.tail + 1) % capacity
        count := r.count + 1
        head_lt := r.head_lt
        tail_eq := by rw [r.tail_eq, Nat.mod_add_mod, Nat.add_assoc]
        count_le := h }
  else none

/-- The head slot and the ring behind it; `none` when the ring is
empty. -/
def take (r : Ring α capacity) : Option (α × Ring α capacity) :=
  if h : 0 < r.count then
    some (r.slots r.head,
      { slots := r.slots
        head := (r.head + 1) % capacity
        tail := r.tail
        count := r.count - 1
        head_lt := Nat.mod_lt _ (Nat.lt_of_le_of_lt (Nat.zero_le _) r.head_lt)
        tail_eq := by
          rw [r.tail_eq, Nat.mod_add_mod]
          congr 1
          omega
        count_le := Nat.le_trans (Nat.sub_le _ _) r.count_le })
  else none

/-- The elements in the ring, oldest first. -/
def contents (r : Ring α capacity) : List α :=
  (List.range r.count).map fun i => r.slots ((r.head + i) % capacity)

@[simp] theorem length_contents (r : Ring α capacity) : r.contents.length = r.count := by
  simp [contents]

@[simp] theorem contents_new (slots : Nat → α) (h : 0 < capacity) :
    (new slots h).contents = [] := rfl

/-- Two occupied positions are different slots. -/
theorem slot_ne_tail (r : Ring α capacity) {i : Nat} (hi : i < r.count)
    (hfull : r.count < capacity) : (r.head + i) % capacity ≠ r.tail := by
  have hhead := r.head_lt
  rw [r.tail_eq]
  by_cases h₁ : r.head + i < capacity <;> by_cases h₂ : r.head + r.count < capacity
  · rw [Nat.mod_eq_of_lt h₁, Nat.mod_eq_of_lt h₂]; omega
  · rw [Nat.mod_eq_of_lt h₁, Nat.mod_eq_sub_mod (by omega), Nat.mod_eq_of_lt (by omega)]; omega
  · omega
  · rw [Nat.mod_eq_sub_mod (by omega), Nat.mod_eq_of_lt (by omega),
      Nat.mod_eq_sub_mod (by omega), Nat.mod_eq_of_lt (by omega)]
    omega

/-- **A put appends.** -/
theorem contents_put {r r' : Ring α capacity} {write : α → α} (h : r.put write = some r') :
    r'.contents = r.contents ++ [write (r.slots r.tail)] := by
  unfold put at h
  split at h
  · rename_i hfull
    cases h
    simp only [contents, List.range_succ, List.map_append, List.map_cons, List.map_nil]
    rw [← r.tail_eq, Function.update_self]
    congr 1
    apply List.map_congr_left
    intro i hi
    exact Function.update_of_ne (r.slot_ne_tail (List.mem_range.mp hi) hfull) _ _
  · cases h

/-- **A take removes the oldest.** -/
theorem contents_take {r r' : Ring α capacity} {a : α} (h : r.take = some (a, r')) :
    r.contents = a :: r'.contents := by
  unfold take at h
  split at h
  · rename_i hpos
    cases h
    obtain ⟨n, hn⟩ : ∃ n, r.count = n + 1 := ⟨r.count - 1, by omega⟩
    simp only [contents, hn, List.range_succ_eq_map, List.map_cons, Nat.add_zero,
      Nat.mod_eq_of_lt r.head_lt, List.map_map, Nat.add_sub_cancel]
    congr 1
    apply List.map_congr_left
    intro i _
    show r.slots ((r.head + (i + 1)) % capacity)
      = r.slots (((r.head + 1) % capacity + i) % capacity)
    rw [Nat.mod_add_mod, Nat.add_assoc, Nat.add_comm 1 i]
  · cases h

theorem count_put {r r' : Ring α capacity} {write : α → α} (h : r.put write = some r') :
    r'.count = r.count + 1 := by
  have hlen := congrArg List.length (contents_put h)
  simpa using hlen

theorem count_take {r r' : Ring α capacity} {a : α} (h : r.take = some (a, r')) :
    r'.count + 1 = r.count := by
  have hlen := congrArg List.length (contents_take h)
  simpa using hlen.symm

theorem put_eq_none {r : Ring α capacity} {write : α → α} :
    r.put write = none ↔ r.count = capacity := by
  have hle := r.count_le
  unfold put
  split
  · simp only [reduceCtorEq, false_iff]; omega
  · simp only [true_iff]; omega

theorem take_eq_none {r : Ring α capacity} : r.take = none ↔ r.count = 0 := by
  unfold take
  split
  · simp only [reduceCtorEq, false_iff]; omega
  · simp only [true_iff]; omega

end Ring

/-! ## The guarded buffer -/

/-- A ring with its two semaphores. -/
structure BoundedBuffer (α : Type u) (capacity : Nat) where
  ring : Ring α capacity
  notFull : Semaphore capacity
  notEmpty : Semaphore capacity

namespace BoundedBuffer

/-- The buffer as it is initialised. -/
def new (slots : Nat → α) (h : 0 < capacity) : BoundedBuffer α capacity :=
  ⟨Ring.new slots h, Semaphore.full capacity, Semaphore.closed capacity⟩

/-- A producer's wait. -/
def waitNotFull (b : BoundedBuffer α capacity) : Option (BoundedBuffer α capacity) :=
  b.notFull.wait.map fun s => { b with notFull := s }

/-- A producer's locked section. -/
def put (b : BoundedBuffer α capacity) (write : α → α) : Option (BoundedBuffer α capacity) :=
  (b.ring.put write).map fun r => { b with ring := r }

/-- A producer's release. -/
def releaseNotEmpty (b : BoundedBuffer α capacity) : BoundedBuffer α capacity :=
  { b with notEmpty := b.notEmpty.release 1 }

/-- A consumer's wait. -/
def waitNotEmpty (b : BoundedBuffer α capacity) : Option (BoundedBuffer α capacity) :=
  b.notEmpty.wait.map fun s => { b with notEmpty := s }

/-- A consumer's locked section. -/
def take (b : BoundedBuffer α capacity) : Option (α × BoundedBuffer α capacity) :=
  b.ring.take.map fun p => (p.1, { b with ring := p.2 })

/-- A consumer's release. -/
def releaseNotFull (b : BoundedBuffer α capacity) : BoundedBuffer α capacity :=
  { b with notFull := b.notFull.release 1 }

/-- The elements in the buffer, oldest first. -/
def contents (b : BoundedBuffer α capacity) : List α := b.ring.contents

@[simp] theorem contents_new (slots : Nat → α) (h : 0 < capacity) :
    (new slots h).contents = [] := rfl

@[simp] theorem contents_releaseNotEmpty (b : BoundedBuffer α capacity) :
    b.releaseNotEmpty.contents = b.contents := rfl

@[simp] theorem contents_releaseNotFull (b : BoundedBuffer α capacity) :
    b.releaseNotFull.contents = b.contents := rfl

theorem contents_waitNotFull {b b' : BoundedBuffer α capacity} (h : b.waitNotFull = some b') :
    b'.contents = b.contents := by
  obtain ⟨s, -, rfl⟩ := Option.map_eq_some_iff.mp h
  rfl

theorem contents_waitNotEmpty {b b' : BoundedBuffer α capacity} (h : b.waitNotEmpty = some b') :
    b'.contents = b.contents := by
  obtain ⟨s, -, rfl⟩ := Option.map_eq_some_iff.mp h
  rfl

theorem contents_put {b b' : BoundedBuffer α capacity} {write : α → α}
    (h : b.put write = some b') :
    b'.contents = b.contents ++ [write (b.ring.slots b.ring.tail)] := by
  obtain ⟨r, hr, rfl⟩ := Option.map_eq_some_iff.mp h
  exact Ring.contents_put hr

theorem contents_take {b b' : BoundedBuffer α capacity} {a : α} (h : b.take = some (a, b')) :
    b.contents = a :: b'.contents := by
  obtain ⟨⟨c, r⟩, hr, heq⟩ := Option.map_eq_some_iff.mp h
  obtain ⟨rfl, rfl⟩ := Prod.mk.inj heq
  exact Ring.contents_take hr

/-! ## Permits -/

/-- How many threads stand between two of their steps: producers between
wait and put and between put and release, consumers alike. -/
structure Pending where
  putWaited : Nat
  putDone : Nat
  takeWaited : Nat
  takeDone : Nat
  deriving DecidableEq

@[ext] theorem Pending.ext {p q : Pending} (h₁ : p.putWaited = q.putWaited)
    (h₂ : p.putDone = q.putDone) (h₃ : p.takeWaited = q.takeWaited)
    (h₄ : p.takeDone = q.takeDone) : p = q := by
  cases p; cases q; simp_all

/-- The permits of both semaphores against the count and the threads in
between. -/
structure Accounts (b : BoundedBuffer α capacity) (p : Pending) : Prop where
  notFull_eq : b.notFull.value + b.ring.count + p.putWaited + p.takeDone = capacity
  notEmpty_eq : b.notEmpty.value + p.takeWaited + p.putDone = b.ring.count

theorem accounts_new (slots : Nat → α) (h : 0 < capacity) :
    (new slots h).Accounts ⟨0, 0, 0, 0⟩ :=
  ⟨rfl, rfl⟩

section Steps

variable {b b' : BoundedBuffer α capacity} {p : Pending}

theorem Accounts.waitNotFull (h : b.Accounts p) (hwait : b.waitNotFull = some b') :
    b'.Accounts { p with putWaited := p.putWaited + 1 } := by
  obtain ⟨s, hs, rfl⟩ := Option.map_eq_some_iff.mp hwait
  have hvalue := Semaphore.wait_eq_some hs
  have hfull := h.notFull_eq
  exact ⟨by simp only; omega, h.notEmpty_eq⟩

/-- A producer with its permit finds a free slot. -/
theorem Accounts.put_ne_none (h : b.Accounts p) (hp : 0 < p.putWaited) (write : α → α) :
    b.put write ≠ none := by
  intro hnone
  have hfull := Ring.put_eq_none.mp (Option.map_eq_none_iff.mp hnone)
  have hcount := h.notFull_eq
  omega

theorem Accounts.put {write : α → α} (h : b.Accounts p) (hp : 0 < p.putWaited)
    (hput : b.put write = some b') :
    b'.Accounts { p with putWaited := p.putWaited - 1, putDone := p.putDone + 1 } := by
  obtain ⟨r, hr, rfl⟩ := Option.map_eq_some_iff.mp hput
  have hcount := Ring.count_put hr
  have hfull := h.notFull_eq
  have hempty := h.notEmpty_eq
  exact ⟨by simp only; omega, by simp only; omega⟩

/-- A producer's release stays within the maximum. -/
theorem Accounts.releaseNotEmpty (h : b.Accounts p) (hp : 0 < p.putDone) :
    b.releaseNotEmpty.Accounts { p with putDone := p.putDone - 1 } := by
  have hempty := h.notEmpty_eq
  have hle := b.ring.count_le
  have hvalue := Semaphore.release_value (s := b.notEmpty) (n := 1) (by omega)
  refine ⟨h.notFull_eq, ?_⟩
  show (b.notEmpty.release 1).value + p.takeWaited + (p.putDone - 1) = b.ring.count
  omega

theorem Accounts.waitNotEmpty (h : b.Accounts p) (hwait : b.waitNotEmpty = some b') :
    b'.Accounts { p with takeWaited := p.takeWaited + 1 } := by
  obtain ⟨s, hs, rfl⟩ := Option.map_eq_some_iff.mp hwait
  have hvalue := Semaphore.wait_eq_some hs
  have hempty := h.notEmpty_eq
  exact ⟨h.notFull_eq, by simp only; omega⟩

/-- A consumer with its permit finds an element. -/
theorem Accounts.take_ne_none (h : b.Accounts p) (hp : 0 < p.takeWaited) :
    b.take ≠ none := by
  intro hnone
  have hzero := Ring.take_eq_none.mp (Option.map_eq_none_iff.mp hnone)
  have hcount := h.notEmpty_eq
  omega

theorem Accounts.take {a : α} (h : b.Accounts p) (hp : 0 < p.takeWaited)
    (htake : b.take = some (a, b')) :
    b'.Accounts { p with takeWaited := p.takeWaited - 1, takeDone := p.takeDone + 1 } := by
  obtain ⟨⟨c, r⟩, hr, heq⟩ := Option.map_eq_some_iff.mp htake
  obtain ⟨rfl, rfl⟩ := Prod.mk.inj heq
  have hcount := Ring.count_take hr
  have hfull := h.notFull_eq
  have hempty := h.notEmpty_eq
  exact ⟨by simp only; omega, by simp only; omega⟩

/-- A consumer's release stays within the maximum. -/
theorem Accounts.releaseNotFull (h : b.Accounts p) (hp : 0 < p.takeDone) :
    b.releaseNotFull.Accounts { p with takeDone := p.takeDone - 1 } := by
  have hfull := h.notFull_eq
  have hvalue := Semaphore.release_value (s := b.notFull) (n := 1) (by omega)
  refine ⟨?_, h.notEmpty_eq⟩
  show (b.notFull.release 1).value + b.ring.count + p.putWaited + (p.takeDone - 1) = capacity
  omega

end Steps

/-! ## Whole calls

What a call does when no other thread moves during it. -/

/-- A producer's call: 1 when the element is in the buffer, 0 when the
wait times out or the ring is full behind it. -/
def enqueue (b : BoundedBuffer α capacity) (write : α → α) : Int × BoundedBuffer α capacity :=
  match b.waitNotFull with
  | none => (0, b)
  | some b₁ =>
    match b₁.put write with
    | none => (0, b₁)
    | some b₂ => (1, b₂.releaseNotEmpty)

/-- A consumer's call; `none` is the result 0. -/
def dequeue (b : BoundedBuffer α capacity) : Option α × BoundedBuffer α capacity :=
  match b.waitNotEmpty with
  | none => (none, b)
  | some b₁ =>
    match b₁.take with
    | none => (none, b₁)
    | some (a, b₂) => (some a, b₂.releaseNotFull)

/-- A producer's call puts its element behind the others, or changes
nothing in the buffer. -/
theorem enqueue_cases (b : BoundedBuffer α capacity) (write : α → α) :
    (∃ slot b', b.enqueue write = (1, b') ∧ b'.contents = b.contents ++ [write slot]) ∨
      ∃ b', b.enqueue write = (0, b') ∧ b'.contents = b.contents := by
  unfold enqueue
  cases hwait : b.waitNotFull with
  | none => exact Or.inr ⟨b, rfl, rfl⟩
  | some b₁ =>
    cases hput : b₁.put write with
    | none => exact Or.inr ⟨b₁, by simp [hput], contents_waitNotFull hwait⟩
    | some b₂ =>
      refine Or.inl ⟨b₁.ring.slots b₁.ring.tail, b₂.releaseNotEmpty, by simp [hput], ?_⟩
      rw [contents_releaseNotEmpty, contents_put hput, contents_waitNotFull hwait]

/-- A consumer's call takes the oldest element, or changes nothing in the
buffer. -/
theorem dequeue_cases (b : BoundedBuffer α capacity) :
    (∃ a b', b.dequeue = (some a, b') ∧ b.contents = a :: b'.contents) ∨
      ∃ b', b.dequeue = (none, b') ∧ b'.contents = b.contents := by
  unfold dequeue
  cases hwait : b.waitNotEmpty with
  | none => exact Or.inr ⟨b, rfl, rfl⟩
  | some b₁ =>
    cases htake : b₁.take with
    | none => exact Or.inr ⟨b₁, by simp [htake], contents_waitNotEmpty hwait⟩
    | some p =>
      obtain ⟨a, b₂⟩ := p
      refine Or.inl ⟨a, b₂.releaseNotFull, by simp [htake], ?_⟩
      rw [contents_releaseNotFull, ← contents_waitNotEmpty hwait, contents_take htake]

/-- No thread is between two of its steps. -/
def Settled (b : BoundedBuffer α capacity) : Prop := b.Accounts ⟨0, 0, 0, 0⟩

theorem settled_new (slots : Nat → α) (h : 0 < capacity) : (new slots h).Settled :=
  accounts_new slots h

/-- With room, a producer's call appends its element. -/
theorem Settled.enqueue {b : BoundedBuffer α capacity} (h : b.Settled)
    (hroom : b.ring.count < capacity) (write : α → α) :
    ∃ slot b', b.enqueue write = (1, b') ∧ b'.Settled ∧
      b'.contents = b.contents ++ [write slot] := by
  have hfull := h.notFull_eq
  cases hwait : b.waitNotFull with
  | none =>
    have hzero := Semaphore.wait_eq_none.mp (Option.map_eq_none_iff.mp hwait)
    simp only at hfull
    omega
  | some b₁ =>
    have h₁ := h.waitNotFull hwait
    cases hput : b₁.put write with
    | none => exact absurd hput (h₁.put_ne_none (by simp) write)
    | some b₂ =>
      have h₂ := h₁.put (by simp) hput
      refine ⟨b₁.ring.slots b₁.ring.tail, b₂.releaseNotEmpty, ?_, ?_, ?_⟩
      · simp only [BoundedBuffer.enqueue, hwait, hput]
      · exact h₂.releaseNotEmpty (by simp)
      · rw [contents_releaseNotEmpty, contents_put hput, contents_waitNotFull hwait]

/-- On an empty buffer a consumer's call changes nothing. -/
theorem Settled.dequeue_nil {b : BoundedBuffer α capacity} (h : b.Settled)
    (hnil : b.contents = []) : b.dequeue = (none, b) := by
  have hempty := h.notEmpty_eq
  have hcount : b.ring.count = 0 := by
    have hlen := congrArg List.length hnil
    simpa [contents] using hlen
  have hwait : b.waitNotEmpty = none := by
    simp only at hempty
    exact Option.map_eq_none_iff.mpr (Semaphore.wait_eq_none.mpr (by omega))
  simp only [BoundedBuffer.dequeue, hwait]

/-- On a buffer with elements it takes the oldest. -/
theorem Settled.dequeue_cons {b : BoundedBuffer α capacity} {a : α} {as : List α}
    (h : b.Settled) (hcons : b.contents = a :: as) :
    ∃ b', b.dequeue = (some a, b') ∧ b'.Settled ∧ b'.contents = as := by
  have hempty := h.notEmpty_eq
  have hcount : b.ring.count = as.length + 1 := by
    have hlen := congrArg List.length hcons
    simpa [contents] using hlen
  cases hwait : b.waitNotEmpty with
  | none =>
    have hzero := Semaphore.wait_eq_none.mp (Option.map_eq_none_iff.mp hwait)
    simp only at hempty
    omega
  | some b₁ =>
    have h₁ := h.waitNotEmpty hwait
    cases htake : b₁.take with
    | none => exact absurd htake (h₁.take_ne_none (by simp))
    | some p =>
      obtain ⟨c, b₂⟩ := p
      have h₂ := h₁.take (by simp) htake
      have hc := contents_take htake
      rw [contents_waitNotEmpty hwait, hcons] at hc
      obtain ⟨rfl, rfl⟩ := List.cons.inj hc
      refine ⟨b₂.releaseNotFull, ?_, h₂.releaseNotFull (by simp), rfl⟩
      simp only [BoundedBuffer.dequeue, hwait, htake]

/-- A buffer behind one call on it, or none. -/
inductive Called (b : BoundedBuffer α capacity) : BoundedBuffer α capacity → Prop
  | none : Called b b
  | enqueue (write : α → α) : Called b (b.enqueue write).2
  | dequeue : Called b b.dequeue.2

/-- **Calls keep a buffer settled**, whether they succeed or not. -/
theorem Settled.called {b b' : BoundedBuffer α capacity} (h : b.Settled) (hcall : b.Called b') :
    b'.Settled := by
  cases hcall with
  | none => exact h
  | enqueue write =>
    by_cases hroom : b.ring.count < capacity
    · obtain ⟨slot, b', hb, hsettled, -⟩ := h.enqueue hroom write
      rw [hb]
      exact hsettled
    · have hfull := h.notFull_eq
      have hwait : b.waitNotFull = Option.none := by
        simp only at hfull
        exact Option.map_eq_none_iff.mpr (Semaphore.wait_eq_none.mpr (by omega))
      simp only [BoundedBuffer.enqueue, hwait]
      exact h
  | dequeue =>
    cases hcontents : b.contents with
    | nil =>
      rw [h.dequeue_nil hcontents]
      exact h
    | cons a as =>
      obtain ⟨b', hb, hsettled, -⟩ := h.dequeue_cons hcontents
      rw [hb]
      exact hsettled

/-- The count of a settled buffer is the number of its elements. -/
theorem count_eq_length (b : BoundedBuffer α capacity) :
    b.ring.count = b.contents.length := by
  simp [contents]

end BoundedBuffer

end LoadBalancing.Base
