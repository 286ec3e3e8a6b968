/-
LoadBalancing.Base.BufferThreads — any number of threads that put into
and take from one bounded buffer.

A call is three steps with other threads in between: the wait, the locked
section, the release. A thread is where it stands in its call (`CallAt`).
A wait is told how it ended; a locked section that finds the ring full,
or empty, ends the call and keeps the permit, so that a buffer in which
this happens loses a permit for good.

Two facts hold at the end of every run. `Sound` counts the permits
against the ring and the threads in between, from which neither dead end
is reachable and no release exceeds its maximum. `Fifo` says that what
was taken and what is still inside are what was put, in the order of the
locked sections, up to a relation `Same` that a copy into a slot keeps:
the rest of the slot may be left over from an earlier element.

No `sorry`, no `axiom`, no `native_decide`.
-/
import Mathlib.Data.List.Forall2
import LoadBalancing.Base.BoundedBuffer
import LoadBalancing.Base.Threads
import LoadBalancing.Base.Transition

namespace LoadBalancing.Base

/-- Where a thread stands: in no call, between the wait and the locked
section of a call, or between the locked section and the release. -/
inductive CallAt (α : Type u) where
  | outside
  | putWaited (src : α)
  | putDone
  | takeWaited (dst : α)
  | takeDone

/-- A buffer and its threads, with what was put and what was taken so
far, each in the order of the locked sections. -/
structure BufferThreads (α : Type u) (capacity : Nat) where
  buffer : BoundedBuffer α capacity
  threads : List (CallAt α)
  enqueued : List α
  taken : List α

namespace BufferThreads

variable {α : Type u} {capacity : Nat}

/-- One step of thread `i`: a call up to its wait, its locked section, its
release. -/
inductive Label (α : Type u) where
  | put (i : Nat) (src : α) (result : WaitResult)
  | take (i : Nat) (dst : α) (result : WaitResult)
  | locked (i : Nat)
  | release (i : Nat)

/-- The new buffer and `n` threads outside. -/
def start (slots : Nat → α) (h : 0 < capacity) (n : Nat) : BufferThreads α capacity :=
  ⟨BoundedBuffer.new slots h, List.replicate n .outside, [], []⟩

/-- The locked section of the call a thread stands in. -/
def lockedSection (copy : α → α → α) (s : BufferThreads α capacity) (i : Nat) :
    CallAt α → Option (BufferThreads α capacity)
  | .putWaited src =>
    match s.buffer.put (copy src) with
    | none => some { s with threads := s.threads.set i .outside }
    | some buffer =>
      some { s with
        buffer := buffer
        threads := s.threads.set i .putDone
        enqueued := s.enqueued ++ [src] }
  | .takeWaited dst =>
    match s.buffer.take with
    | none => some { s with threads := s.threads.set i .outside }
    | some (slot, buffer) =>
      some { s with
        buffer := buffer
        threads := s.threads.set i .takeDone
        taken := s.taken ++ [copy slot dst] }
  | _ => none

/-- The release that ends the call a thread stands in. -/
def releaseStep (s : BufferThreads α capacity) (i : Nat) :
    CallAt α → Option (BufferThreads α capacity)
  | .putDone =>
    some { s with buffer := s.buffer.releaseNotEmpty, threads := s.threads.set i .outside }
  | .takeDone =>
    some { s with buffer := s.buffer.releaseNotFull, threads := s.threads.set i .outside }
  | _ => none

/-- One step. A wait that ends without a permit ends its call. -/
def step (copy : α → α → α) (s : BufferThreads α capacity) :
    Label α → Option (BufferThreads α capacity)
  | .put i src result =>
    match s.threads[i]?, result with
    | some .outside, .object0 =>
      s.buffer.waitNotFull.map fun buffer =>
        { s with buffer := buffer, threads := s.threads.set i (.putWaited src) }
    | some .outside, _ => some s
    | _, _ => none
  | .take i dst result =>
    match s.threads[i]?, result with
    | some .outside, .object0 =>
      s.buffer.waitNotEmpty.map fun buffer =>
        { s with buffer := buffer, threads := s.threads.set i (.takeWaited dst) }
    | some .outside, _ => some s
    | _, _ => none
  | .locked i => s.threads[i]?.bind (lockedSection copy s i)
  | .release i => s.threads[i]?.bind (releaseStep s i)

/-! ## What a step does -/

/-- The steps, with a constructor for each way through the calls. -/
inductive Move (copy : α → α → α) (s : BufferThreads α capacity) :
    Label α → BufferThreads α capacity → Prop
  | putStays {i : Nat} (src : α) {result : WaitResult} (hcall : s.threads[i]? = some .outside)
      (hresult : result ≠ .object0) : Move copy s (.put i src result) s
  | takeStays {i : Nat} (dst : α) {result : WaitResult} (hcall : s.threads[i]? = some .outside)
      (hresult : result ≠ .object0) : Move copy s (.take i dst result) s
  | putWaits {i : Nat} (src : α) {buffer : BoundedBuffer α capacity}
      (hcall : s.threads[i]? = some .outside) (hwait : s.buffer.waitNotFull = some buffer) :
      Move copy s (.put i src .object0)
        { s with buffer := buffer, threads := s.threads.set i (.putWaited src) }
  | takeWaits {i : Nat} (dst : α) {buffer : BoundedBuffer α capacity}
      (hcall : s.threads[i]? = some .outside) (hwait : s.buffer.waitNotEmpty = some buffer) :
      Move copy s (.take i dst .object0)
        { s with buffer := buffer, threads := s.threads.set i (.takeWaited dst) }
  | putFull {i : Nat} {src : α} (hcall : s.threads[i]? = some (.putWaited src))
      (hput : s.buffer.put (copy src) = none) :
      Move copy s (.locked i) { s with threads := s.threads.set i .outside }
  | puts {i : Nat} {src : α} {buffer : BoundedBuffer α capacity}
      (hcall : s.threads[i]? = some (.putWaited src))
      (hput : s.buffer.put (copy src) = some buffer) :
      Move copy s (.locked i)
        { s with
          buffer := buffer
          threads := s.threads.set i .putDone
          enqueued := s.enqueued ++ [src] }
  | takeEmpty {i : Nat} {dst : α} (hcall : s.threads[i]? = some (.takeWaited dst))
      (htake : s.buffer.take = none) :
      Move copy s (.locked i) { s with threads := s.threads.set i .outside }
  | takes {i : Nat} {dst slot : α} {buffer : BoundedBuffer α capacity}
      (hcall : s.threads[i]? = some (.takeWaited dst))
      (htake : s.buffer.take = some (slot, buffer)) :
      Move copy s (.locked i)
        { s with
          buffer := buffer
          threads := s.threads.set i .takeDone
          taken := s.taken ++ [copy slot dst] }
  | putReleases {i : Nat} (hcall : s.threads[i]? = some .putDone) :
      Move copy s (.release i)
        { s with buffer := s.buffer.releaseNotEmpty, threads := s.threads.set i .outside }
  | takeReleases {i : Nat} (hcall : s.threads[i]? = some .takeDone) :
      Move copy s (.release i)
        { s with buffer := s.buffer.releaseNotFull, threads := s.threads.set i .outside }

theorem step_move {copy : α → α → α} {s t : BufferThreads α capacity} {l : Label α}
    (h : step copy s l = some t) : Move copy s l t := by
  cases l with
  | put i src result =>
    simp only [step] at h
    split at h
    · rename_i hcall
      obtain ⟨buffer, hwait, rfl⟩ := Option.map_eq_some_iff.mp h
      exact .putWaits src hcall hwait
    · rename_i hcall hresult
      cases h
      exact .putStays src hcall hresult
    · cases h
  | take i dst result =>
    simp only [step] at h
    split at h
    · rename_i hcall
      obtain ⟨buffer, hwait, rfl⟩ := Option.map_eq_some_iff.mp h
      exact .takeWaits dst hcall hwait
    · rename_i hcall hresult
      cases h
      exact .takeStays dst hcall hresult
    · cases h
  | locked i =>
    obtain ⟨call, hcall, h⟩ := Option.bind_eq_some_iff.mp h
    cases call with
    | putWaited src =>
      simp only [lockedSection] at h
      split at h
      · rename_i hput
        cases h; exact .putFull hcall hput
      · rename_i buffer hput
        cases h; exact .puts hcall hput
    | takeWaited dst =>
      simp only [lockedSection] at h
      split at h
      · rename_i htake
        cases h; exact .takeEmpty hcall htake
      · rename_i slot buffer htake
        cases h; exact .takes hcall htake
    | outside => cases h
    | putDone => cases h
    | takeDone => cases h
  | release i =>
    obtain ⟨call, hcall, h⟩ := Option.bind_eq_some_iff.mp h
    cases call with
    | putDone => cases h; exact .putReleases hcall
    | takeDone => cases h; exact .takeReleases hcall
    | outside => cases h
    | putWaited src => cases h
    | takeWaited dst => cases h

/-! ## Permits -/

/-- A producer between its wait and its locked section. -/
def putWaited : CallAt α → Nat
  | .putWaited _ => 1
  | _ => 0

/-- A producer between its locked section and its release. -/
def putDone : CallAt α → Nat
  | .putDone => 1
  | _ => 0

/-- A consumer between its wait and its locked section. -/
def takeWaited : CallAt α → Nat
  | .takeWaited _ => 1
  | _ => 0

/-- A consumer between its locked section and its release. -/
def takeDone : CallAt α → Nat
  | .takeDone => 1
  | _ => 0

/-- The threads between two of their steps. -/
def pending (threads : List (CallAt α)) : BoundedBuffer.Pending :=
  ⟨total putWaited threads, total putDone threads, total takeWaited threads,
    total takeDone threads⟩

/-- The permits are accounted for by the threads. -/
def Sound (s : BufferThreads α capacity) : Prop := s.buffer.Accounts (pending s.threads)

/-- An account with the moved thread counted where it stands now. -/
theorem accounts_set {threads : List (CallAt α)} {i : Nat} {a b : CallAt α}
    {buffer : BoundedBuffer α capacity} {p : BoundedBuffer.Pending}
    (h : threads[i]? = some a) (hp : buffer.Accounts p)
    (heq : p.putWaited + putWaited a = (pending threads).putWaited + putWaited b ∧
      p.putDone + putDone a = (pending threads).putDone + putDone b ∧
      p.takeWaited + takeWaited a = (pending threads).takeWaited + takeWaited b ∧
      p.takeDone + takeDone a = (pending threads).takeDone + takeDone b) :
    buffer.Accounts (pending (threads.set i b)) := by
  obtain ⟨h₁, h₂, h₃, h₄⟩ := heq
  have hset₁ := total_set putWaited h b
  have hset₂ := total_set putDone h b
  have hset₃ := total_set takeWaited h b
  have hset₄ := total_set takeDone h b
  have hpending : pending (threads.set i b) = p := by
    ext <;> simp only [pending] at * <;> omega
  rw [hpending]
  exact hp

theorem pending_replicate (n : Nat) :
    pending (List.replicate n (CallAt.outside : CallAt α)) = ⟨0, 0, 0, 0⟩ := by
  have hzero : ∀ weight : CallAt α → Nat, weight .outside = 0 →
      total weight (List.replicate n .outside) = 0 := by
    intro weight hweight
    rw [total_eq_zero]
    intro a ha
    rw [List.eq_of_mem_replicate ha, hweight]
  rw [pending, hzero putWaited rfl, hzero putDone rfl, hzero takeWaited rfl, hzero takeDone rfl]

section Counts

variable {threads : List (CallAt α)} {i : Nat}

theorem putWaited_pos {src : α} (h : threads[i]? = some (.putWaited src)) :
    0 < (pending threads).putWaited :=
  weight_le_total putWaited h

theorem putDone_pos (h : threads[i]? = some .putDone) : 0 < (pending threads).putDone :=
  weight_le_total putDone h

theorem takeWaited_pos {dst : α} (h : threads[i]? = some (.takeWaited dst)) :
    0 < (pending threads).takeWaited :=
  weight_le_total takeWaited h

theorem takeDone_pos (h : threads[i]? = some .takeDone) : 0 < (pending threads).takeDone :=
  weight_le_total takeDone h

end Counts

theorem sound_start (slots : Nat → α) (h : 0 < capacity) (n : Nat) :
    (start slots h n).Sound := by
  rw [Sound, start, pending_replicate]
  exact BoundedBuffer.accounts_new slots h

section Sound

variable {copy : α → α → α} {s t : BufferThreads α capacity} {i : Nat}

/-- **A producer behind its wait finds a free slot.** -/
theorem Sound.put_ne_none (h : s.Sound) {src : α} (hcall : s.threads[i]? = some (.putWaited src))
    (write : α → α) : s.buffer.put write ≠ none := by
  exact BoundedBuffer.Accounts.put_ne_none h (putWaited_pos hcall) write

/-- **A consumer behind its wait finds an element.** -/
theorem Sound.take_ne_none (h : s.Sound) {dst : α}
    (hcall : s.threads[i]? = some (.takeWaited dst)) : s.buffer.take ≠ none := by
  exact BoundedBuffer.Accounts.take_ne_none h (takeWaited_pos hcall)

/-- **A producer's release stays within the maximum.** -/
theorem Sound.notEmpty_lt (h : s.Sound) (hcall : s.threads[i]? = some .putDone) :
    s.buffer.notEmpty.value + 1 ≤ capacity := by
  have hpos := putDone_pos hcall
  have hempty := h.notEmpty_eq
  have hcount := s.buffer.ring.count_le
  omega

/-- **A consumer's release stays within the maximum.** -/
theorem Sound.notFull_lt (h : s.Sound) (hcall : s.threads[i]? = some .takeDone) :
    s.buffer.notFull.value + 1 ≤ capacity := by
  have hpos := takeDone_pos hcall
  have hfull := h.notFull_eq
  omega

/-- **Every step keeps the account.** -/
theorem sound_step (h : s.Sound) {l : Label α} (hstep : step copy s l = some t) : t.Sound := by
  cases step_move hstep with
  | putStays => exact h
  | takeStays => exact h
  | putWaits src hcall hwait =>
    have hnext := BoundedBuffer.Accounts.waitNotFull h hwait
    exact accounts_set hcall hnext
      (by simp only [putWaited, putDone, takeWaited, takeDone, and_self])
  | takeWaits dst hcall hwait =>
    have hnext := BoundedBuffer.Accounts.waitNotEmpty h hwait
    exact accounts_set hcall hnext
      (by simp only [putWaited, putDone, takeWaited, takeDone, and_self])
  | putFull hcall hput => exact absurd hput (h.put_ne_none hcall _)
  | takeEmpty hcall htake => exact absurd htake (h.take_ne_none hcall)
  | puts hcall hput =>
    have hpos := putWaited_pos hcall
    have hnext := BoundedBuffer.Accounts.put h hpos hput
    exact accounts_set hcall hnext
      (by simp only [putWaited, putDone, takeWaited, takeDone, and_true]; omega)
  | takes hcall htake =>
    have hpos := takeWaited_pos hcall
    have hnext := BoundedBuffer.Accounts.take h hpos htake
    exact accounts_set hcall hnext
      (by simp only [putWaited, putDone, takeWaited, takeDone, true_and, and_true]; omega)
  | putReleases hcall =>
    have hpos := putDone_pos hcall
    have hnext := BoundedBuffer.Accounts.releaseNotEmpty h hpos
    exact accounts_set hcall hnext
      (by simp only [putWaited, putDone, takeWaited, takeDone, true_and, and_true]; omega)
  | takeReleases hcall =>
    have hpos := takeDone_pos hcall
    have hnext := BoundedBuffer.Accounts.releaseNotFull h hpos
    exact accounts_set hcall hnext
      (by simp only [putWaited, putDone, takeWaited, takeDone, true_and]; omega)

/-- The account in full, with what follows from it for each thread: the
counters in range, the permits counted, a free slot behind a producer's
wait and an element behind a consumer's, and releases within the
maximum. -/
structure Accounted (s : BufferThreads α capacity) : Prop where
  count_le : s.buffer.ring.count ≤ capacity
  head_lt : s.buffer.ring.head < capacity
  tail_lt : s.buffer.ring.tail < capacity
  tail_eq : s.buffer.ring.tail = (s.buffer.ring.head + s.buffer.ring.count) % capacity
  notFull_eq : s.buffer.notFull.value + s.buffer.ring.count + total putWaited s.threads
    + total takeDone s.threads = capacity
  notEmpty_eq : s.buffer.notEmpty.value + (capacity - s.buffer.ring.count)
    + total takeWaited s.threads + total putDone s.threads = capacity
  notFull_signal : ∀ (i : Nat) (src : α), s.threads[i]? = some (.putWaited src) →
    s.buffer.ring.count < capacity
  notEmpty_signal : ∀ (i : Nat) (dst : α), s.threads[i]? = some (.takeWaited dst) →
    0 < s.buffer.ring.count
  notEmpty_release : ∀ i : Nat, s.threads[i]? = some .putDone →
    s.buffer.notEmpty.value + 1 ≤ capacity
  notFull_release : ∀ i : Nat, s.threads[i]? = some .takeDone →
    s.buffer.notFull.value + 1 ≤ capacity

theorem Sound.accounted (h : s.Sound) : s.Accounted := by
  have hfull := h.notFull_eq
  have hempty := h.notEmpty_eq
  have hcount := s.buffer.ring.count_le
  have htail := s.buffer.ring.tail_eq
  have hpos : 0 < capacity := Nat.lt_of_le_of_lt (Nat.zero_le _) s.buffer.ring.head_lt
  simp only [pending] at hfull hempty
  exact
    { count_le := hcount
      head_lt := s.buffer.ring.head_lt
      tail_lt := by rw [htail]; exact Nat.mod_lt _ hpos
      tail_eq := htail
      notFull_eq := hfull
      notEmpty_eq := by omega
      notFull_signal := by
        intro i src hcall
        have hone := putWaited_pos hcall
        simp only [pending] at hone
        omega
      notEmpty_signal := by
        intro i dst hcall
        have hone := takeWaited_pos hcall
        simp only [pending] at hone
        omega
      notEmpty_release := fun i hcall => h.notEmpty_lt hcall
      notFull_release := fun i hcall => h.notFull_lt hcall }

end Sound

/-! ## First in, first out -/

/-- What was taken and what is inside, in this order, are what was put. -/
def Fifo (Same : α → α → Prop) (s : BufferThreads α capacity) : Prop :=
  List.Forall₂ Same (s.taken ++ s.buffer.contents) s.enqueued

section Fifo

variable {copy : α → α → α} {Same : α → α → Prop} {s t : BufferThreads α capacity}

theorem fifo_start (slots : Nat → α) (h : 0 < capacity) (n : Nat) :
    (start slots h n).Fifo Same := by
  simp [Fifo, start]

/-- A related element may take the place of one in the middle. -/
theorem forall₂_replace (htrans : ∀ a b c, Same a b → Same b c → Same a c) {a b : α}
    (hab : Same a b) {xs ys zs : List α} (h : List.Forall₂ Same (xs ++ b :: ys) zs) :
    List.Forall₂ Same (xs ++ a :: ys) zs := by
  induction xs generalizing zs with
  | nil =>
    cases h with
    | cons hb hys => exact .cons (htrans _ _ _ hab hb) hys
  | cons x xs ih =>
    cases h with
    | cons hx hxs => exact .cons hx (ih hxs)

/-- **Every step keeps the order.** A put appends to both sides; a take
moves the oldest element from the ring to the taken ones. -/
theorem fifo_step (hcopy : ∀ src dst, Same (copy src dst) src)
    (htrans : ∀ a b c, Same a b → Same b c → Same a c) (h : s.Fifo Same) {l : Label α}
    (hstep : step copy s l = some t) : t.Fifo Same := by
  cases step_move hstep with
  | putStays => exact h
  | takeStays => exact h
  | putWaits src hcall hwait =>
    rw [Fifo, BoundedBuffer.contents_waitNotFull hwait]
    exact h
  | takeWaits dst hcall hwait =>
    rw [Fifo, BoundedBuffer.contents_waitNotEmpty hwait]
    exact h
  | putFull hcall hput => exact h
  | takeEmpty hcall htake => exact h
  | puts hcall hput =>
    rw [Fifo, BoundedBuffer.contents_put hput, ← List.append_assoc]
    exact List.rel_append h (.cons (hcopy _ _) .nil)
  | takes hcall htake =>
    have hcontents := BoundedBuffer.contents_take htake
    rw [Fifo, hcontents] at h
    rw [Fifo, List.append_assoc]
    exact forall₂_replace htrans (hcopy _ _) h
  | putReleases hcall => exact h
  | takeReleases hcall => exact h

/-- What was taken is what was put first. -/
theorem Fifo.taken_prefix (h : s.Fifo Same) :
    ∃ oldest, oldest <+: s.enqueued ∧ List.Forall₂ Same s.taken oldest := by
  have htake := List.forall₂_take_append _ _ _ h.flip
  exact ⟨_, List.take_prefix _ _, htake.flip⟩

end Fifo

/-! ## Calls without interruption -/

section Uninterrupted

variable {copy : α → α → α} {s t : BufferThreads α capacity} {i : Nat}

/-- A producer whose three steps no other thread interrupts has made the
whole call. -/
theorem enqueue_of_exec {src : α}
    (h : exec (step copy) s [.put i src .object0, .locked i, .release i] = some t) :
    s.buffer.enqueue (copy src) = (1, t.buffer) ∧ t.enqueued = s.enqueued ++ [src] := by
  obtain ⟨s₁, h₁, h⟩ := exec_cons_eq_some.mp h
  obtain ⟨s₂, h₂, h⟩ := exec_cons_eq_some.mp h
  obtain ⟨s₃, h₃, h⟩ := exec_cons_eq_some.mp h
  cases h
  cases step_move h₁ with
  | putStays _ hcall hresult => exact absurd rfl hresult
  | putWaits _ hcall hwait =>
    have hwaited := getElem?_set_moved hcall (.putWaited src)
    simp only [step, hwaited, Option.bind_some, lockedSection] at h₂
    split at h₂
    · cases h₂
      simp only [step, getElem?_set_moved hwaited .outside, Option.bind_some, releaseStep] at h₃
      cases h₃
    · rename_i buffer hput
      cases h₂
      simp only [step, getElem?_set_moved hwaited .putDone, Option.bind_some, releaseStep] at h₃
      cases h₃
      simp only [BoundedBuffer.enqueue, hwait, hput, and_self]

/-- A consumer whose three steps no other thread interrupts has made the
whole call. -/
theorem dequeue_of_exec {dst : α}
    (h : exec (step copy) s [.take i dst .object0, .locked i, .release i] = some t) :
    ∃ slot, s.buffer.dequeue = (some slot, t.buffer) ∧ t.taken = s.taken ++ [copy slot dst] := by
  obtain ⟨s₁, h₁, h⟩ := exec_cons_eq_some.mp h
  obtain ⟨s₂, h₂, h⟩ := exec_cons_eq_some.mp h
  obtain ⟨s₃, h₃, h⟩ := exec_cons_eq_some.mp h
  cases h
  cases step_move h₁ with
  | takeStays _ hcall hresult => exact absurd rfl hresult
  | takeWaits _ hcall hwait =>
    have hwaited := getElem?_set_moved hcall (.takeWaited dst)
    simp only [step, hwaited, Option.bind_some, lockedSection] at h₂
    split at h₂
    · cases h₂
      simp only [step, getElem?_set_moved hwaited .outside, Option.bind_some, releaseStep] at h₃
      cases h₃
    · rename_i slot buffer htake
      cases h₂
      simp only [step, getElem?_set_moved hwaited .takeDone, Option.bind_some, releaseStep] at h₃
      cases h₃
      exact ⟨slot, by simp only [BoundedBuffer.dequeue, hwait, htake], rfl⟩

end Uninterrupted

end BufferThreads

end LoadBalancing.Base
