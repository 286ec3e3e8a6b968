/-
LoadBalancing.LoadBalancer.ThreadPools — the two thread pools under any
number of calls, `LoadBalancer/ClientThreadPool.c` and
`LoadBalancer/WorkerThreadPool.c`.

The pools differ in what a slot holds, a socket and an id or a socket
alone, and in their size; the steps are one definition. A call of Assign
is its wait, its section under the lock and, on two of its error paths,
the release of its permit; a call of Return is its section and its
release. Other threads move in between. What `malloc` and `CreateThread`
answer is part of the label of a section.

A section to which `malloc` refuses memory leaves its slot taken and
gives the permit back. `pools_accounted_iff`: without such a section the
pool is accounted for whenever no call is in progress, and every Assign
that fails leaves the pool alone; with one, that very call does not.

Out of scope: the NULL checks, and `ReturnXDataReceiverThread` with an
index or data other than those its thread was started with.

No `sorry`, no `axiom`, no `native_decide`.
-/
import LoadBalancing.Base.Threads
import LoadBalancing.Base.Transition
import LoadBalancing.LoadBalancer.ClientThreadPool

namespace LoadBalancing.LoadBalancer

open LoadBalancing.Base LoadBalancing.Lib

namespace ThreadPools

/-! ## Pools -/

/-- One index of the arrays of a pool; `entry` is what it has of its
socket and, for a client, its id. -/
structure PoolSlot (β : Type) where
  isAvailable : Bool
  hasThread : Bool
  entry : Option β
  deriving DecidableEq

namespace PoolSlot

variable {β : Type}

/-- A slot as the initialization and `ReturnXDataReceiverThread` leave
it. -/
def free : PoolSlot β := ⟨true, false, none⟩

/-- A slot with its thread. -/
def taken (entry : β) : PoolSlot β := ⟨false, true, some entry⟩

/-- A slot whose `isAvailable` is cleared. -/
def isTaken (slot : PoolSlot β) : Bool := !slot.isAvailable

end PoolSlot

/-- `ClientThreadPool` and `WorkerThreadPool`. -/
structure ThreadPool (β : Type) (maximum : Nat) where
  slots : List (PoolSlot β)
  semaphore : Semaphore maximum
  count : Int
  length_slots : slots.length = maximum

namespace ThreadPool

variable {β : Type} {maximum : Nat}

/-- `InitializeClientThreadPool` and `InitializeWorkerThreadPool`. -/
def initializePool (maximum : Nat) : ThreadPool β maximum :=
  ⟨List.replicate maximum .free, Semaphore.full maximum, 0, List.length_replicate⟩

/-- Write a slot. -/
def setSlot (pool : ThreadPool β maximum) (i : Nat) (slot : PoolSlot β) : ThreadPool β maximum :=
  { pool with
    slots := pool.slots.set i slot
    length_slots := by rw [List.length_set]; exact pool.length_slots }

/-- The first available slot, with its index. -/
def firstAvailable (pool : ThreadPool β maximum) : Option (Nat × PoolSlot β) :=
  (pool.slots.findIdx? PoolSlot.isAvailable).bind fun i =>
    pool.slots[i]?.map fun slot => (i, slot)

/-- The body of the `if` in the loop of Assign: the slot is written, then
memory and a thread are asked for. -/
def startIn (pool : ThreadPool β maximum) (i : Nat) (slot : PoolSlot β) (entry : β) :
    ThreadStart → ThreadPool β maximum
  | .mallocFails => pool.setSlot i { slot with isAvailable := false, entry := some entry }
  | .createFails => pool.setSlot i .free
  | .started => { pool.setSlot i (.taken entry) with count := pool.count + 1 }

/-- The section of Return under the lock. -/
def returnSlot (pool : ThreadPool β maximum) (threadIndex : Nat) : ThreadPool β maximum :=
  { pool.setSlot threadIndex .free with count := pool.count - 1 }

@[simp] theorem setSlot_slots (pool : ThreadPool β maximum) (i : Nat) (slot : PoolSlot β) :
    (pool.setSlot i slot).slots = pool.slots.set i slot := rfl

@[simp] theorem setSlot_semaphore (pool : ThreadPool β maximum) (i : Nat) (slot : PoolSlot β) :
    (pool.setSlot i slot).semaphore = pool.semaphore := rfl

@[simp] theorem setSlot_count (pool : ThreadPool β maximum) (i : Nat) (slot : PoolSlot β) :
    (pool.setSlot i slot).count = pool.count := rfl

theorem firstAvailable_eq_some {pool : ThreadPool β maximum} {i : Nat} {slot : PoolSlot β}
    (h : pool.firstAvailable = some (i, slot)) :
    pool.slots[i]? = some slot ∧ slot.isAvailable = true := by
  obtain ⟨j, hj, hslot⟩ := Option.bind_eq_some_iff.mp h
  obtain ⟨slot', hslot', heq⟩ := Option.map_eq_some_iff.mp hslot
  obtain ⟨rfl, rfl⟩ := Prod.mk.inj heq
  obtain ⟨hlt, havail, -⟩ := List.findIdx?_eq_some_iff_getElem.mp hj
  rw [List.getElem?_eq_getElem hlt, Option.some.injEq] at hslot'
  exact ⟨hslot' ▸ List.getElem?_eq_getElem hlt, hslot' ▸ havail⟩

/-- The loop runs through only when no slot is available. -/
theorem firstAvailable_eq_none {pool : ThreadPool β maximum} :
    pool.firstAvailable = none ↔ pool.slots.countP PoolSlot.isAvailable = 0 := by
  rw [List.countP_eq_zero]
  constructor
  · intro h slot hslot
    cases hfind : pool.slots.findIdx? PoolSlot.isAvailable with
    | none => exact ne_true_of_eq_false (List.findIdx?_eq_none_iff.mp hfind slot hslot)
    | some i =>
      obtain ⟨hlt, -, -⟩ := List.findIdx?_eq_some_iff_getElem.mp hfind
      simp only [firstAvailable, hfind, Option.bind_some, List.getElem?_eq_getElem hlt,
        Option.map_some] at h
      cases h
  · intro h
    have hfind : pool.slots.findIdx? PoolSlot.isAvailable = none :=
      List.findIdx?_eq_none_iff.mpr fun slot hslot => eq_false_of_ne_true (h slot hslot)
    rw [firstAvailable, hfind]
    rfl

end ThreadPool

/-! ## Calls and threads -/

/-- Where a caller of Assign stands: in no call, with the result of its
last one, or between the wait and the section, or between a section that
failed and the release. -/
inductive CallerAt (β : Type) where
  | outside (result : Option Int)
  | waited (entry : β)
  | failed

/-- Where a receiver thread stands: with its slot, between the section and
the release of its Return, or behind it. -/
inductive ReceiverAt (β : Type) where
  | running (threadIndex : Nat) (entry : β)
  | returned
  | ended

/-- A pool with its callers and the receiver threads started so far. -/
structure State (β : Type) (maximum : Nat) where
  pool : ThreadPool β maximum
  callers : List (CallerAt β)
  receivers : List (ReceiverAt β)

/-- One step of caller `i` or of receiver `j`. The entry of an Assign is
`none` for an invalid socket. -/
inductive Label (β : Type) where
  | assign (i : Nat) (entry : Option β) (result : WaitResult)
  | assignSection (i : Nat) (start : ThreadStart)
  | assignRelease (i : Nat)
  | returnSection (j : Nat)
  | returnRelease (j : Nat)

section Steps

variable {β : Type} {maximum : Nat}

/-- The initialized pool and `callers` callers in no call. -/
def start (maximum callers : Nat) : State β maximum :=
  ⟨.initializePool maximum, List.replicate callers (.outside none), []⟩

/-- The section of Assign under the lock. Without an available slot the
call ends and keeps its permit. -/
def assignSection (s : State β maximum) (i : Nat) (start : ThreadStart) :
    CallerAt β → Option (State β maximum)
  | .waited entry =>
    match s.pool.firstAvailable with
    | none => some { s with callers := s.callers.set i (.outside (some (-1))) }
    | some (k, slot) =>
      match start with
      | .started =>
        some {
          pool := s.pool.startIn k slot entry .started
          callers := s.callers.set i (.outside (some k))
          receivers := s.receivers ++ [.running k entry] }
      | failure =>
        some { s with
          pool := s.pool.startIn k slot entry failure
          callers := s.callers.set i .failed }
  | _ => none

/-- One step. -/
def step (s : State β maximum) : Label β → Option (State β maximum)
  | .assign i entry result =>
    match s.callers[i]?, entry, result with
    | some (.outside _), some entry, .object0 =>
      s.pool.semaphore.wait.map fun semaphore =>
        { s with
          pool := { s.pool with semaphore := semaphore }
          callers := s.callers.set i (.waited entry) }
    | some (.outside _), _, _ =>
      some { s with callers := s.callers.set i (.outside (some (-1))) }
    | _, _, _ => none
  | .assignSection i start => s.callers[i]?.bind (assignSection s i start)
  | .assignRelease i =>
    match s.callers[i]? with
    | some .failed =>
      some { s with
        pool := { s.pool with semaphore := s.pool.semaphore.release 1 }
        callers := s.callers.set i (.outside (some (-1))) }
    | _ => none
  | .returnSection j =>
    match s.receivers[j]? with
    | some (.running threadIndex _) =>
      some { s with
        pool := s.pool.returnSlot threadIndex
        receivers := s.receivers.set j .returned }
    | _ => none
  | .returnRelease j =>
    match s.receivers[j]? with
    | some .returned =>
      some { s with
        pool := { s.pool with semaphore := s.pool.semaphore.release 1 }
        receivers := s.receivers.set j .ended }
    | _ => none

/-! ## What a step does -/

/-- The steps, with a constructor for each way through the calls. -/
inductive Move (s : State β maximum) : Label β → State β maximum → Prop
  | refuses {i : Nat} {last : Option Int} {entry : Option β} {result : WaitResult}
      (hcall : s.callers[i]? = some (.outside last)) (hout : entry = none ∨ result ≠ .object0) :
      Move s (.assign i entry result)
        { s with callers := s.callers.set i (.outside (some (-1))) }
  | waits {i : Nat} {last : Option Int} {entry : β} {semaphore : Semaphore maximum}
      (hcall : s.callers[i]? = some (.outside last))
      (hwait : s.pool.semaphore.wait = some semaphore) :
      Move s (.assign i (some entry) .object0)
        { s with
          pool := { s.pool with semaphore := semaphore }
          callers := s.callers.set i (.waited entry) }
  | findsNone {i : Nat} {entry : β} {start : ThreadStart}
      (hcall : s.callers[i]? = some (.waited entry)) (hfirst : s.pool.firstAvailable = none) :
      Move s (.assignSection i start)
        { s with callers := s.callers.set i (.outside (some (-1))) }
  | starts {i k : Nat} {entry : β} {slot : PoolSlot β}
      (hcall : s.callers[i]? = some (.waited entry))
      (hfirst : s.pool.firstAvailable = some (k, slot)) :
      Move s (.assignSection i .started)
        { pool := s.pool.startIn k slot entry .started
          callers := s.callers.set i (.outside (some k))
          receivers := s.receivers ++ [.running k entry] }
  | fails {i k : Nat} {entry : β} {slot : PoolSlot β} {start : ThreadStart}
      (hcall : s.callers[i]? = some (.waited entry))
      (hfirst : s.pool.firstAvailable = some (k, slot)) (hstart : start ≠ .started) :
      Move s (.assignSection i start)
        { s with
          pool := s.pool.startIn k slot entry start
          callers := s.callers.set i .failed }
  | assignReleases {i : Nat} (hcall : s.callers[i]? = some .failed) :
      Move s (.assignRelease i)
        { s with
          pool := { s.pool with semaphore := s.pool.semaphore.release 1 }
          callers := s.callers.set i (.outside (some (-1))) }
  | returns {j threadIndex : Nat} {entry : β}
      (hreceiver : s.receivers[j]? = some (.running threadIndex entry)) :
      Move s (.returnSection j)
        { s with
          pool := s.pool.returnSlot threadIndex
          receivers := s.receivers.set j .returned }
  | returnReleases {j : Nat} (hreceiver : s.receivers[j]? = some .returned) :
      Move s (.returnRelease j)
        { s with
          pool := { s.pool with semaphore := s.pool.semaphore.release 1 }
          receivers := s.receivers.set j .ended }

theorem step_move {s t : State β maximum} {l : Label β} (h : step s l = some t) : Move s l t := by
  cases l with
  | assign i entry result =>
    simp only [step] at h
    split at h
    · rename_i last entry hcall
      obtain ⟨semaphore, hwait, rfl⟩ := Option.map_eq_some_iff.mp h
      exact .waits hcall hwait
    · rename_i entry result _ _ _ last hcall hother
      cases h
      have hout : entry = none ∨ result ≠ .object0 := by
        cases entry with
        | none => exact Or.inl rfl
        | some entry => exact Or.inr fun hresult => hother entry rfl hresult
      exact .refuses hcall hout
    · cases h
  | assignSection i start =>
    obtain ⟨call, hcall, h⟩ := Option.bind_eq_some_iff.mp h
    cases call with
    | outside => cases h
    | failed => cases h
    | waited entry =>
      simp only [assignSection] at h
      split at h
      · rename_i hfirst
        cases h; exact .findsNone hcall hfirst
      · rename_i k slot hfirst
        split at h
        · cases h; exact .starts hcall hfirst
        · rename_i hstart
          cases h; exact .fails hcall hfirst hstart
  | assignRelease i =>
    simp only [step] at h
    split at h
    · rename_i hcall
      cases h; exact .assignReleases hcall
    · cases h
  | returnSection j =>
    simp only [step] at h
    split at h
    · rename_i threadIndex entry hreceiver
      cases h; exact .returns hreceiver
    · cases h
  | returnRelease j =>
    simp only [step] at h
    split at h
    · rename_i hreceiver
      cases h; exact .returnReleases hreceiver
    · cases h

end Steps

/-! ## The account

A slot is available, or one receiver runs in it; a permit is in the
semaphore, with a caller between two of its steps, or with a receiver that
has given back its slot. -/

/-- A caller with a permit. -/
def CallerAt.hasPermit {β : Type} : CallerAt β → Bool
  | .outside _ => false
  | _ => true

/-- A receiver whose permit is not yet released. -/
def ReceiverAt.hasPermit {β : Type} : ReceiverAt β → Bool
  | .returned => true
  | _ => false

/-- A receiver that runs in this slot. -/
def ReceiverAt.runsIn {β : Type} (threadIndex : Nat) : ReceiverAt β → Bool
  | .running i _ => i == threadIndex
  | _ => false

section Account

variable {β : Type} {maximum : Nat}

/-- No call is in progress. -/
structure Quiet (s : State β maximum) : Prop where
  callers : ∀ caller ∈ s.callers, caller.hasPermit = false
  receivers : ∀ receiver ∈ s.receivers, receiver.hasPermit = false

/-- What holds between calls. -/
structure Accounted (s : State β maximum) : Prop where
  semaphore_eq : s.pool.semaphore.value = s.pool.slots.countP PoolSlot.isAvailable
  count_eq : s.pool.count = s.pool.slots.countP PoolSlot.isTaken
  receiver : ∀ i slot, s.pool.slots[i]? = some slot → slot.isAvailable = false →
    s.receivers.countP (ReceiverAt.runsIn i) = 1 ∧
      ∃ entry, ReceiverAt.running i entry ∈ s.receivers ∧ slot = .taken entry

/-- What an Assign that fails leaves: its wait takes no permit, its section
finds a slot and writes nothing, its release gives back the permit. -/
def Restores (s t : State β maximum) : Label β → Prop
  | .assign i _ _ => t.callers[i]? = some (.outside (some (-1))) → t.pool = s.pool
  | .assignSection i _ =>
    t.callers[i]? ≠ some (.outside (some (-1))) ∧
      (t.callers[i]? = some .failed → t.pool = s.pool)
  | .assignRelease _ =>
    t.pool.slots = s.pool.slots ∧ t.pool.count = s.pool.count ∧
      t.pool.semaphore.value = s.pool.semaphore.value + 1
  | _ => True

/-- The step from here is right: no call is in progress or the pool is
accounted for, and an Assign that fails leaves the pool. -/
def Right (s : State β maximum) (l : Label β) : Prop :=
  (Quiet s → Accounted s) ∧ ∀ t, step s l = some t → Restores s t l

/-- No `malloc` of this step fails. -/
def Label.Allocates : Label β → Prop
  | .assignSection _ start => start ≠ .mallocFails
  | _ => True

/-- The account, for every moment. -/
structure Keeps (s : State β maximum) : Prop where
  clean : ∀ (i : Nat) (slot : PoolSlot β), s.pool.slots[i]? = some slot →
    slot.isAvailable = true → slot = .free
  runs : ∀ i slot, s.pool.slots[i]? = some slot →
    s.receivers.countP (ReceiverAt.runsIn i) = slot.isTaken.toNat
  holds : ∀ i entry, ReceiverAt.running i entry ∈ s.receivers →
    s.pool.slots[i]? = some (.taken entry)
  count_eq : s.pool.count = s.pool.slots.countP PoolSlot.isTaken
  permits : s.pool.semaphore.value + s.callers.countP CallerAt.hasPermit
    + s.receivers.countP ReceiverAt.hasPermit = s.pool.slots.countP PoolSlot.isAvailable

theorem keeps_start (maximum callers : Nat) : Keeps (start (β := β) maximum callers) := by
  have hslot : ∀ (i : Nat) (slot : PoolSlot β),
      (List.replicate maximum PoolSlot.free)[i]? = some slot → slot = .free :=
    fun i slot h => List.eq_of_mem_replicate (List.mem_of_getElem? h)
  constructor
  · exact fun i slot h _ => hslot i slot h
  · intro i slot h
    rw [hslot i slot h]
    rfl
  · intro i entry h
    cases h
  · have htaken : (List.replicate maximum (PoolSlot.free (β := β))).countP PoolSlot.isTaken = 0 :=
      by rw [List.countP_replicate]; rfl
    simp only [start, ThreadPool.initializePool, htaken]
    rfl
  · have hcallers : (List.replicate callers (CallerAt.outside (β := β) none)).countP
        CallerAt.hasPermit = 0 := by rw [List.countP_replicate]; rfl
    have havail : (List.replicate maximum (PoolSlot.free (β := β))).countP PoolSlot.isAvailable
        = maximum := by rw [List.countP_replicate]; rfl
    simp only [start, ThreadPool.initializePool, hcallers, havail, Semaphore.full_value,
      List.countP_nil, Nat.add_zero]

/-- Between calls, the account is what the pool itself shows. -/
theorem Keeps.accounted {s : State β maximum} (h : Keeps s) (hquiet : Quiet s) : Accounted s := by
  have hcallers : s.callers.countP CallerAt.hasPermit = 0 :=
    List.countP_eq_zero.mpr fun caller hmem => ne_true_of_eq_false (hquiet.callers caller hmem)
  have hreceivers : s.receivers.countP ReceiverAt.hasPermit = 0 :=
    List.countP_eq_zero.mpr fun receiver hmem =>
      ne_true_of_eq_false (hquiet.receivers receiver hmem)
  constructor
  · have hpermits := h.permits
    omega
  · exact h.count_eq
  · intro i slot hslot htaken
    have hruns := h.runs i slot hslot
    rw [PoolSlot.isTaken, htaken] at hruns
    have hpos : 0 < s.receivers.countP (ReceiverAt.runsIn i) := by rw [hruns]; exact Nat.one_pos
    obtain ⟨receiver, hmem, hin⟩ := List.countP_pos_iff.mp hpos
    cases receiver with
    | running k entry =>
      obtain rfl : k = i := by simpa [ReceiverAt.runsIn] using hin
      have hholds := h.holds k entry hmem
      rw [hslot, Option.some.injEq] at hholds
      exact ⟨hruns, entry, hmem, hholds⟩
    | returned => cases hin
    | ended => cases hin

/-- **A caller behind its wait finds a slot.** -/
theorem Keeps.firstAvailable_ne_none {s : State β maximum} (h : Keeps s) {i : Nat} {entry : β}
    (hcall : s.callers[i]? = some (.waited entry)) : s.pool.firstAvailable ≠ none := by
  intro hnone
  rw [ThreadPool.firstAvailable_eq_none] at hnone
  have hpermits := h.permits
  have hpos : 0 < s.callers.countP CallerAt.hasPermit := countP_pos_of_getElem? hcall rfl
  omega

/-- **A release stays within the maximum.** -/
theorem Keeps.release_value {s : State β maximum} (h : Keeps s)
    (hpos : 0 < s.callers.countP CallerAt.hasPermit + s.receivers.countP ReceiverAt.hasPermit) :
    (s.pool.semaphore.release 1).value = s.pool.semaphore.value + 1 := by
  have hpermits := h.permits
  have hle : s.pool.slots.countP PoolSlot.isAvailable ≤ maximum :=
    Nat.le_trans List.countP_le_length (Nat.le_of_eq s.pool.length_slots)
  exact Semaphore.release_value (by omega)

/-- The release of an Assign that has failed. -/
theorem Keeps.release_of_failed {s : State β maximum} (h : Keeps s) {i : Nat}
    (hcall : s.callers[i]? = some .failed) :
    (s.pool.semaphore.release 1).value = s.pool.semaphore.value + 1 := by
  have hpos : 0 < s.callers.countP CallerAt.hasPermit := countP_pos_of_getElem? hcall rfl
  exact h.release_value (Nat.lt_of_lt_of_le hpos (Nat.le_add_right _ _))

/-! ## Steps keep the account -/

/-- The slots after a write. -/
theorem getElem?_setSlot {pool : ThreadPool β maximum} {i k : Nat} {slot new : PoolSlot β}
    (h : (pool.setSlot k new).slots[i]? = some slot) :
    (i = k ∧ slot = new) ∨ (i ≠ k ∧ pool.slots[i]? = some slot) := by
  rw [ThreadPool.setSlot_slots] at h
  rcases getElem?_set_cases h with ⟨hne, hkept⟩ | ⟨hik, hnew⟩
  · exact Or.inr ⟨hne.symm, hkept⟩
  · exact Or.inl ⟨hik.symm, hnew⟩

/-- A slot that is written back as it was. -/
theorem setSlot_self {pool : ThreadPool β maximum} {k : Nat} {slot : PoolSlot β}
    (h : pool.slots[k]? = some slot) : pool.setSlot k slot = pool := by
  obtain ⟨slots, semaphore, count, length_slots⟩ := pool
  obtain ⟨hlt, rfl⟩ := List.getElem?_eq_some_iff.mp h
  simp only [ThreadPool.setSlot, List.set_getElem_self]

section Keeps

variable {s : State β maximum}

/-- A caller moves, and with it a permit. -/
theorem Keeps.setCaller (h : Keeps s) {i : Nat} {old new : CallerAt β}
    {semaphore : Semaphore maximum} (hcall : s.callers[i]? = some old)
    (hpermit : semaphore.value + new.hasPermit.toNat
      = s.pool.semaphore.value + old.hasPermit.toNat) :
    Keeps { s with
      pool := { s.pool with semaphore := semaphore }
      callers := s.callers.set i new } := by
  have hcount := countP_set_add CallerAt.hasPermit hcall new
  have hpermits := h.permits
  have hnext : semaphore.value + (s.callers.set i new).countP CallerAt.hasPermit
      + s.receivers.countP ReceiverAt.hasPermit = s.pool.slots.countP PoolSlot.isAvailable := by
    omega
  exact ⟨h.clean, h.runs, h.holds, h.count_eq, hnext⟩

/-- A caller starts a receiver in an available slot. -/
theorem Keeps.starts (h : Keeps s) {i k : Nat} {entry : β} {slot : PoolSlot β}
    (hcall : s.callers[i]? = some (.waited entry)) (hslot : s.pool.slots[k]? = some slot)
    (havail : slot.isAvailable = true) :
    Keeps {
      pool := s.pool.startIn k slot entry .started
      callers := s.callers.set i (.outside (some k))
      receivers := s.receivers ++ [.running k entry] } := by
  have hk := (List.getElem?_eq_some_iff.mp hslot).1
  have htaken : slot.isTaken = false := by rw [PoolSlot.isTaken, havail]; rfl
  constructor
  · intro j other hother hav
    rcases getElem?_setSlot hother with ⟨-, rfl⟩ | ⟨-, hold⟩
    · cases hav
    · exact h.clean j other hold hav
  · intro j other hother
    have happend : (s.receivers ++ [ReceiverAt.running k entry]).countP (ReceiverAt.runsIn j)
        = s.receivers.countP (ReceiverAt.runsIn j) + (k == j).toNat := countP_concat _ _ _
    rcases getElem?_setSlot hother with ⟨rfl, rfl⟩ | ⟨hne, hold⟩
    · rw [happend, h.runs j slot hslot, htaken, beq_self_eq_true]
      rfl
    · rw [happend, h.runs j other hold, beq_eq_false_iff_ne.mpr fun heq => hne heq.symm]
      rfl
  · intro j other hmem
    rcases List.mem_append.mp hmem with hmem | hmem
    · have hold := h.holds j other hmem
      have hne : k ≠ j := by
        intro heq
        rw [← heq, hslot, Option.some.injEq] at hold
        rw [hold] at havail
        cases havail
      have hkeep : (s.pool.slots.set k (.taken entry))[j]? = some (.taken other) := by
        rw [List.getElem?_set_ne hne]
        exact hold
      exact hkeep
    · cases List.mem_singleton.mp hmem
      have hnew : (s.pool.slots.set k (.taken entry))[k]? = some (.taken entry) :=
        List.getElem?_set_self hk
      exact hnew
  · have hset := countP_set_add PoolSlot.isTaken hslot (.taken entry)
    have hcount := h.count_eq
    rw [htaken] at hset
    have hnext : s.pool.count + 1
        = ((s.pool.slots.set k (.taken entry)).countP PoolSlot.isTaken : Nat) := by
      simp only [PoolSlot.taken, PoolSlot.isTaken, Bool.not_false, Bool.toNat_true,
        Bool.toNat_false] at hset ⊢
      omega
    exact hnext
  · have hset := countP_set_add PoolSlot.isAvailable hslot (.taken entry)
    have hcaller := countP_set_add CallerAt.hasPermit hcall (.outside (some k))
    have hpermits := h.permits
    have hnext : s.pool.semaphore.value
        + (s.callers.set i (.outside (some ↑k))).countP CallerAt.hasPermit
        + (s.receivers ++ [ReceiverAt.running k entry]).countP ReceiverAt.hasPermit
        = (s.pool.slots.set k (.taken entry)).countP PoolSlot.isAvailable := by
      rw [havail] at hset
      rw [countP_concat]
      simp only [CallerAt.hasPermit, ReceiverAt.hasPermit, PoolSlot.taken, Bool.toNat_true,
        Bool.toNat_false] at hset hcaller ⊢
      omega
    exact hnext

/-- A receiver gives back its slot. -/
theorem Keeps.returns (h : Keeps s) {j k : Nat} {entry : β}
    (hreceiver : s.receivers[j]? = some (.running k entry)) :
    Keeps { s with
      pool := s.pool.returnSlot k
      receivers := s.receivers.set j .returned } := by
  have hslot := h.holds k entry (List.mem_of_getElem? hreceiver)
  have hk := (List.getElem?_eq_some_iff.mp hslot).1
  have hruns : ∀ i slot, (s.pool.slots.set k .free)[i]? = some slot →
      (s.receivers.set j .returned).countP (ReceiverAt.runsIn i) = slot.isTaken.toNat := by
    intro i slot hother
    have hset := countP_set_add (ReceiverAt.runsIn i) hreceiver .returned
    simp only [ReceiverAt.runsIn, Bool.toNat_false, Nat.add_zero] at hset
    rcases getElem?_setSlot hother with ⟨rfl, rfl⟩ | ⟨hne, hold⟩
    · rw [h.runs i _ hslot, beq_self_eq_true] at hset
      simp only [PoolSlot.taken, PoolSlot.isTaken, Bool.not_false, Bool.toNat_true] at hset
      simp only [PoolSlot.free, PoolSlot.isTaken, Bool.not_true, Bool.toNat_false]
      omega
    · rw [h.runs i _ hold, beq_eq_false_iff_ne.mpr fun heq => hne heq.symm] at hset
      exact hset
  constructor
  · intro i other hother hav
    rcases getElem?_setSlot hother with ⟨-, rfl⟩ | ⟨-, hold⟩
    · rfl
    · exact h.clean i other hold hav
  · exact hruns
  · intro i other hmem
    have hne : k ≠ i := by
      intro heq
      have hzero := hruns k .free (List.getElem?_set_self hk)
      have hpos : 0 < (s.receivers.set j .returned).countP (ReceiverAt.runsIn k) :=
        List.countP_pos_iff.mpr ⟨_, hmem, by rw [← heq]; exact beq_self_eq_true k⟩
      rw [hzero] at hpos
      cases hpos
    have hold : ReceiverAt.running i other ∈ s.receivers := by
      rcases List.mem_or_eq_of_mem_set hmem with hmem | heq
      · exact hmem
      · cases heq
    have hkeep : (s.pool.slots.set k .free)[i]? = some (.taken other) := by
      rw [List.getElem?_set_ne hne]
      exact h.holds i other hold
    exact hkeep
  · have hset := countP_set_add PoolSlot.isTaken hslot .free
    have hcount := h.count_eq
    have hnext : s.pool.count - 1
        = ((s.pool.slots.set k .free).countP PoolSlot.isTaken : Nat) := by
      simp only [PoolSlot.taken, PoolSlot.free, PoolSlot.isTaken, Bool.not_false, Bool.not_true,
        Bool.toNat_true, Bool.toNat_false] at hset ⊢
      omega
    exact hnext
  · have hset := countP_set_add PoolSlot.isAvailable hslot .free
    have hmoved := countP_set_add ReceiverAt.hasPermit hreceiver .returned
    have hpermits := h.permits
    have hnext : s.pool.semaphore.value + s.callers.countP CallerAt.hasPermit
        + (s.receivers.set j .returned).countP ReceiverAt.hasPermit
        = (s.pool.slots.set k .free).countP PoolSlot.isAvailable := by
      simp only [ReceiverAt.hasPermit, PoolSlot.taken, PoolSlot.free, Bool.toNat_true,
        Bool.toNat_false] at hset hmoved ⊢
      omega
    exact hnext

/-- A receiver gives back its permit. -/
theorem Keeps.returnReleases (h : Keeps s) {j : Nat}
    (hreceiver : s.receivers[j]? = some .returned) :
    Keeps { s with
      pool := { s.pool with semaphore := s.pool.semaphore.release 1 }
      receivers := s.receivers.set j .ended } := by
  have hpos : 0 < s.receivers.countP ReceiverAt.hasPermit :=
    countP_pos_of_getElem? hreceiver rfl
  have hrelease := h.release_value (Nat.lt_of_lt_of_le hpos (Nat.le_add_left _ _))
  have hmoved := countP_set_add ReceiverAt.hasPermit hreceiver .ended
  have hpermits := h.permits
  have hruns : ∀ i, (s.receivers.set j .ended).countP (ReceiverAt.runsIn i)
      = s.receivers.countP (ReceiverAt.runsIn i) :=
    fun i => countP_set_add (ReceiverAt.runsIn i) hreceiver .ended
  constructor
  · exact h.clean
  · intro i slot hslot
    rw [hruns i]
    exact h.runs i slot hslot
  · intro i entry hmem
    rcases List.mem_or_eq_of_mem_set hmem with hmem | heq
    · exact h.holds i entry hmem
    · cases heq
  · exact h.count_eq
  · have hnext : (s.pool.semaphore.release 1).value + s.callers.countP CallerAt.hasPermit
        + (s.receivers.set j .ended).countP ReceiverAt.hasPermit
        = s.pool.slots.countP PoolSlot.isAvailable := by
      simp only [ReceiverAt.hasPermit, Bool.toNat_true, Bool.toNat_false] at hmoved
      omega
    exact hnext

/-- Asking for a thread in vain leaves the pool as it was. -/
theorem Keeps.startIn_createFails (h : Keeps s) {k : Nat} {slot : PoolSlot β} (entry : β)
    (hfirst : s.pool.firstAvailable = some (k, slot)) :
    s.pool.startIn k slot entry .createFails = s.pool := by
  obtain ⟨hslot, havail⟩ := ThreadPool.firstAvailable_eq_some hfirst
  have hfree := h.clean k slot hslot havail
  exact setSlot_self (hfree ▸ hslot)

/-- **Every step but a failed `malloc` keeps the account.** -/
theorem keeps_step {t : State β maximum} {l : Label β} (h : Keeps s) (hl : l.Allocates)
    (hstep : step s l = some t) : Keeps t := by
  cases step_move hstep with
  | refuses hcall => exact h.setCaller hcall rfl
  | waits hcall hwait => exact h.setCaller hcall (Semaphore.wait_eq_some hwait)
  | findsNone hcall hfirst => exact absurd hfirst (h.firstAvailable_ne_none hcall)
  | starts hcall hfirst =>
    obtain ⟨hslot, havail⟩ := ThreadPool.firstAvailable_eq_some hfirst
    exact h.starts hcall hslot havail
  | @fails i k entry slot start hcall hfirst hstart =>
    cases start with
    | mallocFails => exact absurd rfl hl
    | started => exact absurd rfl hstart
    | createFails =>
      rw [h.startIn_createFails entry hfirst]
      exact h.setCaller hcall rfl
  | assignReleases hcall => exact h.setCaller hcall (h.release_of_failed hcall)
  | returns hreceiver => exact h.returns hreceiver
  | returnReleases hreceiver => exact h.returnReleases hreceiver

/-- **An Assign that fails leaves the pool, unless `malloc` fails in it.** -/
theorem Keeps.restores_iff (h : Keeps s) {t : State β maximum} {l : Label β}
    (hstep : step s l = some t) : Restores s t l ↔ l.Allocates := by
  cases step_move hstep with
  | refuses hcall => exact ⟨fun _ => trivial, fun _ _ => rfl⟩
  | waits hcall hwait =>
    refine ⟨fun _ => trivial, fun _ hfailed => ?_⟩
    rw [getElem?_set_moved hcall] at hfailed
    cases hfailed
  | findsNone hcall hfirst => exact absurd hfirst (h.firstAvailable_ne_none hcall)
  | starts hcall hfirst =>
    refine ⟨fun _ hfails => (nomatch hfails), fun _ => ⟨fun hfailed => ?_, fun hfailed => ?_⟩⟩
    · rw [getElem?_set_moved hcall] at hfailed
      cases hfailed
    · rw [getElem?_set_moved hcall] at hfailed
      cases hfailed
  | @fails i k entry slot start hcall hfirst hstart =>
    cases start with
    | started => exact absurd rfl hstart
    | createFails =>
      refine ⟨fun _ hfails => (nomatch hfails), fun _ => ⟨fun hfailed => ?_, fun _ => ?_⟩⟩
      · rw [getElem?_set_moved hcall] at hfailed
        cases hfailed
      · exact h.startIn_createFails entry hfirst
    | mallocFails =>
      refine ⟨fun ⟨_, hpool⟩ => ?_, fun hl => absurd rfl hl⟩
      obtain ⟨hslot, havail⟩ := ThreadPool.firstAvailable_eq_some hfirst
      have hk := (List.getElem?_eq_some_iff.mp hslot).1
      have hsame := congrArg (fun pool => pool.slots[k]?) (hpool (getElem?_set_moved hcall _))
      simp only [ThreadPool.startIn, ThreadPool.setSlot_slots, List.getElem?_set_self hk,
        hslot, Option.some.injEq] at hsame
      rw [← hsame] at havail
      cases havail
  | assignReleases hcall =>
    exact ⟨fun _ => trivial, fun _ => ⟨rfl, rfl, h.release_of_failed hcall⟩⟩
  | returns hreceiver => exact ⟨fun _ => trivial, fun _ => trivial⟩
  | returnReleases hreceiver => exact ⟨fun _ => trivial, fun _ => trivial⟩

/-- Without another thread in between, an Assign that gets no thread leaves
the pool as it was. -/
theorem Keeps.failed_assign (h : Keeps s) {t : State β maximum} {i : Nat} {entry : β}
    (hexec : exec step s [.assign i (some entry) .object0, .assignSection i .createFails,
      .assignRelease i] = some t) : t.pool = s.pool := by
  obtain ⟨m, hm, hrest⟩ := exec_cons_eq_some.mp hexec
  obtain ⟨n, hn, hrest⟩ := exec_cons_eq_some.mp hrest
  obtain ⟨u, hu, hend⟩ := exec_cons_eq_some.mp hrest
  cases hend
  have hkeeps : Keeps m :=
    keeps_step h (l := .assign i (some entry) .object0) trivial hm
  have hallocates : (Label.assignSection (β := β) i .createFails).Allocates :=
    fun hfails => nomatch hfails
  have hrestores := (hkeeps.restores_iff hn).mpr hallocates
  cases step_move hu with
  | assignReleases hfailed =>
    rw [hrestores.2 hfailed]
    cases step_move hm with
    | refuses _ hout =>
      rcases hout with hout | hout
      · cases hout
      · exact absurd rfl hout
    | waits hcall hwait =>
      rw [Semaphore.release_of_wait hwait]

end Keeps

/-- The runs whose steps are all right, and whose last state is, are the
runs in which no `malloc` of an Assign fails. -/
theorem right_iff_allocates {callers : Nat} {ls : List (Label β)} {t : State β maximum}
    (h : exec step (start maximum callers) ls = some t) :
    (Along step Right (start maximum callers) ls ∧ (Quiet t → Accounted t)) ↔
      ∀ l ∈ ls, l.Allocates := by
  have hkeep : ∀ (s : State β maximum) l t, Keeps s → l.Allocates → step s l = some t → Keeps t :=
    fun s l t hs hl hstep => keeps_step hs hl hstep
  have hiff : ∀ (s : State β maximum) l t, Keeps s → step s l = some t →
      (l.Allocates ↔ Right s l) := by
    intro s l t hs hstep
    constructor
    · intro hl
      exact ⟨hs.accounted, fun t' hstep' => (hs.restores_iff hstep').mpr hl⟩
    · intro hright
      exact (hs.restores_iff hstep).mp (hright.2 t hstep)
  have hstart := keeps_start (β := β) maximum callers
  rw [← along_label_iff h, along_congr hkeep hiff hstart h]
  constructor
  · exact fun hright => hright.1
  · intro hright
    have hallocates := (along_congr hkeep hiff hstart h).mpr hright
    have hlast := exec_invariant_along hkeep hstart hallocates h
    exact ⟨hright, hlast.accounted⟩

end Account

/-! ## The two pools -/

/-- `ClientThreadPool` with its callers and its receiver threads. -/
abbrev Clients := State (Socket × Int32) maxClients

/-- `WorkerThreadPool` with its callers and its receiver threads. -/
abbrev Workers := State Socket maxWorkers

/-- The call of `AssignClientDataReceiverThread`, up to the end of its
wait. -/
def assignClientDataReceiverThread (i : Nat) (clientSocket : Option Socket) (clientId : Int32)
    (result : WaitResult) : Label (Socket × Int32) :=
  .assign i (clientSocket.map fun clientSocket => (clientSocket, clientId)) result

/-- The call of `AssignWorkerDataReceiverThread`, up to the end of its
wait; the worker's id goes into the data of the thread only. -/
def assignWorkerDataReceiverThread (i : Nat) (workerSocket : Option Socket)
    (result : WaitResult) : Label Socket :=
  .assign i workerSocket result

/-- One step of the client pool. -/
def clientStep : Clients → Label (Socket × Int32) → Option Clients := step

/-- One step of the worker pool. -/
def workerStep : Workers → Label Socket → Option Workers := step

/-- **Both pools are accounted for in exactly the runs in which no
`malloc` of an Assign fails**: whenever no call is in progress the
semaphore counts the available slots, `count` the others, and each of
these has one receiver; and an Assign that fails leaves the pool. -/
theorem pools_accounted_iff (callers : Nat) :
    (∀ (ls : List (Label (Socket × Int32))) (s : Clients),
      exec clientStep (start maxClients callers) ls = some s →
        ((Along clientStep Right (start maxClients callers) ls ∧ (Quiet s → Accounted s)) ↔
          ∀ l ∈ ls, l.Allocates)) ∧
    (∀ (ls : List (Label Socket)) (s : Workers),
      exec workerStep (start maxWorkers callers) ls = some s →
        ((Along workerStep Right (start maxWorkers callers) ls ∧ (Quiet s → Accounted s)) ↔
          ∀ l ∈ ls, l.Allocates)) :=
  ⟨fun _ _ h => right_iff_allocates h, fun _ _ h => right_iff_allocates h⟩

/-- A client whose thread is refused and one that comes and goes; a socket
that is refused and a worker that stays. -/
theorem pools_accounted_iff_sample :
    (∃ s, exec clientStep (start maxClients 1)
      [assignClientDataReceiverThread 0 (some 7) 1 .object0, .assignSection 0 .createFails,
        .assignRelease 0, assignClientDataReceiverThread 0 (some 7) 2 .object0,
        .assignSection 0 .started, .returnSection 0, .returnRelease 0] = some s ∧ Accounted s) ∧
    (∃ s, exec workerStep (start maxWorkers 1)
      [assignWorkerDataReceiverThread 0 none .object0,
        assignWorkerDataReceiverThread 0 (some 7) .object0, .assignSection 0 .started] = some s ∧
      s.pool.count = 1 ∧ Accounted s) :=
  ⟨Exists.imp (fun s (h : _ ∧ Quiet s) => ⟨h.1, (((pools_accounted_iff 1).1 _ _ h.1).mpr (by
      simp [Label.Allocates, assignClientDataReceiverThread])).2 h.2⟩)
      ⟨_, rfl, by decide, by decide⟩,
    Exists.imp (fun s (h : _ ∧ _ ∧ Quiet s) => ⟨h.1, h.2.1,
      (((pools_accounted_iff 1).2 _ _ h.1).mpr (by
        simp [Label.Allocates, assignWorkerDataReceiverThread])).2 h.2.2⟩)
      ⟨_, rfl, rfl, by decide, by decide⟩⟩

/-- One `malloc` that fails: between calls the semaphore counts a slot more
than is available, and the slot has no receiver. -/
theorem malloc_leaks_slot :
    (∃ s : Clients, exec clientStep (start maxClients 1)
      [assignClientDataReceiverThread 0 (some 7) 1 .object0, .assignSection 0 .mallocFails,
        .assignRelease 0] = some s ∧ Quiet s ∧ ¬ Accounted s) ∧
    (∃ s : Workers, exec workerStep (start maxWorkers 1)
      [assignWorkerDataReceiverThread 0 (some 7) .object0, .assignSection 0 .mallocFails,
        .assignRelease 0] = some s ∧ Quiet s ∧ ¬ Accounted s) :=
  ⟨⟨_, rfl, ⟨by decide, by decide⟩, fun h => absurd h.semaphore_eq (by decide)⟩,
    ⟨_, rfl, ⟨by decide, by decide⟩, fun h => absurd h.semaphore_eq (by decide)⟩⟩

/-! ## Calls without interruption

Where no other thread moves during a call, it is the call of
`ClientThreadPool`. -/

/-- A slot of `ClientThreadPool`. -/
def PoolSlot.ofClient (slot : ClientSlot) : PoolSlot (Socket × Int32) :=
  ⟨slot.isAvailable, slot.hasThread,
    slot.clientSocket.map fun clientSocket => (clientSocket, slot.clientId)⟩

/-- The pool of `ClientThreadPool`. -/
def ThreadPool.ofClients (pool : ClientThreadPool) : ThreadPool (Socket × Int32) maxClients :=
  ⟨pool.slots.map .ofClient, pool.semaphore, pool.count, by
    rw [List.length_map]; exact pool.length_slots⟩

section Uninterrupted

variable {s t : Clients} {pool : ClientThreadPool} {i : Nat}

theorem ofClients_setSlot (pool : ClientThreadPool) (k : Nat) (slot : ClientSlot) :
    ThreadPool.ofClients (pool.setSlot k slot)
      = (ThreadPool.ofClients pool).setSlot k (.ofClient slot) := by
  simp only [ThreadPool.ofClients, ClientThreadPool.setSlot, ThreadPool.setSlot, List.map_set]

theorem firstAvailable_ofClients (pool : ClientThreadPool) :
    (ThreadPool.ofClients pool).firstAvailable = pool.firstAvailable.bind fun k =>
      pool.slots[k]?.map fun slot => (k, .ofClient slot) := by
  have hfind : (pool.slots.map PoolSlot.ofClient).findIdx? PoolSlot.isAvailable
      = pool.slots.findIdx? ClientSlot.isAvailable := List.findIdx?_map
  simp only [ThreadPool.firstAvailable, ThreadPool.ofClients, hfind, List.getElem?_map,
    Option.map_map, ClientThreadPool.firstAvailable, Function.comp_def]

theorem firstAvailable_of_some {k : Nat} {slot : PoolSlot (Socket × Int32)}
    (h : (ThreadPool.ofClients pool).firstAvailable = some (k, slot)) :
    pool.firstAvailable = some k ∧
      ∃ clientSlot ∈ pool.slots, clientSlot.isAvailable = true ∧ slot = .ofClient clientSlot := by
  rw [firstAvailable_ofClients] at h
  obtain ⟨k', hfirst, h⟩ := Option.bind_eq_some_iff.mp h
  obtain ⟨clientSlot, hslot, heq⟩ := Option.map_eq_some_iff.mp h
  cases heq
  obtain ⟨hlt, havail, -⟩ := List.findIdx?_eq_some_iff_getElem.mp hfirst
  rw [List.getElem?_eq_getElem hlt, Option.some.injEq] at hslot
  exact ⟨hfirst, clientSlot, hslot ▸ List.getElem_mem hlt, hslot ▸ havail, rfl⟩

theorem firstAvailable_of_none (h : (ThreadPool.ofClients pool).firstAvailable = none) :
    pool.firstAvailable = none := by
  cases hfirst : pool.firstAvailable with
  | none => rfl
  | some k =>
    obtain ⟨hlt, -, -⟩ := List.findIdx?_eq_some_iff_getElem.mp hfirst
    simp only [firstAvailable_ofClients, hfirst, Option.bind_some, List.getElem?_eq_getElem hlt,
      Option.map_some] at h
    cases h

/-- A caller that goes on behind its wait has a permit of the pool. -/
theorem waits_ofClients {clientSocket : Socket} {clientId : Int32}
    (hpool : s.pool = .ofClients pool)
    (h : clientStep s (assignClientDataReceiverThread i (some clientSocket) clientId .object0)
      = some t) :
    ∃ semaphore, pool.semaphore.wait = some semaphore ∧
      t.pool = .ofClients { pool with semaphore := semaphore } ∧
      t.callers[i]? = some (.waited (clientSocket, clientId)) := by
  cases step_move h with
  | refuses hcall hout =>
    rcases hout with hout | hout
    · cases hout
    · exact absurd rfl hout
  | @waits _ _ _ semaphore hcall hwait =>
    rw [hpool] at hwait
    have hnext : { s.pool with semaphore := semaphore }
        = ThreadPool.ofClients { pool with semaphore := semaphore } := by rw [hpool]; rfl
    exact ⟨semaphore, hwait, hnext, getElem?_set_moved hcall _⟩

/-- The slot is written as `assignSection` writes it. -/
theorem startIn_ofClients {clientSocket : Socket} {clientId : Int32} {k : Nat}
    {slot : PoolSlot (Socket × Int32)} (start : ThreadStart)
    (hfirst : (ThreadPool.ofClients pool).firstAvailable = some (k, slot))
    (hclean : ∀ slot ∈ pool.slots, slot.isAvailable = true → slot.hasThread = false) :
    ∃ result next, pool.assignSection clientSocket clientId start = some (result, next) ∧
      result = (if start = .started then (k : Int) else -1) ∧
      ThreadPool.ofClients next =
        { (ThreadPool.ofClients pool).startIn k slot (clientSocket, clientId) start with
          semaphore :=
            if start = .started then pool.semaphore else pool.semaphore.release 1 } := by
  obtain ⟨hfirst', clientSlot, hmem, havail, rfl⟩ := firstAvailable_of_some hfirst
  have hthread := hclean clientSlot hmem havail
  cases start with
  | mallocFails =>
    refine ⟨-1, _, by rw [ClientThreadPool.assignSection, hfirst']; rfl, rfl, ?_⟩
    have hslot : PoolSlot.ofClient (.taken false clientSocket clientId)
        = { PoolSlot.ofClient clientSlot with
            isAvailable := false, entry := some (clientSocket, clientId) } := by
      simp only [PoolSlot.ofClient, ClientSlot.taken, hthread, Option.map_some]
    have hset := ofClients_setSlot pool k (.taken false clientSocket clientId)
    rw [hslot] at hset
    exact congrArg (fun pool : ThreadPool _ _ =>
      { pool with semaphore := pool.semaphore.release 1 }) hset
  | createFails =>
    refine ⟨-1, _, by rw [ClientThreadPool.assignSection, hfirst']; rfl, rfl, ?_⟩
    have hset := ofClients_setSlot pool k .empty
    exact congrArg (fun pool : ThreadPool _ _ =>
      { pool with semaphore := pool.semaphore.release 1 }) hset
  | started =>
    refine ⟨k, _, by rw [ClientThreadPool.assignSection, hfirst']; rfl, rfl, ?_⟩
    have hset := ofClients_setSlot pool k (.taken true clientSocket clientId)
    exact congrArg (fun pool : ThreadPool _ _ => { pool with count := pool.count + 1 }) hset

/-- An Assign that starts a thread, or finds no slot, without another
thread in between is `AssignClientDataReceiverThread`. -/
theorem assign_of_exec_started {clientSocket : Socket} {clientId : Int32}
    (hpool : s.pool = .ofClients pool)
    (hclean : ∀ slot ∈ pool.slots, slot.isAvailable = true → slot.hasThread = false)
    (h : exec clientStep s
      [assignClientDataReceiverThread i (some clientSocket) clientId .object0,
        .assignSection i .started] = some t) :
    ∃ result next, pool.assignClientDataReceiverThread (some clientSocket) clientId .started
        = (result, next) ∧
      t.pool = .ofClients next ∧ t.callers[i]? = some (.outside (some result)) := by
  obtain ⟨m, hm, hrest⟩ := exec_cons_eq_some.mp h
  obtain ⟨n, hn, hend⟩ := exec_cons_eq_some.mp hrest
  cases hend
  obtain ⟨semaphore, hwait, hmpool, hcall⟩ := waits_ofClients hpool hm
  simp only [ClientThreadPool.assignClientDataReceiverThread, hwait]
  cases step_move hn with
  | findsNone hcall' hfirst =>
    rw [hmpool] at hfirst
    rw [ClientThreadPool.assignSection, firstAvailable_of_none hfirst]
    exact ⟨_, _, rfl, hmpool, getElem?_set_moved hcall _⟩
  | starts hcall' hfirst =>
    rw [hmpool] at hfirst
    rw [hcall] at hcall'
    cases hcall'
    obtain ⟨result, next, hsection, rfl, hnext⟩ :=
      startIn_ofClients .started hfirst hclean
    rw [hsection]
    exact ⟨_, _, rfl, by rw [hnext, hmpool]; rfl, getElem?_set_moved hcall _⟩
  | fails _ _ hstart => exact absurd rfl hstart

/-- So is one that fails, with its release. -/
theorem assign_of_exec_failed {clientSocket : Socket} {clientId : Int32} {start : ThreadStart}
    (hpool : s.pool = .ofClients pool)
    (hclean : ∀ slot ∈ pool.slots, slot.isAvailable = true → slot.hasThread = false)
    (hstart : start ≠ .started)
    (h : exec clientStep s
      [assignClientDataReceiverThread i (some clientSocket) clientId .object0,
        .assignSection i start, .assignRelease i] = some t) :
    ∃ next, pool.assignClientDataReceiverThread (some clientSocket) clientId start
        = (-1, next) ∧
      t.pool = .ofClients next ∧ t.callers[i]? = some (.outside (some (-1))) := by
  obtain ⟨m, hm, hrest⟩ := exec_cons_eq_some.mp h
  obtain ⟨n, hn, hrest⟩ := exec_cons_eq_some.mp hrest
  obtain ⟨u, hu, hend⟩ := exec_cons_eq_some.mp hrest
  cases hend
  obtain ⟨semaphore, hwait, hmpool, hcall⟩ := waits_ofClients hpool hm
  simp only [ClientThreadPool.assignClientDataReceiverThread, hwait]
  cases step_move hn with
  | findsNone hcall' hfirst =>
    cases step_move hu with
    | assignReleases hfailed =>
      rw [getElem?_set_moved hcall] at hfailed
      cases hfailed
  | starts hcall' hfirst => exact absurd rfl hstart
  | fails hcall' hfirst =>
    rw [hmpool] at hfirst
    rw [hcall] at hcall'
    cases hcall'
    obtain ⟨result, next, hsection, rfl, hnext⟩ :=
      startIn_ofClients start hfirst hclean
    rw [hsection]
    cases step_move hu with
    | assignReleases hfailed =>
      rw [if_neg hstart] at hnext ⊢
      refine ⟨next, rfl, ?_, getElem?_set_moved hfailed _⟩
      rw [hnext, hmpool]
      cases start with
      | started => exact absurd rfl hstart
      | mallocFails => rfl
      | createFails => rfl

/-- So is a Return, by a receiver that `count` counts. -/
theorem return_of_exec {j k : Nat} {entry : Socket × Int32}
    (hpool : s.pool = .ofClients pool) (hcount : 0 < pool.count)
    (hreceiver : s.receivers[j]? = some (.running k entry))
    (h : exec clientStep s [.returnSection j, .returnRelease j] = some t) :
    t.pool = .ofClients (pool.returnClientDataReceiverThread k) := by
  obtain ⟨m, hm, hrest⟩ := exec_cons_eq_some.mp h
  obtain ⟨n, hn, hend⟩ := exec_cons_eq_some.mp hrest
  cases hend
  cases step_move hm with
  | returns hreceiver' =>
    rw [hreceiver] at hreceiver'
    cases hreceiver'
    cases step_move hn with
    | returnReleases =>
      have hset := ofClients_setSlot pool k .empty
      have hminus : ((pool.count - 1 : Nat) : Int) = pool.count - 1 := by omega
      have hnext : ThreadPool.ofClients (pool.returnClientDataReceiverThread k)
          = { ThreadPool.ofClients (pool.setSlot k .empty) with
              count := ((pool.count - 1 : Nat) : Int)
              semaphore := pool.semaphore.release 1 } := rfl
      rw [hnext, hset, hminus, hpool]
      rfl

end Uninterrupted

end ThreadPools

end LoadBalancing.LoadBalancer
