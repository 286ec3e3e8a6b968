/-
LoadBalancing.LoadBalancer.ClientThreadPool — the pool of
`LoadBalancer/ClientThreadPool.c`: which slot, socket and id each
connected client has.

The three arrays of the source are one list of slots of fixed length. A
slot without a client has the id -1 and an invalid socket; that is part
of the slot's type, so that a lookup of an id that is not negative never
hits a free slot.
-/
import LoadBalancing.Base.Semaphore
import LoadBalancing.LoadBalancer.SharedLibs

namespace LoadBalancing.LoadBalancer

open LoadBalancing.Base LoadBalancing.Lib

/-- One index of `threads`, `clientSockets`, `clientIds` and
`isAvailable`. -/
structure ClientSlot where
  isAvailable : Bool
  hasThread : Bool
  clientSocket : Option Socket
  clientId : Int32
  free : isAvailable = true → clientSocket = none ∧ clientId = -1
  deriving DecidableEq

namespace ClientSlot

/-- A slot as `InitializeClientThreadPool` and
`ReturnClientDataReceiverThread` leave it. -/
def empty : ClientSlot := ⟨true, false, none, -1, fun _ => ⟨rfl, rfl⟩⟩

/-- A slot with a client. -/
def taken (hasThread : Bool) (clientSocket : Socket) (clientId : Int32) : ClientSlot :=
  ⟨false, hasThread, some clientSocket, clientId, fun h => by cases h⟩

end ClientSlot

/-- `ClientThreadPool`. -/
structure ClientThreadPool where
  slots : List ClientSlot
  semaphore : Semaphore maxClients
  count : Nat
  length_slots : slots.length = maxClients

/-- What `malloc` and `CreateThread` do inside
`AssignClientDataReceiverThread`. -/
inductive ThreadStart where
  | mallocFails
  | createFails
  | started
  deriving DecidableEq

namespace ClientThreadPool

/-- `InitializeClientThreadPool`. -/
def initializePool : ClientThreadPool :=
  ⟨List.replicate maxClients ClientSlot.empty, Semaphore.full maxClients, 0, by simp⟩

/-- Write a slot. -/
def setSlot (pool : ClientThreadPool) (i : Nat) (slot : ClientSlot) : ClientThreadPool :=
  { pool with
    slots := pool.slots.set i slot
    length_slots := by rw [List.length_set]; exact pool.length_slots }

/-- The first available slot. -/
def firstAvailable (pool : ClientThreadPool) : Option Nat :=
  pool.slots.findIdx? ClientSlot.isAvailable

/-- The critical section of `AssignClientDataReceiverThread`, with the
permit it releases on its two error paths. A failed `malloc` leaves the
slot taken. `none` is the fall-through without an available slot. -/
def assignSection (pool : ClientThreadPool) (clientSocket : Socket) (clientId : Int32)
    (start : ThreadStart) : Option (Int × ClientThreadPool) :=
  pool.firstAvailable.map fun i =>
    match start with
    | .mallocFails =>
      (-1, { pool.setSlot i (ClientSlot.taken false clientSocket clientId) with
        semaphore := pool.semaphore.release 1 })
    | .createFails =>
      (-1, { pool.setSlot i ClientSlot.empty with semaphore := pool.semaphore.release 1 })
    | .started =>
      (i, { pool.setSlot i (ClientSlot.taken true clientSocket clientId) with
        count := pool.count + 1 })

/-- `AssignClientDataReceiverThread`. -/
def assignClientDataReceiverThread (pool : ClientThreadPool) (clientSocket : Option Socket)
    (clientId : Int32) (start : ThreadStart) : Int × ClientThreadPool :=
  match clientSocket with
  | none => (-1, pool)
  | some clientSocket =>
    match pool.semaphore.wait with
    | none => (-1, pool)
    | some semaphore =>
      ({ pool with semaphore := semaphore }.assignSection clientSocket clientId start).getD
        (-1, { pool with semaphore := semaphore })

/-- What `ClientListenerThread` does with an accepted socket: the pool and
the id of the next client behind it. -/
def acceptClient (pool : ClientThreadPool) (nextClientId : Int32) (clientSocket : Socket)
    (start : ThreadStart) : ClientThreadPool × Int32 :=
  if pool.count < maxClients then
    ((pool.assignClientDataReceiverThread (some clientSocket) nextClientId start).2,
      nextClientId + 1)
  else (pool, nextClientId)

/-- `ReturnClientDataReceiverThread`, for a thread index of the pool. -/
def returnClientDataReceiverThread (pool : ClientThreadPool) (threadIndex : Nat) :
    ClientThreadPool :=
  { pool.setSlot threadIndex ClientSlot.empty with
    count := pool.count - 1
    semaphore := pool.semaphore.release 1 }

/-- `GetClientSocketByClientId`: the socket of the first slot with the id.
`none` is a result that leaves the caller's socket variable alone. -/
def getClientSocketByClientId (pool : ClientThreadPool) (clientId : Int32) :
    Option (Option Socket) :=
  if clientId < 0 then none
  else (pool.slots.find? fun slot => slot.clientId == clientId).map ClientSlot.clientSocket

/-- The pool holds this socket for this client id. -/
def Holds (pool : ClientThreadPool) (clientId : Int32) (clientSocket : Socket) : Prop :=
  ∃ slot ∈ pool.slots, slot.clientId = clientId ∧ slot.clientSocket = some clientSocket

instance (pool : ClientThreadPool) (clientId : Int32) (clientSocket : Socket) :
    Decidable (pool.Holds clientId clientSocket) :=
  inferInstanceAs (Decidable (∃ slot ∈ pool.slots, _ ∧ _))

/-! ## Slots under assignment and return -/

/-- A slot with a client id is not available. -/
theorem not_available_of_id {slot : ClientSlot} (h : 0 ≤ slot.clientId) :
    slot.isAvailable = false := by
  cases havail : slot.isAvailable with
  | false => rfl
  | true =>
    rw [(slot.free havail).2] at h
    exact absurd h (by decide)

/-- **Assignment changes only a slot that was available**: every slot with
a client id stays as it is. -/
theorem assign_keeps {pool : ClientThreadPool} {clientSocket : Option Socket} {clientId : Int32}
    {start : ThreadStart} {i : Nat} {slot : ClientSlot} (hslot : pool.slots[i]? = some slot)
    (hid : 0 ≤ slot.clientId) :
    (pool.assignClientDataReceiverThread clientSocket clientId start).2.slots[i]? = some slot := by
  have hset : ∀ (j : Nat) (new : ClientSlot), pool.firstAvailable = some j →
      (pool.slots.set j new)[i]? = some slot := by
    intro j new hj
    have hne : j ≠ i := by
      intro heq
      have havail := List.findIdx?_eq_some_iff_getElem.mp hj
      obtain ⟨hlt, hav, -⟩ := havail
      subst heq
      rw [List.getElem?_eq_getElem hlt, Option.some.injEq] at hslot
      rw [hslot, not_available_of_id hid] at hav
      cases hav
    rw [List.getElem?_set_ne hne]
    exact hslot
  unfold assignClientDataReceiverThread
  split
  · exact hslot
  · split
    · exact hslot
    · rename_i semaphore hwait
      unfold assignSection
      cases hfirst : pool.firstAvailable with
      | none =>
        have hfirst' : firstAvailable { pool with semaphore := semaphore } = none := hfirst
        rw [hfirst']
        exact hslot
      | some j =>
        have hfirst' : firstAvailable { pool with semaphore := semaphore } = some j := hfirst
        rw [hfirst']
        cases start with
        | mallocFails => exact hset j _ hfirst
        | createFails => exact hset j _ hfirst
        | started => exact hset j _ hfirst

/-- So it does when a client is accepted. -/
theorem accept_keeps {pool : ClientThreadPool} {nextClientId : Int32} {clientSocket : Socket}
    {start : ThreadStart} {i : Nat} {slot : ClientSlot} (hslot : pool.slots[i]? = some slot)
    (hid : 0 ≤ slot.clientId) :
    (pool.acceptClient nextClientId clientSocket start).1.slots[i]? = some slot := by
  unfold acceptClient
  split
  · exact assign_keeps hslot hid
  · exact hslot

/-- **Acceptance writes at most one slot**: with the client under the next
id, which is then used up, or as a free one. -/
theorem accept_effect (pool : ClientThreadPool) (nextClientId : Int32) (clientSocket : Socket)
    (start : ThreadStart) :
    ((pool.acceptClient nextClientId clientSocket start).1.slots = pool.slots ∧
      ((pool.acceptClient nextClientId clientSocket start).2 = nextClientId ∨
        (pool.acceptClient nextClientId clientSocket start).2 = nextClientId + 1)) ∨
    ∃ i slot, (pool.acceptClient nextClientId clientSocket start).1.slots = pool.slots.set i slot ∧
      (pool.acceptClient nextClientId clientSocket start).2 = nextClientId + 1 ∧
      (slot = ClientSlot.empty ∨
        ∃ hasThread, slot = ClientSlot.taken hasThread clientSocket nextClientId) := by
  unfold acceptClient
  split
  · unfold assignClientDataReceiverThread
    cases hwait : pool.semaphore.wait with
    | none => exact Or.inl ⟨rfl, Or.inr rfl⟩
    | some semaphore =>
      simp only [assignSection]
      cases hfirst : firstAvailable { pool with semaphore := semaphore } with
      | none => exact Or.inl ⟨rfl, Or.inr trivial⟩
      | some i =>
        refine Or.inr ⟨i, ?_⟩
        cases start with
        | mallocFails => exact ⟨_, rfl, trivial, Or.inr ⟨false, rfl⟩⟩
        | createFails => exact ⟨_, rfl, trivial, Or.inl rfl⟩
        | started => exact ⟨_, rfl, trivial, Or.inr ⟨true, rfl⟩⟩
  · exact Or.inl ⟨rfl, Or.inl rfl⟩

/-- Returning another slot leaves this one. -/
theorem return_keeps {pool : ClientThreadPool} {i threadIndex : Nat} {slot : ClientSlot}
    (hslot : pool.slots[i]? = some slot) (hne : threadIndex ≠ i) :
    (pool.returnClientDataReceiverThread threadIndex).slots[i]? = some slot := by
  show (pool.slots.set threadIndex ClientSlot.empty)[i]? = some slot
  rw [List.getElem?_set_ne hne]
  exact hslot

/-! ## A pool that no client leaves -/

/-- The ids handed out are positive and differ. -/
theorem clientId_ofNat {i : Nat} (hi : i < maxClients) :
    (Int32.ofNat (i + 1)).toInt = ((i + 1 : Nat) : Int) :=
  Int32.toInt_ofNat_of_lt (by simp only [maxClients] at hi; omega)

/-- The slots are taken by clients with these sockets and the ids 1, 2, …
in order, and the others are free. -/
structure Filled (pool : ClientThreadPool) (nextClientId : Int32)
    (clientSockets : List Socket) : Prop where
  count : pool.count = clientSockets.length
  semaphore : pool.semaphore.value + clientSockets.length = maxClients
  nextClientId : nextClientId = Int32.ofNat (clientSockets.length + 1)
  taken : ∀ i clientSocket, clientSockets[i]? = some clientSocket →
    pool.slots[i]? = some (ClientSlot.taken true clientSocket (Int32.ofNat (i + 1)))
  free : ∀ i slot, pool.slots[i]? = some slot → clientSockets.length ≤ i →
    slot.isAvailable = true

theorem filled_initializePool : Filled initializePool 1 [] where
  count := rfl
  semaphore := rfl
  nextClientId := rfl
  taken := by
    intro i clientSocket h
    cases h
  free := by
    intro i slot hslot _
    have hmem := List.mem_of_getElem? hslot
    rw [List.eq_of_mem_replicate hmem]
    rfl

section Filled

variable {pool : ClientThreadPool} {nextClientId : Int32} {clientSockets : List Socket}

/-- The first available slot is the one behind the taken ones. -/
theorem Filled.firstAvailable (h : Filled pool nextClientId clientSockets)
    (hroom : clientSockets.length < maxClients) :
    pool.firstAvailable = some clientSockets.length := by
  have hlen := pool.length_slots
  refine List.findIdx?_eq_some_iff_getElem.mpr ⟨by omega, ?_, ?_⟩
  · exact h.free _ _ (List.getElem?_eq_getElem (by omega)) (Nat.le_refl _)
  · intro j hj
    have hslot := h.taken j _ (List.getElem?_eq_getElem hj)
    rw [List.getElem?_eq_getElem (by omega), Option.some.injEq] at hslot
    rw [hslot]
    exact Bool.not_eq_true _ |>.mpr rfl

/-- A client that is accepted takes it. -/
theorem Filled.accept (h : Filled pool nextClientId clientSockets) (clientSocket : Socket) :
    Filled (pool.acceptClient nextClientId clientSocket .started).1
      (pool.acceptClient nextClientId clientSocket .started).2
      (if clientSockets.length < maxClients then clientSockets ++ [clientSocket]
        else clientSockets) := by
  unfold acceptClient
  rw [h.count]
  split
  · rename_i hroom
    have hfirst := h.firstAvailable hroom
    have hsem := h.semaphore
    have hlen := pool.length_slots
    cases hwait : pool.semaphore.wait with
    | none =>
      have hzero := Semaphore.wait_eq_none.mp hwait
      omega
    | some semaphore =>
      have hvalue := Semaphore.wait_eq_some hwait
      have hfirst' : ClientThreadPool.firstAvailable { pool with semaphore := semaphore }
          = some clientSockets.length := hfirst
      simp only [assignClientDataReceiverThread, hwait, assignSection, hfirst', Option.map_some,
        Option.getD_some]
      constructor
      · show pool.count + 1 = _
        rw [h.count, List.length_append]
        rfl
      · show semaphore.value + _ = _
        rw [List.length_append, List.length_singleton]
        omega
      · show nextClientId + 1 = _
        rw [h.nextClientId, List.length_append, List.length_singleton]
        exact (Int32.ofNat_add _ _).symm
      · intro i socket hsocket
        show (pool.slots.set clientSockets.length _)[i]? = _
        by_cases heq : i = clientSockets.length
        · subst heq
          rw [List.getElem?_concat_length, Option.some.injEq] at hsocket
          rw [List.getElem?_set_self (by omega), h.nextClientId, hsocket]
        · have hi := (List.getElem?_eq_some_iff.mp hsocket).1
          rw [List.length_append, List.length_singleton] at hi
          rw [List.getElem?_append_left (by omega)] at hsocket
          rw [List.getElem?_set_ne (fun h => heq h.symm)]
          exact h.taken i socket hsocket
      · intro i slot hslot hle
        rw [List.length_append, List.length_singleton] at hle
        have hslot' : (pool.slots.set clientSockets.length _)[i]? = some slot := hslot
        rw [List.getElem?_set_ne (by omega)] at hslot'
        exact h.free i slot hslot' (by omega)
  · exact h

/-- The socket in a slot. -/
theorem Filled.clientSocket (h : Filled pool nextClientId clientSockets) (i : Nat) :
    (pool.slots[i]?).bind ClientSlot.clientSocket = clientSockets[i]? := by
  cases hsocket : clientSockets[i]? with
  | some clientSocket =>
    rw [h.taken i clientSocket hsocket]
    rfl
  | none =>
    have hle := List.getElem?_eq_none_iff.mp hsocket
    cases hslot : pool.slots[i]? with
    | none => rfl
    | some slot => exact (slot.free (h.free i slot hslot hle)).1

/-- **A client is found by its id.** -/
theorem Filled.getClientSocket (h : Filled pool nextClientId clientSockets) {i : Nat}
    {clientSocket : Socket} (hsocket : clientSockets[i]? = some clientSocket) :
    pool.getClientSocketByClientId (Int32.ofNat (i + 1)) = some (some clientSocket) := by
  have hlen := pool.length_slots
  have hsem := h.semaphore
  have hi := (List.getElem?_eq_some_iff.mp hsocket).1
  have hid := clientId_ofNat (i := i) (by omega)
  have hpos : (0 : Int32) ≤ Int32.ofNat (i + 1) := by
    rw [Int32.le_iff_toInt_le, hid]
    exact Int.natCast_nonneg _
  have hfind : (pool.slots.find? fun slot => slot.clientId == Int32.ofNat (i + 1))
      = some (ClientSlot.taken true clientSocket (Int32.ofNat (i + 1))) := by
    have hslot := h.taken i clientSocket hsocket
    rw [List.getElem?_eq_getElem (by omega), Option.some.injEq] at hslot
    refine List.find?_eq_some_iff_getElem.mpr ⟨by simp [ClientSlot.taken], i, by omega, hslot, ?_⟩
    intro j hj
    have hother := h.taken j _ (List.getElem?_eq_getElem (by omega))
    rw [List.getElem?_eq_getElem (by omega), Option.some.injEq] at hother
    have hne : Int32.ofNat (j + 1) ≠ Int32.ofNat (i + 1) := by
      intro heq
      have hint := congrArg Int32.toInt heq
      rw [hid, clientId_ofNat (by omega)] at hint
      omega
    rw [hother]
    simpa [ClientSlot.taken] using hne
  rw [getClientSocketByClientId, if_neg (Int32.not_lt.mpr hpos), hfind]
  rfl

end Filled

end ClientThreadPool

end LoadBalancing.LoadBalancer
