/-
LoadBalancing.Worker.PeerImport — the stores of the load balancer and the
data of peers meet in one table.

One worker with its receiver thread (`ReceiverThread.c`) and its peer
listener (`PeerListenerThread.c`). `HasHashTable` and `SetHashTable` are
steps of their own, as each locks the bucket for itself: a listener that
found a key absent stands between the two in `ListenerAt.storing`, and
the receiver may store that key meanwhile. `acknowledged` is the value of
the latest store of each key that was answered with `ERR_NONE`, until the
receiver stores the key again.

`listener_keeps_iff`: the listener leaves every key that is present
alone, and acknowledged values with it, exactly in the runs where the
receiver never stores the key that the listener is about to set.
`import_overwrites` is a run where it does.

No `sorry`, no `axiom`, no `native_decide`.
-/
import LoadBalancing.Base.Transition
import LoadBalancing.Worker.Cluster

namespace LoadBalancing.Worker.PeerImport

open LoadBalancing.Base LoadBalancing.Lib

/-! ## Threads -/

/-- The receiver thread in `case MSG_STORE_REQUEST`: outside, behind its
`HasHashTable`, behind a `SetHashTable` that returned 1. -/
inductive ReceiverAt where
  | idle
  | checked (request : StoreRequest)
  | stored (request : StoreRequest)
  deriving DecidableEq

/-- The table, the two threads, and the acknowledged values. -/
structure State where
  table : HashTable
  receiver : ReceiverAt
  listener : ListenerAt
  acknowledged : CString → Option CString

/-- One step of a thread. The payloads and the peer messages are whatever
arrives; `allocated` is the answer of the `malloc`s. -/
inductive Label where
  | receive (payload : List UInt8)
  | setHashTable (allocated : Bool)
  | respond
  | readPeer (message : Message)
  | setPeerData (allocated : Bool)
  deriving DecidableEq

/-- A worker with any table, before its threads have read anything. -/
def start (table : HashTable) : State := ⟨table, .idle, .idle, fun _ => none⟩

/-- One step. `HasHashTable` only makes the receiver log a warning; the
listener goes on to its `SetHashTable` if it returned 0. -/
def step (s : State) : Label → Option State
  | .receive payload =>
    match s.receiver with
    | .idle =>
      match storeRequest? payload with
      | none => some s
      | some request => some { s with receiver := .checked request }
    | _ => none
  | .setHashTable allocated =>
    match s.receiver with
    | .checked request =>
      let (result, table) := Worker.setHashTable s.table request.key request.value allocated
      some { s with
        table := table
        receiver := if result = 1 then .stored request else .idle
        acknowledged := Function.update s.acknowledged request.key none }
    | _ => none
  | .respond =>
    match s.receiver with
    | .stored request =>
      some { s with
        receiver := .idle
        acknowledged :=
          if (storeResponse request 1).isSome then
            Function.update s.acknowledged request.key (some request.value)
          else s.acknowledged }
    | _ => none
  | .readPeer message =>
    match s.listener with
    | .idle =>
      match peerEntry message with
      | none => some s
      | some (key, value) =>
        if hasHashTable s.table key = 0 then some { s with listener := .storing key value }
        else some s
    | _ => none
  | .setPeerData allocated =>
    match s.listener with
    | .storing key value =>
      some { s with
        table := (Worker.setHashTable s.table key value allocated).2
        listener := .idle }
    | .idle => none

/-- A step of `PeerListenerThread`. -/
def Label.isListener : Label → Bool
  | .readPeer _ | .setPeerData _ => true
  | _ => false

/-- The listener's next step changes no key that is present, and what was
acknowledged is in the table. -/
structure State.Undisturbed (s : State) : Prop where
  listener : ∀ (l : Label) (t : State), l.isListener = true → step s l = some t →
    ∀ key value, lookup s.table key = some value → lookup t.table key = some value
  acknowledged : ∀ key value, s.acknowledged key = some value →
    lookup s.table key = some (some value)

/-- The receiver does not store the key that the listener has found absent
and not set yet. -/
def ApartFromImport (s : State) : Label → Prop
  | .setHashTable allocated =>
    match s.receiver, s.listener with
    | .checked request, .storing key _ => allocated = true → request.key ≠ key
    | _, _ => True
  | _ => True

instance (s : State) (l : Label) : Decidable (ApartFromImport s l) := by
  cases l <;> simp only [ApartFromImport] <;> try infer_instance
  split <;> infer_instance

/-! ## The invariant -/

/-- What the threads know of the table. -/
structure Keeps (s : State) : Prop where
  fresh : ∀ key value, s.listener = .storing key value →
    key ≠ CString.empty ∧ lookup s.table key = none
  stored : ∀ request, s.receiver = .stored request →
    lookup s.table request.key = some (some request.value)
  acknowledged : ∀ key value, s.acknowledged key = some value →
    lookup s.table key = some (some value)

theorem keeps_start (table : HashTable) : Keeps (start table) :=
  { fresh := by
      intro key value hlistener
      cases hlistener
    stored := by
      intro request hreceiver
      cases hreceiver
    acknowledged := by
      intro key value hack
      cases hack }

section Steps

variable {s t : State}

theorem Keeps.receive (h : Keeps s) {payload : List UInt8}
    (hstep : step s (.receive payload) = some t) : Keeps t := by
  simp only [step] at hstep
  split at hstep
  · split at hstep
    · cases hstep
      exact h
    · cases hstep
      exact
        { fresh := h.fresh
          stored := by
            intro request hreceiver
            cases hreceiver
          acknowledged := h.acknowledged }
  · cases hstep

/-- The receiver's store: with its key apart from the listener's, the
listener's stays absent. -/
theorem Keeps.setHashTable (h : Keeps s) {allocated : Bool}
    (hapart : ApartFromImport s (.setHashTable allocated))
    (hstep : step s (.setHashTable allocated) = some t) : Keeps t := by
  simp only [step] at hstep
  split at hstep
  · rename_i request hreceiver
    cases hstep
    refine ⟨?_, ?_, ?_⟩
    · intro key value hlistener
      have hlistener : s.listener = .storing key value := hlistener
      obtain ⟨hkey, hfresh⟩ := h.fresh key value hlistener
      refine ⟨hkey, ?_⟩
      simp only [ApartFromImport, hreceiver, hlistener] at hapart
      by_cases hsame : request.key = key
      · cases allocated with
        | true => exact absurd hsame (hapart rfl)
        | false => rw [hsame, setHashTable_failed hfresh]; exact hfresh
      · rw [lookup_setHashTable_of_ne (fun heq => hsame heq.symm)]
        exact hfresh
    · intro request' hreceiver'
      simp only at hreceiver' ⊢
      split at hreceiver'
      · rename_i hresult
        cases hreceiver'
        obtain ⟨hkey, rfl⟩ := setHashTable_eq_one.mp hresult
        rw [lookup_setHashTable hkey, if_pos rfl]
      · cases hreceiver'
    · intro key value hack
      by_cases hsame : key = request.key
      · simp [hsame] at hack
      · rw [lookup_setHashTable_of_ne hsame]
        simp only [Function.update_of_ne hsame] at hack
        exact h.acknowledged key value hack
  · cases hstep

theorem Keeps.respond (h : Keeps s) (hstep : step s .respond = some t) : Keeps t := by
  simp only [step] at hstep
  split at hstep
  · rename_i request hreceiver
    cases hstep
    refine ⟨h.fresh, ?_, ?_⟩
    · intro request' hreceiver'
      cases hreceiver'
    · intro key value hack
      simp only at hack ⊢
      split at hack
      · by_cases hsame : key = request.key
        · rw [hsame, Function.update_self] at hack
          cases hack
          rw [hsame]
          exact h.stored request hreceiver
        · rw [Function.update_of_ne hsame] at hack
          exact h.acknowledged key value hack
      · exact h.acknowledged key value hack
  · cases hstep

theorem Keeps.readPeer (h : Keeps s) {message : Message}
    (hstep : step s (.readPeer message) = some t) : Keeps t := by
  simp only [step] at hstep
  split at hstep
  · split at hstep
    · cases hstep
      exact h
    · rename_i key value hentry
      split at hstep
      · rename_i hhas
        cases hstep
        refine ⟨?_, h.stored, h.acknowledged⟩
        intro key' value' hlistener
        cases hlistener
        exact hasHashTable_eq_zero.mp hhas
      · cases hstep
        exact h
  · cases hstep

/-- The listener's store: its key is still absent, so every key that is
present keeps its value. -/
theorem Keeps.setPeerData (h : Keeps s) {allocated : Bool}
    (hstep : step s (.setPeerData allocated) = some t) :
    Keeps t ∧ ∀ key value, lookup s.table key = some value → lookup t.table key = some value := by
  simp only [step] at hstep
  split at hstep
  · rename_i key value hlistener
    cases hstep
    have hfresh := (h.fresh key value hlistener).2
    have hkept : ∀ k v, lookup s.table k = some v →
        lookup (Worker.setHashTable s.table key value allocated).2 k = some v := by
      intro k v hk
      have hne : k ≠ key := by
        rintro rfl
        rw [hfresh] at hk
        cases hk
      rw [lookup_setHashTable_of_ne hne]
      exact hk
    refine ⟨⟨?_, ?_, ?_⟩, hkept⟩
    · intro key' value' hlistener'
      cases hlistener'
    · intro request hreceiver
      exact hkept _ _ (h.stored request hreceiver)
    · intro k v hack
      exact hkept _ _ (h.acknowledged k v hack)
  · cases hstep

end Steps

/-- Every step apart from the imports keeps the invariant. -/
theorem keeps_step (s : State) (l : Label) (t : State) (h : Keeps s) (hapart : ApartFromImport s l)
    (hstep : step s l = some t) : Keeps t := by
  cases l with
  | receive payload => exact h.receive hstep
  | setHashTable allocated => exact h.setHashTable hapart hstep
  | respond => exact h.respond hstep
  | readPeer message => exact h.readPeer hstep
  | setPeerData allocated => exact (h.setPeerData hstep).1

/-- A message read changes no table. -/
theorem table_readPeer {s t : State} {message : Message}
    (hstep : step s (.readPeer message) = some t) : t.table = s.table := by
  simp only [step] at hstep
  split at hstep
  · split at hstep
    · cases hstep; rfl
    · split at hstep <;> cases hstep <;> rfl
  · cases hstep

theorem Keeps.undisturbed (s : State) (h : Keeps s) : s.Undisturbed := by
  refine ⟨?_, h.acknowledged⟩
  intro l t hl hstep key value hkey
  cases l with
  | readPeer message => rw [table_readPeer hstep]; exact hkey
  | setPeerData allocated => exact (h.setPeerData hstep).2 key value hkey
  | receive payload => cases hl
  | setHashTable allocated => cases hl
  | respond => cases hl

/-- A store of the key that the listener is about to set leaves the
listener in front of a key that is present: without memory it would clear
the value just stored. -/
theorem apart_of_undisturbed (s : State) (l : Label) (t : State) (h : Keeps s)
    (hstep : step s l = some t) (hgood : t.Undisturbed) : ApartFromImport s l := by
  cases l with
  | setHashTable allocated =>
    simp only [ApartFromImport]
    split
    · rename_i request key value hreceiver hlistener
      rintro rfl hsame
      have hkey := (h.fresh key value hlistener).1
      simp only [step, hreceiver, hsame, setHashTable_allocated hkey, if_pos,
        Option.some.injEq] at hstep
      subst hstep
      have hset := lookup_setHashTable hkey s.table request.value key
      rw [setHashTable_allocated hkey, if_pos rfl] at hset
      have hkept := hgood.listener (.setPeerData false) _ rfl
        (by simp only [step, hlistener]; rfl) key _ hset
      simp only at hkept
      rw [lookup_setHashTable_failed hkey (by rw [hset]; simp)] at hkept
      cases hkept
    · trivial
  | receive payload => trivial
  | respond => trivial
  | readPeer message => trivial
  | setPeerData allocated => trivial

/-- **The listener leaves present keys and acknowledged values alone
exactly in the runs where the receiver never stores the key that the
listener has found absent and not set yet.** -/
theorem listener_keeps_iff {table : HashTable} {ls : List Label} {t : State}
    (h : exec step (start table) ls = some t) :
    Along step ApartFromImport (start table) ls ↔
      Along step (fun s _ => s.Undisturbed) (start table) ls ∧ t.Undisturbed :=
  along_iff_good Keeps.undisturbed keeps_step apart_of_undisturbed (keeps_start table) h

/-- A store between two imports of other keys. -/
theorem listener_keeps_apart :
    ∃ t, exec step (start initializeHashTable)
      [.readPeer ⟨MessageType.peerNotify.value, [0, 1, 107, 0, 3, 111, 108, 100]⟩,
        .receive [0, 0, 0, 1, 0, 1, 106, 0, 3, 110, 101, 119], .setHashTable true,
        .setPeerData true, .respond] = some t ∧ t.Undisturbed :=
  Exists.imp (fun _ h => ⟨h, ((listener_keeps_iff h).mp (by decide)).2⟩) ⟨_, rfl⟩

/-- The listener finds `k` absent and the receiver stores and acknowledges
`k` as `new`; then the listener sets it to the `old` value of its peer. -/
theorem import_overwrites :
    ¬ ∀ (ls : List Label) (t : State), exec step (start initializeHashTable) ls = some t →
      Along step (fun s _ => s.Undisturbed) (start initializeHashTable) ls ∧ t.Undisturbed := by
  intro h
  have hkept := (h
    [.readPeer ⟨MessageType.peerNotify.value, [0, 1, 107, 0, 3, 111, 108, 100]⟩,
      .receive [0, 0, 0, 1, 0, 1, 107, 0, 3, 110, 101, 119], .setHashTable true, .respond,
      .setPeerData true] _ rfl).2.acknowledged (.ofString "k") (.ofString "new") (by decide)
  exact absurd hkept (by decide)

end LoadBalancing.Worker.PeerImport
