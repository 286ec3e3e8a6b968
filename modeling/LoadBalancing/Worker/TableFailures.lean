/-
LoadBalancing.Worker.TableFailures — `SetHashTable` with each of its
`malloc`s.

A store of a new key has three allocations, for the node, its key and its
value, and links the node when it has all of them; a failure frees what
there is. A store over an old key has one: it frees the old value first
and allocates the new one behind it. So a failure on the first path is
without trace, and one on the second takes the value of the key with it.
`setHashTable_atomic_iff` is the consequence for runs.

The copies behind each `malloc` are into buffers of the right size, so
`strcpy_s` does not fail.

No `sorry`, no `axiom`, no `native_decide`.
-/
import LoadBalancing.Base.Transition
import LoadBalancing.Worker.HashTable

namespace LoadBalancing.Worker.TableFailures

open LoadBalancing.Base LoadBalancing.Lib

/-- A call of `SetHashTable`: its arguments, where `none` is NULL, and the
answers of its `malloc`s in order. -/
structure SetCall where
  key : Option CString
  value : Option CString
  malloc : Nat → Bool

/-- `SetHashTable`. -/
def setHashTable (table : HashTable) (call : SetCall) : Int × HashTable :=
  match call.key, call.value with
  | none, _ => (-1, table)
  | some _, none => (-1, table)
  | some key, some value =>
    if key = CString.empty then (-1, table)
    else if hfresh : table.find? key = none then
      if !call.malloc 0 then (-1, table)
      else if !call.malloc 1 then (-1, table)
      else if !call.malloc 2 then (-1, table)
      else (1, table.insertFront key (some value) hfresh)
    else
      -- `free(node->value)` comes before `malloc`
      let freed := table.overwrite key none
      if !call.malloc 0 then (-1, freed)
      else (1, freed.overwrite key (some value))

/-- The call has the memory it asks for. -/
def allocated (table : HashTable) (key : CString) (malloc : Nat → Bool) : Bool :=
  if table.find? key = none then malloc 0 && malloc 1 && malloc 2 else malloc 0

/-- **One answer for all allocations is enough** to know the result of a call
and the map behind it. -/
theorem setHashTable_eq_allocated (table : HashTable) (key value : CString)
    (malloc : Nat → Bool) :
    (setHashTable table ⟨some key, some value, malloc⟩).1 =
        (Worker.setHashTable table key value (allocated table key malloc)).1 ∧
      ∀ k, lookup (setHashTable table ⟨some key, some value, malloc⟩).2 k =
        lookup (Worker.setHashTable table key value (allocated table key malloc)).2 k := by
  unfold setHashTable Worker.setHashTable allocated
  by_cases hne : key = CString.empty
  · simp [hne]
  · by_cases hfresh : table.find? key = none
    · cases hnode : malloc 0 <;> cases hcopy : malloc 1 <;> cases hlast : malloc 2 <;>
        simp [hne, hfresh, hnode, hcopy, hlast]
    · have hfreed := ChainedTable.find?_overwrite hfresh none
      have hkept : (table.overwrite key none).find? key ≠ none := by
        rw [hfreed key, if_pos rfl]
        exact Option.some_ne_none _
      cases hmalloc : malloc 0 with
      | false => simp [hne, hfresh, hmalloc]
      | true =>
        refine ⟨by simp [hne, hfresh, hmalloc], ?_⟩
        intro k
        have hwritten := ChainedTable.find?_overwrite hkept (some value) k
        have honce := ChainedTable.find?_overwrite hfresh (some value) k
        rw [hfreed k] at hwritten
        have hsame : ((table.overwrite key none).overwrite key (some value)).find? k =
            (table.overwrite key (some value)).find? k := by
          rw [hwritten, honce]
          by_cases hk : k = key
          · rw [if_pos hk, if_pos hk]
          · rw [if_neg hk, if_neg hk, if_neg hk]
        simpa [hne, hfresh, hmalloc, lookup] using hsame

/-! ## What a call does to the map -/

/-- Every node has a value. A node in a chain always has its key. -/
def Complete (table : HashTable) : Prop :=
  ∀ bucket, ∀ node ∈ table.chains bucket, node.2 ≠ none

/-- **The promise of a call**: -1 leaves the map alone and every node whole,
and 1 sets the key and nothing else. -/
structure Atomic (table : HashTable) (call : SetCall) : Prop where
  failed : (setHashTable table call).1 = -1 →
    (∀ k, lookup (setHashTable table call).2 k = lookup table k) ∧
      Complete (setHashTable table call).2
  done : (setHashTable table call).1 = 1 →
    ∃ key value, call.key = some key ∧ call.value = some value ∧
      ∀ k, lookup (setHashTable table call).2 k =
        if k = key then some (some value) else lookup table k

/-- The `malloc` for the new value of a key that is in the table fails. -/
def UpdateFails (table : HashTable) (call : SetCall) : Prop :=
  call.value.isSome = true ∧ (∃ key ∈ call.key, key ≠ CString.empty ∧ lookup table key ≠ none) ∧
    call.malloc 0 = false

/-- In a complete table no key is without a value, and the other way round. -/
theorem complete_iff {table : HashTable} : Complete table ↔ ∀ k, lookup table k ≠ some none := by
  constructor
  · intro h k hnull
    have hfound : lookup table k ≠ none := by
      rw [hnull]
      exact Option.some_ne_none _
    obtain ⟨node, hnode, rfl⟩ := exists_mem_bucket hfound
    rw [lookup_of_mem_bucket hnode] at hnull
    exact h _ node hnode (Option.some.inj hnull)
  · intro h bucket node hnode hnull
    exact h node.1 (by rw [lookup_of_mem_bucket hnode, hnull])

theorem complete_initializeHashTable : Complete initializeHashTable := nofun

/-- What a call comes to: nothing, a map update, or a key without a value. -/
inductive Effect (table : HashTable) (call : SetCall) : Prop where
  | refused (h : setHashTable table call = (-1, table))
  | stored (key value : CString) (hkey : call.key = some key) (hvalue : call.value = some value)
      (hresult : (setHashTable table call).1 = 1)
      (hlookup : ∀ k, lookup (setHashTable table call).2 k =
        if k = key then some (some value) else lookup table k)
  | lost (key : CString) (hfails : UpdateFails table call)
      (hresult : (setHashTable table call).1 = -1)
      (hlookup : lookup (setHashTable table call).2 key = some none)

/-- A store of a new key links a whole node or none. -/
theorem effect_insert {table : HashTable} {call : SetCall} {key value : CString}
    (hkey : call.key = some key) (hvalue : call.value = some value) (hne : key ≠ CString.empty)
    (hfresh : table.find? key = none) : Effect table call := by
  by_cases hall : call.malloc 0 = true ∧ call.malloc 1 = true ∧ call.malloc 2 = true
  · have hset : setHashTable table call = (1, table.insertFront key (some value) hfresh) := by
      simp [setHashTable, hkey, hvalue, hne, hfresh, hall]
    refine .stored key value hkey hvalue (by rw [hset]) ?_
    intro k
    rw [hset]
    exact ChainedTable.find?_insertFront hfresh (some value) k
  · refine .refused ?_
    simp only [setHashTable, hkey, hvalue, hne, hfresh, if_false, dif_pos]
    by_cases hnode : call.malloc 0 = true
    · by_cases hcopy : call.malloc 1 = true
      · have hlast : call.malloc 2 = false := by simpa [hnode, hcopy] using hall
        simp [hnode, hcopy, hlast]
      · simp [hnode, hcopy]
    · simp [hnode]

/-- A store over an old key frees its value first. -/
theorem effect_update {table : HashTable} {call : SetCall} {key value : CString}
    (hkey : call.key = some key) (hvalue : call.value = some value) (hne : key ≠ CString.empty)
    (hfound : table.find? key ≠ none) : Effect table call := by
  have hfreed := ChainedTable.find?_overwrite hfound none
  have hkept : (table.overwrite key none).find? key ≠ none := by
    rw [hfreed key, if_pos rfl]
    exact Option.some_ne_none _
  cases hmalloc : call.malloc 0 with
  | true =>
    have hset : setHashTable table call =
        (1, (table.overwrite key none).overwrite key (some value)) := by
      simp [setHashTable, hkey, hvalue, hne, hfound, hmalloc]
    refine .stored key value hkey hvalue (by rw [hset]) ?_
    intro k
    rw [hset]
    have hwritten := ChainedTable.find?_overwrite hkept (some value) k
    rw [hfreed k] at hwritten
    refine hwritten.trans ?_
    by_cases hk : k = key
    · rw [if_pos hk, if_pos hk]
    · rw [if_neg hk, if_neg hk, if_neg hk]
      rfl
  | false =>
    have hset : setHashTable table call = (-1, table.overwrite key none) := by
      simp [setHashTable, hkey, hvalue, hne, hfound, hmalloc]
    refine .lost key ?_ (by rw [hset]) ?_
    · exact ⟨by rw [hvalue]; rfl, ⟨key, hkey, hne, hfound⟩, hmalloc⟩
    · rw [hset]
      exact (hfreed key).trans (if_pos rfl)

/-- **Every call** has one of the three effects. -/
theorem setHashTable_effect (table : HashTable) (call : SetCall) : Effect table call := by
  cases hkey : call.key with
  | none => exact .refused (by simp [setHashTable, hkey])
  | some key =>
    cases hvalue : call.value with
    | none => exact .refused (by simp [setHashTable, hkey, hvalue])
    | some value =>
      by_cases hne : key = CString.empty
      · exact .refused (by simp [setHashTable, hkey, hvalue, hne])
      · by_cases hfresh : table.find? key = none
        · exact effect_insert hkey hvalue hne hfresh
        · exact effect_update hkey hvalue hne hfresh

/-- The third effect is that of a failed update, and of nothing else. -/
theorem lost_of_updateFails {table : HashTable} {call : SetCall} (hfails : UpdateFails table call) :
    (setHashTable table call).1 = -1 ∧
      ∃ key, lookup (setHashTable table call).2 key = some none := by
  obtain ⟨hsome, ⟨key, hkey, hne, hfound⟩, hmalloc⟩ := hfails
  obtain ⟨value, hvalue⟩ := Option.isSome_iff_exists.mp hsome
  have hfind : table.find? key ≠ none := hfound
  have hset : setHashTable table call = (-1, table.overwrite key none) := by
    simp [setHashTable, Option.mem_def.mp hkey, hvalue, hne, hfind, hmalloc]
  refine ⟨by rw [hset], key, ?_⟩
  rw [hset]
  exact (ChainedTable.find?_overwrite hfind none key).trans (if_pos rfl)

/-! ## One call of a complete table -/

/-- **When a call keeps its promise**: unless it is an update without memory. -/
theorem atomic_iff {table : HashTable} (hcomplete : Complete table) (call : SetCall) :
    Atomic table call ↔ ¬ UpdateFails table call := by
  constructor
  · intro hatomic hfails
    obtain ⟨hresult, key, hnull⟩ := lost_of_updateFails hfails
    exact complete_iff.mp (hatomic.failed hresult).2 key hnull
  · intro hmemory
    cases setHashTable_effect table call with
    | refused h =>
      refine ⟨fun _ => ?_, fun hone => ?_⟩
      · rw [h]
        exact ⟨fun _ => rfl, hcomplete⟩
      · rw [h] at hone
        cases hone
    | stored key value hkey hvalue hresult hlookup =>
      refine ⟨fun hminus => ?_, fun _ => ⟨key, value, hkey, hvalue, hlookup⟩⟩
      rw [hresult] at hminus
      cases hminus
    | lost key hfails => exact absurd hfails hmemory

/-- Such a call leaves a complete table. -/
theorem complete_setHashTable {table : HashTable} (hcomplete : Complete table) {call : SetCall}
    (hmemory : ¬ UpdateFails table call) : Complete (setHashTable table call).2 := by
  cases setHashTable_effect table call with
  | refused h => rwa [h]
  | stored key value hkey hvalue hresult hlookup =>
    rw [complete_iff] at hcomplete ⊢
    intro k hnull
    rw [hlookup k] at hnull
    by_cases hk : k = key
    · rw [if_pos hk] at hnull
      cases hnull
    · rw [if_neg hk] at hnull
      exact hcomplete k hnull
  | lost key hfails => exact absurd hfails hmemory

/-! ## Runs -/

/-- The table behind a call. -/
def step (table : HashTable) (call : SetCall) : Option HashTable :=
  some (setHashTable table call).2

/-- **When `SetHashTable` is atomic.** The calls of a run from the empty
table all keep their promise exactly when none of them is for a key that is
in the table and finds no memory for its new value. -/
theorem setHashTable_atomic_iff (calls : List SetCall) :
    Along step Atomic initializeHashTable calls ↔
      Along step (fun table call => ¬ UpdateFails table call) initializeHashTable calls := by
  have hkeep : ∀ table call table', Complete table → ¬ UpdateFails table call →
      step table call = some table' → Complete table' := by
    intro table call table' hcomplete hmemory hstep
    rw [← Option.some.inj hstep]
    exact complete_setHashTable hcomplete hmemory
  have hexec : ∀ (calls : List SetCall) (table : HashTable),
      ∃ table', exec step table calls = some table' := by
    intro calls
    induction calls with
    | nil => exact fun table => ⟨table, rfl⟩
    | cons call calls ih =>
      intro table
      obtain ⟨table', htable'⟩ := ih (setHashTable table call).2
      exact ⟨table', exec_cons_eq_some.mpr ⟨_, rfl, htable'⟩⟩
  obtain ⟨table, htable⟩ := hexec calls initializeHashTable
  exact (along_congr hkeep (fun table call _ hcomplete _ => (atomic_iff hcomplete call).symm)
    complete_initializeHashTable htable).symm

/-- A call whose first `malloc` fails. -/
def outOfMemory : SetCall :=
  ⟨some (.ofString "k"), some (.ofString "new"), fun _ => false⟩

/-- **`SetHashTable` is not atomic**: an update without memory returns -1,
and the old value is gone. -/
theorem setHashTable_loses_value :
    ¬ ∀ calls, Along step Atomic initializeHashTable calls := by
  intro hall
  have hrun := hall [⟨some (.ofString "k"), some (.ofString "old"), fun _ => true⟩, outOfMemory]
  have hfailed := hrun.2.1.failed (by decide +kernel)
  have hsame := hfailed.1 (.ofString "k")
  revert hsame
  decide +kernel

end LoadBalancing.Worker.TableFailures
