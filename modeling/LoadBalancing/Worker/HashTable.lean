/-
LoadBalancing.Worker.HashTable — the hash table of `Worker/HashTable.c`.

A table is a `ChainedTable` under `HashFunction`, keyed by strings: two
keys are one when `strcmp` says so. A value is `none` where the source has
a NULL pointer, which happens when `SetHashTable` frees an old value and
its `malloc` for the new one fails.

Each operation locks one bucket from its search to its end, so it is one
step. `lookup` is the map a table represents, and `lookup_setHashTable`
is what a store does to it.

The count of the items is a number here and an `int` in the source: the two
are the same for up to 2^31 - 1 items.

Out of scope: NULL arguments, which no caller passes, the memory figure of
`GetHashTableStats`, and the log output.
-/
import LoadBalancing.Base.CString
import LoadBalancing.Base.ChainedTable
import LoadBalancing.Base.Cursor
import LoadBalancing.Lib.SharedConfig

namespace LoadBalancing.Worker

open LoadBalancing.Base LoadBalancing.Lib

/-- The loop of `HashFunction`. `unsigned long` has 32 bits here, and a
`char` is signed. -/
def hashLoop (hash : UInt32) : List UInt8 → UInt32
  | [] => hash
  | c :: rest => hashLoop ((hash <<< 5) + hash + c.toInt8.toInt32.toUInt32) rest

/-- `HashFunction`. -/
def hashFunction (value : CString) : Fin workerHashTableBucketCount :=
  ⟨(hashLoop 5381 value.bytes).toNat % workerHashTableBucketCount, Nat.mod_lt _ (by decide)⟩

/-- A `DataNode`: its key and its value. -/
abbrev DataNode := CString × Option CString

/-- `HashTable`. -/
abbrev HashTable := ChainedTable CString (Option CString) hashFunction

/-- `InitializeHashTable`. -/
def initializeHashTable : HashTable := ChainedTable.empty

/-- `HasHashTable`. -/
def hasHashTable (table : HashTable) (key : CString) : Int :=
  if key = CString.empty then -1
  else match table.find? key with
    | some _ => 1
    | none => 0

/-- `GetHashTable`: the results 1 and 0 are `accept`, with the copied value
or without, and -1 is `reject`. `strlen` of a NULL value is a fault. -/
def getHashTable (table : HashTable) (key : CString) (allocated : Bool) :
    Outcome (Option CString) :=
  if key = CString.empty then .reject
  else match table.find? key with
    | none => .accept none
    | some none => .fault
    | some (some value) => if allocated then .accept (some value) else .reject

/-- `SetHashTable`. An existing node keeps its place and is left without a
value when `malloc` fails; a new node goes in front of its bucket, and a
failure leaves the table alone. -/
def setHashTable (table : HashTable) (key value : CString) (allocated : Bool) :
    Int × HashTable :=
  if key = CString.empty then (-1, table)
  else if hfresh : table.find? key = none then
    if allocated then (1, table.insertFront key (some value) hfresh) else (-1, table)
  else if allocated then (1, table.overwrite key (some value))
  else (-1, table.overwrite key none)

/-- One bucket's part of `itemCount` in `GetHashTableStats`. `strlen` of a
NULL value is a fault. -/
def bucketItems (table : HashTable) (bucket : Fin workerHashTableBucketCount) : Outcome Nat :=
  if (table.chains bucket).all fun node => node.2.isSome then
    .accept (table.chains bucket).length
  else .fault

/-- The loop of `GetHashTableStats` over the buckets, with its
`totalItems`. -/
def itemsLoop (table : HashTable) (totalItems : Nat) :
    List (Fin workerHashTableBucketCount) → Outcome Nat
  | [] => .accept totalItems
  | bucket :: rest =>
    match bucketItems table bucket with
    | .accept items => itemsLoop table (totalItems + items) rest
    | _ => .fault

/-- `GetHashTableCount`. -/
def getHashTableCount (table : HashTable) : Outcome Nat :=
  itemsLoop table 0 (List.finRange workerHashTableBucketCount)

/-! ## The map a table represents -/

/-- What a table holds under a key: nothing, a NULL value or a value. -/
def lookup (table : HashTable) (key : CString) : Option (Option CString) := table.find? key

@[simp] theorem lookup_initializeHashTable (key : CString) :
    lookup initializeHashTable key = none := rfl

theorem hasHashTable_eq_zero {table : HashTable} {key : CString} :
    hasHashTable table key = 0 ↔ key ≠ CString.empty ∧ lookup table key = none := by
  unfold hasHashTable lookup
  by_cases hkey : key = CString.empty
  · simp [hkey]
  · cases hfind : table.find? key <;> simp [hkey]

/-- With memory, a store of a key that is not empty succeeds and updates
the map. -/
theorem setHashTable_allocated {key : CString} (hkey : key ≠ CString.empty) (table : HashTable)
    (value : CString) :
    setHashTable table key value true = (1, table.write key (some value)) := by
  unfold setHashTable ChainedTable.write
  by_cases hfresh : table.find? key = none
  · simp [hkey, hfresh]
  · simp [hkey, hfresh]

/-- A store succeeds exactly with memory and a key. -/
theorem setHashTable_eq_one {table : HashTable} {key value : CString} {allocated : Bool} :
    (setHashTable table key value allocated).1 = 1 ↔
      key ≠ CString.empty ∧ allocated = true := by
  unfold setHashTable
  by_cases hkey : key = CString.empty
  · simp [hkey]
  · by_cases hfresh : table.find? key = none
    · cases allocated <;> simp [hkey, hfresh]
    · cases allocated <;> simp [hkey, hfresh]

/-- **A store is a map update.** -/
theorem lookup_setHashTable {key : CString} (hkey : key ≠ CString.empty) (table : HashTable)
    (value k : CString) :
    lookup (setHashTable table key value true).2 k
      = if k = key then some (some value) else lookup table k := by
  rw [setHashTable_allocated hkey]
  exact ChainedTable.find?_write table key (some value) k

/-- A store leaves the other keys alone, with memory or without. -/
theorem lookup_setHashTable_of_ne {k key : CString} (hk : k ≠ key) (table : HashTable)
    (value : CString) (allocated : Bool) :
    lookup (setHashTable table key value allocated).2 k = lookup table k := by
  unfold setHashTable lookup
  by_cases hkey : key = CString.empty
  · rw [if_pos hkey]
  · rw [if_neg hkey]
    by_cases hfresh : table.find? key = none
    · cases allocated <;> simp [hfresh, ChainedTable.find?_insertFront, hk]
    · cases allocated <;> simp [hfresh, ChainedTable.find?_overwrite hfresh, hk]

/-- Without memory a new key is not stored. -/
theorem setHashTable_failed {table : HashTable} {key : CString} (hfresh : lookup table key = none)
    (value : CString) : setHashTable table key value false = (-1, table) := by
  have hfind : table.find? key = none := hfresh
  simp [setHashTable, hfind]

/-- Without memory an existing key loses its value. -/
theorem lookup_setHashTable_failed {table : HashTable} {key : CString}
    (hkey : key ≠ CString.empty) (hfound : lookup table key ≠ none) (value : CString) :
    lookup (setHashTable table key value false).2 key = some none := by
  have hfind : table.find? key ≠ none := hfound
  simp [setHashTable, hkey, hfind, lookup, ChainedTable.find?_overwrite hfind]

/-- The empty key is never stored. -/
@[simp] theorem setHashTable_empty (table : HashTable) (value : CString) (allocated : Bool) :
    setHashTable table CString.empty value allocated = (-1, table) := by
  simp [setHashTable]

/-- A store loses no key. -/
theorem lookup_set_ne_none {table : HashTable} {key : CString} (hkey : key ≠ CString.empty)
    (value : CString) {k : CString} (h : lookup table k ≠ none) :
    lookup (setHashTable table key value true).2 k ≠ none := by
  rw [lookup_setHashTable hkey]
  by_cases hk : k = key
  · simp [hk]
  · rwa [if_neg hk]

/-- A store that is refused leaves no new value: it changes nothing, or
takes the value of its key. -/
theorem lookup_of_refused {table table' : HashTable} {key value : CString} {allocated : Bool}
    {result : Int} (hset : setHashTable table key value allocated = (result, table'))
    (hresult : result ≠ 1) :
    (∀ k v, lookup table' k = some (some v) → lookup table k = some (some v)) ∧
      ∀ k, lookup table' k ≠ none → lookup table k ≠ none := by
  have htable : table' = (setHashTable table key value allocated).2 := by rw [hset]
  by_cases hkey : key = CString.empty
  · rw [hkey, setHashTable_empty] at htable
    subst htable
    exact ⟨fun _ _ h => h, fun _ h => h⟩
  · obtain rfl : allocated = false := by
      by_contra hallocated
      have hone : (setHashTable table key value allocated).1 = 1 :=
        setHashTable_eq_one.mpr ⟨hkey, Bool.not_eq_false _ ▸ hallocated⟩
      rw [hset] at hone
      exact hresult hone
    by_cases hfresh : lookup table key = none
    · rw [setHashTable_failed hfresh] at htable
      subst htable
      exact ⟨fun _ _ h => h, fun _ h => h⟩
    · subst htable
      constructor
      · intro k v hk
        by_cases heq : k = key
        · rw [heq, lookup_setHashTable_failed hkey hfresh] at hk
          cases hk
        · rwa [lookup_setHashTable_of_ne heq] at hk
      · intro k hk
        by_cases heq : k = key
        · rw [heq]; exact hfresh
        · rwa [lookup_setHashTable_of_ne heq] at hk

/-- A read copies what the map holds. -/
theorem getHashTable_allocated {table : HashTable} {key : CString} (hkey : key ≠ CString.empty) :
    getHashTable table key true = match lookup table key with
      | none => .accept none
      | some none => .fault
      | some (some value) => .accept (some value) := by
  unfold getHashTable lookup
  rw [if_neg hkey]
  rfl

/-- A node of a bucket is what the map holds under its key. -/
theorem lookup_of_mem_bucket {table : HashTable} {bucket : Fin workerHashTableBucketCount}
    {node : DataNode} (h : node ∈ table.chains bucket) : lookup table node.1 = some node.2 :=
  ChainedTable.find?_of_mem_chain h

/-- **The count is the number of keys**, where no value is NULL. -/
theorem getHashTableCount_eq {table : HashTable} (hvalues : ∀ key, lookup table key ≠ some none) :
    getHashTableCount table = .accept table.keys.length := by
  have hitems : ∀ bucket, bucketItems table bucket = .accept (table.chains bucket).length := by
    intro bucket
    rw [bucketItems, if_pos]
    rw [List.all_eq_true]
    intro node hnode
    have hlookup := lookup_of_mem_bucket hnode
    rw [Option.isSome_iff_ne_none]
    intro hnull
    exact hvalues node.1 (by rw [hlookup, hnull])
  have hloop : ∀ (buckets : List (Fin workerHashTableBucketCount)) (totalItems : Nat),
      itemsLoop table totalItems buckets
        = .accept (totalItems + (buckets.map fun b => (table.chains b).length).sum) := by
    intro buckets
    induction buckets with
    | nil => intro totalItems; rfl
    | cons bucket rest ih =>
      intro totalItems
      simp only [itemsLoop, hitems, ih, List.map_cons, List.sum_cons, Nat.add_assoc]
  rw [getHashTableCount, hloop, Nat.zero_add, ChainedTable.length_keys]

/-- A key the map holds has a node in its bucket. -/
theorem exists_mem_bucket {table : HashTable} {key : CString} (h : lookup table key ≠ none) :
    ∃ node ∈ table.chains (hashFunction key), node.1 = key := by
  by_contra hnone
  push Not at hnone
  exact h (chainFind?_eq_none.mpr hnone)

end LoadBalancing.Worker
