/-
LoadBalancing.Worker.TableRefinement — the hash table of
`Worker/HashTable.c` is a finite map.

A sequence of calls is answered by the chains of the table; the same
sequence is answered by what was set so far, with no table at all:
`latest` under a key, and the number of distinct keys. `hashTable_refines`
says that the two agree call by call, wherever keys collide, and that
the table stays well formed: each node in the bucket `HashFunction`
names, no key twice.

Allocations succeed here; `setHashTable` and `getHashTable` have the
branches where they fail.

No `sorry`, no `axiom`, no `native_decide`.
-/
import Mathlib.Data.Finset.Card
import LoadBalancing.Base.KeyValue
import LoadBalancing.Worker.HashTable

namespace LoadBalancing.Worker

open LoadBalancing.Base LoadBalancing.Lib

/-! ## Calls -/

/-- A call of the hash table. -/
inductive HashTableCall where
  | setHashTable (key value : CString)
  | getHashTable (key : CString)
  | hasHashTable (key : CString)
  | getHashTableCount
  deriving DecidableEq

/-- What a call returns: the result of a set or a test, a copied value,
the count. -/
inductive HashTableAnswer where
  | result (result : Int)
  | value (value : Outcome (Option CString))
  | count (count : Outcome Nat)
  deriving DecidableEq

namespace HashTableCall

/-- The key a call is about. -/
def key? : HashTableCall → Option CString
  | .setHashTable key _ | .getHashTable key | .hasHashTable key => some key
  | .getHashTableCount => none

/-- Run one call. -/
def run (table : HashTable) : HashTableCall → HashTableAnswer × HashTable
  | .setHashTable key value =>
    (.result (Worker.setHashTable table key value true).1,
      (Worker.setHashTable table key value true).2)
  | .getHashTable key => (.value (Worker.getHashTable table key true), table)
  | .hasHashTable key => (.result (Worker.hasHashTable table key), table)
  | .getHashTableCount => (.count (Worker.getHashTableCount table), table)

/-- Run calls in order. -/
def runAll (table : HashTable) : List HashTableCall → List HashTableAnswer × HashTable
  | [] => ([], table)
  | call :: rest =>
    let (answer, table') := call.run table
    let (answers, table'') := runAll table' rest
    (answer :: answers, table'')

/-! ## The map

What the calls are to answer, from the calls alone. -/

/-- The entry a call sets. -/
def put? : HashTableCall → Option (Operation CString CString)
  | .setHashTable key value => some (.put key value)
  | _ => none

/-- The entries set by a sequence of calls, in order. -/
def puts (calls : List HashTableCall) : List (Operation CString CString) := calls.filterMap put?

theorem puts_append (calls : List HashTableCall) (call : HashTableCall) :
    puts (calls ++ [call]) = puts calls ++ (put? call).toList := by
  rw [puts, List.filterMap_append]
  cases hcall : put? call with
  | none => simp [puts, hcall]
  | some operation => simp [puts, hcall]

/-- The distinct keys set by a sequence of calls. -/
def keysSet (calls : List HashTableCall) : Finset CString :=
  ((puts calls).map Operation.key).toFinset

/-- The answer of a finite map behind the `earlier` calls. -/
def answer (earlier : List HashTableCall) : HashTableCall → HashTableAnswer
  | .setHashTable _ _ => .result 1
  | .getHashTable key => .value (.accept (latest key (puts earlier)))
  | .hasHashTable key => .result (if (latest key (puts earlier)).isSome then 1 else 0)
  | .getHashTableCount => .count (.accept (keysSet earlier).card)

/-- The answers of a finite map to calls in order. -/
def answers (earlier : List HashTableCall) : List HashTableCall → List HashTableAnswer
  | [] => []
  | call :: rest => call.answer earlier :: answers (earlier ++ [call]) rest

/-! ## A table and the calls so far -/

/-- A table holds what the calls have set. -/
def Holds (calls : List HashTableCall) (table : HashTable) : Prop :=
  ∀ key, lookup table key = (latest key (puts calls)).map some

theorem holds_initialize : Holds [] initializeHashTable := fun _ => rfl

section Holds

variable {calls : List HashTableCall} {table : HashTable}

/-- The keys of the table are the keys set. -/
theorem Holds.toFinset_keys (h : Holds calls table) : table.keys.toFinset = keysSet calls := by
  ext key
  rw [List.mem_toFinset, ChainedTable.mem_keys, keysSet, List.mem_toFinset]
  have hlookup : table.find? key = (latest key (puts calls)).map some := h key
  rw [hlookup, ne_eq, Option.map_eq_none_iff, latest_eq_none]
  constructor
  · intro hput
    by_contra hnever
    refine hput fun value hmem => hnever ?_
    exact List.mem_map.mpr ⟨_, hmem, rfl⟩
  · intro hmem hnever
    obtain ⟨operation, hop, hkey⟩ := List.mem_map.mp hmem
    cases operation with
    | put k value => exact hnever value (by rw [← hkey]; exact hop)
    | get k =>
      obtain ⟨call, -, hcall⟩ := List.mem_filterMap.mp hop
      cases call <;> cases hcall

theorem Holds.getHashTable (h : Holds calls table) {key : CString} (hkey : key ≠ CString.empty) :
    Worker.getHashTable table key true = .accept (latest key (puts calls)) := by
  rw [getHashTable_allocated hkey, h key]
  cases latest key (puts calls) <;> rfl

theorem Holds.hasHashTable (h : Holds calls table) {key : CString} (hkey : key ≠ CString.empty) :
    Worker.hasHashTable table key = if (latest key (puts calls)).isSome then 1 else 0 := by
  have hlookup : table.find? key = (latest key (puts calls)).map some := h key
  rw [Worker.hasHashTable, if_neg hkey, hlookup]
  cases latest key (puts calls) <;> rfl

theorem Holds.getHashTableCount (h : Holds calls table) :
    Worker.getHashTableCount table = .accept (keysSet calls).card := by
  have hvalues : ∀ key, lookup table key ≠ some none := by
    intro key hnull
    rw [h key] at hnull
    cases hlatest : latest key (puts calls) <;> rw [hlatest] at hnull <;> cases hnull
  rw [getHashTableCount_eq hvalues, ← h.toFinset_keys,
    List.toFinset_card_of_nodup table.nodup_keys]

/-- A call that sets nothing changes nothing. -/
theorem Holds.append (h : Holds calls table) {call : HashTableCall} (hcall : put? call = none) :
    Holds (calls ++ [call]) table := by
  intro key
  rw [puts_append, hcall, Option.toList_none, List.append_nil]
  exact h key

/-- **One call.** The table answers as the map does and holds what the
calls so far have set. -/
theorem Holds.run (h : Holds calls table) {call : HashTableCall}
    (hkey : ∀ key ∈ call.key?, key ≠ CString.empty) :
    (call.run table).1 = call.answer calls ∧ Holds (calls ++ [call]) (call.run table).2 := by
  cases call with
  | setHashTable key value =>
    have hne := hkey key rfl
    refine ⟨?_, ?_⟩
    · simp only [HashTableCall.run, answer, setHashTable_allocated hne]
    · intro k
      have hputs : puts (calls ++ [.setHashTable key value]) = puts calls ++ [.put key value] :=
        puts_append calls _
      simp only [HashTableCall.run]
      rw [lookup_setHashTable hne, hputs, latest_append_put, h k]
      split <;> rfl
  | getHashTable key =>
    refine ⟨?_, ?_⟩
    · simp only [HashTableCall.run, answer, h.getHashTable (hkey key rfl)]
    · exact h.append rfl
  | hasHashTable key =>
    refine ⟨?_, ?_⟩
    · simp only [HashTableCall.run, answer, h.hasHashTable (hkey key rfl)]
    · exact h.append rfl
  | getHashTableCount =>
    refine ⟨?_, ?_⟩
    · simp only [HashTableCall.run, answer, h.getHashTableCount]
    · exact h.append rfl

/-- **All calls**, by induction on the sequence. -/
theorem Holds.runAll (h : Holds calls table) {more : List HashTableCall}
    (hkeys : ∀ call ∈ more, ∀ key ∈ call.key?, key ≠ CString.empty) :
    (HashTableCall.runAll table more).1 = answers calls more ∧
      Holds (calls ++ more) (HashTableCall.runAll table more).2 := by
  induction more generalizing calls table with
  | nil =>
    rw [List.append_nil]
    exact ⟨rfl, h⟩
  | cons call rest ih =>
    have hone := h.run (hkeys call (List.mem_cons_self ..))
    have hrest := ih hone.2 fun c hc => hkeys c (List.mem_cons_of_mem _ hc)
    rw [List.append_assoc, List.singleton_append] at hrest
    refine ⟨?_, hrest.2⟩
    simp only [HashTableCall.runAll, answers, hone.1, hrest.1]

end Holds

end HashTableCall

open HashTableCall in
/-- **The hash table refines a finite map.** Every sequence of calls with
keys that are not empty is answered as the map answers it, and leaves a
table with each node in the bucket of its key and no key twice, whose
answers are those of the map and where a set changes the answers for no
other key. -/
theorem hashTable_refines (calls : List HashTableCall)
    (hkeys : ∀ call ∈ calls, ∀ key ∈ call.key?, key ≠ CString.empty) :
    (runAll initializeHashTable calls).1 = answers [] calls ∧
    (∀ (bucket : Fin workerHashTableBucketCount),
      ∀ node ∈ (runAll initializeHashTable calls).2.chains bucket,
        hashFunction node.1 = bucket) ∧
    (runAll initializeHashTable calls).2.keys.Nodup ∧
    (∀ key, key ≠ CString.empty →
      getHashTable (runAll initializeHashTable calls).2 key true
          = .accept (latest key (puts calls)) ∧
        hasHashTable (runAll initializeHashTable calls).2 key
          = if (latest key (puts calls)).isSome then 1 else 0) ∧
    (∀ key value other, key ≠ CString.empty → other ≠ key →
      getHashTable (setHashTable (runAll initializeHashTable calls).2 key value true).2 other true
          = getHashTable (runAll initializeHashTable calls).2 other true ∧
        hasHashTable (setHashTable (runAll initializeHashTable calls).2 key value true).2 other
          = hasHashTable (runAll initializeHashTable calls).2 other) ∧
    getHashTableCount (runAll initializeHashTable calls).2 = .accept (keysSet calls).card := by
  obtain ⟨hanswers, hholds⟩ := holds_initialize.runAll hkeys
  rw [List.nil_append] at hholds
  refine ⟨hanswers, ?_, ?_, ?_, ?_, hholds.getHashTableCount⟩
  · intro bucket node hnode
    exact (runAll initializeHashTable calls).2.placed bucket node hnode
  · exact (runAll initializeHashTable calls).2.nodup_keys
  · intro key hkey
    exact ⟨hholds.getHashTable hkey, hholds.hasHashTable hkey⟩
  · intro key value other hkey hother
    have hlookup := lookup_setHashTable hkey (runAll initializeHashTable calls).2 value other
    rw [if_neg hother] at hlookup
    simp only [lookup] at hlookup
    simp only [getHashTable, hasHashTable, hlookup, and_self]

open HashTableCall in
/-- Three keys in one bucket, one of them set twice. -/
theorem hashTable_refines_collision :
    (runAll initializeHashTable
      [.setHashTable (.ofString "A") (.ofString "1"), .setHashTable (.ofString "a") .empty,
        .setHashTable (.ofBuffer [0xE1]) (.ofString "2"),
        .setHashTable (.ofString "A") (.ofString "3"), .getHashTable (.ofString "A"),
        .hasHashTable (.ofString "b"), .getHashTableCount]).1
      = [.result 1, .result 1, .result 1, .result 1, .value (.accept (some (.ofString "3"))),
        .result 0, .count (.accept 3)] :=
  (hashTable_refines _ (by decide)).1.trans (by decide)

end LoadBalancing.Worker
