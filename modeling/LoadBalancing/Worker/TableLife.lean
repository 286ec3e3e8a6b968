/-
LoadBalancing.Worker.TableLife — the life of a hash table, from
`InitializeHashTable` to `DestroyHashTable`.

`hashTable_memory` says that a table uses its memory properly over its
whole life: no cell is read before it is written, nothing is used after
or freed twice, and nothing is left. The one fault there is comes from
`SetHashTable`, which leaves a node without a value when it cannot
allocate a new one; the next call that reads the value goes through NULL.
`getHashTableStats_memory` says that the figure the operator and the peers
see is what is allocated.

No `sorry`, no `axiom`, no `native_decide`.
-/
import Mathlib.Algebra.BigOperators.Group.Multiset.Basic
import LoadBalancing.Worker.TableCalls

namespace LoadBalancing.Worker.TableHeap

open LoadBalancing.Base LoadBalancing.Lib
open LoadBalancing.Base.Program (Triple)
open LoadBalancing.Worker.TableFailures (SetCall)

/-! ## `GetHashTableStats` -/

/-- What `GetHashTableStats` adds for an entry. -/
def entrySize (sizes : Sizes) (entry : DataNode) : Nat :=
  sizes.dataNode + (entry.1.strlen + 1) + entry.2.elim 0 fun value => value.strlen + 1

/-- For a chain. -/
def chainSize (sizes : Sizes) (chain : List DataNode) : Nat := (chain.map (entrySize sizes)).sum

/-- For a table without entries. -/
def emptySize (sizes : Sizes) : Nat :=
  sizes.hashTable + workerHashTableBucketCount * sizes.pointer
    + workerHashTableBucketCount * sizes.criticalSection

/-- **The size of a table**, entry by entry. -/
def tableSize (sizes : Sizes) (table : HashTable) : Nat :=
  emptySize sizes +
    ((List.finRange workerHashTableBucketCount).map fun b => chainSize sizes (table.chains b)).sum

/-- The size of a block. -/
def blockSize (sizes : Sizes) : Block → Nat
  | .hashTable _ _ => sizes.hashTable
  | .buckets _ => workerHashTableBucketCount * sizes.pointer
  | .locks _ => workerHashTableBucketCount * sizes.criticalSection
  | .dataNode _ => sizes.dataNode
  | .text size _ => size

/-- The size of all blocks. -/
def allocatedSize (sizes : Sizes) (owned : Multiset (Nat × Block)) : Nat :=
  (owned.map fun p => blockSize sizes p.2).sum

/-- A `DataNode`. -/
def Block.isNode : Block → Bool
  | .dataNode _ => true
  | _ => false

/-- How many nodes there are. -/
def nodeCount (owned : Multiset (Nat × Block)) : Nat := owned.countP fun p => p.2.isNode

section Stats

variable {sizes : Sizes} {owned : Multiset (Nat × Block)}

theorem allocatedSize_add (blocks more : Multiset (Nat × Block)) :
    allocatedSize sizes (blocks + more) =
      allocatedSize sizes blocks + allocatedSize sizes more := by
  rw [allocatedSize, Multiset.map_add, Multiset.sum_add]
  rfl

@[simp] theorem allocatedSize_singleton (p : Nat × Block) :
    allocatedSize sizes {p} = blockSize sizes p.2 := by
  simp [allocatedSize]

theorem allocatedSize_chainCells (xs : List NodeAt) :
    allocatedSize sizes (chainCells xs) = chainSize sizes (xs.map NodeAt.node) := by
  induction xs with
  | nil => rfl
  | cons n rest ih =>
    have hvalue : allocatedSize sizes n.valueCells =
        (n.value.map Prod.snd).elim 0 fun value => value.strlen + 1 := by
      unfold NodeAt.valueCells
      cases n.value with
      | none => rfl
      | some v => exact allocatedSize_singleton _
    simp only [chainCells, NodeAt.cells, allocatedSize_add, allocatedSize_singleton, ih, hvalue,
      chainSize, entrySize, List.map_cons, List.sum_cons]
    simp only [NodeAt.block, NodeAt.node, blockSize, textBlock]
    omega

/-- The blocks of a table add up to its size. -/
theorem allocatedSize_of_represents {address : Nat} {table : HashTable}
    (h : Represents address table owned) : allocatedSize sizes owned = tableSize sizes table := by
  obtain ⟨L, -, hof, rfl⟩ := h
  have hchains : ∀ bs : List Bucket, allocatedSize sizes (L.chains bs) =
      (bs.map fun b => chainSize sizes (table.chains b)).sum := by
    intro bs
    induction bs with
    | nil => rfl
    | cons b rest ih =>
      have hsplit : L.chains (b :: rest) = chainCells (L.nodes b) + L.chains rest := rfl
      rw [hsplit, allocatedSize_add, ih, allocatedSize_chainCells, hof, List.map_cons,
        List.sum_cons]
  simp only [Layout.cells, Layout.cellsAt, Layout.frame, allocatedSize_add,
    allocatedSize_singleton, hchains, tableSize, emptySize, blockSize, Nat.add_assoc]

theorem nodeCount_chainCells (xs : List NodeAt) : nodeCount (chainCells xs) = xs.length := by
  induction xs with
  | nil => rfl
  | cons n rest ih =>
    have hvalue : nodeCount n.valueCells = 0 := by
      unfold NodeAt.valueCells
      cases n.value <;> rfl
    simp only [chainCells, NodeAt.cells, nodeCount, Multiset.countP_add] at ih hvalue ⊢
    rw [ih, hvalue, List.length_cons, Nat.add_zero, Nat.add_comm]
    rfl

/-- The count of the list model is the number of nodes. -/
theorem nodeCount_of_represents {address : Nat} {table : HashTable}
    (h : Represents address table owned) {items : Nat}
    (hcount : getHashTableCount table = .accept items) : nodeCount owned = items := by
  obtain ⟨L, -, hof, rfl⟩ := h
  have hloop : ∀ (bs : List Bucket) (total : Nat), itemsLoop table total bs = .accept items →
      total + nodeCount (L.chains bs) = items := by
    intro bs
    induction bs with
    | nil =>
      intro total htotal
      cases htotal
      rfl
    | cons b rest ih =>
      intro total htotal
      have hsplit : L.chains (b :: rest) = chainCells (L.nodes b) + L.chains rest := rfl
      have hchain : bucketItems table b = .accept (L.nodes b).length ∨
          bucketItems table b = .fault := by
        rw [bucketItems, ← hof, List.length_map]
        split
        · exact Or.inl rfl
        · exact Or.inr rfl
      rcases hchain with haccept | hfault
      · simp only [itemsLoop, haccept] at htotal
        rw [← ih _ htotal, hsplit, nodeCount, Multiset.countP_add, ← Nat.add_assoc,
          ← nodeCount_chainCells]
        rfl
      · simp only [itemsLoop, hfault] at htotal
        cases htotal
  have hframe : nodeCount (L.frame (fun _ => .unlocked) L.heads) = 0 := rfl
  rw [Layout.cells, Layout.cellsAt, nodeCount, Multiset.countP_add]
  rw [nodeCount] at hframe
  rw [hframe]
  exact hloop _ 0 hcount

/-- The inner loop. It faults at a node without a value. -/
theorem statsChain_triple {xs : List NodeAt} (hxs : chainCells xs ≤ owned) {fuel : Nat}
    (hfuel : xs.length < fuel) (totals : UInt32 × Nat) :
    Triple owned (statsChain sizes fuel (headOf xs) totals) (∃ n ∈ xs, n.value = none)
      fun totals' owned' => owned' = owned ∧ (∀ n ∈ xs, n.value ≠ none) ∧
        totals' = (totals.1 + UInt32.ofNat (chainSize sizes (xs.map NodeAt.node)),
          totals.2 + xs.length) := by
  induction xs generalizing fuel totals with
  | nil =>
    obtain ⟨fuel, rfl⟩ := Nat.exists_eq_succ_of_ne_zero (Nat.ne_of_gt hfuel)
    simp only [headOf, statsChain, if_true]
    exact Triple.pure ⟨rfl, by simp, by simp [chainSize]⟩
  | cons n rest ih =>
    obtain ⟨fuel, rfl⟩ := Nat.exists_eq_succ_of_ne_zero (Nat.ne_zero_of_lt hfuel)
    simp only [headOf, statsChain, reduceCtorEq, if_false]
    refine triple_loadNode (block_mem hxs) (triple_loadText (key_mem hxs) ?_)
    cases hvalue : n.value with
    | none =>
      simp only [NodeAt.valuePointer, hvalue, Option.elim_none]
      exact Triple.fault_bind ⟨n, List.mem_cons_self .., hvalue⟩
    | some v =>
      have htext : (v.1, textBlock v.2) ∈ owned :=
        Multiset.mem_of_le hxs (by simp [chainCells, NodeAt.cells, NodeAt.valueCells, hvalue])
      simp only [NodeAt.valuePointer, hvalue, Option.elim_some]
      refine triple_loadText htext ?_
      refine (ih (chainCells_tail_le hxs) (Nat.lt_of_succ_lt_succ hfuel) _).mono ?_ ?_
      · rintro ⟨m, hm, hnone⟩
        exact ⟨m, List.mem_cons_of_mem _ hm, hnone⟩
      · rintro totals' owned' ⟨rfl, hvalues, rfl⟩
        refine ⟨rfl, List.forall_mem_cons.mpr ⟨by simp [hvalue], hvalues⟩, ?_⟩
        simp only [List.map_cons, chainSize, List.sum_cons, entrySize, NodeAt.node, hvalue,
          Option.map_some, Option.elim_some, UInt32.ofNat_add, List.length_cons, Prod.mk.injEq]
        refine ⟨?_, by omega⟩
        simp only [UInt32.add_assoc]

/-- The outer loop, which counts as the list model does. -/
theorem statsBuckets_triple {L : Layout} {table : HashTable} (hof : L.Of table)
    (bs : List Bucket) (totals : UInt32 × Nat) :
    Triple L.cells (statsBuckets sizes (.to L.buckets) (.to L.locks) bs totals)
      (itemsLoop table totals.2 bs = .fault) fun totals' owned' =>
        owned' = L.cells ∧ itemsLoop table totals.2 bs = .accept totals'.2 ∧
          totals'.1 = totals.1 + UInt32.ofNat
            (bs.map fun b => chainSize sizes (table.chains b)).sum := by
  induction bs generalizing totals with
  | nil => exact Triple.pure ⟨rfl, rfl, by simp⟩
  | cons b rest ih =>
    refine triple_enter (triple_loadHead (L.buckets_mem _) (Triple.addresses fun fuel hfuel => ?_))
    have hle := L.chain_le (heldAt b) b
    have hfuel' : (L.nodes b).length < fuel + 1 := by
      have hcard := Multiset.card_le_card hle
      have hlength := length_le_card (L.nodes b)
      omega
    have hitems : (∀ n ∈ L.nodes b, n.value ≠ none) →
        bucketItems table b = .accept (L.nodes b).length := by
      intro hvalues
      rw [bucketItems, ← hof, if_pos, List.length_map]
      rw [List.all_eq_true]
      intro entry hentry
      obtain ⟨n, hn, rfl⟩ := List.mem_map.mp hentry
      rw [NodeAt.node, Option.isSome_map, Option.isSome_iff_ne_none]
      exact hvalues n hn
    have hfault : (∃ n ∈ L.nodes b, n.value = none) → bucketItems table b = .fault := by
      rintro ⟨n, hn, hnone⟩
      rw [bucketItems, ← hof, if_neg]
      rw [List.all_eq_true]
      intro hall
      have hsome := hall n.node (List.mem_map.mpr ⟨n, hn, rfl⟩)
      rw [NodeAt.node, hnone] at hsome
      cases hsome
    refine ((statsChain_triple hle hfuel' totals).mono ?_ fun _ _ h => h).bind ?_
    · intro hnone
      simp only [itemsLoop, hfault hnone]
    · rintro totals' owned' ⟨rfl, hvalues, rfl⟩
      refine triple_leave rfl ?_
      rw [hof b]
      simp only [itemsLoop, hitems hvalues, List.map_cons, List.sum_cons, UInt32.ofNat_add,
        ← UInt32.add_assoc]
      exact ih _

/-- **`GetHashTableStats`** reports the size of all blocks the table owns, as
a 32-bit number, and the number of entries. -/
theorem getHashTableStats_triple {address : Nat} {table : HashTable}
    (h : Represents address table owned) :
    Triple owned (getHashTableStats sizes (.to address)) (getHashTableCount table = .fault)
      fun totals owned' => owned' = owned ∧ getHashTableCount table = .accept totals.2 ∧
        totals.1 = UInt32.ofNat (tableSize sizes table) := by
  obtain ⟨L, rfl, hof, rfl⟩ := h
  simp only [getHashTableStats, reduceCtorEq, if_false]
  refine triple_loadTable (L.table_mem _) ?_
  refine (statsBuckets_triple hof _ _).mono id ?_
  rintro totals owned' ⟨rfl, hcount, husage⟩
  refine ⟨rfl, hcount, ?_⟩
  rw [husage, tableSize, UInt32.ofNat_add (emptySize sizes)]
  rfl

end Stats

/-! ## `InitializeHashTable` -/

/-- The loop initialises each critical section once. -/
theorem initializeLocks_triple {locks : Nat} {bs : List Bucket} (hnodup : bs.Nodup)
    {sections : Bucket → Section} (hraw : ∀ b ∈ bs, sections b = .uninitialised) {faults : Prop} :
    Triple {(locks, .locks sections)} (initializeLocks (.to locks) bs) faults fun _ owned =>
      owned = {(locks, .locks fun b => if b ∈ bs then .unlocked else sections b)} := by
  induction bs generalizing sections with
  | nil => exact Triple.pure (by simp)
  | cons i rest ih =>
    rw [List.nodup_cons] at hnodup
    refine triple_switchSection (add_zero _).symm (hraw i (List.mem_cons_self ..)) ?_
    rw [add_zero]
    have hrest : ∀ b ∈ rest, Function.update sections i Section.unlocked b = .uninitialised := by
      intro b hb
      have hne : b ≠ i := fun h => hnodup.1 (h ▸ hb)
      rw [Function.update_of_ne hne]
      exact hraw b (List.mem_cons_of_mem _ hb)
    refine (ih hnodup.2 hrest).mono id ?_
    rintro - owned rfl
    congr 4
    funext b
    by_cases hb : b = i
    · simp [hb]
    · simp [hb]

/-- **`InitializeHashTable`** makes an empty table, or leaves nothing behind. -/
theorem initializeHashTable_triple (answers : Nat → Bool) {faults : Prop} :
    Triple 0 (initializeHashTable answers) faults fun made owned =>
      if answers 0 && answers 1 && answers 2 then
        ∃ address, made = (0, some (.to address)) ∧
          Represents address Worker.initializeHashTable owned
      else made = (-1, none) ∧ owned = 0 := by
  refine triple_malloc (fun htable table => ?_) (fun htable => ?_)
  · simp only [reduceCtorEq, if_false]
    refine triple_malloc (fun hbuckets buckets => ?_) (fun hbuckets => ?_)
    · refine Triple.store (add_left_comm _ _ _) ?_
      simp only [reduceCtorEq, if_false]
      refine triple_malloc (fun hlocks locks => ?_) (fun hlocks => ?_)
      · refine Triple.store (add_left_comm _ _ _) ?_
        simp only [reduceCtorEq, if_false]
        have hinit : Triple {(locks, .locks fun _ => .uninitialised)}
            (initializeLocks (.to locks) (List.finRange workerHashTableBucketCount)) faults _ :=
          initializeLocks_triple (List.nodup_finRange _) fun _ _ => rfl
        refine hinit.call (add_left_comm _ _ _) ?_
        rintro - owned rfl
        refine Triple.pure ?_
        simp only [htable, hbuckets, hlocks, Bool.and_self, if_true]
        refine ⟨table, rfl, ⟨table, buckets, locks, fun _ => []⟩, rfl, fun _ => rfl, ?_⟩
        have hchains : Layout.chains ⟨table, buckets, locks, fun _ => []⟩
            (List.finRange workerHashTableBucketCount) = 0 := by
          simp [Layout.chains, chainCells]
        simp only [Layout.cells, Layout.cellsAt, Layout.frame, hchains, List.mem_finRange, if_true]
        rw [add_left_comm, add_zero, add_zero, add_comm {(locks, _)}]
        rfl
      · refine Triple.store rfl ?_
        simp only [if_true]
        refine triple_free (add_left_comm _ _ _) (triple_free rfl ?_)
        exact Triple.pure (by simp [hlocks])
    · refine Triple.store rfl ?_
      simp only [if_true]
      exact triple_free rfl (Triple.pure (by simp [hbuckets]))
  · simp only [if_true]
    exact Triple.pure (by simp [htable])

/-! ## `DestroyHashTable` -/

/-- The inner loop frees the nodes of a chain with their keys and values. -/
theorem destroyChain_triple {xs : List NodeAt} {fuel : Nat} (hfuel : xs.length < fuel)
    {faults : Prop} :
    Triple (chainCells xs) (destroyChain fuel (headOf xs)) faults fun _ owned => owned = 0 := by
  induction xs generalizing fuel with
  | nil =>
    obtain ⟨fuel, rfl⟩ := Nat.exists_eq_succ_of_ne_zero (Nat.ne_of_gt hfuel)
    simp only [headOf, destroyChain, if_true]
    exact Triple.pure rfl
  | cons n rest ih =>
    obtain ⟨fuel, rfl⟩ := Nat.exists_eq_succ_of_ne_zero (Nat.ne_zero_of_lt hfuel)
    simp only [headOf, destroyChain, reduceCtorEq, if_false]
    refine triple_loadNode (block_mem le_rfl) ?_
    have hcells : chainCells (n :: rest) = {(n.keyAddress, textBlock n.key)} +
        ({n.block (headOf rest)} + (n.valueCells + chainCells rest)) := by
      rw [chainCells]
      unfold NodeAt.cells
      abel
    simp only [freeCell, reduceCtorEq, if_false, bind_assoc]
    refine triple_free hcells (triple_updateNode rfl ?_)
    have hrest := ih (Nat.lt_of_succ_lt_succ hfuel)
    unfold NodeAt.valueCells NodeAt.valuePointer
    cases n.value with
    | none =>
      simp only [Option.elim_none, if_true, pure_bind, zero_add]
      exact triple_free rfl hrest
    | some v =>
      simp only [Option.elim_some, reduceCtorEq, if_false, bind_assoc]
      refine triple_free (add_left_comm _ _ _) (triple_updateNode rfl ?_)
      exact triple_free rfl hrest

/-- The critical sections of a frame among other blocks. -/
theorem Layout.frame_locks (L : Layout) (sections : Bucket → Section)
    (extra : Multiset (Nat × Block)) :
    L.frame sections L.heads + extra = {(L.locks, .locks sections)} +
      ({(L.table, .hashTable (.to L.buckets) (.to L.locks))} + ({(L.buckets, .buckets L.heads)}
        + extra)) := by
  unfold Layout.frame
  abel

/-- The outer loop leaves the table and its arrays. -/
theorem destroyBuckets_triple (L : Layout) {bs : List Bucket} (hnodup : bs.Nodup)
    {sections : Bucket → Section} (hsections : ∀ b ∈ bs, sections b = .unlocked) {faults : Prop} :
    Triple (L.frame sections L.heads + L.chains bs)
      (destroyBuckets (.to L.buckets) (.to L.locks) bs) faults fun _ owned =>
        ∃ sections', owned = L.frame sections' L.heads := by
  induction bs generalizing sections with
  | nil => exact Triple.pure ⟨sections, by simp [Layout.chains]⟩
  | cons i rest ih =>
    rw [List.nodup_cons] at hnodup
    have hsplit : L.chains (i :: rest) = chainCells (L.nodes i) + L.chains rest := rfl
    rw [hsplit]
    refine triple_switchSection (L.frame_locks _ _) (hsections i (List.mem_cons_self ..)) ?_
    rw [← L.frame_locks]
    have hbuckets : ∀ f extra, (L.buckets, .buckets L.heads) ∈ L.frame f L.heads + extra := by
      simp [Layout.frame]
    refine triple_loadHead (hbuckets _ _) (Triple.addresses fun fuel hfuel => ?_)
    have hlength : (L.nodes i).length < fuel + 1 := by
      have hnodes := length_le_card (L.nodes i)
      simp only [Multiset.card_add] at hfuel
      omega
    refine (destroyChain_triple hlength).call (add_left_comm _ _ _) ?_
    rintro - owned rfl
    rw [zero_add]
    refine triple_switchSection (L.frame_locks _ _) (Function.update_self ..) ?_
    refine triple_switchSection rfl (Function.update_self ..) ?_
    rw [← L.frame_locks]
    refine ih hnodup.2 fun b hb => ?_
    have hne : b ≠ i := fun h => hnodup.1 (h ▸ hb)
    simp only [Function.update_of_ne hne]
    exact hsections b (List.mem_cons_of_mem _ hb)

/-- **`DestroyHashTable`** frees every block of a table, once. -/
theorem destroyHashTable_triple {address : Nat} {table : HashTable}
    {owned : Multiset (Nat × Block)} (h : Represents address table owned) {faults : Prop} :
    Triple owned (destroyHashTable (.to address)) faults fun result owned' =>
      result = 0 ∧ owned' = 0 := by
  obtain ⟨L, rfl, -, rfl⟩ := h
  simp only [destroyHashTable, reduceCtorEq, if_false]
  refine triple_loadTable (L.table_mem _) ?_
  refine (destroyBuckets_triple L (List.nodup_finRange _) fun _ _ => rfl).bind ?_
  rintro - owned ⟨sections, rfl⟩
  unfold Layout.frame
  refine triple_free (add_left_comm _ _ _) (triple_free (add_comm _ _) ?_)
  exact triple_free (add_zero _).symm (Triple.pure ⟨rfl, rfl⟩)

/-! ## Calls and whole lives -/

/-- What the list model answers to a call: `none` where it reads a NULL
value. -/
def Call.listRun (sizes : Sizes) (table : HashTable) : Call → Option (Answer × HashTable)
  | .set call => some (.result (TableFailures.setHashTable table call).1,
      (TableFailures.setHashTable table call).2)
  | .has key => some (.result (key.elim (-1) (Worker.hasHashTable table)), table)
  | .retrieve key answer =>
    if Worker.getHashTable table key answer = .fault then none
    else some (.value (valueOf (Worker.getHashTable table key answer)), table)
  | .stats =>
    match getHashTableCount table with
    | .accept items => some (.stats (UInt32.ofNat (tableSize sizes table)) items, table)
    | _ => none

/-- Calls one behind the other. -/
def listRunAll (sizes : Sizes) (table : HashTable) : List Call → Option (List Answer × HashTable)
  | [] => some ([], table)
  | call :: rest => do
    let (answer, table') ← call.listRun sizes table
    let (answers, table'') ← listRunAll sizes table' rest
    pure (answer :: answers, table'')

section Runs

variable {sizes : Sizes} {address : Nat} {table : HashTable} {owned : Multiset (Nat × Block)}

/-- **One call.** The heap answers as the lists do and goes on representing
them. -/
theorem run_triple (h : Represents address table owned) (call : Call) :
    Triple owned (call.run sizes (.to address)) (call.listRun sizes table = none)
      fun answer owned' => ∃ table', call.listRun sizes table = some (answer, table') ∧
        Represents address table' owned' := by
  cases call with
  | set call =>
    refine (setHashTable_triple h call).bind ?_
    rintro result owned' ⟨rfl, h'⟩
    exact Triple.pure ⟨_, rfl, h'⟩
  | has key =>
    refine (hasHashTable_triple h key).bind ?_
    rintro result owned' ⟨rfl, rfl⟩
    exact Triple.pure ⟨_, rfl, h⟩
  | retrieve key answer =>
    refine ((retrieve_triple h key answer).mono ?_ fun _ _ hpost => hpost).bind ?_
    · intro hfault
      simp [Call.listRun, hfault]
    · rintro value owned' ⟨hne, rfl, rfl⟩
      exact Triple.pure ⟨table, by simp [Call.listRun, hne], h⟩
  | stats =>
    refine ((getHashTableStats_triple h).mono ?_ fun _ _ hpost => hpost).bind ?_
    · intro hfault
      simp [Call.listRun, hfault]
    · rintro totals owned' ⟨rfl, hcount, husage⟩
      exact Triple.pure ⟨table, by simp [Call.listRun, hcount, husage], h⟩

/-- **All calls**, by induction on them. -/
theorem runAll_triple (h : Represents address table owned) (calls : List Call) :
    Triple owned (runAll sizes (.to address) calls) (listRunAll sizes table calls = none)
      fun answers owned' => ∃ table', listRunAll sizes table calls = some (answers, table') ∧
        Represents address table' owned' := by
  induction calls generalizing table owned with
  | nil => exact Triple.pure ⟨table, rfl, h⟩
  | cons call rest ih =>
    refine ((run_triple h call).mono ?_ fun _ _ hpost => hpost).bind ?_
    · intro hnone
      simp [listRunAll, hnone]
    · rintro answer owned' ⟨table', hrun, h'⟩
      refine ((ih h').mono ?_ fun _ _ hpost => hpost).bind ?_
      · intro hnone
        simp [listRunAll, hrun, hnone]
      · rintro answers owned'' ⟨table'', hrest, h''⟩
        exact Triple.pure ⟨table'', by simp [listRunAll, hrun, hrest], h''⟩

/-- **A whole life** leaves nothing behind. -/
theorem life_triple (sizes : Sizes) (answers : Nat → Bool) (calls : List Call) :
    Triple 0 (life sizes answers calls)
      ((answers 0 && answers 1 && answers 2) = true ∧
        listRunAll sizes Worker.initializeHashTable calls = none)
      fun result owned => owned = 0 ∧
        if answers 0 && answers 1 && answers 2 then
          ∃ answered table, listRunAll sizes Worker.initializeHashTable calls =
            some (answered, table) ∧ result = some (answered, 0)
        else result = none := by
  refine (initializeHashTable_triple answers).bind fun made owned hmade => ?_
  by_cases hall : (answers 0 && answers 1 && answers 2) = true
  · rw [if_pos hall] at hmade
    obtain ⟨address, rfl, h⟩ := hmade
    simp only [ne_eq, not_true_eq_false, if_false, Option.getD_some]
    refine ((runAll_triple h calls).mono (fun hnone => ⟨hall, hnone⟩) fun _ _ h => h).bind ?_
    rintro answered owned' ⟨table, hrun, h'⟩
    refine (destroyHashTable_triple h').bind ?_
    rintro result owned'' ⟨rfl, rfl⟩
    refine Triple.pure ⟨rfl, ?_⟩
    rw [if_pos hall]
    exact ⟨answered, table, hrun, rfl⟩
  · rw [if_neg hall] at hmade
    obtain ⟨rfl, rfl⟩ := hmade
    refine Triple.pure ⟨rfl, ?_⟩
    rw [if_neg hall]

end Runs

/-! ## Where no value is lost -/

/-- The call of `SetHashTable` in a call. -/
def Call.set? : Call → Option SetCall
  | .set call => some call
  | _ => none

/-- The calls of `SetHashTable` in a run. -/
def setsOf (calls : List Call) : List SetCall := calls.filterMap Call.set?

/-- The list model reads no NULL value while every key has one. -/
theorem listRunAll_of_complete (sizes : Sizes) {table : HashTable}
    (hcomplete : TableFailures.Complete table) {calls : List Call}
    (hmemory : Along TableFailures.step (fun table call => ¬ TableFailures.UpdateFails table call)
      table (setsOf calls)) : listRunAll sizes table calls ≠ none := by
  induction calls generalizing table with
  | nil => simp [listRunAll]
  | cons call rest ih =>
    have hvalues := TableFailures.complete_iff.mp hcomplete
    have hnext : ∃ answer table', call.listRun sizes table = some (answer, table') ∧
        TableFailures.Complete table' ∧
        Along TableFailures.step (fun table call => ¬ TableFailures.UpdateFails table call)
          table' (setsOf rest) := by
      cases call with
      | set call =>
        rw [setsOf, List.filterMap_cons_some (f := Call.set?) rfl] at hmemory
        exact ⟨_, _, rfl, TableFailures.complete_setHashTable hcomplete hmemory.1, hmemory.2⟩
      | has key => exact ⟨_, _, rfl, hcomplete, hmemory⟩
      | retrieve key answer =>
        have hne : Worker.getHashTable table key answer ≠ .fault := by
          unfold Worker.getHashTable
          by_cases hkey : key = CString.empty
          · simp [hkey]
          · cases hfind : table.find? key with
            | none => simp [hkey]
            | some value =>
              cases value with
              | none => exact absurd hfind (hvalues key)
              | some value => cases answer <;> simp [hkey]
        exact ⟨_, table, by rw [Call.listRun, if_neg hne], hcomplete, hmemory⟩
      | stats =>
        exact ⟨_, table, by rw [Call.listRun, getHashTableCount_eq hvalues], hcomplete, hmemory⟩
    obtain ⟨answer, table', hrun, hcomplete', hmemory'⟩ := hnext
    obtain ⟨⟨answers, table''⟩, hrest⟩ := Option.ne_none_iff_exists'.mp (ih hcomplete' hmemory')
    simp [listRunAll, hrun, hrest]

/-- **The hash table uses its memory properly.** For every outcome of every
`malloc` and every sequence of calls from `InitializeHashTable` to
`DestroyHashTable`: there is a fault exactly where the list model reads the
NULL value of a failed update, so there is none where no update fails;
otherwise the answers are those of the list model, and the memory holds
what it held before, block by block. -/
theorem hashTable_memory (sizes : Sizes) (answers : Nat → Bool) (calls : List Call)
    {m : Memory Block} {rest : Multiset (Nat × Block)} (hm : m.Holds rest) :
    (life sizes answers calls m = none ↔ (answers 0 && answers 1 && answers 2) = true ∧
      listRunAll sizes Worker.initializeHashTable calls = none) ∧
    (Along TableFailures.step (fun table call => ¬ TableFailures.UpdateFails table call)
      Worker.initializeHashTable (setsOf calls) → life sizes answers calls m ≠ none) ∧
    ∀ result m', life sizes answers calls m = some (result, m') →
      m'.Holds rest ∧ result =
        if answers 0 && answers 1 && answers 2 then
          (listRunAll sizes Worker.initializeHashTable calls).map fun run => (run.1, 0)
        else none := by
  rw [← zero_add rest] at hm
  have hrun := (life_triple sizes answers calls).run ?_ hm
  · refine ⟨hrun.1, ?_, ?_⟩
    · intro hmemory hnone
      exact listRunAll_of_complete sizes TableFailures.complete_initializeHashTable hmemory
        (hrun.1.mp hnone).2
    · intro result m' hsome
      obtain ⟨owned, hm', rfl, hresult⟩ := hrun.2 result m' hsome
      rw [zero_add] at hm'
      refine ⟨hm', ?_⟩
      by_cases hall : (answers 0 && answers 1 && answers 2) = true
      · rw [if_pos hall] at hresult ⊢
        obtain ⟨answered, table, hlist, rfl⟩ := hresult
        rw [hlist]
        rfl
      · rw [if_neg hall] at hresult ⊢
        exact hresult
  · rintro result owned ⟨-, hresult⟩ ⟨hall, hnone⟩
    rw [if_pos hall] at hresult
    obtain ⟨answered, table, hlist, -⟩ := hresult
    rw [hnone] at hlist
    cases hlist

/-- The run that `hashTable_memory` excludes: an update fails, and the key is
read. -/
theorem hashTable_memory_lost_value :
    life ⟨24, 8, 40, 24⟩ (fun _ => true)
      [.set ⟨some (.ofString "k"), some (.ofString "old"), fun _ => true⟩,
        .set TableFailures.outOfMemory, .retrieve (.ofString "k") true] Memory.empty = none :=
  (hashTable_memory _ _ _ Memory.holds_empty).1.mpr
    ⟨rfl, Option.isNone_iff_eq_none.mp (by decide +kernel)⟩

/-! ## What is reported -/

/-- `GetHashTableStats` behind some calls: `none` where there is no memory
for the table. -/
def report (sizes : Sizes) (answers : Nat → Bool) (calls : List Call) :
    Heap (Option (UInt32 × Nat)) := do
  let (result, written) ← initializeHashTable answers
  if result ≠ 0 then pure none
  else do
    let table := written.getD .null
    let _ ← runAll sizes table calls
    let totals ← getHashTableStats sizes table
    pure (some totals)

/-- The list model runs calls in two parts. -/
theorem listRunAll_append (sizes : Sizes) (table : HashTable) (calls more : List Call) :
    listRunAll sizes table (calls ++ more) =
      (listRunAll sizes table calls).bind fun first =>
        (listRunAll sizes first.2 more).map fun second => (first.1 ++ second.1, second.2) := by
  induction calls generalizing table with
  | nil => simp [listRunAll]
  | cons call rest ih =>
    simp only [List.cons_append, listRunAll, ih]
    cases call.listRun sizes table with
    | none => rfl
    | some run =>
      simp only [Option.bind_eq_bind, Option.bind_some]
      cases listRunAll sizes run.2 rest with
      | none => rfl
      | some run' =>
        cases hmore : listRunAll sizes run'.2 more <;> simp [hmore]

/-- **The report** of a table, for the blocks it has. -/
theorem report_triple (sizes : Sizes) (answers : Nat → Bool) (calls : List Call) :
    Triple 0 (report sizes answers calls)
      (listRunAll sizes Worker.initializeHashTable (calls ++ [.stats]) = none)
      fun reported owned => reported =
        if answers 0 && answers 1 && answers 2 then
          some (UInt32.ofNat (allocatedSize sizes owned), nodeCount owned)
        else none := by
  refine (initializeHashTable_triple answers).bind fun made owned hmade => ?_
  by_cases hall : (answers 0 && answers 1 && answers 2) = true
  · rw [if_pos hall] at hmade
    obtain ⟨address, rfl, h⟩ := hmade
    simp only [ne_eq, not_true_eq_false, if_false, Option.getD_some, if_pos hall]
    refine ((runAll_triple h calls).mono ?_ fun _ _ h => h).bind ?_
    · intro hnone
      rw [listRunAll_append, hnone]
      rfl
    · rintro answered owned' ⟨table, hrun, h'⟩
      refine ((getHashTableStats_triple h').mono ?_ fun _ _ h => h).bind ?_
      · intro hfault
        rw [listRunAll_append, hrun]
        simp [listRunAll, Call.listRun, hfault]
      · rintro ⟨usage, items⟩ owned'' ⟨rfl, hcount, husage⟩
        refine Triple.pure ?_
        rw [nodeCount_of_represents h' hcount, allocatedSize_of_represents h', ← husage]
  · rw [if_neg hall] at hmade
    obtain ⟨rfl, rfl⟩ := hmade
    exact Triple.pure (if_neg hall).symm

/-- **The statistics tell what is allocated.** Behind every sequence of calls,
whatever memory they got, `GetHashTableStats` reports the size of all
blocks that have been allocated for the table and not been freed, as a
32-bit number, and how many of them are nodes; or a value is NULL. -/
theorem getHashTableStats_memory (sizes : Sizes) (answers : Nat → Bool) (calls : List Call)
    {m : Memory Block} {rest : Multiset (Nat × Block)} (hm : m.Holds rest) :
    (report sizes answers calls m = none ∧
      listRunAll sizes Worker.initializeHashTable (calls ++ [.stats]) = none) ∨
    ∃ reported m' owned, report sizes answers calls m = some (reported, m') ∧
      m'.Holds (owned + rest) ∧ reported =
        if answers 0 && answers 1 && answers 2 then
          some (UInt32.ofNat (allocatedSize sizes owned), nodeCount owned)
        else none := by
  rw [← zero_add rest] at hm
  rcases report_triple sizes answers calls m rest hm with h | ⟨reported, m', owned, hreport, hm', h⟩
  · exact Or.inl h
  · exact Or.inr ⟨reported, m', owned, hreport, hm', h⟩

/-- Two keys in one bucket, and a third without memory. -/
def collision : List Call :=
  [.set ⟨some (.ofString "A"), some (.ofString "1"), fun _ => true⟩,
    .set ⟨some (.ofString "a"), some .empty, fun _ => true⟩,
    .set ⟨some (.ofString "b"), some .empty, fun i => i != 1⟩]

/-- What is reported behind them, and what is allocated then. -/
theorem getHashTableStats_memory_collision :
    ∃ m' owned, report ⟨24, 8, 40, 24⟩ (fun _ => true) collision Memory.empty =
        some (some (1615, 2), m') ∧
      m'.Holds (owned + 0) ∧ UInt32.ofNat (allocatedSize ⟨24, 8, 40, 24⟩ owned) = 1615 ∧
      nodeCount owned = 2 := by
  have hreports : (report ⟨24, 8, 40, 24⟩ (fun _ => true) collision Memory.empty).map Prod.fst =
      some (some (1615, 2)) := by decide +kernel
  rcases getHashTableStats_memory ⟨24, 8, 40, 24⟩ (fun _ => true) collision
    Memory.holds_empty with ⟨hnone, -⟩ | ⟨reported, m', owned, hreport, hm', hreported⟩
  · rw [hnone] at hreports
    cases hreports
  · rw [hreport] at hreports
    have htold : reported = some (1615, 2) := Option.some.inj hreports
    rw [htold] at hreport hreported
    obtain ⟨hsize, hcount⟩ := Prod.mk.inj (Option.some.inj hreported)
    exact ⟨m', owned, hreport, hm', hsize.symm, hcount.symm⟩

end LoadBalancing.Worker.TableHeap
