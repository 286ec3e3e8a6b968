/-
LoadBalancing.Worker.TableCalls — what the calls of a hash table do to the
heap.

Each of `HasHashTable`, `GetHashTable` and `SetHashTable` does to the
blocks of a table what it does to the lists of `Worker.HashTable`, on
every path and with every outcome of its `malloc`s, and leaves the
critical section it has entered. `GetHashTable` is the only one that can
fault, at a value that is NULL.

No `sorry`, no `axiom`, no `native_decide`.
-/
import LoadBalancing.Worker.TableMemory

namespace LoadBalancing.Worker.TableHeap

open LoadBalancing.Base LoadBalancing.Lib
open LoadBalancing.Base.Program (Triple)
open LoadBalancing.Worker.TableFailures (SetCall)

/-! ## `HasHashTable` and `GetHashTable` -/

section Operations

variable {address : Nat} {table : HashTable} {owned : Multiset (Nat × Block)} {faults : Prop}

theorem hasHashTable_triple (h : Represents address table owned) (key : Option CString) :
    Triple owned (hasHashTable (.to address) key) faults fun result owned' =>
      result = key.elim (-1) (Worker.hasHashTable table) ∧ owned' = owned := by
  obtain ⟨L, rfl, hof, rfl⟩ := h
  cases key with
  | none => exact Triple.pure ⟨rfl, rfl⟩
  | some key =>
    simp only [hasHashTable, reduceCtorEq, if_false, Option.elim_some, Worker.hasHashTable]
    by_cases hkey : key = CString.empty
    · simp only [hkey, if_true]
      exact Triple.pure ⟨rfl, rfl⟩
    · simp only [hkey, if_false]
      refine triple_loadTable (L.table_mem _) (triple_enter ?_)
      refine (searchBucket_triple key _).bind ?_
      rintro node owned' ⟨rfl, hfound⟩
      refine triple_leave rfl ?_
      rcases hfound.cases_of hof with ⟨rfl, hfind⟩ | ⟨_, n, _, rfl, -, -, -, hfind⟩
      · exact Triple.pure ⟨by rw [hfind, if_pos rfl], rfl⟩
      · exact Triple.pure ⟨by rw [hfind]; rfl, rfl⟩

/-- What `GetHashTable` writes and what it owns then, for the answer of the
list model. -/
inductive Copied (owned : Multiset (Nat × Block)) :
    Outcome (Option CString) → Int × Option Pointer → Multiset (Nat × Block) → Prop
  | copy (a : Nat) (value : CString) :
      Copied owned (.accept (some value)) (1, some (.to a)) ({(a, textBlock value)} + owned)
  | absent : Copied owned (.accept none) (0, none) owned
  | refused (written : Option Pointer) : Copied owned .reject (-1, written) owned

/-- **`GetHashTable`** makes one copy, or none, and faults at a NULL value. -/
theorem getHashTable_triple (h : Represents address table owned) (key : CString)
    (answer : Bool) :
    Triple owned (getHashTable (.to address) (some key) answer)
      (Worker.getHashTable table key answer = .fault)
      (Copied owned (Worker.getHashTable table key answer)) := by
  obtain ⟨L, rfl, hof, rfl⟩ := h
  simp only [getHashTable, reduceCtorEq, if_false, Worker.getHashTable]
  by_cases hkey : key = CString.empty
  · simp only [hkey, if_true]
    exact Triple.pure (.refused none)
  · simp only [hkey, if_false]
    refine triple_loadTable (L.table_mem _) (triple_enter ?_)
    refine (searchBucket_triple key _).bind ?_
    rintro node owned' ⟨rfl, hfound⟩
    rcases hfound.cases_of hof with ⟨rfl, hfind⟩ | ⟨front, n, back, rfl, hnodes, -, -, hfind⟩
    · rw [hfind, if_pos rfl]
      refine triple_leave rfl ?_
      exact Triple.pure .absent
    · rw [hfind, if_neg (by simp)]
      obtain ⟨rest, hcells⟩ := Layout.cellsAt_replace hnodes
      have hsame := hcells n rfl (heldAt (hashFunction key))
      rw [← hnodes, L.setNodes_self] at hsame
      have hblock : n.block (headOf back) ∈ L.cellsAt (heldAt (hashFunction key)) := by
        rw [hsame]
        simp [NodeAt.cells]
      refine triple_loadNode hblock ?_
      cases hvalue : n.value with
      | none =>
        simp only [NodeAt.valuePointer, hvalue, Option.elim_none, Option.map_none]
        exact Triple.fault_bind trivial
      | some v =>
        obtain ⟨a, value⟩ := v
        have htext : (a, textBlock value) ∈ L.cellsAt (heldAt (hashFunction key)) := by
          rw [hsame]
          simp [NodeAt.cells, NodeAt.valueCells, hvalue]
        simp only [NodeAt.valuePointer, hvalue, Option.elim_some, Option.map_some]
        refine triple_loadText htext (triple_malloc ?_ ?_)
        · rintro rfl copy
          simp only [reduceCtorEq, if_false, if_true]
          refine triple_strcpyS rfl ?_
          simp only [ne_eq, not_true_eq_false, if_false]
          refine triple_leave_with (add_comm _ _) ?_
          rw [add_comm]
          exact Triple.pure (.copy copy value)
        · rintro rfl
          simp only [if_true, Bool.false_eq_true, if_false]
          refine triple_leave rfl ?_
          exact Triple.pure (.refused _)

/-- The value a retrieve request is answered with. -/
def valueOf : Outcome (Option CString) → Option CString
  | .accept value => value
  | _ => none

/-- **A retrieve request** leaves no copy behind. -/
theorem retrieve_triple (h : Represents address table owned) (key : CString) (answer : Bool) :
    Triple owned (retrieve (.to address) key answer)
      (Worker.getHashTable table key answer = .fault) fun value owned' =>
        Worker.getHashTable table key answer ≠ .fault ∧
          value = valueOf (Worker.getHashTable table key answer) ∧ owned' = owned := by
  refine (getHashTable_triple h key answer).bind fun result owned' hcopied => ?_
  generalize Worker.getHashTable table key answer = outcome at hcopied ⊢
  cases hcopied with
  | copy a value =>
    simp only [Option.getD_some, if_true]
    have hcopy : (a, textBlock value) ∈ {(a, textBlock value)} + owned := by simp
    refine triple_loadText hcopy (triple_free rfl ?_)
    exact Triple.pure ⟨nofun, rfl, rfl⟩
  | absent => exact Triple.pure ⟨nofun, rfl, rfl⟩
  | refused written => exact Triple.pure ⟨nofun, rfl, rfl⟩

end Operations

/-! ## `SetHashTable` -/

/-- Take the third block to the front. -/
theorem third_first {β : Type} (x y z rest : Multiset β) :
    x + (y + (z + rest)) = z + (x + (y + rest)) := by
  abel

/-- **A new node** has all three of its blocks, or none is left. -/
theorem makeNode_triple (key value : CString) (answers : Nat → Bool) {faults : Prop} :
    Triple 0 (makeNode key value answers) faults fun made owned =>
      if answers 0 && answers 1 && answers 2 then
        ∃ n : NodeAt, n.node = (key, some value) ∧ made = some (.to n.address) ∧
          owned = n.cells .unset
      else made = none ∧ owned = 0 := by
  refine triple_malloc (fun hnode address => ?_) (fun hnode => ?_)
  · simp only [reduceCtorEq, if_false]
    refine triple_malloc (fun hkey keyAddress => ?_) (fun hkey => ?_)
    · refine triple_updateNode (add_left_comm _ _ _) ?_
      simp only [reduceCtorEq, if_false]
      refine triple_strcpyS (add_left_comm _ _ _) ?_
      simp only [ne_eq, not_true_eq_false, if_false]
      refine triple_malloc (fun hvalue valueAddress => ?_) (fun hvalue => ?_)
      · refine triple_updateNode (third_first _ _ _ _) ?_
        simp only [reduceCtorEq, if_false]
        refine triple_strcpyS (add_left_comm _ _ _) ?_
        simp only [not_true_eq_false, if_false]
        refine Triple.pure ?_
        rw [hnode, hkey, hvalue]
        refine ⟨⟨address, keyAddress, key, some (valueAddress, value)⟩, rfl, rfl, ?_⟩
        simp only [NodeAt.cells, NodeAt.block, NodeAt.valuePointer, NodeAt.valueCells, textBlock,
          Option.elim_some]
        abel
      · refine triple_updateNode (add_left_comm _ _ _) ?_
        simp only [if_true, freeKey, bind_assoc]
        refine triple_loadNode (by simp; rfl) ?_
        refine triple_free (add_left_comm _ _ _) (triple_free rfl ?_)
        refine Triple.pure ?_
        simp [hvalue]
    · refine triple_updateNode rfl ?_
      simp only [if_true]
      refine triple_free rfl ?_
      refine Triple.pure ?_
      simp [hkey]
  · simp only [if_true]
    refine Triple.pure ?_
    simp [hnode]

section Set

variable {L : Layout} {table : HashTable} {faults : Prop}

/-- A new key goes in front of its bucket, or nothing has happened. -/
theorem insertNode_triple (hof : L.Of table) {key : CString} (value : CString)
    (hfresh : table.find? key = none) (answers : Nat → Bool) :
    Triple (L.cellsAt (heldAt (hashFunction key)))
      (insertNode (.to L.buckets) (.to L.locks) (hashFunction key) key value answers) faults
      fun result owned =>
        if answers 0 && answers 1 && answers 2 then
          result = 1 ∧ Represents L.table (table.insertFront key (some value) hfresh) owned
        else result = -1 ∧ owned = L.cells := by
  refine (makeNode_triple key value answers).call (zero_add _).symm fun made part hmade => ?_
  cases hall : answers 0 && answers 1 && answers 2 with
  | false =>
    rw [hall] at hmade
    obtain ⟨rfl, rfl⟩ := hmade
    rw [zero_add]
    exact triple_leave rfl (Triple.pure ⟨rfl, rfl⟩)
  | true =>
    rw [hall] at hmade
    obtain ⟨n, hnode, rfl, rfl⟩ := hmade
    have hbuckets := L.buckets_mem (heldAt (hashFunction key))
    refine triple_loadHead (Multiset.mem_add.mpr (Or.inr hbuckets)) ?_
    refine triple_updateNode (add_assoc _ _ _) ?_
    rw [L.cellsAt_buckets]
    refine triple_storeHead (third_first _ _ _ _) ?_
    have hcells := L.cellsAt_front (hashFunction key) n (heldAt (hashFunction key))
    refine triple_leave (L := L.setNodes (hashFunction key) (n :: L.nodes (hashFunction key)))
      (hcells.trans ?_).symm (Triple.pure ?_)
    · unfold Layout.frame NodeAt.cells
      change _ = _ + ({n.block (L.heads (hashFunction key))} + _)
      abel
    · refine ⟨rfl, L.setNodes (hashFunction key) (n :: L.nodes (hashFunction key)), rfl, ?_, rfl⟩
      refine hof.setNodes ?_ (table.chains_insertFront key (some value) hfresh)
      rw [List.map_cons, hnode, hof]

/-- `free(node->value)`, whether there is a value or not. -/
theorem triple_freeValue {γ : Type} {owned extra : Multiset (Nat × Block)}
    {post : γ → Multiset (Nat × Block) → Prop} {n : NodeAt} {g : Unit → Heap γ}
    (howned : owned = n.valueCells + extra) (hg : Triple extra (g ()) faults post) :
    Triple owned (free n.valuePointer >>= g) faults post := by
  unfold NodeAt.valueCells at howned
  unfold NodeAt.valuePointer
  cases hvalue : n.value with
  | none =>
    rw [hvalue, Option.elim_none, zero_add] at howned
    rw [howned]
    exact triple_free_null hg
  | some v =>
    rw [hvalue] at howned
    exact triple_free howned hg

/-- The value of a node among the other blocks. -/
theorem NodeAt.cells_add (n : NodeAt) (next : Pointer) (extra : Multiset (Nat × Block)) :
    n.cells next + extra =
      n.valueCells + ({n.block next} + ({(n.keyAddress, textBlock n.key)} + extra)) := by
  unfold NodeAt.cells
  abel

/-- A write in the list model, at the node the search has found. -/
theorem chains_overwrite_at {key : CString} {front back : List DataNode} {old : Option CString}
    (hchain : table.chains (hashFunction key) = front ++ (key, old) :: back)
    (hfront : ∀ m ∈ front, m.1 ≠ key) (value : Option CString) :
    (table.overwrite key value).chains =
      Function.update table.chains (hashFunction key) (front ++ (key, value) :: back) := by
  rw [ChainedTable.chains_overwrite, hchain, chainReplace_append hfront]
  simp [chainReplace]

/-- The same node, written twice. -/
theorem chains_overwrite_twice {key : CString} {front back : List DataNode} {old : Option CString}
    (hchain : table.chains (hashFunction key) = front ++ (key, old) :: back)
    (hfront : ∀ m ∈ front, m.1 ≠ key) (value : Option CString) :
    ((table.overwrite key none).overwrite key value).chains =
      Function.update table.chains (hashFunction key) (front ++ (key, value) :: back) := by
  have hfreed := chains_overwrite_at hchain hfront none
  have hchain' : (table.overwrite key none).chains (hashFunction key) =
      front ++ (key, none) :: back := by
    rw [hfreed, Function.update_self]
  rw [chains_overwrite_at hchain' hfront, hfreed, Function.update_idem]

/-- The node of a key gets the new value, or none. -/
theorem overwriteNode_triple (hof : L.Of table) {key : CString} (value : CString)
    {front back : List NodeAt} {n : NodeAt}
    (hnodes : L.nodes (hashFunction key) = front ++ n :: back) (hkey : n.key = key)
    (hfront : ∀ m ∈ front.map NodeAt.node, m.1 ≠ key) (answers : Nat → Bool) :
    Triple (L.cellsAt (heldAt (hashFunction key)))
      (overwriteNode (.to L.locks) (hashFunction key) (.to n.address) value answers) faults
      fun result owned =>
        if answers 0 then
          result = 1 ∧ Represents L.table
            ((table.overwrite key none).overwrite key (some value)) owned
        else result = -1 ∧ Represents L.table (table.overwrite key none) owned := by
  obtain ⟨rest, hcells⟩ := Layout.cellsAt_replace hnodes
  have hsame := hcells n rfl (heldAt (hashFunction key))
  rw [← hnodes, L.setNodes_self] at hsame
  have hchain : table.chains (hashFunction key) =
      front.map NodeAt.node ++ (key, n.value.map Prod.snd) :: back.map NodeAt.node := by
    rw [← hof, hnodes, List.map_append, List.map_cons, ← hkey]
    rfl
  have hblock : n.block (headOf back) ∈ L.cellsAt (heldAt (hashFunction key)) := by
    rw [hsame]
    simp [NodeAt.cells]
  refine triple_loadNode hblock (triple_freeValue (hsame.trans (n.cells_add _ _)) ?_)
  refine triple_malloc (fun hanswer a => ?_) (fun hanswer => ?_)
  · refine triple_updateNode (add_left_comm _ _ _) ?_
    simp only [reduceCtorEq, if_false]
    refine triple_strcpyS (add_left_comm _ _ _) ?_
    have hwritten := hcells { n with value := some (a, value) } rfl (heldAt (hashFunction key))
    refine triple_leave (L := L.setNodes (hashFunction key)
      (front ++ { n with value := some (a, value) } :: back)) ?_ (Triple.pure ?_)
    · rw [hwritten, NodeAt.cells_add]
      rfl
    · rw [hanswer]
      refine ⟨rfl, _, ?_, hof.setNodes ?_ (chains_overwrite_twice hchain hfront (some value)), rfl⟩
      · rfl
      · rw [List.map_append, List.map_cons, ← hkey]
        rfl
  · refine triple_updateNode rfl ?_
    simp only [if_true]
    have hfreed := hcells { n with value := none } rfl (heldAt (hashFunction key))
    refine triple_leave (L := L.setNodes (hashFunction key)
      (front ++ { n with value := none } :: back)) ?_ (Triple.pure ?_)
    · rw [hfreed, NodeAt.cells_add]
      exact (zero_add _).symm
    · rw [hanswer]
      refine ⟨rfl, _, ?_, hof.setNodes ?_ (chains_overwrite_at hchain hfront none), rfl⟩
      · rfl
      · rw [List.map_append, List.map_cons, ← hkey]
        rfl

end Set

/-- The list model for a new key. -/
theorem set_fresh {table : HashTable} {key : CString} (hkey : key ≠ CString.empty)
    (hfresh : table.find? key = none) (value : CString) (answers : Nat → Bool) :
    TableFailures.setHashTable table ⟨some key, some value, answers⟩ =
      if answers 0 && answers 1 && answers 2 then (1, table.insertFront key (some value) hfresh)
      else (-1, table) := by
  cases hnode : answers 0 with
  | false => simp [TableFailures.setHashTable, hkey, hfresh, hnode]
  | true =>
    cases hcopy : answers 1 with
    | false => simp [TableFailures.setHashTable, hkey, hfresh, hnode, hcopy]
    | true =>
      cases hlast : answers 2 <;>
        simp [TableFailures.setHashTable, hkey, hfresh, hnode, hcopy, hlast]

/-- The list model for a key that is there. -/
theorem set_found {table : HashTable} {key : CString} (hkey : key ≠ CString.empty)
    (hfound : table.find? key ≠ none) (value : CString) (answers : Nat → Bool) :
    TableFailures.setHashTable table ⟨some key, some value, answers⟩ =
      if answers 0 then (1, (table.overwrite key none).overwrite key (some value))
      else (-1, table.overwrite key none) := by
  cases hmalloc : answers 0 <;> simp [TableFailures.setHashTable, hkey, hfound, hmalloc]

/-- **`SetHashTable`** does to the heap what it does to the lists. -/
theorem setHashTable_triple {address : Nat} {table : HashTable}
    {owned : Multiset (Nat × Block)} {faults : Prop} (h : Represents address table owned)
    (call : SetCall) :
    Triple owned (setHashTable (.to address) call) faults fun result owned' =>
      result = (TableFailures.setHashTable table call).1 ∧
        Represents address (TableFailures.setHashTable table call).2 owned' := by
  obtain ⟨key?, value?, answers⟩ := call
  simp only [setHashTable, reduceCtorEq, if_false]
  cases key? with
  | none => exact Triple.pure ⟨rfl, h⟩
  | some key =>
    cases value? with
    | none => exact Triple.pure ⟨rfl, h⟩
    | some value =>
      by_cases hkey : key = CString.empty
      · simp only [hkey, if_true]
        have hempty : TableFailures.setHashTable table ⟨some .empty, some value, answers⟩ =
            (-1, table) := by
          simp [TableFailures.setHashTable]
        rw [hempty]
        exact Triple.pure ⟨rfl, h⟩
      · simp only [hkey, if_false]
        obtain ⟨L, rfl, hof, rfl⟩ := h
        refine triple_loadTable (L.table_mem _) (triple_enter ?_)
        refine (searchBucket_triple key _).bind ?_
        rintro node owned' ⟨rfl, hfound⟩
        rcases hfound.cases_of hof with
          ⟨rfl, hfind⟩ | ⟨front, n, back, rfl, hnodes, hn, hfront, hfind⟩
        · rw [if_pos rfl, set_fresh hkey hfind]
          refine (insertNode_triple hof value hfind answers).mono id ?_
          intro result owned' hpost
          by_cases hall : (answers 0 && answers 1 && answers 2) = true
          · rw [if_pos hall] at hpost ⊢
            exact hpost
          · rw [if_neg hall] at hpost ⊢
            exact ⟨hpost.1, L, rfl, hof, hpost.2⟩
        · rw [if_neg (by simp), set_found hkey (by simp [hfind])]
          refine (overwriteNode_triple hof value hnodes hn hfront answers).mono id ?_
          intro result owned' hpost
          by_cases hanswer : answers 0 = true
          · rw [if_pos hanswer] at hpost ⊢
            exact hpost
          · rw [if_neg hanswer] at hpost ⊢
            exact hpost

end LoadBalancing.Worker.TableHeap
