/-
LoadBalancing.Worker.TableMemory — which blocks a hash table has.

A `Layout` says where everything is: the table and its arrays, and every
node with its key and its value. From it follow all blocks and all
pointers in them (`Layout.cells`), and the lists that `Worker.HashTable`
has for the chains (`Layout.Of`). So the blocks a table owns are known
to the last one.

The first section has a rule for each access to a cell, and the last ones
what the operations share: the search of a bucket, and a node that is
written or put in front while the rest of the heap stays.

No `sorry`, no `axiom`, no `native_decide`.
-/
import Mathlib.Algebra.BigOperators.Group.List.Basic
import Mathlib.Tactic.Abel
import LoadBalancing.Worker.TableHeap

namespace LoadBalancing.Worker.TableHeap

open LoadBalancing.Base LoadBalancing.Lib
open LoadBalancing.Base.Program (Triple)

/-! ## The rules of the cells -/

section Rules

variable {γ : Type} {owned extra : Multiset (Nat × Block)} {faults : Prop}
  {post : γ → Multiset (Nat × Block) → Prop} {a : Nat}

theorem triple_loadTable {buckets locks : Pointer} {g : Pointer × Pointer → Heap γ}
    (hmem : (a, .hashTable buckets locks) ∈ owned)
    (hg : Triple owned (g (buckets, locks)) faults post) :
    Triple owned (loadTable (.to a) >>= g) faults post := by
  simp only [loadTable, deref, bind_assoc]
  refine Triple.load hmem ?_
  rwa [pure_bind]

theorem triple_loadHead {heads : Bucket → Pointer} {i : Bucket} {g : Pointer → Heap γ}
    (hmem : (a, .buckets heads) ∈ owned) (hg : Triple owned (g (heads i)) faults post) :
    Triple owned (loadHead (.to a) i >>= g) faults post := by
  simp only [loadHead, deref, bind_assoc]
  refine Triple.load hmem ?_
  rwa [pure_bind]

theorem triple_storeHead {heads : Bucket → Pointer} {i : Bucket} {head : Pointer}
    {g : Unit → Heap γ} (howned : owned = {(a, .buckets heads)} + extra)
    (hg : Triple ({(a, .buckets (Function.update heads i head))} + extra) (g ()) faults post) :
    Triple owned (storeHead (.to a) i head >>= g) faults post := by
  have hmem : (a, Block.buckets heads) ∈ owned := by simp [howned]
  simp only [storeHead, deref, bind_assoc]
  exact Triple.load hmem (Triple.store howned hg)

theorem triple_loadNode {cells : NodeCells} {g : NodeCells → Heap γ}
    (hmem : (a, .dataNode cells) ∈ owned) (hg : Triple owned (g cells) faults post) :
    Triple owned (loadNode (.to a) >>= g) faults post := by
  simp only [loadNode, deref, bind_assoc]
  refine Triple.load hmem ?_
  rwa [pure_bind]

theorem triple_updateNode {cells : NodeCells} {f : NodeCells → NodeCells} {g : Unit → Heap γ}
    (howned : owned = {(a, .dataNode cells)} + extra)
    (hg : Triple ({(a, .dataNode (f cells))} + extra) (g ()) faults post) :
    Triple owned (updateNode (.to a) f >>= g) faults post := by
  have hmem : (a, Block.dataNode cells) ∈ owned := by simp [howned]
  simp only [updateNode, bind_assoc]
  exact triple_loadNode hmem (Triple.store howned hg)

theorem triple_loadText {size : Nat} {chars : CString} {g : CString → Heap γ}
    (hmem : (a, .text size (some chars)) ∈ owned) (hg : Triple owned (g chars) faults post) :
    Triple owned (loadText (.to a) >>= g) faults post := by
  simp only [loadText, deref, bind_assoc]
  refine Triple.load hmem ?_
  rwa [pure_bind]

theorem triple_switchSection {before after : Section} {sections : Bucket → Section} {i : Bucket}
    {g : Unit → Heap γ} (howned : owned = {(a, .locks sections)} + extra)
    (hsection : sections i = before)
    (hg : Triple ({(a, .locks (Function.update sections i after))} + extra) (g ()) faults post) :
    Triple owned (switchSection before after (.to a) i >>= g) faults post := by
  have hmem : (a, Block.locks sections) ∈ owned := by simp [howned]
  simp only [switchSection, deref, bind_assoc]
  refine Triple.load hmem ?_
  simp only [if_pos hsection]
  exact Triple.store howned hg

/-- With memory or without. -/
theorem triple_malloc {answer : Bool} {block : Block} {g : Pointer → Heap γ}
    (hmemory : answer = true → ∀ a, Triple ({(a, block)} + owned) (g (.to a)) faults post)
    (hnone : answer = false → Triple owned (g .null) faults post) :
    Triple owned (malloc answer block >>= g) faults post := by
  cases answer with
  | false =>
    simp only [malloc, Bool.false_eq_true, if_false, pure_bind]
    exact hnone rfl
  | true =>
    simp only [malloc, if_true, bind_assoc, pure_bind]
    exact Triple.alloc (hmemory rfl)

theorem triple_free {block : Block} {g : Unit → Heap γ}
    (howned : owned = {(a, block)} + extra) (hg : Triple extra (g ()) faults post) :
    Triple owned (free (.to a) >>= g) faults post :=
  Triple.free howned hg

theorem triple_free_null {g : Unit → Heap γ} (hg : Triple owned (g ()) faults post) :
    Triple owned (free .null >>= g) faults post := by
  simp only [free, pure_bind]
  exact hg

/-- A copy into a block of the right size does not fail. -/
theorem triple_strcpyS {source : CString} {old : Option CString} {g : Int → Heap γ}
    (howned : owned = {(a, .text (source.strlen + 1) old)} + extra)
    (hg : Triple ({(a, .text (source.strlen + 1) (some source))} + extra) (g 0) faults post) :
    Triple owned (strcpyS (.to a) (source.strlen + 1) source >>= g) faults post := by
  have hmem : (a, Block.text (source.strlen + 1) old) ∈ owned := by simp [howned]
  simp only [strcpyS, deref, bind_assoc]
  refine Triple.load hmem ?_
  simp only [Nat.lt_irrefl, if_false, Nat.lt_succ_self, if_true, bind_assoc, pure_bind]
  exact Triple.store howned hg

end Rules

/-! ## Layouts -/

/-- The block of a string. -/
def textBlock (chars : CString) : Block := .text (chars.strlen + 1) (some chars)

/-- A node with the addresses it and its parts have. -/
structure NodeAt where
  address : Nat
  keyAddress : Nat
  key : CString
  value : Option (Nat × CString)

namespace NodeAt

/-- The entry of a node. -/
def node (n : NodeAt) : DataNode := (n.key, n.value.map Prod.snd)

/-- `node->value`. -/
def valuePointer (n : NodeAt) : Pointer := n.value.elim .null fun v => .to v.1

/-- The block behind `node->value`. -/
def valueCells (n : NodeAt) : Multiset (Nat × Block) :=
  n.value.elim 0 fun v => {(v.1, textBlock v.2)}

/-- A node in front of `next`. -/
def block (n : NodeAt) (next : Pointer) : Nat × Block :=
  (n.address, .dataNode ⟨.to n.keyAddress, n.valuePointer, next⟩)

/-- The blocks of a node in front of `next`. -/
def cells (n : NodeAt) (next : Pointer) : Multiset (Nat × Block) :=
  {n.block next} + ({(n.keyAddress, textBlock n.key)} + n.valueCells)

end NodeAt

/-- The pointer to the first node of a chain. -/
def headOf : List NodeAt → Pointer
  | [] => .null
  | n :: _ => .to n.address

/-- The blocks of a chain. -/
def chainCells : List NodeAt → Multiset (Nat × Block)
  | [] => 0
  | n :: rest => n.cells (headOf rest) + chainCells rest

/-- Each node has a block, so a walk is no longer than what is allocated. -/
theorem length_le_card (xs : List NodeAt) : xs.length ≤ (chainCells xs).card := by
  induction xs with
  | nil => exact Nat.zero_le _
  | cons n rest ih =>
    simp only [chainCells, NodeAt.cells, List.length_cons, Multiset.card_add,
      Multiset.card_singleton]
    omega

/-- **A node in its chain.** The other nodes see nothing of it but its
address. -/
theorem chainCells_seam (front : List NodeAt) (n : NodeAt) (back : List NodeAt) :
    ∃ others, ∀ n' : NodeAt, n'.address = n.address →
      chainCells (front ++ n' :: back) = n'.cells (headOf back) + others := by
  induction front with
  | nil => exact ⟨chainCells back, fun n' _ => rfl⟩
  | cons m rest ih =>
    obtain ⟨others, hothers⟩ := ih
    refine ⟨m.cells (headOf (rest ++ n :: back)) + others, fun n' haddress => ?_⟩
    have hhead : headOf (rest ++ n' :: back) = headOf (rest ++ n :: back) := by
      cases rest with
      | nil => exact congrArg Pointer.to haddress
      | cons => rfl
    rw [List.cons_append, chainCells, hhead, hothers n' haddress]
    exact add_left_comm _ _ _

/-- Where everything is. -/
structure Layout where
  table : Nat
  buckets : Nat
  locks : Nat
  nodes : Bucket → List NodeAt

namespace Layout

/-- The chains of a table are those of the layout. -/
def Of (L : Layout) (table : HashTable) : Prop :=
  ∀ bucket, (L.nodes bucket).map NodeAt.node = table.chains bucket

/-- The blocks of the table and its arrays. -/
def frame (L : Layout) (sections : Bucket → Section) (heads : Bucket → Pointer) :
    Multiset (Nat × Block) :=
  {(L.table, .hashTable (.to L.buckets) (.to L.locks))} +
    ({(L.buckets, .buckets heads)} + {(L.locks, .locks sections)})

/-- The blocks of the chains of some buckets. -/
def chains (L : Layout) (bs : List Bucket) : Multiset (Nat × Block) :=
  (bs.map fun bucket => chainCells (L.nodes bucket)).sum

/-- The blocks of the chains of all buckets but one. -/
def others (L : Layout) (i : Bucket) : Multiset (Nat × Block) :=
  L.chains ((List.finRange workerHashTableBucketCount).erase i)

/-- The heads of the chains. -/
def heads (L : Layout) : Bucket → Pointer := fun bucket => headOf (L.nodes bucket)

/-- All blocks while the critical sections are as given. -/
def cellsAt (L : Layout) (sections : Bucket → Section) : Multiset (Nat × Block) :=
  L.frame sections L.heads + L.chains (List.finRange workerHashTableBucketCount)

/-- **All blocks of a table.** No critical section is held. -/
def cells (L : Layout) : Multiset (Nat × Block) := L.cellsAt fun _ => .unlocked

/-- Other nodes in one bucket. -/
def setNodes (L : Layout) (i : Bucket) (xs : List NodeAt) : Layout :=
  { L with nodes := Function.update L.nodes i xs }

/-- The chain of one bucket among the others. -/
theorem chains_eq (L : Layout) (i : Bucket) :
    L.chains (List.finRange workerHashTableBucketCount) = chainCells (L.nodes i) + L.others i :=
  (List.sum_map_erase _ (List.mem_finRange i)).symm

@[simp] theorem others_setNodes (L : Layout) (i : Bucket) (xs : List NodeAt) :
    (L.setNodes i xs).others i = L.others i := by
  refine congrArg List.sum (List.map_congr_left fun bucket hbucket => ?_)
  have hne : bucket ≠ i := ((List.nodup_finRange _).mem_erase_iff.mp hbucket).1
  simp only [setNodes, Function.update_of_ne hne]

@[simp] theorem nodes_setNodes (L : Layout) (i : Bucket) (xs : List NodeAt) :
    (L.setNodes i xs).nodes i = xs := by
  simp [setNodes]

theorem heads_setNodes (L : Layout) (i : Bucket) (xs : List NodeAt) :
    (L.setNodes i xs).heads = Function.update L.heads i (headOf xs) := by
  funext bucket
  exact Function.apply_update (fun _ ys => headOf ys) L.nodes i xs bucket

theorem Of.setNodes {L : Layout} {table table' : HashTable} (h : L.Of table) {i : Bucket}
    {xs : List NodeAt} {chain : List DataNode} (hxs : xs.map NodeAt.node = chain)
    (hchains : table'.chains = Function.update table.chains i chain) :
    (L.setNodes i xs).Of table' := by
  intro bucket
  rw [hchains]
  by_cases hbucket : bucket = i
  · subst hbucket
    rw [nodes_setNodes, Function.update_self, hxs]
  · simp only [Layout.setNodes, Function.update_of_ne hbucket]
    exact h bucket

end Layout

/-- A table of the list model is on the heap at an address, and these are its
blocks. -/
def Represents (address : Nat) (table : HashTable) (owned : Multiset (Nat × Block)) : Prop :=
  ∃ L : Layout, L.table = address ∧ L.Of table ∧ owned = L.cells

/-! ## The search -/

/-- What the search finds in a chain. -/
inductive Found (key : CString) (xs : List NodeAt) : Pointer → Prop
  | absent (h : ∀ n ∈ xs, n.key ≠ key) : Found key xs .null
  | present (front : List NodeAt) (n : NodeAt) (back : List NodeAt)
      (hxs : xs = front ++ n :: back) (hfront : ∀ m ∈ front, m.key ≠ key) (hkey : n.key = key) :
      Found key xs (.to n.address)

section Search

variable {owned : Multiset (Nat × Block)} {faults : Prop}

/-- The block of a chain's first node. -/
theorem block_mem {n : NodeAt} {rest : List NodeAt} (h : chainCells (n :: rest) ≤ owned) :
    n.block (headOf rest) ∈ owned :=
  Multiset.mem_of_le h (by simp [chainCells, NodeAt.cells])

/-- Its key. -/
theorem key_mem {n : NodeAt} {rest : List NodeAt} (h : chainCells (n :: rest) ≤ owned) :
    (n.keyAddress, textBlock n.key) ∈ owned :=
  Multiset.mem_of_le h (by simp [chainCells, NodeAt.cells])

/-- The rest of a chain. -/
theorem chainCells_tail_le {n : NodeAt} {rest : List NodeAt}
    (h : chainCells (n :: rest) ≤ owned) : chainCells rest ≤ owned :=
  (Multiset.le_add_left _ _).trans h

/-- **The loop** `while (node)` finds a key, node by node. -/
theorem search_triple (key : CString) {xs : List NodeAt} (hxs : chainCells xs ≤ owned)
    {fuel : Nat} (hfuel : xs.length < fuel) :
    Triple owned (search key fuel (headOf xs)) faults
      fun node owned' => owned' = owned ∧ Found key xs node := by
  induction xs generalizing fuel with
  | nil =>
    obtain ⟨fuel, rfl⟩ := Nat.exists_eq_succ_of_ne_zero (Nat.ne_of_gt hfuel)
    simp only [headOf, search, if_true]
    exact Triple.pure ⟨rfl, .absent (by simp)⟩
  | cons n rest ih =>
    obtain ⟨fuel, rfl⟩ := Nat.exists_eq_succ_of_ne_zero (Nat.ne_zero_of_lt hfuel)
    simp only [headOf, search, reduceCtorEq, if_false]
    refine triple_loadNode (block_mem hxs) (triple_loadText (key_mem hxs) ?_)
    by_cases hkey : n.key = key
    · rw [if_pos hkey]
      exact Triple.pure ⟨rfl, .present [] n rest rfl (by simp) hkey⟩
    · rw [if_neg hkey]
      refine (ih (chainCells_tail_le hxs) (Nat.lt_of_succ_lt_succ hfuel)).mono id ?_
      rintro node owned' ⟨rfl, hfound⟩
      refine ⟨rfl, ?_⟩
      cases hfound with
      | absent h => exact .absent (List.forall_mem_cons.mpr ⟨hkey, h⟩)
      | present front m back hrest hfront hm =>
        exact .present (n :: front) m back (by rw [hrest, List.cons_append])
          (List.forall_mem_cons.mpr ⟨hkey, hfront⟩) hm

end Search

/-! ## Inside the critical section -/

/-- One section is held. -/
def heldAt (i : Bucket) : Bucket → Section := Function.update (fun _ => .unlocked) i .held

section Sections

variable {γ : Type} {L : Layout} {i : Bucket} {owned extra : Multiset (Nat × Block)}
  {faults : Prop} {post : γ → Multiset (Nat × Block) → Prop}

theorem Layout.table_mem (sections : Bucket → Section) :
    (L.table, .hashTable (.to L.buckets) (.to L.locks)) ∈ L.cellsAt sections := by
  simp [Layout.cellsAt, Layout.frame]

theorem Layout.buckets_mem (sections : Bucket → Section) :
    (L.buckets, .buckets L.heads) ∈ L.cellsAt sections := by
  simp [Layout.cellsAt, Layout.frame]

/-- The chain of a bucket is among the blocks. -/
theorem Layout.chain_le (sections : Bucket → Section) (i : Bucket) :
    chainCells (L.nodes i) ≤ L.cellsAt sections := by
  rw [Layout.cellsAt, L.chains_eq i]
  exact (Multiset.le_add_right _ _).trans (Multiset.le_add_left _ _)

/-- The critical sections among the other blocks. -/
theorem Layout.cellsAt_locks (L : Layout) (sections : Bucket → Section) :
    L.cellsAt sections = {(L.locks, .locks sections)} +
      ({(L.table, .hashTable (.to L.buckets) (.to L.locks))} + {(L.buckets, .buckets L.heads)}
        + L.chains (List.finRange workerHashTableBucketCount)) := by
  unfold Layout.cellsAt Layout.frame
  abel

/-- The heads among the other blocks. -/
theorem Layout.cellsAt_buckets (L : Layout) (sections : Bucket → Section) :
    L.cellsAt sections = {(L.buckets, .buckets L.heads)} +
      ({(L.table, .hashTable (.to L.buckets) (.to L.locks))} + {(L.locks, .locks sections)}
        + L.chains (List.finRange workerHashTableBucketCount)) := by
  unfold Layout.cellsAt Layout.frame
  abel

theorem triple_enter {g : Unit → Heap γ}
    (hg : Triple (L.cellsAt (heldAt i)) (g ()) faults post) :
    Triple L.cells (enterCriticalSection (.to L.locks) i >>= g) faults post := by
  refine triple_switchSection (L.cellsAt_locks _) rfl ?_
  rwa [L.cellsAt_locks] at hg

/-- A section is left, with other blocks around. -/
theorem triple_leave_with {g : Unit → Heap γ} (howned : owned = L.cellsAt (heldAt i) + extra)
    (hg : Triple (L.cells + extra) (g ()) faults post) :
    Triple owned (leaveCriticalSection (.to L.locks) i >>= g) faults post := by
  rw [L.cellsAt_locks, add_assoc] at howned
  refine triple_switchSection howned (by simp [heldAt]) ?_
  have hsections : Function.update (heldAt i) i Section.unlocked = fun _ => .unlocked := by
    funext bucket
    by_cases h : bucket = i
    · simp [h]
    · simp [heldAt, h]
  rwa [hsections, ← add_assoc, ← L.cellsAt_locks]

theorem triple_leave {g : Unit → Heap γ} (howned : owned = L.cellsAt (heldAt i))
    (hg : Triple L.cells (g ()) faults post) :
    Triple owned (leaveCriticalSection (.to L.locks) i >>= g) faults post := by
  refine triple_leave_with (howned.trans (add_zero _).symm) ?_
  rwa [add_zero]

/-- **The search of a bucket.** -/
theorem searchBucket_triple (key : CString) (sections : Bucket → Section) :
    Triple (L.cellsAt sections) (searchBucket (.to L.buckets) key) faults
      fun node owned' => owned' = L.cellsAt sections ∧
        Found key (L.nodes (hashFunction key)) node := by
  refine triple_loadHead (L.buckets_mem sections) (Triple.addresses fun fuel hfuel => ?_)
  refine search_triple key (L.chain_le sections _) ?_
  have hcard := Multiset.card_le_card (L.chain_le sections (hashFunction key))
  have hlength := length_le_card (L.nodes (hashFunction key))
  omega

end Sections

/-! ## What the search says about the list model -/

section Found

variable {L : Layout} {table : HashTable} {key : CString} {node : Pointer}

/-- A search that ends at NULL has found nothing, and one that ends at a node
has found what the list model has. -/
theorem Found.cases_of (h : Found key (L.nodes (hashFunction key)) node) (hof : L.Of table) :
    (node = .null ∧ table.find? key = none) ∨
      ∃ front n back, node = .to n.address ∧ L.nodes (hashFunction key) = front ++ n :: back ∧
        n.key = key ∧ (∀ m ∈ front.map NodeAt.node, m.1 ≠ key) ∧
        table.find? key = some (n.value.map Prod.snd) := by
  have hchain := hof (hashFunction key)
  cases h with
  | absent h =>
    refine Or.inl ⟨rfl, ?_⟩
    rw [ChainedTable.find?, ← hchain, chainFind?_eq_none]
    intro m hm
    obtain ⟨n, hn, rfl⟩ := List.mem_map.mp hm
    exact h n hn
  | present front n back hxs hfront hkey =>
    have hkeys : ∀ m ∈ front.map NodeAt.node, m.1 ≠ key := by
      intro m hm
      obtain ⟨n', hn', rfl⟩ := List.mem_map.mp hm
      exact hfront n' hn'
    refine Or.inr ⟨front, n, back, rfl, hxs, hkey, hkeys, ?_⟩
    rw [ChainedTable.find?, ← hchain, hxs, List.map_append, chainFind?_append hkeys,
      List.map_cons]
    exact if_pos hkey

end Found

/-! ## A node among the other blocks -/

namespace Layout

variable {L : Layout} {i : Bucket} {front back : List NodeAt} {n : NodeAt}

theorem setNodes_self (L : Layout) (i : Bucket) : L.setNodes i (L.nodes i) = L := by
  simp [setNodes]

/-- **A node of a bucket**, whatever value it has. -/
theorem cellsAt_replace (hnodes : L.nodes i = front ++ n :: back) :
    ∃ rest, ∀ n' : NodeAt, n'.address = n.address → ∀ sections,
      (L.setNodes i (front ++ n' :: back)).cellsAt sections =
        n'.cells (headOf back) + (L.frame sections L.heads + rest) := by
  obtain ⟨chainRest, hchain⟩ := chainCells_seam front n back
  refine ⟨chainRest + L.others i, fun n' haddress sections => ?_⟩
  have hhead : headOf (front ++ n' :: back) = headOf (front ++ n :: back) := by
    cases front with
    | nil => exact congrArg Pointer.to haddress
    | cons => rfl
  have hheads : (L.setNodes i (front ++ n' :: back)).heads = L.heads := by
    rw [heads_setNodes, hhead, ← hnodes]
    exact Function.update_eq_self i L.heads
  rw [cellsAt, hheads, chains_eq _ i, others_setNodes, nodes_setNodes, hchain n' haddress]
  change L.frame sections L.heads + _ = _
  abel

/-- A new node in front of a bucket. -/
theorem cellsAt_front (L : Layout) (i : Bucket) (n : NodeAt) (sections : Bucket → Section) :
    (L.setNodes i (n :: L.nodes i)).cellsAt sections =
      L.frame sections (Function.update L.heads i (.to n.address)) +
        (n.cells (L.heads i) + L.chains (List.finRange workerHashTableBucketCount)) := by
  rw [cellsAt, heads_setNodes, chains_eq _ i, others_setNodes, nodes_setNodes, L.chains_eq i]
  change L.frame sections _ + (n.cells (L.heads i) + chainCells (L.nodes i) + _) = _
  rw [add_assoc]
  rfl

end Layout

end LoadBalancing.Worker.TableHeap
