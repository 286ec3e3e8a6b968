/-
LoadBalancing.Worker.TableHeap — `Worker/HashTable.c` on the heap.

`Worker.HashTable` has the chains as lists. Here they are what the source
has: nodes linked by pointers, with the key and the value of a node in
blocks of their own. A cell that nothing has written is `unset`, and a
read through a pointer that is not one to a block of the right kind is a
fault, as is a second `free`.

A critical section is entered and left by every operation. The calls run
one behind the other, so a section that is entered while it is held has
been left behind by an earlier call, and entering it is a fault too.

`retrieve` is the part of `ReceiverThread` that owns the copy
`GetHashTable` makes. `Sizes` stands for the compiler's `sizeof`. The
`itemCount` of `GetHashTableStats` is a number here and an `int` in the
source: the two are the same for up to 2^31 - 1 items.

Out of scope: the log output.
-/
import LoadBalancing.Base.Memory
import LoadBalancing.Worker.TableFailures

namespace LoadBalancing.Worker.TableHeap

open LoadBalancing.Base LoadBalancing.Lib
open LoadBalancing.Worker.TableFailures (SetCall)

/-! ## Blocks -/

/-- What a pointer variable holds. -/
inductive Pointer where
  | unset
  | null
  | to (address : Nat)
  deriving DecidableEq

/-- The cells of a `DataNode`. -/
structure NodeCells where
  key : Pointer
  value : Pointer
  next : Pointer
  deriving DecidableEq

/-- A `CRITICAL_SECTION`. -/
inductive Section where
  | uninitialised
  | unlocked
  | held
  deriving DecidableEq

/-- The index of a bucket. `bucketCount` is the constant from
`InitializeHashTable` on. -/
abbrev Bucket := Fin workerHashTableBucketCount

/-- A block of the heap: a `HashTable`, its two arrays, a node, or a string
of `size` bytes, which is `none` before it is written. -/
inductive Block where
  | hashTable (buckets locks : Pointer)
  | buckets (heads : Bucket → Pointer)
  | locks (sections : Bucket → Section)
  | dataNode (cells : NodeCells)
  | text (size : Nat) (chars : Option CString)

/-- A computation on the heap. -/
abbrev Heap := Program Block

/-- The contents of the block behind a pointer. -/
def deref : Pointer → Heap Block
  | .to address => Program.load address
  | _ => Program.fault

/-- Write the block behind a pointer. -/
def assign (pointer : Pointer) (block : Block) : Heap Unit :=
  match pointer with
  | .to address => Program.store address block
  | _ => Program.fault

/-- `malloc`, which has memory or not. -/
def malloc (answer : Bool) (block : Block) : Heap Pointer :=
  if answer then do
    let address ← Program.alloc block
    pure (.to address)
  else pure .null

/-- `free`, which leaves NULL alone. -/
def free : Pointer → Heap Unit
  | .to address => Program.free address
  | .null => pure ()
  | .unset => Program.fault

/-! ## Reading and writing cells -/

/-- `table->buckets` and `table->locks`. -/
def loadTable (table : Pointer) : Heap (Pointer × Pointer) := do
  match ← deref table with
  | .hashTable buckets locks => pure (buckets, locks)
  | _ => Program.fault

/-- `table->buckets[i]`. -/
def loadHead (buckets : Pointer) (i : Bucket) : Heap Pointer := do
  match ← deref buckets with
  | .buckets heads => pure (heads i)
  | _ => Program.fault

/-- `table->buckets[i] = head`. -/
def storeHead (buckets : Pointer) (i : Bucket) (head : Pointer) : Heap Unit := do
  match ← deref buckets with
  | .buckets heads => assign buckets (.buckets (Function.update heads i head))
  | _ => Program.fault

/-- The cells of a node. -/
def loadNode (node : Pointer) : Heap NodeCells := do
  match ← deref node with
  | .dataNode cells => pure cells
  | _ => Program.fault

/-- Write cells of a node. -/
def updateNode (node : Pointer) (f : NodeCells → NodeCells) : Heap Unit := do
  let cells ← loadNode node
  assign node (.dataNode (f cells))

/-- The string behind a pointer. -/
def loadText (pointer : Pointer) : Heap CString := do
  match ← deref pointer with
  | .text _ (some chars) => pure chars
  | _ => Program.fault

/-- `strcpy_s`. A destination that is too short is emptied. -/
def strcpyS (destination : Pointer) (size : Nat) (source : CString) : Heap Int := do
  match ← deref destination with
  | .text room _ =>
    if room < size then Program.fault
    else if source.strlen < size then do
      assign destination (.text room (some source))
      pure 0
    else do
      assign destination (.text room (some CString.empty))
      pure 34
  | _ => Program.fault

/-- The four operations on a critical section. -/
def switchSection (before after : Section) (locks : Pointer) (i : Bucket) : Heap Unit := do
  match ← deref locks with
  | .locks sections =>
    if sections i = before then assign locks (.locks (Function.update sections i after))
    else Program.fault
  | _ => Program.fault

/-- `InitializeCriticalSection`. -/
def initializeCriticalSection : Pointer → Bucket → Heap Unit :=
  switchSection .uninitialised .unlocked

/-- `EnterCriticalSection`. -/
def enterCriticalSection : Pointer → Bucket → Heap Unit := switchSection .unlocked .held

/-- `LeaveCriticalSection`. -/
def leaveCriticalSection : Pointer → Bucket → Heap Unit := switchSection .held .unlocked

/-- `DeleteCriticalSection`. -/
def deleteCriticalSection : Pointer → Bucket → Heap Unit :=
  switchSection .unlocked .uninitialised

/-! ## `InitializeHashTable` -/

/-- The loop of `InitializeHashTable`. -/
def initializeLocks (locks : Pointer) : List Bucket → Heap Unit
  | [] => pure ()
  | i :: rest => do
    initializeCriticalSection locks i
    initializeLocks locks rest

/-- `InitializeHashTable`: its result, and what it writes to `*table`. -/
def initializeHashTable (answers : Nat → Bool) : Heap (Int × Option Pointer) := do
  let newTable ← malloc (answers 0) (.hashTable .unset .unset)
  if newTable = .null then pure (-1, none)
  else do
    let buckets ← malloc (answers 1) (.buckets fun _ => .null)
    assign newTable (.hashTable buckets .unset)
    if buckets = .null then do
      free newTable
      pure (-1, none)
    else do
      let locks ← malloc (answers 2) (.locks fun _ => .uninitialised)
      assign newTable (.hashTable buckets locks)
      if locks = .null then do
        free buckets
        free newTable
        pure (-1, none)
      else do
        initializeLocks locks (List.finRange workerHashTableBucketCount)
        pure (0, some newTable)

/-! ## The operations -/

/-- The loop that looks for a key: the node that has it, or NULL. -/
def search (key : CString) : Nat → Pointer → Heap Pointer
  | 0, _ => Program.fault
  | fuel + 1, node =>
    if node = .null then pure .null
    else do
      let cells ← loadNode node
      let nodeKey ← loadText cells.key
      if nodeKey = key then pure node else search key fuel cells.next

/-- The search in a bucket. -/
def searchBucket (buckets : Pointer) (key : CString) : Heap Pointer := do
  let head ← loadHead buckets (hashFunction key)
  let fuel ← Program.addresses
  search key (fuel + 1) head

/-- `HasHashTable`. -/
def hasHashTable (table : Pointer) (key : Option CString) : Heap Int :=
  if table = .null then pure (-1)
  else match key with
  | none => pure (-1)
  | some key =>
    if key = CString.empty then pure (-1)
    else do
      let (buckets, locks) ← loadTable table
      enterCriticalSection locks (hashFunction key)
      let node ← searchBucket buckets key
      leaveCriticalSection locks (hashFunction key)
      pure (if node = .null then 0 else 1)

/-- The body of `GetHashTable` for a node with the key: the result, and what
it writes to `*value`. -/
def copyValue (locks : Pointer) (bucketIndex : Bucket) (node : Pointer) (answer : Bool) :
    Heap (Int × Option Pointer) := do
  let cells ← loadNode node
  let text ← loadText cells.value
  let value ← malloc answer (.text (text.strlen + 1) none)
  if value = .null then do
    leaveCriticalSection locks bucketIndex
    pure (-1, some value)
  else do
    let iResult ← strcpyS value (text.strlen + 1) text
    if iResult ≠ 0 then do
      free value
      leaveCriticalSection locks bucketIndex
      pure (-1, some value)
    else do
      leaveCriticalSection locks bucketIndex
      pure (1, some value)

/-- `GetHashTable`. -/
def getHashTable (table : Pointer) (key : Option CString) (answer : Bool) :
    Heap (Int × Option Pointer) :=
  if table = .null then pure (-1, none)
  else match key with
  | none => pure (-1, none)
  | some key =>
    if key = CString.empty then pure (-1, none)
    else do
      let (buckets, locks) ← loadTable table
      enterCriticalSection locks (hashFunction key)
      let node ← searchBucket buckets key
      if node = .null then do
        leaveCriticalSection locks (hashFunction key)
        pure (0, none)
      else copyValue locks (hashFunction key) node answer

/-- The body of `SetHashTable` for a node with the key. -/
def overwriteNode (locks : Pointer) (bucketIndex : Bucket) (node : Pointer) (value : CString)
    (answers : Nat → Bool) : Heap Int := do
  let cells ← loadNode node
  free cells.value
  let text ← malloc (answers 0) (.text (value.strlen + 1) none)
  updateNode node fun cells => { cells with value := text }
  if text = .null then do
    leaveCriticalSection locks bucketIndex
    pure (-1)
  else do
    let iResult ← strcpyS text (value.strlen + 1) value
    leaveCriticalSection locks bucketIndex
    pure (if iResult ≠ 0 then -1 else 1)

/-- `free(node->key)`. -/
def freeKey (node : Pointer) : Heap Unit := do
  let cells ← loadNode node
  free cells.key

/-- `free(node->value)`. -/
def freeValue (node : Pointer) : Heap Unit := do
  let cells ← loadNode node
  free cells.value

/-- The part of `SetHashTable` behind its loop, up to the new node: `none`
where it gives up. -/
def makeNode (key value : CString) (answers : Nat → Bool) : Heap (Option Pointer) := do
  let newNode ← malloc (answers 0) (.dataNode ⟨.unset, .unset, .unset⟩)
  if newNode = .null then pure none
  else do
    let keyText ← malloc (answers 1) (.text (key.strlen + 1) none)
    updateNode newNode fun cells => { cells with key := keyText }
    if keyText = .null then do
      free newNode
      pure none
    else do
      let iResult ← strcpyS keyText (key.strlen + 1) key
      if iResult ≠ 0 then do
        freeKey newNode
        free newNode
        pure none
      else do
        let valueText ← malloc (answers 2) (.text (value.strlen + 1) none)
        updateNode newNode fun cells => { cells with value := valueText }
        if valueText = .null then do
          freeKey newNode
          free newNode
          pure none
        else do
          let iResult ← strcpyS valueText (value.strlen + 1) value
          if iResult ≠ 0 then do
            freeKey newNode
            freeValue newNode
            free newNode
            pure none
          else pure (some newNode)

/-- The rest of `SetHashTable`. -/
def insertNode (buckets locks : Pointer) (bucketIndex : Bucket) (key value : CString)
    (answers : Nat → Bool) : Heap Int := do
  match ← makeNode key value answers with
  | none => do
    leaveCriticalSection locks bucketIndex
    pure (-1)
  | some newNode => do
    let head ← loadHead buckets bucketIndex
    updateNode newNode fun cells => { cells with next := head }
    storeHead buckets bucketIndex newNode
    leaveCriticalSection locks bucketIndex
    pure 1

/-- `SetHashTable`. -/
def setHashTable (table : Pointer) (call : SetCall) : Heap Int :=
  if table = .null then pure (-1)
  else match call.key, call.value with
  | none, _ => pure (-1)
  | some _, none => pure (-1)
  | some key, some value =>
    if key = CString.empty then pure (-1)
    else do
      let (buckets, locks) ← loadTable table
      enterCriticalSection locks (hashFunction key)
      let node ← searchBucket buckets key
      if node = .null then insertNode buckets locks (hashFunction key) key value call.malloc
      else overwriteNode locks (hashFunction key) node value call.malloc

/-! ## `GetHashTableStats` -/

/-- The compiler's `sizeof` of the types the table is made of. -/
structure Sizes where
  hashTable : Nat
  pointer : Nat
  criticalSection : Nat
  dataNode : Nat

/-- The inner loop of `GetHashTableStats`, with `totalSize` and
`totalItems`. -/
def statsChain (sizes : Sizes) : Nat → Pointer → UInt32 × Nat → Heap (UInt32 × Nat)
  | 0, _, _ => Program.fault
  | fuel + 1, node, (totalSize, totalItems) =>
    if node = .null then pure (totalSize, totalItems)
    else do
      let cells ← loadNode node
      let key ← loadText cells.key
      let value ← loadText cells.value
      statsChain sizes fuel cells.next
        (totalSize + UInt32.ofNat sizes.dataNode + UInt32.ofNat (key.strlen + 1)
          + UInt32.ofNat (value.strlen + 1), totalItems + 1)

/-- The outer loop of `GetHashTableStats`. -/
def statsBuckets (sizes : Sizes) (buckets locks : Pointer) :
    List Bucket → UInt32 × Nat → Heap (UInt32 × Nat)
  | [], totals => pure totals
  | i :: rest, totals => do
    enterCriticalSection locks i
    let head ← loadHead buckets i
    let fuel ← Program.addresses
    let totals ← statsChain sizes (fuel + 1) head totals
    leaveCriticalSection locks i
    statsBuckets sizes buckets locks rest totals

/-- `GetHashTableStats`: `*memoryUsage` and `*itemCount`. -/
def getHashTableStats (sizes : Sizes) (table : Pointer) : Heap (UInt32 × Nat) :=
  if table = .null then pure (0, 0)
  else do
    let (buckets, locks) ← loadTable table
    statsBuckets sizes buckets locks (List.finRange workerHashTableBucketCount)
      (UInt32.ofNat (sizes.hashTable + workerHashTableBucketCount * sizes.pointer
        + workerHashTableBucketCount * sizes.criticalSection), 0)

/-! ## `DestroyHashTable` -/

/-- `if (*cell) { free(*cell); *cell = NULL; }`, for a cell of a node. -/
def freeCell (node : Pointer) (cell : Pointer) (clear : NodeCells → NodeCells) : Heap Unit :=
  if cell = .null then pure ()
  else do
    free cell
    updateNode node clear

/-- The inner loop of `DestroyHashTable`. -/
def destroyChain : Nat → Pointer → Heap Unit
  | 0, _ => Program.fault
  | fuel + 1, toDelete =>
    if toDelete = .null then pure ()
    else do
      let cells ← loadNode toDelete
      freeCell toDelete cells.key fun cells => { cells with key := .null }
      freeCell toDelete cells.value fun cells => { cells with value := .null }
      free toDelete
      destroyChain fuel cells.next

/-- The outer loop of `DestroyHashTable`. -/
def destroyBuckets (buckets locks : Pointer) : List Bucket → Heap Unit
  | [] => pure ()
  | i :: rest => do
    enterCriticalSection locks i
    let head ← loadHead buckets i
    let fuel ← Program.addresses
    destroyChain (fuel + 1) head
    leaveCriticalSection locks i
    deleteCriticalSection locks i
    destroyBuckets buckets locks rest

/-- `DestroyHashTable`. -/
def destroyHashTable (table : Pointer) : Heap Int :=
  if table = .null then pure (-1)
  else do
    let (buckets, locks) ← loadTable table
    destroyBuckets buckets locks (List.finRange workerHashTableBucketCount)
    free buckets
    free locks
    free table
    pure 0

/-! ## The callers -/

/-- What `ReceiverThread` does with `GetHashTable` for a retrieve request:
the value it answers with. The copy is freed behind the answer. -/
def retrieve (table : Pointer) (key : CString) (answer : Bool) : Heap (Option CString) := do
  let (result, written) ← getHashTable table (some key) answer
  let valueToSend := written.getD .null
  if result = 1 then do
    let value ← loadText valueToSend
    free valueToSend
    pure (some value)
  else pure none

/-- What the threads of a worker do with the table. -/
inductive Call where
  | set (call : SetCall)
  | has (key : Option CString)
  | retrieve (key : CString) (answer : Bool)
  | stats

/-- What comes back. -/
inductive Answer where
  | result (result : Int)
  | value (value : Option CString)
  | stats (memoryUsage : UInt32) (itemCount : Nat)
  deriving DecidableEq

/-- One call. -/
def Call.run (sizes : Sizes) (table : Pointer) : Call → Heap Answer
  | .set call => do
    let result ← setHashTable table call
    pure (.result result)
  | .has key => do
    let result ← hasHashTable table key
    pure (.result result)
  | .retrieve key answer => do
    let value ← TableHeap.retrieve table key answer
    pure (.value value)
  | .stats => do
    let (memoryUsage, itemCount) ← getHashTableStats sizes table
    pure (.stats memoryUsage itemCount)

/-- Calls one behind the other. -/
def runAll (sizes : Sizes) (table : Pointer) : List Call → Heap (List Answer)
  | [] => pure []
  | call :: rest => do
    let answer ← call.run sizes table
    let answers ← runAll sizes table rest
    pure (answer :: answers)

/-- The life of a table: `none` where there is no memory for it. -/
def life (sizes : Sizes) (answers : Nat → Bool) (calls : List Call) :
    Heap (Option (List Answer × Int)) := do
  let (result, written) ← initializeHashTable answers
  if result ≠ 0 then pure none
  else do
    let table := written.getD .null
    let answers ← runAll sizes table calls
    let destroyed ← destroyHashTable table
    pure (some (answers, destroyed))

end LoadBalancing.Worker.TableHeap
