/-
LoadBalancing.Worker.ExportImport — a table sent by `ExportHashTableToPeer`
and read by `PeerListenerThread`.

The export counts the table, announces the count, goes over the buckets
and their chains and sends a message for each node. The listener stores
what it reads under every key that it does not have. Both count the table
with `GetHashTableStats`, which takes the `strlen` of every value.

`export_import_iff`: the second table becomes the first one under the keys
that it did not have, and that in whatever order the entries come, exactly
when no key of either table is without a value. `SetHashTable` leaves such
a key behind when it has no memory to overwrite one.

The results of the sends and the `malloc`s of the listener's stores are
parameters. Out of scope: the locks and sleeps of the scan, as nothing
else moves meanwhile, and the log output.

No `sorry`, no `axiom`, no `native_decide`.
-/
import LoadBalancing.Worker.PeerTable
import LoadBalancing.Worker.Replication
import LoadBalancing.Worker.TableFailures

namespace LoadBalancing.Worker.ExportImport

open LoadBalancing.Base LoadBalancing.Lib LoadBalancing.Worker.TableFailures

/-! ## The export -/

/-- What an export has sent so far, and `*exportedCount`. -/
structure Progress where
  sent : List Message
  exportedCount : Int
  deriving DecidableEq

/-- One of the `Send` functions: there is no message where it refuses its
arguments, and the result of `ProtocolSend` for the next message is in
`sends`. -/
def send (sends : Nat → Int) (message : Option Message) (progress : Progress) : Int × Progress :=
  match message with
  | none => (-1, progress)
  | some message =>
    let result := sends progress.sent.length
    if result ≤ 0 then (result, progress)
    else (result, { progress with sent := progress.sent ++ [message] })

/-- The loop over the nodes of a bucket; -1 where `ExportHashTableToPeer`
returns. -/
def exportBucket (sends : Nat → Int) : List DataNode → Progress → Int × Progress
  | [], progress => (0, progress)
  | node :: next, progress =>
    let (result, sent) := send sends (entryMessage node) progress
    if result ≤ 0 then (-1, sent)
    else exportBucket sends next { sent with exportedCount := sent.exportedCount + 1 }

/-- The loop over the buckets. -/
def exportBuckets (sends : Nat → Int) (table : HashTable) :
    List (Fin workerHashTableBucketCount) → Progress → Int × Progress
  | [], progress => (0, progress)
  | bucket :: rest, progress =>
    let (result, sent) := exportBucket sends (table.chains bucket) progress
    if result ≠ 0 then (-1, sent) else exportBuckets sends table rest sent

/-- `ExportHashTableToPeer`: its result, and what it has sent. -/
def exportHashTableToPeer (table : HashTable) (peerManager : PeerTable) (targetWorkerId : Int32)
    (sends : Nat → Int) : Outcome (Int × Progress) :=
  match peerManager.getPeerConnection targetWorkerId with
  | none => .accept (-1, ⟨[], 0⟩)
  | some _ =>
    (getHashTableCount table).map fun count =>
      let (result, started) := send sends (sendDataExportStart (UInt32.ofNat count)) ⟨[], 0⟩
      if result ≤ 0 then (-1, started)
      else
        let (result, scanned) :=
          exportBuckets sends table (List.finRange workerHashTableBucketCount) started
        if result ≠ 0 then (-1, scanned)
        else
          let (result, ended) := send sends sendDataExportEnd scanned
          if result ≤ 0 then (-1, ended) else (0, ended)

/-! ## The import -/

/-- What `PeerListenerThread` does with a message. `allocated` is the answer
of the `malloc`s of the store of a key. -/
def processMessage (allocated : CString → Bool) (table : HashTable) (message : Message) :
    Outcome HashTable :=
  if MessageType.ofValue? message.type = some .dataExportEnd then
    (getHashTableCount table).map fun _ => table
  else match peerEntry message with
    | none => .accept table
    | some (key, value) =>
      if hasHashTable table key = 0 then .accept (setHashTable table key value (allocated key)).2
      else .accept table

/-- The messages of a connection, one after the other. -/
def processMessages (allocated : CString → Bool) (table : HashTable) :
    List Message → Outcome HashTable
  | [] => .accept table
  | message :: rest =>
    match processMessage allocated table message with
    | .accept table => processMessages allocated table rest
    | .reject => .reject
    | .fault => .fault

/-! ## What is promised -/

/-- The `MSG_DATA_EXPORT_START` for so many entries. -/
def startMessage (count : Nat) : Message :=
  ⟨MessageType.dataExportStart.value, writeUInt32 (UInt32.ofNat count)⟩

/-- The `MSG_DATA_ENTRY` of an entry. -/
def dataEntryMessage (entry : CString × CString) : Message :=
  ⟨MessageType.dataEntry.value, lengthPrefixed entry.1.bytes ++ lengthPrefixed entry.2.bytes⟩

/-- The `MSG_DATA_EXPORT_END`. -/
def endMessage : Message := ⟨MessageType.dataExportEnd.value, []⟩

/-- The messages of an export. -/
def exportMessages (entries : List (CString × CString)) : List Message :=
  startMessage entries.length :: (entries.map dataEntryMessage ++ [endMessage])

/-- The entries are those of the table: every key once, with its value. -/
structure EntriesOf (table : HashTable) (entries : List (CString × CString)) : Prop where
  nodup : (entries.map Prod.fst).Nodup
  mem_iff : ∀ key value, (key, value) ∈ entries ↔ lookup table key = some (some value)
  keys : ∀ key, lookup table key ≠ none → key ∈ entries.map Prod.fst

/-- **The promise of an export**: it sends its entries and nothing else, and
with these in any order the receiver keeps what it has and gets the rest,
as far as it has memory for it. -/
def Transfers (peerManager : PeerTable) (targetWorkerId : Int32) (sends : Nat → Int)
    (allocated : CString → Bool) (table receiver : HashTable) : Prop :=
  ∃ entries, EntriesOf table entries ∧
    exportHashTableToPeer table peerManager targetWorkerId sends =
      .accept (0, ⟨exportMessages entries, entries.length⟩) ∧
    ∀ order : List (CString × CString), order.Perm entries →
      ∃ received, processMessages allocated receiver (exportMessages order) = .accept received ∧
        ∀ key, lookup received key =
          (lookup receiver key).or (if allocated key then lookup table key else none)

/-- The arguments of a call are a valid key and a valid value. -/
def Valid (call : SetCall) : Prop :=
  ∃ key value, call.key = some key ∧ call.value = some value ∧
    validateKey key = true ∧ validateValue value = true

/-! ## The count -/

/-- A count of a table with a value missing does not come back. -/
theorem getHashTableCount_fault {table : HashTable} (h : ¬ Complete table) :
    getHashTableCount table = .fault := by
  have hloop : ∀ (buckets : List (Fin workerHashTableBucketCount)) (totalItems : Nat),
      (∃ bucket ∈ buckets, bucketItems table bucket = .fault) →
        itemsLoop table totalItems buckets = .fault := by
    intro buckets
    induction buckets with
    | nil =>
      rintro totalItems ⟨bucket, hmem, -⟩
      cases hmem
    | cons bucket rest ih =>
      rintro totalItems ⟨bad, hmem, hbad⟩
      rw [itemsLoop]
      rcases List.mem_cons.mp hmem with rfl | hrest
      · rw [hbad]
      · cases bucketItems table bucket with
        | fault => rfl
        | reject => rfl
        | accept items => exact ih _ ⟨bad, hrest, hbad⟩
  unfold Complete at h
  push Not at h
  obtain ⟨bucket, node, hnode, hnull⟩ := h
  refine hloop _ _ ⟨bucket, List.mem_finRange _, ?_⟩
  rw [bucketItems, if_neg]
  intro hall
  have hvalue := List.all_eq_true.mp hall node hnode
  rw [hnull] at hvalue
  cases hvalue

/-! ## The table of a run -/

/-- Every entry of the table can be sent. -/
def ValidEntries (table : HashTable) : Prop :=
  ∀ key value, lookup table key = some (some value) →
    validateKey key = true ∧ validateValue value = true

theorem validEntries_initializeHashTable : ValidEntries initializeHashTable := by
  intro key value hkey
  cases hkey

/-- A call with valid arguments, whatever its `malloc`s answer. -/
theorem validEntries_setHashTable {table : HashTable} (h : ValidEntries table) {call : SetCall}
    (hvalid : Valid call) : ValidEntries (TableFailures.setHashTable table call).2 := by
  obtain ⟨key, value, hkey, hvalue, hkeyValid, hvalueValid⟩ := hvalid
  have hcall : call = ⟨some key, some value, call.malloc⟩ := by rw [← hkey, ← hvalue]
  have hne : key ≠ CString.empty := by
    rintro rfl
    cases hkeyValid
  rw [hcall]
  have hlookup := (setHashTable_eq_allocated table key value call.malloc).2
  intro k v hk
  rw [hlookup k] at hk
  cases hallocated : allocated table key call.malloc with
  | true =>
    rw [hallocated, lookup_setHashTable hne] at hk
    by_cases hsame : k = key
    · rw [if_pos hsame, Option.some.injEq, Option.some.injEq] at hk
      rw [hsame, ← hk]
      exact ⟨hkeyValid, hvalueValid⟩
    · rw [if_neg hsame] at hk
      exact h k v hk
  | false =>
    rw [hallocated] at hk
    have hfailed : (Worker.setHashTable table key value false).1 ≠ 1 := by
      intro hone
      have hmemory := (setHashTable_eq_one.mp hone).2
      cases hmemory
    exact h k v ((lookup_of_refused rfl hfailed).1 k v hk)

/-- **Every table reached by valid calls** has valid entries. -/
theorem validEntries_exec {calls : List SetCall} {table : HashTable}
    (hvalid : ∀ call ∈ calls, Valid call)
    (hrun : exec TableFailures.step initializeHashTable calls = some table) :
    ValidEntries table := by
  have halong : Along TableFailures.step (fun _ call => Valid call) initializeHashTable calls :=
    (along_label_iff hrun).mpr hvalid
  refine exec_invariant_along (I := ValidEntries) ?_ validEntries_initializeHashTable halong hrun
  intro table call table' h hcall hstep
  rw [← Option.some.inj hstep]
  exact validEntries_setHashTable h hcall

/-! ## The entries of a table -/

/-- The entries in a chain. -/
def chainEntries (chain : List DataNode) : List (CString × CString) :=
  chain.filterMap fun node => node.2.map fun value => (node.1, value)

/-- The entries of the chains of some buckets. -/
def bucketEntries (table : HashTable) (buckets : List (Fin workerHashTableBucketCount)) :
    List (CString × CString) :=
  buckets.flatMap fun bucket => chainEntries (table.chains bucket)

/-- The entries of a table, in the order of its buckets. -/
def tableEntries (table : HashTable) : List (CString × CString) :=
  bucketEntries table (List.finRange workerHashTableBucketCount)

theorem mem_chainEntries {chain : List DataNode} {key value : CString} :
    (key, value) ∈ chainEntries chain ↔ (key, some value) ∈ chain := by
  rw [chainEntries, List.mem_filterMap]
  constructor
  · rintro ⟨⟨k, v⟩, hnode, hentry⟩
    obtain ⟨w, rfl, hpair⟩ := Option.map_eq_some_iff.mp hentry
    rw [Prod.mk.injEq] at hpair
    rw [← hpair.1, ← hpair.2]
    exact hnode
  · intro hnode
    exact ⟨(key, some value), hnode, rfl⟩

/-- Where no value is missing, no key is. -/
theorem keys_chainEntries {chain : List DataNode} (h : ∀ node ∈ chain, node.2 ≠ none) :
    (chainEntries chain).map Prod.fst = chain.map Prod.fst := by
  induction chain with
  | nil => rfl
  | cons node chain ih =>
    obtain ⟨value, hvalue⟩ := Option.ne_none_iff_exists'.mp (h node List.mem_cons_self)
    have hrest := ih fun other hother => h other (List.mem_cons_of_mem _ hother)
    rw [chainEntries, List.filterMap_cons, hvalue]
    simp only [Option.map_some, List.map_cons, List.cons.injEq, true_and]
    exact hrest

theorem keys_tableEntries {table : HashTable} (h : Complete table) :
    (tableEntries table).map Prod.fst = table.keys := by
  rw [tableEntries, bucketEntries, List.map_flatMap, ChainedTable.keys]
  congr 1
  funext bucket
  exact keys_chainEntries (h bucket)

theorem entriesOf_tableEntries {table : HashTable} (h : Complete table) :
    EntriesOf table (tableEntries table) := by
  refine ⟨?_, ?_, ?_⟩
  · rw [keys_tableEntries h]
    exact table.nodup_keys
  · intro key value
    rw [tableEntries, bucketEntries, List.mem_flatMap]
    constructor
    · rintro ⟨bucket, -, hmem⟩
      exact lookup_of_mem_bucket (mem_chainEntries.mp hmem)
    · intro hlookup
      have hfound : lookup table key ≠ none := by
        rw [hlookup]
        exact Option.some_ne_none _
      obtain ⟨node, hnode, hkey⟩ := exists_mem_bucket hfound
      have hvalue := lookup_of_mem_bucket hnode
      rw [hkey, hlookup, Option.some.injEq] at hvalue
      have hpair : node = (key, some value) := by rw [← hkey, hvalue]
      rw [hpair] at hnode
      exact ⟨_, List.mem_finRange _, mem_chainEntries.mpr hnode⟩
  · intro key hkey
    rw [keys_tableEntries h]
    exact ChainedTable.mem_keys.mpr hkey

/-! ## What the export sends -/

/-- The message of an entry. -/
theorem entryMessage_eq {node : DataNode} {value : CString} (hvalue : node.2 = some value)
    (hkey : validateKey node.1 = true) (hvalid : validateValue value = true) :
    entryMessage node = some (dataEntryMessage (node.1, value)) := by
  simp [entryMessage, hvalue, sendDataEntry, hkey, hvalid, dataEntryMessage]

section Sends

variable {sends : Nat → Int} (hsends : ∀ i, 0 < sends i)
include hsends

theorem send_some (message : Message) (progress : Progress) :
    send sends (some message) progress =
      (sends progress.sent.length, { progress with sent := progress.sent ++ [message] }) := by
  have hpositive := hsends progress.sent.length
  simp only [send, if_neg (Int.not_le.mpr hpositive)]

/-- **A bucket** is sent from its first node to its last. -/
theorem exportBucket_sent {chain : List DataNode}
    (hchain : ∀ node ∈ chain, ∃ value, node.2 = some value ∧
      validateKey node.1 = true ∧ validateValue value = true) (progress : Progress) :
    exportBucket sends chain progress =
      (0, ⟨progress.sent ++ (chainEntries chain).map dataEntryMessage,
        progress.exportedCount + (chainEntries chain).length⟩) := by
  induction chain generalizing progress with
  | nil => simp [exportBucket, chainEntries]
  | cons node chain ih =>
    obtain ⟨value, hvalue, hkey, hvalid⟩ := hchain node List.mem_cons_self
    have hrest := ih fun other hother => hchain other (List.mem_cons_of_mem _ hother)
    have hpositive := hsends progress.sent.length
    have hentries : chainEntries (node :: chain) = (node.1, value) :: chainEntries chain := by
      simp [chainEntries, hvalue]
    rw [exportBucket, entryMessage_eq hvalue hkey hvalid, send_some hsends, hentries]
    simp only [if_neg (Int.not_le.mpr hpositive), hrest, List.map_cons, List.length_cons,
      List.append_assoc, List.cons_append, List.nil_append, Nat.cast_add, Nat.cast_one]
    congr 2
    omega

/-- **The scan** sends the entries of the buckets in front of it. -/
theorem exportBuckets_sent {table : HashTable} (hcomplete : Complete table)
    (hentries : ValidEntries table) (buckets : List (Fin workerHashTableBucketCount))
    (progress : Progress) :
    exportBuckets sends table buckets progress =
      (0, ⟨progress.sent ++ (bucketEntries table buckets).map dataEntryMessage,
        progress.exportedCount + (bucketEntries table buckets).length⟩) := by
  induction buckets generalizing progress with
  | nil => simp [exportBuckets, bucketEntries]
  | cons bucket rest ih =>
    have hchain : ∀ node ∈ table.chains bucket, ∃ value, node.2 = some value ∧
        validateKey node.1 = true ∧ validateValue value = true := by
      intro node hnode
      obtain ⟨value, hvalue⟩ := Option.ne_none_iff_exists'.mp (hcomplete bucket node hnode)
      have hlookup := lookup_of_mem_bucket hnode
      rw [hvalue] at hlookup
      exact ⟨value, hvalue, hentries node.1 value hlookup⟩
    have hbucket : bucketEntries table (bucket :: rest) =
        chainEntries (table.chains bucket) ++ bucketEntries table rest := by
      simp [bucketEntries]
    rw [exportBuckets, exportBucket_sent hsends hchain, hbucket]
    simp only [ih, ne_eq, not_true_eq_false, if_false, List.map_append, List.append_assoc,
      List.length_append, Nat.cast_add]
    congr 2
    omega

/-- **The export** of a table with all its values. -/
theorem exportHashTableToPeer_sent {table : HashTable} (hcomplete : Complete table)
    (hentries : ValidEntries table) {peerManager : PeerTable} {targetWorkerId : Int32}
    {socket : Nat} (hconnected : peerManager.getPeerConnection targetWorkerId = some socket) :
    exportHashTableToPeer table peerManager targetWorkerId sends =
      .accept (0, ⟨exportMessages (tableEntries table), (tableEntries table).length⟩) := by
  have hcount : getHashTableCount table = .accept (tableEntries table).length := by
    rw [getHashTableCount_eq (complete_iff.mp hcomplete), ← keys_tableEntries hcomplete,
      List.length_map]
  have hpositive : ∀ i, ¬ sends i ≤ 0 := fun i => Int.not_le.mpr (hsends i)
  let started : Progress := ⟨[startMessage (tableEntries table).length], 0⟩
  let scanned : Progress := ⟨started.sent ++ (tableEntries table).map dataEntryMessage,
    0 + (tableEntries table).length⟩
  have hstarted : send sends (sendDataExportStart (UInt32.ofNat (tableEntries table).length))
      ⟨[], 0⟩ = (sends 0, started) := send_some hsends _ _
  have hscanned : exportBuckets sends table (List.finRange workerHashTableBucketCount) started =
      (0, scanned) := exportBuckets_sent hsends hcomplete hentries _ started
  have hended : send sends sendDataExportEnd scanned =
      (sends scanned.sent.length, { scanned with sent := scanned.sent ++ [endMessage] }) :=
    send_some hsends _ _
  unfold exportHashTableToPeer
  rw [hconnected, hcount]
  simp only [Outcome.map, hstarted, hscanned, hended, hpositive, if_false, ne_eq,
    not_true_eq_false]
  simp [scanned, started, exportMessages]

end Sends

/-! ## What the import stores -/

theorem peerEntry_dataEntryMessage {entry : CString × CString}
    (hvalid : validateKey entry.1 = true ∧ validateValue entry.2 = true) :
    peerEntry (dataEntryMessage entry) = some entry := by
  have hmessage : entryMessage (entry.1, some entry.2) = some (dataEntryMessage entry) :=
    entryMessage_eq rfl hvalid.1 hvalid.2
  obtain ⟨value, hvalue, hentry⟩ := peerEntry_entryMessage hmessage
  rw [hentry, ← Option.some.inj hvalue]

variable (allocated : CString → Bool)

/-- **One entry** is stored where its key is absent and there is memory. -/
theorem processMessage_dataEntry {entry : CString × CString}
    (hvalid : validateKey entry.1 = true ∧ validateValue entry.2 = true) (table : HashTable) :
    ∃ stored, processMessage allocated table (dataEntryMessage entry) = .accept stored ∧
      ∀ key, lookup stored key = (lookup table key).or
        (if key = entry.1 ∧ allocated key = true then some (some entry.2) else none) := by
  have hne : entry.1 ≠ CString.empty := by
    intro hempty
    rw [hempty] at hvalid
    cases hvalid.1
  have htype : MessageType.ofValue? (dataEntryMessage entry).type ≠ some .dataExportEnd := by
    simp [dataEntryMessage]
  rw [processMessage, if_neg htype, peerEntry_dataEntryMessage hvalid]
  by_cases hfresh : lookup table entry.1 = none
  · refine ⟨_, if_pos (hasHashTable_eq_zero.mpr ⟨hne, hfresh⟩), ?_⟩
    intro key
    cases hallocated : allocated entry.1 with
    | true =>
      rw [lookup_setHashTable hne]
      by_cases hkey : key = entry.1
      · rw [hkey, hfresh, if_pos rfl, if_pos ⟨rfl, hallocated⟩, Option.none_or]
      · rw [if_neg hkey, if_neg fun h => hkey h.1, Option.or_none]
    | false =>
      have hrefused : ¬ (key = entry.1 ∧ allocated key = true) := by
        rintro ⟨rfl, hmemory⟩
        rw [hallocated] at hmemory
        cases hmemory
      rw [setHashTable_failed hfresh, if_neg hrefused, Option.or_none]
  · have hknown : hasHashTable table entry.1 ≠ 0 := fun h =>
      hfresh (hasHashTable_eq_zero.mp h).2
    refine ⟨_, if_neg hknown, ?_⟩
    intro key
    by_cases hkey : key = entry.1
    · obtain ⟨value, hvalue⟩ := Option.ne_none_iff_exists'.mp hfresh
      rw [hkey, hvalue, Option.some_or]
    · rw [if_neg fun h => hkey h.1, Option.or_none]

/-- **The entries**, in any order: no key is in two of them. -/
theorem processMessages_entries {order : List (CString × CString)}
    (hnodup : (order.map Prod.fst).Nodup)
    (hvalid : ∀ entry ∈ order, validateKey entry.1 = true ∧ validateValue entry.2 = true)
    (rest : List Message) (table : HashTable) :
    ∃ stored, processMessages allocated table (order.map dataEntryMessage ++ rest) =
        processMessages allocated stored rest ∧
      ∀ key, lookup stored key = (lookup table key).or
        (if allocated key then (chainFind? key order).map some else none) := by
  induction order generalizing table with
  | nil =>
    refine ⟨table, rfl, ?_⟩
    intro key
    simp [chainFind?]
  | cons entry order ih =>
    rw [List.map_cons, List.nodup_cons] at hnodup
    obtain ⟨one, hone, honeLookup⟩ := processMessage_dataEntry allocated
      (hvalid entry List.mem_cons_self) table
    obtain ⟨stored, hstored, hlookup⟩ :=
      ih hnodup.2 (fun other hother => hvalid other (List.mem_cons_of_mem _ hother)) one
    refine ⟨stored, ?_, ?_⟩
    · rw [List.map_cons, List.cons_append, processMessages, hone]
      exact hstored
    · intro key
      rw [hlookup key, honeLookup key, Option.or_assoc, chainFind?]
      congr 1
      by_cases hkey : key = entry.1
      · have hlater : chainFind? key order = none := by
          rw [chainFind?_eq_none]
          intro node hnode hsame
          exact hnodup.1 (List.mem_map.mpr ⟨node, hnode, hsame.trans hkey⟩)
        rw [hlater, if_pos hkey.symm]
        cases allocated key <;> simp [hkey]
      · have hother : ¬ (key = entry.1 ∧ allocated key = true) := fun h => hkey h.1
        have hne : entry.1 ≠ key := fun h => hkey h.symm
        rw [if_neg hother, if_neg hne, Option.none_or]

/-- The last message only makes the listener count. -/
theorem processMessages_end {table : HashTable} (h : Complete table) :
    processMessages allocated table [endMessage] = .accept table := by
  have hcount := getHashTableCount_eq (complete_iff.mp h)
  have hend : processMessage allocated table endMessage =
      (getHashTableCount table).map fun _ => table := rfl
  rw [processMessages, hend, hcount]
  rfl

theorem processMessages_end_fault {table : HashTable} (h : ¬ Complete table) :
    processMessages allocated table [endMessage] = .fault := by
  have hend : processMessage allocated table endMessage =
      (getHashTableCount table).map fun _ => table := rfl
  rw [processMessages, hend, getHashTableCount_fault h]
  rfl

/-- **The import** of an export, in any order. -/
theorem processMessages_export {order : List (CString × CString)}
    (hnodup : (order.map Prod.fst).Nodup)
    (hvalid : ∀ entry ∈ order, validateKey entry.1 = true ∧ validateValue entry.2 = true)
    (receiver : HashTable) :
    ∃ stored, (∀ key, lookup stored key = (lookup receiver key).or
        (if allocated key then (chainFind? key order).map some else none)) ∧
      (Complete receiver →
        processMessages allocated receiver (exportMessages order) = .accept stored) ∧
      (¬ Complete receiver →
        processMessages allocated receiver (exportMessages order) = .fault) := by
  obtain ⟨stored, hstored, hlookup⟩ :=
    processMessages_entries allocated hnodup hvalid [endMessage] receiver
  have hstart : processMessage allocated receiver (startMessage order.length) =
      .accept receiver := rfl
  -- no entry puts a NULL into the table or takes one out
  have hsame : Complete stored ↔ Complete receiver := by
    rw [complete_iff, complete_iff]
    refine forall_congr' fun key => not_congr ?_
    rw [hlookup key]
    cases lookup receiver key with
    | some value => rw [Option.some_or]
    | none => cases allocated key <;> cases chainFind? key order <;> simp
  refine ⟨stored, hlookup, ?_, ?_⟩
  · intro hcomplete
    rw [exportMessages, processMessages, hstart]
    exact hstored.trans (processMessages_end allocated (hsame.mpr hcomplete))
  · intro hnull
    rw [exportMessages, processMessages, hstart]
    exact hstored.trans (processMessages_end_fault allocated fun h => hnull (hsame.mp h))

/-! ## Export, then import -/

section RoundTrip

variable {calls : List SetCall} {table : HashTable} {peerManager : PeerTable}
  {targetWorkerId : Int32} {socket : Nat} {sends : Nat → Int}

/-- What the entries of a table are found as, in any order. -/
theorem EntriesOf.chainFind? {entries order : List (CString × CString)}
    (h : EntriesOf table entries) (horder : order.Perm entries) (hcomplete : Complete table)
    (key : CString) : (Base.chainFind? key order).map some = lookup table key := by
  have hnodup : (order.map Prod.fst).Nodup := (horder.map Prod.fst).nodup_iff.mpr h.nodup
  cases hlookup : lookup table key with
  | none =>
    have habsent : Base.chainFind? key order = none := by
      rw [chainFind?_eq_none]
      rintro ⟨k, value⟩ hnode rfl
      have hfound := (h.mem_iff k value).mp (horder.mem_iff.mp hnode)
      rw [hlookup] at hfound
      cases hfound
    rw [habsent, Option.map_none]
  | some held =>
    obtain ⟨value, rfl⟩ : ∃ value, held = some value :=
      Option.ne_none_iff_exists'.mp fun hnull => complete_iff.mp hcomplete key (hnull ▸ hlookup)
    have hmem := horder.mem_iff.mpr ((h.mem_iff key value).mpr hlookup)
    rw [(chainFind?_eq_some hnodup).mpr hmem, Option.map_some]

/-- An export that keeps its promise counted the table to its end. -/
theorem complete_of_transfers
    (hconnected : peerManager.getPeerConnection targetWorkerId = some socket) {receiver : HashTable}
    (h : Transfers peerManager targetWorkerId sends allocated table receiver) :
    Complete table := by
  obtain ⟨entries, -, hexport, -⟩ := h
  by_contra hnull
  rw [exportHashTableToPeer, hconnected, getHashTableCount_fault hnull] at hexport
  cases hexport

/-- **When export and import move a table.** The peer is connected and all
sends succeed; then every key is announced, sent once with its value, and
stored by the receiver that does not have it, exactly when no key of either
table is without a value. -/
theorem export_import_iff (hvalid : ∀ call ∈ calls, Valid call)
    (hrun : exec TableFailures.step initializeHashTable calls = some table)
    (hconnected : peerManager.getPeerConnection targetWorkerId = some socket)
    (hsends : ∀ i, 0 < sends i) (receiver : HashTable) :
    Transfers peerManager targetWorkerId sends allocated table receiver ↔
      Complete table ∧ Complete receiver := by
  have hentries := validEntries_exec hvalid hrun
  constructor
  · intro htransfers
    have hcomplete := complete_of_transfers allocated hconnected htransfers
    obtain ⟨entries, hof, -, himport⟩ := htransfers
    obtain ⟨received, hreceived, -⟩ := himport entries (List.Perm.refl _)
    obtain ⟨stored, -, -, hfault⟩ := processMessages_export allocated hof.nodup
      (fun entry hentry => hentries entry.1 entry.2 ((hof.mem_iff _ _).mp hentry)) receiver
    refine ⟨hcomplete, ?_⟩
    by_contra hnull
    rw [hfault hnull] at hreceived
    cases hreceived
  · rintro ⟨hcomplete, hreceiver⟩
    have hof := entriesOf_tableEntries hcomplete
    refine ⟨tableEntries table, hof,
      exportHashTableToPeer_sent hsends hcomplete hentries hconnected, ?_⟩
    intro order horder
    have hnodup : (order.map Prod.fst).Nodup := (horder.map Prod.fst).nodup_iff.mpr hof.nodup
    have hsendable : ∀ entry ∈ order,
        validateKey entry.1 = true ∧ validateValue entry.2 = true := by
      intro entry hentry
      exact hentries entry.1 entry.2 ((hof.mem_iff _ _).mp (horder.mem_iff.mp hentry))
    obtain ⟨stored, hlookup, hstored, -⟩ :=
      processMessages_export allocated hnodup hsendable receiver
    refine ⟨stored, hstored hreceiver, ?_⟩
    intro key
    rw [hlookup key, hof.chainFind? horder hcomplete key]

end RoundTrip

/-- The registry of a worker that is connected to worker 2. -/
def connectedPeers : PeerTable :=
  ((PeerTable.initializePeerManager 5001).addPeer 2 (.ofString "10.0.0.2") 5002 (.connected 7)).2.1

/-- A store that finds memory. -/
def stored (key value : String) : SetCall :=
  ⟨some (.ofString key), some (.ofString value), fun _ => true⟩

/-- The calls of the examples have valid arguments. -/
theorem valid_of_mem {first second : SetCall} (hfirst : Valid first) (hsecond : Valid second) :
    ∀ call ∈ [first, second], Valid call := by
  intro call hcall
  rcases List.mem_pair.mp hcall with rfl | rfl
  · exact hfirst
  · exact hsecond

theorem getPeerConnection_connectedPeers : connectedPeers.getPeerConnection 2 = some 7 := by
  decide +kernel

/-- Two keys, to a worker that has one of them already. -/
theorem export_import_two :
    Transfers connectedPeers 2 (fun _ => 9) (fun _ => true)
      (TableFailures.setHashTable (TableFailures.setHashTable initializeHashTable
        (stored "a" "1")).2 (stored "b" "2")).2
      (TableFailures.setHashTable initializeHashTable (stored "b" "other")).2 :=
  (export_import_iff (fun _ => true)
    (valid_of_mem ⟨_, _, rfl, rfl, by decide, by decide⟩
      ⟨_, _, rfl, rfl, by decide, by decide⟩)
    (show exec TableFailures.step initializeHashTable [stored "a" "1", stored "b" "2"] = some _
      from rfl)
    getPeerConnection_connectedPeers (fun _ => by decide) _).mpr
    ⟨by unfold Complete; decide +kernel, by unfold Complete; decide +kernel⟩

/-- **An export can bring its worker down**: the value of `k` was lost by a
store without memory, and the count dereferences it. -/
theorem export_faults :
    ¬ ∀ (calls : List SetCall) (table : HashTable), (∀ call ∈ calls, Valid call) →
      exec TableFailures.step initializeHashTable calls = some table →
      ∀ (peerManager : PeerTable) (targetWorkerId : Int32) (socket : Nat) (sends : Nat → Int),
        peerManager.getPeerConnection targetWorkerId = some socket → (∀ i, 0 < sends i) →
        ∀ receiver, Complete receiver →
          Transfers peerManager targetWorkerId sends (fun _ => true) table receiver := by
  intro hall
  have hold : Valid (stored "k" "old") := ⟨_, _, rfl, rfl, by decide, by decide⟩
  have hnew : Valid outOfMemory := ⟨_, _, rfl, rfl, by decide, by decide⟩
  have hconnected := getPeerConnection_connectedPeers
  have htransfers := hall _ _ (valid_of_mem hold hnew) rfl connectedPeers 2 7 (fun _ => 9)
    hconnected (fun _ => by decide) initializeHashTable complete_initializeHashTable
  have hcomplete := complete_of_transfers _ hconnected htransfers
  refine complete_iff.mp hcomplete (.ofString "k") ?_
  decide +kernel

end LoadBalancing.Worker.ExportImport
