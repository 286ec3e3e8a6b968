/-
LoadBalancing.Pipeline.Provenance — whose values the fleet answers with.

As long as frames arrive whole, in whatever order the threads run, whatever
fails and whichever workers join and end, a GET that is answered with
`ERR_NONE` is answered with a value that some client has put under that key,
and no worker ever holds another one (`values_were_put`). A PUT that is
answered with `ERR_NONE` has had its key stored by a worker, and there it
stays until this worker ends (`acknowledged_keys_stay`).

The invariant speaks of every message on its way: what it carries was put,
and what it acknowledges was stored. A hop keeps both, as it passes on what
it reads; a lookup answers from a table, of which `Worker.StoredValues`
says the same.

No `sorry`, no `axiom`, no `native_decide`.
-/
import LoadBalancing.Base.Transition
import LoadBalancing.Client.Keys
import LoadBalancing.Pipeline.FleetEnds
import LoadBalancing.Pipeline.Readings

namespace LoadBalancing.Pipeline.Fleet

open LoadBalancing.Base LoadBalancing.Lib LoadBalancing.LoadBalancer LoadBalancing.Worker
open LoadBalancing.Client (ClientRun putKey? isPut)

/-! ## What an item says -/

/-- The fields of an item's message. -/
def Item.fields : Item → Option (Fields CString)
  | .request r => fieldsOf (requestMessage r)
  | .toWorker _ message | .replying _ message | .fromWorker _ message => fieldsOf message
  | .response r => fieldsOf (workerMessage r)
  | .delivered delivery => fieldsOf delivery.message

/-- The entry in a message: that of a store, or what a lookup has found. -/
def carried : Fields CString → Option (CString × CString)
  | .put key value | .storeRequest _ key value => some (key, value)
  | .getResponse result key value | .retrieveResponse result _ key value =>
    if result = ErrorCode.none.value then some (key, value) else none
  | _ => none

/-- The key of a store that has succeeded. -/
def acknowledged : Fields CString → Option CString
  | .putResponse result key | .storeResponse result _ key =>
    if result = ErrorCode.none.value then some key else none
  | _ => none

/-- A client has sent a PUT of this value under this key. -/
def WasPut (s : State) (key value : CString) : Prop :=
  ∃ message ∈ s.sent, fieldsOf message = some (.put key value)

/-- A worker has stored this key for a client. -/
def IsStored (s : State) (key : CString) : Prop := ∃ w, (w, key) ∈ s.stored

/-- An item tells the truth. -/
def Item.Truthful (s : State) (x : Item) : Prop :=
  ∀ fields, x.fields = some fields →
    (∀ key value, carried fields = some (key, value) → WasPut s key value) ∧
      ∀ key, acknowledged fields = some key → IsStored s key

/-- Every item does, the workers hold what was put, and those that have not
ended what they have stored, and what the receiver threads of the clients
have still to read was sent. -/
structure Sound (s : State) : Prop where
  items : ∀ x ∈ s.items, x.Truthful s
  cluster : Cluster.Holds (WasPut s) s.cluster
  stored : ∀ w key, (w, key) ∈ s.stored → w < s.cluster.size ∧
    (s.stopped w = false → lookup (s.cluster.node w).table key ≠ none)
  unread : ∀ i, ∀ message ∈ s.fromClient i, message ∈ s.sent

section Steps

variable {d : Worker.Delivery} {s t : State} {l : Label}

/-! ## The two ends -/

theorem sent_subset (h : ClientStep s t) : ∀ message ∈ s.sent, message ∈ t.sent := by
  intro message hmem
  cases h with
  | none hfrom hsent | read hunread hfrom hsent | left i hfrom hsent =>
    rwa [hsent]
  | sent i m hfrom hsent =>
    rw [hsent]
    exact List.mem_append_left _ hmem

theorem WasPut.mono {key value : CString} (h : WasPut s key value) (hstep : ClientStep s t) :
    WasPut t key value := by
  obtain ⟨message, hmem, hread⟩ := h
  exact ⟨message, sent_subset hstep message hmem, hread⟩

theorem unread_step (hunread : ∀ i, ∀ message ∈ s.fromClient i, message ∈ s.sent)
    (h : ClientStep s t) : ∀ i, ∀ message ∈ t.fromClient i, message ∈ t.sent := by
  intro j message hmem
  cases h with
  | none hfrom hsent =>
    rw [hfrom] at hmem
    rw [hsent]
    exact hunread j message hmem
  | sent i m hfrom hsent =>
    rw [hfrom] at hmem
    rw [hsent]
    by_cases hj : j = i
    · subst hj
      rw [Function.update_self] at hmem
      rcases List.mem_append.mp hmem with hold | hnew
      · exact List.mem_append_left _ (hunread j message hold)
      · exact List.mem_append_right _ hnew
    · rw [Function.update_of_ne hj] at hmem
      exact List.mem_append_left _ (hunread j message hmem)
  | @read i m rest hnext hfrom hsent =>
    rw [hfrom] at hmem
    rw [hsent]
    by_cases hj : j = i
    · subst hj
      rw [Function.update_self] at hmem
      exact hunread j message (by rw [hnext]; exact List.mem_cons_of_mem _ hmem)
    · rw [Function.update_of_ne hj] at hmem
      exact hunread j message hmem
  | left i hfrom hsent =>
    rw [hfrom] at hmem
    rw [hsent]
    by_cases hj : j = i
    · subst hj
      rw [Function.update_self] at hmem
      cases hmem
    · rw [Function.update_of_ne hj] at hmem
      exact hunread j message hmem

theorem holds_step (h : Sound s) (hclients : ClientStep s t) (hstep : ClusterStep d s t) :
    Cluster.Holds (WasPut t) t.cluster := by
  refine holds_cluster (h.cluster.mono fun key value hput => hput.mono hclients) hstep ?_
  intro w message request hmem htype hrequest
  -- what is stored is carried by the message
  exact ((h.items _ hmem _ (fieldsOf_storeRequest htype hrequest)).1 _ _ rfl).mono hclients

/-- A move that stores no key for a client takes none away. -/
theorem keeps_quiet {cluster : Cluster} (hmove : QuietMove d s cluster) :
    cluster.size = s.cluster.size ∧ Cluster.Keeps s.cluster cluster := by
  cases hmove with
  | none => exact ⟨rfl, Cluster.Keeps.refl _⟩
  | move hmove => exact ⟨Cluster.size_move hmove, Cluster.keeps_move hmove⟩
  | told w message connected =>
    refine ⟨size_receiveOther w message connected, ?_⟩
    rcases receiveOther_cases s w message connected with heq | ⟨peer, heq | heq | heq⟩
    · rw [heq]
      exact Cluster.Keeps.refl _
    · rw [heq]
      exact Cluster.keeps_addPeer w peer
    · rw [heq]
      exact (Cluster.keeps_addPeer w peer).trans (Cluster.keeps_addExportRequest w peer)
    · rw [heq]
      exact Cluster.keeps_addExportRequest w peer
  | notifyFailed hreceiver => exact ⟨rfl, Cluster.keeps_setNode fun key h => h⟩
  | exportFailed w => exact ⟨rfl, Cluster.keeps_setNode fun key h => h⟩
  | broken c => exact ⟨rfl, Cluster.Keeps.refl _⟩

/-- The workers stay, and those that go on keep their keys. -/
theorem keeps_step (hstep : ClusterStep d s t) :
    t.cluster.size = s.cluster.size ∧ ∀ w, t.stopped w = false → s.stopped w = false ∧
      ∀ key, lookup (s.cluster.node w).table key ≠ none →
        lookup (t.cluster.node w).table key ≠ none := by
  cases hstep with
  | quiet hmove hstopped =>
    obtain ⟨hsize, hkeeps⟩ := keeps_quiet hmove
    exact ⟨hsize, fun w hw => ⟨hstopped ▸ hw, hkeeps w⟩⟩
  | stored hmem hw htype hdecode hmove hstopped =>
    exact ⟨Cluster.size_move hmove, fun w hw => ⟨hstopped ▸ hw, Cluster.keeps_move hmove w⟩⟩
  | ended w hcluster hstopped =>
    refine ⟨by rw [hcluster]; rfl, fun v hv => ?_⟩
    -- the others are as they were
    have hne : v ≠ w := by
      rintro rfl
      rw [hstopped, Function.update_self] at hv
      cases hv
    rw [hstopped, Function.update_of_ne hne] at hv
    refine ⟨hv, fun key hkey => ?_⟩
    rw [hcluster]
    show lookup (Function.update s.cluster.node w Node.fresh v).table key ≠ none
    rwa [Function.update_of_ne hne]

theorem stored_subset (h : ClusterStep d s t) : ∀ x ∈ s.stored, x ∈ t.stored := by
  intro x hx
  cases h with
  | quiet hmove hstopped hstored => rwa [hstored]
  | stored hmem hw htype hdecode hmove hstopped hstored =>
    rw [hstored]
    exact List.mem_append_left _ hx
  | ended w hcluster hstopped hstored => rwa [hstored]

theorem IsStored.mono {key : CString} (h : IsStored s key) (hstep : ClusterStep d s t) :
    IsStored t key := by
  obtain ⟨w, hw⟩ := h
  exact ⟨w, stored_subset hstep _ hw⟩

/-- Behind a store the worker has the table that `SetHashTable` leaves. -/
theorem table_receive {c c' : Cluster} {w : Nat} {payload : List UInt8} {allocated : Bool}
    {request : StoreRequest} (hdecode : storeRequest? payload = some request)
    (h : Cluster.Move d c (.receive w (.storeRequest payload allocated)) c') :
    (c'.node w).table
      = (setHashTable (c.node w).table request.key request.value allocated).2 := by
  cases h with
  | dropped w allocated hnone =>
    rw [hdecode] at hnone
    cases hnone
  | stored hw hidle hdecode' hset =>
    rw [hdecode, Option.some.injEq] at hdecode'
    subst hdecode'
    simp [hset]
  | refused hdecode' hset hresult =>
    rw [hdecode, Option.some.injEq] at hdecode'
    subst hdecode'
    simp [hset]

/-- The key that the log has of a store is the one stored. -/
theorem eq_of_mem_storedKey {w v : Nat} {key k : CString} {result : Int}
    (h : (v, k) ∈ storedKey w key result) : result = 1 ∧ v = w ∧ k = key := by
  unfold storedKey at h
  split at h
  · rename_i hresult
    exact ⟨hresult, Prod.mk.inj (List.mem_singleton.mp h)⟩
  · cases h

/-- **What was stored stays** with the workers that go on. -/
theorem stored_step (h : Sound s) (hstep : ClusterStep d s t) : ∀ w key, (w, key) ∈ t.stored →
    w < t.cluster.size ∧
      (t.stopped w = false → lookup (t.cluster.node w).table key ≠ none) := by
  intro v k hmem
  obtain ⟨hsize, hkeeps⟩ := keeps_step hstep
  have hold : (v, k) ∈ s.stored → v < t.cluster.size ∧
      (t.stopped v = false → lookup (t.cluster.node v).table k ≠ none) := by
    intro hmem
    obtain ⟨hv, hkey⟩ := h.stored v k hmem
    refine ⟨hsize ▸ hv, fun hgoes => ?_⟩
    obtain ⟨hgoes', hkeeps'⟩ := hkeeps v hgoes
    exact hkeeps' k (hkey hgoes')
  cases hstep with
  | quiet hmove hstopped hstored => exact hold (hstored ▸ hmem)
  | stored hmessage hw htype hdecode hmove hstopped hstored =>
    rw [hstored] at hmem
    rcases List.mem_append.mp hmem with hmem | hmem
    · exact hold hmem
    · obtain ⟨hone, rfl, rfl⟩ := eq_of_mem_storedKey hmem
      obtain ⟨hne, hallocated⟩ := setHashTable_eq_one.mp hone
      refine ⟨hsize ▸ hw, fun _ => ?_⟩
      rw [table_receive hdecode hmove, hallocated, lookup_setHashTable hne, if_pos rfl]
      exact Option.some_ne_none _
  | ended w hcluster hstopped hstored => exact hold (hstored ▸ hmem)

/-! ## The items -/

/-- Fields that are read off the same message. -/
theorem Item.Truthful.of_fields {x y : Item} (h : x.Truthful s) (hfields : y.fields = x.fields) :
    y.Truthful s := by
  intro fields hread
  exact h fields (hfields ▸ hread)

theorem Item.Truthful.mono {x : Item} (h : x.Truthful s) (hclients : ClientStep s t)
    (hcluster : ClusterStep d s t) : x.Truthful t := by
  intro fields hread
  obtain ⟨hcarried, hacknowledged⟩ := h fields hread
  exact ⟨fun key value hentry => (hcarried key value hentry).mono hclients,
    fun key hkey => (hacknowledged key hkey).mono hcluster⟩

/-- What is read is put and stored. -/
theorem truthful_of_read {x : Item} {fields : Fields CString} (hread : x.fields = some fields)
    (hcarried : ∀ key value, carried fields = some (key, value) → WasPut s key value)
    (hacknowledged : ∀ key, acknowledged fields = some key → IsStored s key) : x.Truthful s := by
  intro fields' hread'
  rw [hread, Option.some.injEq] at hread'
  subst hread'
  exact ⟨hcarried, hacknowledged⟩

/-- Nothing to read, nothing said. -/
theorem truthful_of_none {x : Item} (h : x.fields = none) : x.Truthful s := by
  intro fields hread
  rw [h] at hread
  cases hread

/-- **A hop keeps to the truth.** -/
theorem truthful_next (h : Sound s) (hclients : ClientStep s t) {x y : Item}
    (hx : x.Truthful t) (hnext : Next s t x y) : y.Truthful t := by
  cases hnext with
  | copied hsame =>
    obtain ⟨-, -, htype, -, hcontent⟩ := hsame
    refine hx.of_fields ?_
    simp only [Item.fields, requestMessage, htype, hcontent]
  | dispatched hw htranslate =>
    rcases translate_readings htranslate with ⟨key, value, hfrom, hto⟩ | ⟨key, hfrom, hto⟩
    · exact truthful_of_read hto (hx _ hfrom).1 fun key h => by cases h
    · exact truthful_of_read hto (fun key value h => by cases h) fun key h => by cases h
  | @stored w message reply request allocated hw htype hdecode hlog hreply =>
    refine truthful_of_read (fieldsOf_storeResponse hreply) (fun key value h => by cases h)
      fun key hkey => ?_
    -- an acknowledged key is the one stored
    obtain ⟨hstored, rfl⟩ : (setHashTable (s.cluster.node w).table request.key request.value
        allocated).1 = 1 ∧ request.key = key := by
      by_cases hone : (setHashTable (s.cluster.node w).table request.key request.value
          allocated).1 = 1
      · rw [if_pos hone, acknowledged, if_pos rfl] at hkey
        exact ⟨hone, Option.some.inj hkey⟩
      · rw [if_neg hone, acknowledged, if_neg (by decide)] at hkey
        cases hkey
    refine ⟨w, ?_⟩
    rw [hlog, storedKey, if_pos hstored]
    exact List.mem_append_right _ (List.mem_singleton_self _)
  | @retrieved w message reply request allocated value hw htype hdecode hget hreply =>
    cases value with
    | none =>
      refine truthful_of_read (fieldsOf_retrieveResponse hreply) (fun key value h => ?_)
        fun key h => by cases h
      simp only [carried] at h
      rw [if_neg (by decide)] at h
      cases h
    | some value =>
      refine truthful_of_read (fieldsOf_retrieveResponse hreply) (fun key value' h => ?_)
        fun key h => by cases h
      rw [carried, if_pos rfl] at h
      cases h
      rcases hget with hnone | hget
      · cases hnone
      · exact ((h.cluster.nodes w).table _ _ (lookup_of_getHashTable hget)).mono hclients
  | responded w message => exact hx.of_fields rfl
  | received hmessage hclient hresponse =>
    refine hx.of_fields ?_
    simp only [Item.fields, hmessage]
  | copiedResponse hsame =>
    obtain ⟨-, -, -, htype, -, hcontent⟩ := hsame
    refine hx.of_fields ?_
    simp only [Item.fields, workerMessage, htype, hcontent]
  | replied clientSocket hmessage =>
    rcases responseMessage_readings hmessage with ⟨result, clientId, key, hfrom, hto⟩ |
      ⟨result, clientId, key, value, hfrom, hto⟩ | hto
    · exact truthful_of_read hto (fun key value h => by cases h) (hx _ hfrom).2
    · refine truthful_of_read hto (fun key' value' h => ?_) fun key h => by cases h
      refine (hx _ hfrom).1 key' value' ?_
      simp only [Fields.withFailureValue, carried] at h ⊢
      split at h
      · rename_i hresult
        rwa [if_pos hresult]
      · cases h
    · exact truthful_of_none hto

/-- A request that is accepted is a PUT or a GET. -/
theorem type_of_request {request : ClientRequest} {fields : Fields CString}
    (haccepts : accepts request = true) (h : fieldsOf (requestMessage request) = some fields) :
    fields.type = .put ∨ fields.type = .get := by
  unfold accepts at haccepts
  split at haccepts
  · rename_i htype
    exact Or.inl (type_of_fieldsOf htype h)
  · rename_i htype
    exact Or.inr (type_of_fieldsOf htype h)
  · cases haccepts

/-- What comes in is what a client has sent, or says nothing. -/
theorem truthful_new (h : Sound s) (hclients : ClientStep s t) {y : Item} (hnew : New s t y) :
    y.Truthful t := by
  cases hnew with
  | @entered request copy hsame haccepts hsent hentered =>
    obtain ⟨-, -, htype, -, hcontent⟩ := hsame
    obtain ⟨i, hmem⟩ := hsent
    have hmessage : requestMessage copy = requestMessage request := by
      simp only [requestMessage, htype, hcontent]
    intro fields hread
    rw [show Item.fields (.request copy) = fieldsOf (requestMessage request) by
      rw [← hmessage]
      rfl] at hread
    have hfields := type_of_request haccepts hread
    refine ⟨fun key value hentry => ?_, fun key hkey => ?_⟩
    · obtain rfl : fields = .put key value := by
        cases fields <;> simp_all [carried, Fields.type]
      exact ⟨requestMessage request, sent_subset hclients _ (h.unread i _ hmem), hread⟩
    · cases fields <;> simp_all [acknowledged, Fields.type]
  | told hw htype =>
    intro fields hread
    rcases htype with htype | htype
    · have hkind := type_of_fieldsOf (htype ▸ MessageType.ofValue?_value _) hread
      cases fields <;> simp_all [Fields.type, carried, acknowledged]
    · rw [show Item.fields _ = fieldsOf _ from rfl, fieldsOf_error htype] at hread
      cases hread
  | refused htype => exact truthful_of_none (fieldsOf_error htype)

/-- **Every step** with whole frames keeps the truth. -/
theorem sound_step (h : Sound s) (hl : l.framed) (hstep : step d s l = some t) : Sound t := by
  have hclients := step_clients hl hstep
  have hcluster := step_cluster hl hstep
  refine ⟨?_, holds_step h hclients hcluster, stored_step h hcluster,
    unread_step h.unread hclients⟩
  exact (step_transfer hl hstep).forall_mem
    (fun x hx => (h.items x hx).mono hclients hcluster)
    (fun x y hx hnext => truthful_next h hclients hx hnext)
    (fun y hnew => truthful_new h hclients hnew)

end Steps

/-! ## Runs -/

section Runs

variable {net : Wiring} {d : Worker.Delivery} {n : Nat} {requestSlots : Nat → ClientRequest}
  {responseSlots : Nat → WorkerResponse} {ls : List Label} {t : State}

theorem sound_start (n : Nat) (net : Wiring) (requestSlots : Nat → ClientRequest)
    (responseSlots : Nat → WorkerResponse) : Sound (start n net requestSlots responseSlots) := by
  refine ⟨fun x hx => ?_, Cluster.holds_start _ n, fun w key hmem => ?_, fun i message hmem => ?_⟩
  · rw [items_start] at hx
    exact absurd hx (Multiset.notMem_zero x)
  · cases hmem
  · cases hmem

theorem sound_run (hframed : ∀ l ∈ ls, l.framed)
    (hrun : exec (step d) (start n net requestSlots responseSlots) ls = some t) : Sound t :=
  exec_invariant_along (fun _ _ _ h hl hstep => sound_step h hl hstep)
    (sound_start n net requestSlots responseSlots) ((along_label_iff hrun).mpr hframed) hrun

theorem mem_items_delivered {delivery : Delivery} (h : delivery ∈ t.toClients) :
    Item.delivered delivery ∈ t.items :=
  Multiset.mem_add.mpr (Or.inr (mem_pile.mpr ⟨delivery, h, rfl⟩))

/-- **No value out of thin air.** In every run whose frames arrive whole,
each GET that is answered with `ERR_NONE` is answered with a value that a
client has put under the key in the answer, and each value in the table of a
worker was put under its key. -/
theorem values_were_put (hframed : ∀ l ∈ ls, l.framed)
    (hrun : exec (step d) (start n net requestSlots responseSlots) ls = some t) :
    (∀ delivery ∈ t.toClients, ∀ key value,
      fieldsOf delivery.message = some (.getResponse ErrorCode.none.value key value) →
        WasPut t key value) ∧
      ∀ w key value, lookup (t.cluster.node w).table key = some (some value) →
        WasPut t key value := by
  have hsound := sound_run hframed hrun
  refine ⟨fun delivery hmem key value hread => ?_, fun w key value hlookup => ?_⟩
  · exact (hsound.items _ (mem_items_delivered hmem) _ hread).1 key value
      (by rw [carried, if_pos rfl])
  · exact (hsound.cluster.nodes w).table key value hlookup

/-! ## A run -/

/-- One worker, on socket 7. -/
def oneWorker : Wiring :=
  ⟨fun socket => if socket = 7 then some 0 else none, fun _ => 7, fun _ => 1, fun _ => none⟩

/-- The registry that lists it. -/
def oneWorkerList : WorkerList :=
  let worker : NewWorker := ⟨some 7, 1, CString.ofString "127.0.0.1", 6000⟩
  ((initializeWorkerList.addWorker worker true).2.setWorkerReady 1).2

/-- The service before its first client. -/
def oneWorkerStart : State :=
  start 1 oneWorker (fun _ => ClientRequest.zero) (fun _ => WorkerResponse.zero)

/-- A message of the client of slot 0, all the way there and back. -/
def exchange (message : Message) (work : List Label) : List Label :=
  [.clientSend 0 message, .clientReceiver 0, .takeRequest, .pickWorker, .dispatch 1,
    .worker 0 true true] ++ work ++ [.respond 0 1, .workerReceiver 0, .takeResponse, .reply 1]

/-- A client stores a value and asks for it. -/
def putAndGet (key value : CString) : List Label :=
  [.connect 11 .started, .changeWorkers oneWorkerList] ++
    exchange (Fields.put key value).message [.work (.notify 0)] ++
    exchange (Fields.get key).message []

theorem values_were_put_putAndGet :
    ∃ t, exec (step .firstAccepted) oneWorkerStart
        (putAndGet (CString.ofString "k") (CString.ofString "v")) = some t ∧
      WasPut t (CString.ofString "k") (CString.ofString "v") := by
  have hrun : (exec (step .firstAccepted) oneWorkerStart
      (putAndGet (CString.ofString "k") (CString.ofString "v"))).map State.toClients
        = some [⟨1, 11, (Fields.putResponse ErrorCode.none.value (CString.ofString "k")).message⟩,
          ⟨1, 11, (Fields.getResponse ErrorCode.none.value (CString.ofString "k")
            (CString.ofString "v")).message⟩] := by decide +kernel
  obtain ⟨t, ht, hanswers⟩ := Option.map_eq_some_iff.mp hrun
  refine ⟨t, ht, (values_were_put (by decide +kernel) ht).1 ⟨1, 11,
    (Fields.getResponse ErrorCode.none.value (CString.ofString "k")
      (CString.ofString "v")).message⟩ ?_ _ _ (by decide +kernel)⟩
  rw [hanswers]
  exact List.mem_cons_of_mem _ List.mem_cons_self

/-- A worker takes a store off its connection that was never sent, and a
client asks for its key. -/
def garbledStore (key value : CString) : List Label :=
  [.connect 11 .started, .changeWorkers oneWorkerList,
    .garble (.toWorker 0) (sendStoreRequest 257 key value).toList, .worker 0 true true,
    .work (.notify 0), .respond 0 1, .workerReceiver 0, .takeResponse, .reply 1] ++
    exchange (Fields.get key).message []

/-- Without whole frames the answer may be a value that nobody has put. -/
theorem values_need_whole_frames :
    ∃ t, exec (step .firstAccepted) oneWorkerStart
        (garbledStore (CString.ofString "k") (CString.ofString "v")) = some t ∧
      (∃ delivery ∈ t.toClients, fieldsOf delivery.message = some (.getResponse
        ErrorCode.none.value (CString.ofString "k") (CString.ofString "v"))) ∧
      ¬ WasPut t (CString.ofString "k") (CString.ofString "v") := by
  have hrun : (exec (step .firstAccepted) oneWorkerStart
      (garbledStore (CString.ofString "k") (CString.ofString "v"))).map
        (fun t => (t.sent, t.toClients))
      = some ([(Fields.get (CString.ofString "k")).message],
          [⟨1, 11, (Fields.getResponse ErrorCode.none.value (CString.ofString "k")
            (CString.ofString "v")).message⟩]) := by decide +kernel
  obtain ⟨t, ht, hends⟩ := Option.map_eq_some_iff.mp hrun
  obtain ⟨hsent, hanswers⟩ := Prod.mk.inj hends
  have hget : fieldsOf (Fields.get (CString.ofString "k")).message
      = some (.get (CString.ofString "k")) := by decide +kernel
  refine ⟨t, ht, ⟨_, by rw [hanswers]; exact List.mem_singleton_self _, by decide +kernel⟩, ?_⟩
  rintro ⟨message, hmem, hput⟩
  rw [hsent, List.mem_singleton] at hmem
  rw [hmem, hget] at hput
  cases hput

/-- **Acknowledged keys stay.** When a client has been sent a PUT_RESPONSE
with `ERR_NONE`, a worker has stored its key, and it has it after whatever
happens next, as long as it has not ended: with a value that was put under
it, or with none behind a failed update. -/
theorem acknowledged_keys_stay {s : State} (hframed : ∀ l ∈ ls, l.framed)
    (hrun : exec (step d) (start n net requestSlots responseSlots) ls = some s)
    {delivery : Delivery} (hmem : delivery ∈ s.toClients) {key : CString}
    (hread : fieldsOf delivery.message = some (.putResponse ErrorCode.none.value key)) :
    ∃ w < s.cluster.size, (w, key) ∈ s.stored ∧
      ∀ more t, (∀ l ∈ more, l.framed) → exec (step d) s more = some t → t.stopped w = false →
        ∃ held, lookup (t.cluster.node w).table key = some held ∧
          ∀ value, held = some value → WasPut t key value := by
  have hsound := sound_run hframed hrun
  obtain ⟨w, hw⟩ := (hsound.items _ (mem_items_delivered hmem) _ hread).2 key
    (by rw [acknowledged, if_pos rfl])
  refine ⟨w, (hsound.stored w key hw).1, hw, fun more t hmore hexec hgoes => ?_⟩
  have hlast : Sound t ∧ (w, key) ∈ t.stored :=
    exec_invariant_along (I := fun u => Sound u ∧ (w, key) ∈ u.stored)
      (fun _ _ _ h hl hstep =>
        ⟨sound_step h.1 hl hstep, stored_subset (step_cluster hl hstep) _ h.2⟩)
      ⟨hsound, hw⟩ ((along_label_iff hexec).mpr hmore) hexec
  obtain ⟨held, hheld⟩ := Option.ne_none_iff_exists'.mp ((hlast.1.stored w key hlast.2).2 hgoes)
  refine ⟨held, hheld, ?_⟩
  rintro value rfl
  exact (hlast.1.cluster.nodes w).table key value hheld

/-- The acknowledged key of the run is there behind the GET that follows. -/
theorem acknowledged_keys_stay_putAndGet :
    ∃ s t, exec (step .firstAccepted) oneWorkerStart
        ([.connect 11 .started, .changeWorkers oneWorkerList] ++ exchange (Fields.put
          (CString.ofString "k") (CString.ofString "v")).message [.work (.notify 0)]) = some s ∧
      exec (step .firstAccepted) s
        (exchange (Fields.get (CString.ofString "k")).message []) = some t ∧
      lookup (t.cluster.node 0).table (CString.ofString "k") ≠ none := by
  have hrun : (exec (step .firstAccepted) oneWorkerStart
      ([.connect 11 .started, .changeWorkers oneWorkerList] ++ exchange (Fields.put
        (CString.ofString "k") (CString.ofString "v")).message [.work (.notify 0)])).map
          (fun s => (s.toClients, s.cluster.size))
        = some ([⟨1, 11, (Fields.putResponse ErrorCode.none.value
            (CString.ofString "k")).message⟩], 1) := by decide +kernel
  have hwhole : (exec (step .firstAccepted) oneWorkerStart
      (putAndGet (CString.ofString "k") (CString.ofString "v"))).map (fun t => t.stopped 0)
        = some false := by decide +kernel
  obtain ⟨s, hs, hends⟩ := Option.map_eq_some_iff.mp hrun
  obtain ⟨hanswers, hsize⟩ := Prod.mk.inj hends
  obtain ⟨t, ht, hgoes⟩ := Option.map_eq_some_iff.mp hwhole
  rw [putAndGet, exec_append, hs] at ht
  have hread : fieldsOf (Fields.putResponse ErrorCode.none.value (CString.ofString "k")).message
      = some (.putResponse ErrorCode.none.value (CString.ofString "k")) := by decide +kernel
  obtain ⟨w, hw, -, hkeeps⟩ := acknowledged_keys_stay (by decide +kernel) hs
    (by rw [hanswers]; exact List.mem_singleton_self _) hread
  obtain rfl : w = 0 := by omega
  obtain ⟨held, hheld, -⟩ := hkeeps _ t (by decide +kernel) ht hgoes
  exact ⟨s, t, hs, ht, by rw [hheld]; exact Option.some_ne_none _⟩

/-! ## Verification runs -/

/-- A PUT that is read so carries its key. -/
theorem putKey?_of_fieldsOf {message : Message} {key value : CString}
    (h : fieldsOf message = some (.put key value)) : putKey? message = some key := by
  unfold fieldsOf at h
  split at h
  · rename_i type htype
    split at h
    · rename_i raw hdecode
      obtain ⟨hkind, -⟩ := (decode_eq_accept _ _ _).mp hdecode
      cases raw with
      | put rawKey rawValue =>
        obtain rfl : type = .put := hkind.symm
        have hput : isPut message = true := by
          rw [isPut, beq_iff_eq, value_of_ofValue? htype]
        simp only [decode, Outcome.map_eq_accept, Prod.exists] at hdecode
        obtain ⟨rawKey', rawValue', hreceive, heq⟩ := hdecode
        simp only [Fields.put.injEq] at heq
        rw [putKey?, if_pos hput, hreceive]
        simp only [Fields.map, Option.some.injEq, Fields.put.injEq] at h
        simp only [heq.1, h.1]
      | _ => cases h
    · cases h
  · cases h

/-- Elements that give the same one are the same, where none is given
twice. -/
theorem eq_of_nodup_filterMap {α β : Type} {f : α → Option β} {l : List α} {a b : α} {k : β}
    (hnodup : (l.filterMap f).Nodup) (ha : a ∈ l) (hb : b ∈ l) (hfa : f a = some k)
    (hfb : f b = some k) : a = b := by
  by_contra hne
  have hpairwise := List.pairwise_filterMap.mp hnodup
  have hsymm : Std.Symm fun x y => ∀ u, f x = some u → ∀ v, f y = some v → u ≠ v :=
    ⟨fun x y h u hu v hv huv => h v hv u hu huv.symm⟩
  exact List.Pairwise.forall hpairwise ha hb hne k hfa k hfb rfl

/-- **A client is answered with what it has written.** When all that is sent
is sent by clients in verification runs, which differ in the port or the
process, and frames arrive whole, each GET that is answered with `ERR_NONE`
is answered with the value of a PUT of one of them, and of no other value has
this key been put. -/
theorem verification_reads_own_value (runs : List ClientRun)
    (hdistinct : (runs.map fun r => (r.localPort, r.processId)).Nodup)
    (hframed : ∀ l ∈ ls, l.framed)
    (hrun : exec (step d) (start n net requestSlots responseSlots) ls = some t)
    (hsent : ∀ message ∈ t.sent, ∃ r ∈ runs, message ∈ r.state.sent) {delivery : Delivery}
    (hmem : delivery ∈ t.toClients) {key value : CString}
    (hread : fieldsOf delivery.message
      = some (.getResponse ErrorCode.none.value key value)) :
    ∃ r ∈ runs, ∃ message ∈ r.state.sent, fieldsOf message = some (.put key value) ∧
      ∀ r' ∈ runs, ∀ message' ∈ r'.state.sent, putKey? message' = some key →
        message' = message := by
  obtain ⟨message, hmessage, hput⟩ := (values_were_put hframed hrun).1 delivery hmem key value hread
  obtain ⟨r, hr, hfrom⟩ := hsent message hmessage
  refine ⟨r, hr, message, hfrom, hput, fun r' hr' message' hfrom' hkey => ?_⟩
  have hnodup := ClientRun.nodup_flatMap_putKeys hdistinct
  have hkeys : (runs.flatMap fun r => r.state.sent).filterMap putKey?
      = runs.flatMap ClientRun.putKeys := by
    rw [List.filterMap_flatMap]
    rfl
  rw [← hkeys] at hnodup
  exact eq_of_nodup_filterMap hnodup (List.mem_flatMap.mpr ⟨r', hr', hfrom'⟩)
    (List.mem_flatMap.mpr ⟨r, hr, hfrom⟩) hkey (putKey?_of_fieldsOf hput)

/-- A client that stores its one key and asks for it. -/
def verifyingClient : ClientRun :=
  .ofLabels 50000 (Client.firstPut ++ [.testFinish, .prepare fun _ => 0] ++ Client.firstPut)
    (by decide +kernel)

theorem verification_reads_own_value_one :
    ∃ t, exec (step .firstAccepted) oneWorkerStart
        (putAndGet (Client.generateKey 50000 7 1) (CString.ofString "A")) = some t ∧
      ∃ r ∈ [verifyingClient], ∃ message ∈ r.state.sent,
        fieldsOf message = some (.put (Client.generateKey 50000 7 1) (CString.ofString "A")) := by
  have hrun : (exec (step .firstAccepted) oneWorkerStart
      (putAndGet (Client.generateKey 50000 7 1) (CString.ofString "A"))).map
        (fun t => (t.sent, t.toClients))
      = some (verifyingClient.state.sent,
          [⟨1, 11, (Fields.putResponse ErrorCode.none.value
              (Client.generateKey 50000 7 1)).message⟩,
            ⟨1, 11, (Fields.getResponse ErrorCode.none.value (Client.generateKey 50000 7 1)
              (CString.ofString "A")).message⟩]) := by decide +kernel
  obtain ⟨t, ht, hanswers⟩ := Option.map_eq_some_iff.mp hrun
  obtain ⟨hsent, hdelivered⟩ := Prod.mk.inj hanswers
  have hanswer : fieldsOf (Fields.getResponse ErrorCode.none.value
      (Client.generateKey 50000 7 1) (CString.ofString "A")).message
        = some (.getResponse ErrorCode.none.value (Client.generateKey 50000 7 1)
          (CString.ofString "A")) := by decide +kernel
  obtain ⟨r, hr, message, hmem, hread, -⟩ := verification_reads_own_value [verifyingClient]
    (List.nodup_singleton _) (by decide +kernel) ht
    (fun message hmem => ⟨verifyingClient, List.mem_singleton_self _, hsent ▸ hmem⟩)
    (by rw [hdelivered]; exact List.mem_cons_of_mem _ List.mem_cons_self) hanswer
  exact ⟨t, ht, r, hr, message, hmem, hread⟩

end Runs

end LoadBalancing.Pipeline.Fleet
