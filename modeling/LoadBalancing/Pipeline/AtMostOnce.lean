/-
LoadBalancing.Pipeline.AtMostOnce — no request is answered twice.

A question is the id of a client, whether it stores or asks, and the key.
Every request and every answer is of one, and no hop turns it into another
or makes two of one: a request that is given back is taken from the
dispatcher, and what a worker or a client is sent is sent once. So in every
run whose frames arrive whole no client is sent more answers to a question
than requests of it have been let in (`answers_at_most_once`), whatever is
lost on the way.

No `sorry`, no `axiom`, no `native_decide`.
-/
import LoadBalancing.Pipeline.Provenance

namespace LoadBalancing.Pipeline.Fleet

open LoadBalancing.Base LoadBalancing.Lib LoadBalancing.LoadBalancer LoadBalancing.Worker

/-! ## Questions -/

/-- Who stores or asks for which key. -/
structure Question where
  clientId : Int32
  stores : Bool
  key : CString
  deriving DecidableEq

/-- What a request or an answer is about. -/
def subject : Fields CString → Option (Bool × CString)
  | .put key _ | .putResponse _ key | .storeRequest _ key _ | .storeResponse _ _ key =>
    some (true, key)
  | .get key | .getResponse _ key _ | .retrieveRequest _ key | .retrieveResponse _ _ key _ =>
    some (false, key)
  | _ => none

/-- The client id between the load balancer and a worker. -/
def clientIdOf : Fields CString → Option UInt32
  | .storeRequest clientId _ _ | .storeResponse _ clientId _ | .retrieveRequest clientId _
  | .retrieveResponse _ clientId _ _ => some clientId
  | _ => none

/-- The question of a message for or from a client. -/
def questionOf (clientId : Int32) (message : Message) : Option Question :=
  ((fieldsOf message).bind subject).map fun (stores, key) => ⟨clientId, stores, key⟩

/-- And of one for or from a worker. -/
def workerQuestionOf (message : Message) : Option Question :=
  ((fieldsOf message).bind clientIdOf).bind fun clientId => questionOf clientId.toInt32 message

/-- The question of an item. -/
def Item.question : Item → Option Question
  | .request r => questionOf r.clientId (requestMessage r)
  | .toWorker _ message | .replying _ message | .fromWorker _ message => workerQuestionOf message
  | .response r => questionOf r.clientId (workerMessage r)
  | .delivered delivery => questionOf delivery.clientId delivery.message

section Messages

variable {message : Message} {fields : Fields CString}

theorem questionOf_eq (hread : fieldsOf message = some fields) (clientId : Int32) :
    questionOf clientId message
      = (subject fields).map fun (stores, key) => ⟨clientId, stores, key⟩ := by
  rw [questionOf, hread]
  rfl

theorem questionOf_none (hread : fieldsOf message = none) (clientId : Int32) :
    questionOf clientId message = none := by
  rw [questionOf, hread]
  rfl

theorem workerQuestionOf_eq (hread : fieldsOf message = some fields) {clientId : UInt32}
    (hclient : clientIdOf fields = some clientId) :
    workerQuestionOf message = questionOf clientId.toInt32 message := by
  rw [workerQuestionOf, hread, Option.bind_some, hclient]
  rfl

end Messages

/-! ## Hops -/

section Steps

variable {d : Worker.Delivery} {s t : State} {l : Label}

/-- **A hop answers no other question.** At the end there may be an error
instead of an answer. -/
theorem question_next {x y : Item} (h : Next s t x y) :
    y.question = x.question ∨ ∃ response delivery, x = .response response ∧
      y = .delivered delivery ∧ responseMessage response = some delivery.message ∧
      fieldsOf delivery.message = none := by
  cases h with
  | copied hsame =>
    obtain ⟨-, hid, htype, -, hcontent⟩ := hsame
    refine Or.inl ?_
    simp only [Item.question, requestMessage, hid, htype, hcontent]
  | dispatched hw htranslate =>
    refine Or.inl ?_
    simp only [Item.question]
    rcases translate_readings htranslate with ⟨key, value, hfrom, hto⟩ | ⟨key, hfrom, hto⟩
    · rw [workerQuestionOf_eq hto rfl, questionOf_eq hto, questionOf_eq hfrom]
      rfl
    · rw [workerQuestionOf_eq hto rfl, questionOf_eq hto, questionOf_eq hfrom]
      rfl
  | stored hw htype hdecode hlog hreply =>
    refine Or.inl ?_
    simp only [Item.question]
    have hfrom := fieldsOf_storeRequest htype hdecode
    have hto := fieldsOf_storeResponse hreply
    rw [workerQuestionOf_eq hto rfl, questionOf_eq hto, workerQuestionOf_eq hfrom rfl,
      questionOf_eq hfrom]
    rfl
  | @retrieved w message reply request allocated value hw htype hdecode hget hreply =>
    refine Or.inl ?_
    simp only [Item.question]
    have hfrom := fieldsOf_retrieveRequest htype hdecode
    have hto := fieldsOf_retrieveResponse hreply
    rw [workerQuestionOf_eq hfrom rfl, questionOf_eq hfrom]
    cases value with
    | none | some =>
      rw [workerQuestionOf_eq hto rfl, questionOf_eq hto]
      rfl
  | responded w message => exact Or.inl rfl
  | received hmessage hclient hresponse =>
    refine Or.inl ?_
    simp only [Item.question, hmessage, hresponse]
    rcases fieldsOf_of_responseClientId hclient with ⟨result, key, hread⟩ |
      ⟨result, key, value, hread⟩
    · rw [workerQuestionOf_eq hread rfl]
    · rw [workerQuestionOf_eq hread rfl]
  | copiedResponse hsame =>
    obtain ⟨-, -, hid, htype, -, hcontent⟩ := hsame
    refine Or.inl ?_
    simp only [Item.question, workerMessage, hid, htype, hcontent]
  | @replied response message clientSocket hmessage =>
    rcases responseMessage_readings hmessage with ⟨result, clientId, key, hfrom, hto⟩ |
      ⟨result, clientId, key, value, hfrom, hto⟩ | hto
    · refine Or.inl ?_
      simp only [Item.question]
      rw [questionOf_eq hto, questionOf_eq hfrom]
      rfl
    · refine Or.inl ?_
      simp only [Item.question]
      rw [questionOf_eq hto, questionOf_eq hfrom]
      rfl
    · exact Or.inr ⟨response, _, rfl, rfl, hmessage, hto⟩

theorem question_of_next {x y : Item} (h : Next s t x y) {q : Question}
    (hy : y.question = some q) : x.question = some q := by
  rcases question_next h with heq | ⟨response, delivery, -, rfl, -, hnone⟩
  · rw [← heq, hy]
  · rw [Item.question, questionOf_none hnone] at hy
    cases hy

/-- What a worker is told besides requests asks nothing. -/
theorem workerQuestionOf_told {message : Message}
    (htype : message.type = MessageType.workerEntry.value ∨
      message.type = MessageType.error.value) : workerQuestionOf message = none := by
  rcases htype with htype | htype
  · cases hread : fieldsOf message with
    | none => simp [workerQuestionOf, hread]
    | some fields =>
      have hkind := type_of_fieldsOf (htype ▸ MessageType.ofValue?_value _) hread
      cases fields <;> simp_all [workerQuestionOf, Fields.type, clientIdOf]
  · simp [workerQuestionOf, fieldsOf_error htype]

/-- A question comes in with a request that is let in. -/
theorem question_new {y : Item} (h : New s t y) {q : Question} (hy : y.question = some q) :
    ∃ request, t.entered = s.entered ++ [request] ∧
      questionOf request.clientId (requestMessage request) = some q := by
  cases h with
  | @entered request copy hsame haccepts hsent hentered =>
    obtain ⟨-, hid, htype, -, hcontent⟩ := hsame
    refine ⟨request, hentered, ?_⟩
    simpa only [Item.question, requestMessage, hid, htype, hcontent] using hy
  | told hw htype =>
    simp only [Item.question, workerQuestionOf_told htype] at hy
    cases hy
  | refused htype =>
    simp only [Item.question, questionOf_none (fieldsOf_error htype)] at hy
    cases hy

/-! ## Counting -/

/-- The requests let in that ask a question. -/
def State.asked (s : State) (q : Question) : Nat :=
  s.entered.countP fun request => questionOf request.clientId (requestMessage request) = some q

/-- The answers to it that a client has been sent. -/
def State.answered (s : State) (q : Question) : Nat :=
  s.toClients.countP fun delivery => questionOf delivery.clientId delivery.message = some q

/-- Items of a question, requests and answers, are no more than the
requests let in; and these are among the messages sent, besides the ones
not read yet. -/
structure Counted (s : State) : Prop where
  items : ∀ q, s.items.countP (fun x => x.question = some q) ≤ s.asked q
  entered : ∀ n, gather n (fun _ message => message) s.fromClient +
    pile requestMessage s.entered ≤ (s.sent : Multiset Message)

theorem asked_le (h : ClientStep s t) (q : Question) : s.asked q ≤ t.asked q := by
  unfold State.asked
  cases h with
  | none hfrom hsent hentered | sent i message hfrom hsent hentered
  | left i hfrom hsent hentered => rw [hentered]
  | read hunread hfrom hsent hentered =>
    rcases hentered with hentered | ⟨request, -, -, -, hentered, -⟩
    · rw [hentered]
    · rw [hentered, List.countP_append]
      exact Nat.le_add_right _ _

theorem items_counted (h : ∀ q, s.items.countP (fun x => x.question = some q) ≤ s.asked q)
    (hclients : ClientStep s t)
    (htransfer : Transfer (Next s t) (New s t) (Lost d s l) s.items t.items) :
    ∀ q, t.items.countP (fun x => x.question = some q) ≤ t.asked q := by
  intro q
  rcases htransfer.countP_le (p := fun x => x.question = some q)
      (fun x y hnext hy => question_of_next hnext hy) with hle | ⟨y, hnew, hle⟩
  · exact hle.trans ((h q).trans (asked_le hclients q))
  · by_cases hy : y.question = some q
    · obtain ⟨request, hentered, hquestion⟩ := question_new hnew hy
      have hone : t.asked q = s.asked q + 1 := by
        simp [State.asked, hentered, hquestion]
      rw [if_pos hy] at hle
      have hitems := h q
      omega
    · rw [if_neg hy, Nat.add_zero] at hle
      exact hle.trans ((h q).trans (asked_le hclients q))

theorem entered_counted (h : ∀ n, gather n (fun _ message => message) s.fromClient +
      pile requestMessage s.entered ≤ (s.sent : Multiset Message)) (hclients : ClientStep s t) :
    ∀ n, gather n (fun _ message => message) t.fromClient +
      pile requestMessage t.entered ≤ (t.sent : Multiset Message) := by
  intro n
  have hn := h n
  cases hclients with
  | none hfrom hsent hentered => rwa [hfrom, hsent, hentered]
  | sent i message hfrom hsent hentered =>
    rw [hfrom, hsent, hentered, ← Multiset.coe_add, Multiset.coe_singleton]
    by_cases hi : i < n
    · rw [gather_append hi, Multiset.cons_add, ← Multiset.singleton_add, add_comm]
      exact add_le_add_left hn _
    · rw [gather_update_of_le (Nat.le_of_not_lt hi)]
      exact hn.trans (Multiset.le_add_right _ _)
  | @read i message rest hunread hfrom hsent hentered =>
    -- enough places to have the one that is read among them
    have hmore := h (max n (i + 1))
    rw [gather_tail (lt_max_of_lt_right (Nat.lt_succ_self i)) hunread, Multiset.cons_add] at hmore
    have hle : gather n (fun _ message => message) (Function.update s.fromClient i rest) ≤
        gather (max n (i + 1)) (fun _ message => message) (Function.update s.fromClient i rest) :=
      gather_mono (le_max_left n (i + 1)) _ _
    rw [hfrom, hsent]
    rcases hentered with hentered | ⟨request, -, -, rfl, hentered, -⟩
    · rw [hentered]
      exact (add_le_add_left hle _).trans ((Multiset.le_cons_self _ _).trans hmore)
    · rw [hentered, pile_append, pile_cons, pile_nil, ← add_assoc, Multiset.add_cons, add_zero]
      exact ((Multiset.cons_le_cons_iff _).mpr (add_le_add_left hle _)).trans hmore
  | left i hfrom hsent hentered =>
    rw [hfrom, hsent, hentered]
    exact (add_le_add_left gather_clear_le _).trans hn

end Steps

/-! ## Runs -/

section Runs

variable {net : Wiring} {d : Worker.Delivery} {n : Nat} {requestSlots : Nat → ClientRequest}
  {responseSlots : Nat → WorkerResponse} {ls : List Label} {t : State}

theorem counted_start (n : Nat) (net : Wiring) (requestSlots : Nat → ClientRequest)
    (responseSlots : Nat → WorkerResponse) : Counted (start n net requestSlots responseSlots) := by
  refine ⟨fun q => ?_, fun m => ?_⟩
  · rw [items_start]
    exact Nat.zero_le _
  · simp [start]

theorem counted_run (hframed : ∀ l ∈ ls, l.framed)
    (hrun : exec (step d) (start n net requestSlots responseSlots) ls = some t) : Counted t :=
  exec_invariant_along (fun _ _ _ h hl hstep => ⟨items_counted h.items (step_clients hl hstep)
    (step_transfer hl hstep), entered_counted h.entered (step_clients hl hstep)⟩)
    (counted_start n net requestSlots responseSlots) ((along_label_iff hrun).mpr hframed) hrun

/-- **At most once.** In every run whose frames arrive whole, whatever is
lost, clients are sent no more answers to a question than requests of it have
been let in, and each request that is let in is a message of its own that a
client has sent. -/
theorem answers_at_most_once (hframed : ∀ l ∈ ls, l.framed)
    (hrun : exec (step d) (start n net requestSlots responseSlots) ls = some t) :
    (∀ q, t.answered q ≤ t.asked q) ∧
      ∀ message, (t.entered.map requestMessage).count message ≤ t.sent.count message := by
  have hcounted := counted_run hframed hrun
  refine ⟨fun q => ?_, fun message => ?_⟩
  · refine le_trans ?_ (hcounted.items q)
    have hpile : pile Item.delivered t.toClients ≤ t.items := Multiset.le_add_left _ _
    have hcount := Multiset.countP_le_of_le (fun x => x.question = some q) hpile
    rwa [pile, Multiset.coe_countP, List.countP_map] at hcount
  · have hle : pile requestMessage t.entered ≤ (t.sent : Multiset Message) :=
      (Multiset.le_add_left _ _).trans (hcounted.entered 0)
    have hcount := Multiset.count_le_of_le message hle
    rwa [pile, Multiset.coe_count, Multiset.coe_count] at hcount

/-- The run of a PUT and a GET: one request and one answer each. -/
theorem answers_at_most_once_putAndGet :
    ∃ t, exec (step .firstAccepted) oneWorkerStart
        (putAndGet (CString.ofString "k") (CString.ofString "v")) = some t ∧
      t.answered ⟨1, true, CString.ofString "k"⟩ ≤ t.asked ⟨1, true, CString.ofString "k"⟩ := by
  have hrun : (exec (step .firstAccepted) oneWorkerStart
      (putAndGet (CString.ofString "k") (CString.ofString "v"))).isSome := by decide +kernel
  obtain ⟨t, ht⟩ := Option.isSome_iff_exists.mp hrun
  exact ⟨t, ht, (answers_at_most_once (by decide +kernel) ht).1 _⟩

end Runs

end LoadBalancing.Pipeline.Fleet
