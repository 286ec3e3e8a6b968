/-
LoadBalancing.Pipeline.Stages — the service as calls that move from place
to place.

The abstract machine of the service: between a client and its reply a call
is in one of seven places, and each step of a thread moves the first call
of a place to the end of the next. The worker's step is the only one that
does something to the call: it pairs it with the answer of one key-value
map, the map behind the calls handled before. There are no bytes, rings,
buckets or pools here; `Pipeline.Refinement` connects the two.

`Sound` accounts for every call, in the order of entry. Its two ends are
`Sound.done_prefix`, the replies so far are the first that one map gives,
and `Sound.done_of_idle`, there are no others to come when no thread has
anything to do. Every call takes seven steps.

No `sorry`, no `axiom`, no `native_decide`.
-/
import LoadBalancing.Pipeline.Hops
import Mathlib.Algebra.BigOperators.Group.Finset.Basic

namespace LoadBalancing.Pipeline

open LoadBalancing.Base LoadBalancing.Lib LoadBalancing.LoadBalancer

/-! ## The abstract machine -/

/-- A call with what it is told. -/
abbrev Reply := Call × Answer CString

/-- The sockets of the clients by slot, what each has sent and what of it
has not yet entered, the calls in order of entry, and the places between.
`handled` are the calls the worker has handled, in this order. -/
structure Stages where
  clients : List Socket
  sent : Nat → List Request
  inbound : Nat → List Request
  entered : List Call
  queued : List Call
  held : Option Call
  atWorker : List Call
  handled : List Call
  answered : List Reply
  responses : List Reply
  taken : Option Reply
  done : List Reply

/-- The call a client's request becomes. -/
def callOf (i : Nat) (clientSocket : Socket) (request : Request) : Call :=
  ⟨i, Int32.ofNat (i + 1), clientSocket, request⟩

namespace Stages

/-- Nobody has connected. -/
def start : Stages where
  clients := []
  sent := fun _ => []
  inbound := fun _ => []
  entered := []
  queued := []
  held := none
  atWorker := []
  handled := []
  answered := []
  responses := []
  taken := none
  done := []

/-- One step. -/
def step (g : Stages) : Label → Option Stages
  | .connect clientSocket =>
    some { g with
      clients :=
        if g.clients.length < maxClients then g.clients ++ [clientSocket] else g.clients }
  | .clientSend i request =>
    match g.clients[i]? with
    | some _ =>
      if request.Valid then
        some { g with
          sent := Function.update g.sent i (g.sent i ++ [request])
          inbound := Function.update g.inbound i (g.inbound i ++ [request]) }
      else none
    | none => none
  | .clientReceiver i =>
    match g.clients[i]?, g.inbound i with
    | some clientSocket, request :: rest =>
      some { g with
        inbound := Function.update g.inbound i rest
        entered := g.entered ++ [callOf i clientSocket request]
        queued := g.queued ++ [callOf i clientSocket request] }
    | _, _ => none
  | .takeRequest =>
    match g.held, g.queued with
    | none, call :: rest => some { g with queued := rest, held := some call }
    | _, _ => none
  | .dispatch =>
    match g.held with
    | some call => some { g with held := none, atWorker := g.atWorker ++ [call] }
    | none => none
  | .worker =>
    match g.atWorker with
    | call :: rest =>
      some { g with
        atWorker := rest
        handled := g.handled ++ [call]
        answered := g.answered ++ [(call, answer (g.handled.map Call.request) call.request)] }
    | [] => none
  | .workerReceiver =>
    match g.answered with
    | reply :: rest => some { g with answered := rest, responses := g.responses ++ [reply] }
    | [] => none
  | .takeResponse =>
    match g.taken, g.responses with
    | none, reply :: rest => some { g with responses := rest, taken := some reply }
    | _, _ => none
  | .reply =>
    match g.taken with
    | some reply => some { g with taken := none, done := g.done ++ [reply] }
    | none => none

/-- The place a step puts into is not full. -/
def Room (g : Stages) : Label → Prop
  | .clientReceiver _ => g.queued.length < clientRequestQueueCapacity
  | .workerReceiver => g.responses.length < workerResponseQueueCapacity
  | _ => True

instance (g : Stages) (l : Label) : Decidable (g.Room l) := by
  cases l <;> simp only [Room] <;> infer_instance

/-- No thread has anything to do. -/
def Idle (g : Stages) : Prop := ∀ l : Label, l.internal = true → g.step l = none

/-- The steps that are left: seven for a request not yet entered, and one
less for each place behind. -/
def work (g : Stages) : Nat :=
  (∑ i ∈ Finset.range g.clients.length, 7 * (g.inbound i).length) + 6 * g.queued.length
    + 5 * g.held.toList.length + 4 * g.atWorker.length + 3 * g.answered.length
    + 2 * g.responses.length + g.taken.toList.length

/-! ## Every call is accounted for -/

/-- A call is what it says: a valid request of the client in its slot. -/
def Known (g : Stages) (call : Call) : Prop :=
  call.Valid ∧ g.clients[call.slot]? = some call.clientSocket ∧
    call.clientId = Int32.ofNat (call.slot + 1)

/-- The calls that have entered are in the places in order of entry, those
the worker has handled with the answers of one map; what has not entered
yet is behind, by client. -/
structure Sound (g : Stages) : Prop where
  entered : g.entered = g.handled ++ g.atWorker ++ g.held.toList ++ g.queued
  served : serve Call.request [] g.handled = g.done ++ g.taken.toList ++ g.responses ++ g.answered
  sent : ∀ i, g.sent i
    = (g.entered.filter fun call => call.slot = i).map Call.request ++ g.inbound i
  inbound : ∀ i, ∀ request ∈ g.inbound i, request.Valid
  connected : ∀ i, g.inbound i ≠ [] → g.clients[i]? ≠ none
  known : ∀ call ∈ g.entered, g.Known call

theorem sound_start : start.Sound where
  entered := rfl
  served := rfl
  sent := by intro i; rfl
  inbound := by intro i request h; cases h
  connected := by intro i h; exact absurd rfl h
  known := by intro call h; cases h

section Steps

variable {g g' : Stages}

/-- A client that connects changes no slot that is taken. -/
theorem clients_connect {i : Nat} {socket : Socket} (h : g.clients[i]? = some socket)
    (clientSocket : Socket) :
    (if g.clients.length < maxClients then g.clients ++ [clientSocket] else g.clients)[i]?
      = some socket := by
  have hi := (List.getElem?_eq_some_iff.mp h).1
  split
  · rw [List.getElem?_append_left hi]
    exact h
  · exact h

theorem sound_connect {clientSocket : Socket} (h : g.Sound)
    (hs : g.step (.connect clientSocket) = some g') : g'.Sound := by
  cases hs
  constructor
  · exact h.entered
  · exact h.served
  · exact h.sent
  · exact h.inbound
  · intro i hi
    obtain ⟨socket, hsocket⟩ := Option.ne_none_iff_exists'.mp (h.connected i hi)
    have hkeep := clients_connect hsocket clientSocket
    intro hnone
    rw [hkeep] at hnone
    cases hnone
  · intro call hcall
    obtain ⟨hvalid, hclient, hid⟩ := h.known call hcall
    exact ⟨hvalid, clients_connect hclient clientSocket, hid⟩

theorem sound_clientSend {i : Nat} {request : Request} (h : g.Sound)
    (hs : g.step (.clientSend i request) = some g') : g'.Sound := by
  simp only [step] at hs
  split at hs
  · rename_i socket hsocket
    split at hs
    · rename_i hvalid
      cases hs
      constructor
      · exact h.entered
      · exact h.served
      · intro j
        by_cases hj : j = i
        · subst hj
          simp only [Function.update_self]
          rw [h.sent j, List.append_assoc]
        · simp only [Function.update_of_ne hj]
          exact h.sent j
      · intro j request' hmem
        by_cases hj : j = i
        · subst hj
          simp only [Function.update_self] at hmem
          rcases List.mem_append.mp hmem with hmem | hmem
          · exact h.inbound j request' hmem
          · rw [List.mem_singleton.mp hmem]
            exact hvalid
        · simp only [Function.update_of_ne hj] at hmem
          exact h.inbound j request' hmem
      · intro j hne
        by_cases hj : j = i
        · rw [hj, hsocket]
          exact Option.some_ne_none _
        · simp only [Function.update_of_ne hj] at hne
          exact h.connected j hne
      · exact h.known
    · cases hs
  · cases hs

theorem sound_clientReceiver {i : Nat} (h : g.Sound)
    (hs : g.step (.clientReceiver i) = some g') : g'.Sound := by
  simp only [step] at hs
  split at hs
  · rename_i clientSocket request rest hsocket hinbound
    cases hs
    constructor
    · show g.entered ++ _ = _
      rw [h.entered]
      simp only [List.append_assoc]
    · exact h.served
    · intro j
      have hsent := h.sent j
      simp only [List.filter_append, List.map_append]
      by_cases hj : j = i
      · subst hj
        rw [hinbound] at hsent
        simp [hsent, callOf]
      · have hj' : i ≠ j := fun h => hj h.symm
        simp [hsent, callOf, hj, hj']
    · intro j request' hmem
      by_cases hj : j = i
      · subst hj
        simp only [Function.update_self] at hmem
        exact h.inbound j request' (hinbound ▸ List.mem_cons_of_mem _ hmem)
      · simp only [Function.update_of_ne hj] at hmem
        exact h.inbound j request' hmem
    · intro j hne
      by_cases hj : j = i
      · rw [hj, hsocket]
        exact Option.some_ne_none _
      · simp only [Function.update_of_ne hj] at hne
        exact h.connected j hne
    · intro call hcall
      rcases List.mem_append.mp hcall with hcall | hcall
      · exact h.known call hcall
      · rw [List.mem_singleton.mp hcall]
        have hvalid := h.inbound i request (hinbound ▸ List.mem_cons_self ..)
        exact ⟨hvalid, hsocket, rfl⟩
  · cases hs

/-- A move inside the pipeline: the calls stay in order. -/
theorem sound_move (h : g.Sound) {l : Label} (hl : l.internal = true)
    (hne : ∀ i, l ≠ .clientReceiver i) (hs : g.step l = some g') : g'.Sound := by
  have hentered := h.entered
  have hserved := h.served
  cases l with
  | connect | clientSend => cases hl
  | clientReceiver i => exact absurd rfl (hne i)
  | takeRequest =>
    simp only [step] at hs
    split at hs
    · rename_i call rest hheld hqueued
      cases hs
      rw [hheld, hqueued] at hentered
      exact { h with entered := by simpa using hentered }
    · cases hs
  | dispatch =>
    simp only [step] at hs
    split at hs
    · rename_i call hheld
      cases hs
      rw [hheld] at hentered
      exact { h with entered := by simpa using hentered }
    · cases hs
  | worker =>
    simp only [step] at hs
    split at hs
    · rename_i call rest hatWorker
      cases hs
      rw [hatWorker] at hentered
      exact { h with
        entered := by simpa using hentered
        served := by
          rw [serve_append, hserved]
          simp [serve] }
    · cases hs
  | workerReceiver =>
    simp only [step] at hs
    split at hs
    · rename_i reply rest hanswered
      cases hs
      rw [hanswered] at hserved
      exact { h with served := by simpa using hserved }
    · cases hs
  | takeResponse =>
    simp only [step] at hs
    split at hs
    · rename_i reply rest htaken hresponses
      cases hs
      rw [htaken, hresponses] at hserved
      exact { h with served := by simpa using hserved }
    · cases hs
  | reply =>
    simp only [step] at hs
    split at hs
    · rename_i reply htaken
      cases hs
      rw [htaken] at hserved
      exact { h with served := by simpa using hserved }
    · cases hs

/-- **Step lemma.** -/
theorem sound_step (h : g.Sound) {l : Label} (hs : g.step l = some g') : g'.Sound := by
  cases l with
  | connect clientSocket => exact sound_connect h hs
  | clientSend i request => exact sound_clientSend h hs
  | clientReceiver i => exact sound_clientReceiver h hs
  | takeRequest | dispatch | worker | workerReceiver | takeResponse | reply =>
    exact sound_move h rfl (by intro i hi; cases hi) hs

/-- Every step of a thread is one step less. -/
theorem work_step {l : Label} (hl : l.internal = true) (hs : g.step l = some g') :
    g'.work + 1 = g.work := by
  cases l with
  | connect | clientSend => cases hl
  | clientReceiver i =>
    simp only [step] at hs
    split at hs
    · rename_i clientSocket request rest hsocket hinbound
      cases hs
      have hi : i ∈ Finset.range g.clients.length :=
        Finset.mem_range.mpr (List.getElem?_eq_some_iff.mp hsocket).1
      have hsum := Finset.sum_erase_add _ (fun j => 7 * (g.inbound j).length) hi
      have hsum' := Finset.sum_erase_add _
        (fun j => 7 * (Function.update g.inbound i rest j).length) hi
      have hrest : ∀ j ∈ (Finset.range g.clients.length).erase i,
          7 * (Function.update g.inbound i rest j).length = 7 * (g.inbound j).length := by
        intro j hj
        rw [Function.update_of_ne (Finset.ne_of_mem_erase hj)]
      rw [Finset.sum_congr rfl hrest] at hsum'
      simp only [Function.update_self, hinbound, List.length_cons] at hsum hsum'
      simp only [work, List.length_append, List.length_singleton]
      omega
    · cases hs
  | takeRequest =>
    simp only [step] at hs
    split at hs
    · rename_i call rest hheld hqueued
      cases hs
      simp [work, hheld, hqueued]
      omega
    · cases hs
  | dispatch =>
    simp only [step] at hs
    split at hs
    · rename_i call hheld
      cases hs
      simp [work, hheld]
      omega
    · cases hs
  | worker =>
    simp only [step] at hs
    split at hs
    · rename_i call rest hatWorker
      cases hs
      simp [work, hatWorker]
      omega
    · cases hs
  | workerReceiver =>
    simp only [step] at hs
    split at hs
    · rename_i reply rest hanswered
      cases hs
      simp [work, hanswered]
      omega
    · cases hs
  | takeResponse =>
    simp only [step] at hs
    split at hs
    · rename_i reply rest htaken hresponses
      cases hs
      simp [work, htaken, hresponses]
      omega
    · cases hs
  | reply =>
    simp only [step] at hs
    split at hs
    · rename_i reply htaken
      cases hs
      simp [work, htaken]
    · cases hs

end Steps

/-! ## What the replies are -/

section Replies

variable {g : Stages}

/-- A call that was told something is one that entered, and a value it was
told is a valid one. -/
theorem Sound.known_of_served (h : g.Sound) {call : Call} {told : Answer CString}
    (hmem : (call, told) ∈ serve Call.request [] g.handled) :
    g.Known call ∧ ValidAnswer told := by
  have hknown : ∀ c ∈ g.handled, g.Known c := by
    intro c hc
    refine h.known c ?_
    rw [h.entered]
    simp [hc]
  obtain ⟨before, after, hserve⟩ := List.append_of_mem hmem
  have hcalls := congrArg (List.map Prod.fst) hserve
  rw [map_fst_serve, List.map_append, List.map_cons] at hcalls
  constructor
  · exact hknown call (by rw [hcalls]; simp)
  · rw [answer_of_serve hserve]
    refine validAnswer_answer ?_ _
    intro request hrequest
    obtain ⟨c, hc, rfl⟩ := List.mem_map.mp hrequest
    exact (hknown c (by rw [hcalls]; exact List.mem_append_left _ hc)).1

/-- **The replies so far are the first that one map gives.** -/
theorem Sound.done_prefix (h : g.Sound) : g.done <+: serve Call.request [] g.entered := by
  rw [h.entered, List.append_assoc, List.append_assoc, serve_append, h.served]
  simp only [List.append_assoc]
  exact List.prefix_append _ _

theorem held_eq_none (hs : g.step .dispatch = none) : g.held = none := by
  simp only [step] at hs
  split at hs
  · cases hs
  · assumption

theorem queued_eq_nil (hheld : g.held = none) (hs : g.step .takeRequest = none) :
    g.queued = [] := by
  cases hqueued : g.queued with
  | nil => rfl
  | cons call rest => simp [step, hheld, hqueued] at hs

theorem taken_eq_none (hs : g.step .reply = none) : g.taken = none := by
  simp only [step] at hs
  split at hs
  · cases hs
  · assumption

theorem responses_eq_nil (htaken : g.taken = none) (hs : g.step .takeResponse = none) :
    g.responses = [] := by
  cases hresponses : g.responses with
  | nil => rfl
  | cons reply rest => simp [step, htaken, hresponses] at hs

/-- **A machine with nothing to do has replied to every call**, and every
request has entered. -/
theorem Sound.done_of_idle (h : g.Sound) (hidle : g.Idle) :
    g.done = serve Call.request [] g.entered ∧ ∀ i, g.inbound i = [] := by
  have hheld := held_eq_none (hidle .dispatch rfl)
  have hqueued := queued_eq_nil hheld (hidle .takeRequest rfl)
  have htaken := taken_eq_none (hidle .reply rfl)
  have hresponses := responses_eq_nil htaken (hidle .takeResponse rfl)
  have hatWorker : g.atWorker = [] := by
    cases hatWorker : g.atWorker with
    | nil => rfl
    | cons call rest =>
      have hs := hidle .worker rfl
      simp [step, hatWorker] at hs
  have hanswered : g.answered = [] := by
    cases hanswered : g.answered with
    | nil => rfl
    | cons reply rest =>
      have hs := hidle .workerReceiver rfl
      simp [step, hanswered] at hs
  constructor
  · have hserved := h.served
    rw [htaken, hresponses, hanswered] at hserved
    rw [h.entered, hatWorker, hheld, hqueued]
    simpa using hserved.symm
  · intro i
    cases hinbound : g.inbound i with
    | nil => rfl
    | cons request rest =>
      obtain ⟨socket, hsocket⟩ :=
        Option.ne_none_iff_exists'.mp (h.connected i (by rw [hinbound]; exact List.cons_ne_nil _ _))
      have hs := hidle (.clientReceiver i) rfl
      simp [step, hsocket, hinbound] at hs

/-! ## The threads get done -/

/-- When the dispatchers have nothing to do, both queues are empty, and
there is room for every step. -/
theorem room_of_dispatchers_idle (hdispatch : g.step .dispatch = none)
    (htakeRequest : g.step .takeRequest = none) (hreply : g.step .reply = none)
    (htakeResponse : g.step .takeResponse = none) (l : Label) : g.Room l := by
  have hqueued := queued_eq_nil (held_eq_none hdispatch) htakeRequest
  have hresponses := responses_eq_nil (taken_eq_none hreply) htakeResponse
  cases l with
  | clientReceiver i => simp only [Room, hqueued]; decide
  | workerReceiver => simp only [Room, hresponses]; decide
  | _ => exact trivial

theorem room_of_idle (hidle : g.Idle) (l : Label) : g.Room l :=
  room_of_dispatchers_idle (hidle _ rfl) (hidle _ rfl) (hidle _ rfl) (hidle _ rfl) l

/-- Unless all threads are idle, one of them can move and has room. -/
theorem exists_step (hbusy : ¬ g.Idle) :
    ∃ l g', l.internal = true ∧ g.Room l ∧ g.step l = some g' := by
  by_contra hnone
  have hstuck : ∀ l : Label, l.internal = true → g.Room l → g.step l = none := by
    intro l hl hroom
    cases hs : g.step l with
    | none => rfl
    | some g' => exact absurd ⟨l, g', hl, hroom, hs⟩ hnone
  have hroom : ∀ l, g.Room l := room_of_dispatchers_idle (hstuck _ rfl trivial)
    (hstuck _ rfl trivial) (hstuck _ rfl trivial) (hstuck _ rfl trivial)
  exact hbusy fun l hl => hstuck l hl (hroom l)

/-- **The threads can always finish**: every step is one step less. -/
theorem exists_run_to_idle (g : Stages) :
    ∃ ls g', (∀ l ∈ ls, Label.internal l = true) ∧ Along step Room g ls ∧
      exec step g ls = some g' ∧ g'.Idle := by
  generalize hwork : g.work = n
  induction n generalizing g with
  | zero =>
    by_cases hidle : g.Idle
    · exact ⟨[], g, by simp, along_nil g, exec_nil g, hidle⟩
    · obtain ⟨l, g', hl, -, hs⟩ := exists_step hidle
      have hless := work_step hl hs
      omega
  | succ n ih =>
    by_cases hidle : g.Idle
    · exact ⟨[], g, by simp, along_nil g, exec_nil g, hidle⟩
    · obtain ⟨l, g', hl, hroom, hs⟩ := exists_step hidle
      have hless := work_step hl hs
      obtain ⟨ls, g'', hls, halong, hexec, hidle'⟩ := ih g' (by omega)
      refine ⟨l :: ls, g'', ?_, (along_cons hs).mpr ⟨hroom, halong⟩,
        exec_cons_eq_some.mpr ⟨g', hs, hexec⟩, hidle'⟩
      intro l' hl'
      rcases List.mem_cons.mp hl' with rfl | hl'
      · exact hl
      · exact hls l' hl'

end Replies

end Stages

end LoadBalancing.Pipeline
