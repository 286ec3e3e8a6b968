/-
LoadBalancing.Worker.ExportThread — one export, from its request to its
end.

An export goes through the buckets in order and copies each once, so a
key can still be exported as long as its bucket is ahead
(`ExporterAt.Ahead`). A turn of the thread begins no export that was not
asked for and sends it nowhere else. Nothing but the thread itself moves
it (`exporter_move`), and nothing but a WORKER_ENTRY adds to its queue
(`exportQueue_move`).

No `sorry`, no `axiom`, no `native_decide`.
-/
import LoadBalancing.Worker.Replication

namespace LoadBalancing.Worker

open LoadBalancing.Base LoadBalancing.Lib

/-! ## The places of an export -/

/-- The export has not come to a bucket yet. -/
def ExporterAt.Ahead : ExporterAt → Nat → Prop
  | .idle, _ => False
  | .counting _ _ _, _ | .connecting _, _ | .recounting _ _ _, _ => True
  | .scanning _ next, bucket => next ≤ bucket
  | .sending _ current _, bucket => current < bucket

instance (place : ExporterAt) (bucket : Nat) : Decidable (place.Ahead bucket) := by
  unfold ExporterAt.Ahead
  split <;> infer_instance

/-- The worker an export goes to. -/
def ExporterAt.target : ExporterAt → Option Nat
  | .idle => none
  | .counting target _ _ | .connecting target | .recounting target _ _ | .scanning target _
  | .sending target _ _ => some target

/-- The exports a worker has not finished. -/
def Node.exports (n : Node) : Nat := n.exportQueue.length + n.exporter.target.toList.length

/-! ## Turns -/

/-- A turn begins no export that was not asked for. -/
theorem ExportTurn.exports_le {n : Node} {queue : List Nat} {place : ExporterAt}
    {sent : Option (Nat × Message)} (h : ExportTurn n queue place sent) :
    queue.length + place.target.toList.length ≤ n.exports := by
  unfold Node.exports
  cases h with
  | taken hexporter hqueue => simp [hexporter, hqueue, ExporterAt.target]
  | counted more hexporter | foundItems hexporter | connected hexporter | recounted more hexporter
  | started hexporter | copied hexporter | bucketDone hexporter | entrySent hexporter =>
    simp [hexporter, ExporterAt.target]
  | foundNone | notConnected | ended | entryFailed => simp [ExporterAt.target]

/-- And goes to the worker it was asked for. -/
theorem ExportTurn.forall_targets {n : Node} {queue : List Nat} {place : ExporterAt}
    {sent : Option (Nat × Message)} (h : ExportTurn n queue place sent) {P : Nat → Prop}
    (hqueue : ∀ target ∈ n.exportQueue, P target)
    (htarget : ∀ target, n.exporter.target = some target → P target) :
    (∀ target ∈ queue, P target) ∧ ∀ target, place.target = some target → P target := by
  cases h with
  | @taken target rest hexporter htaken =>
    rw [htaken] at hqueue
    refine ⟨fun x hx => hqueue x (List.mem_cons_of_mem _ hx), ?_⟩
    intro x hx
    cases hx
    exact hqueue target List.mem_cons_self
  | counted more hexporter | foundItems hexporter | connected hexporter | recounted more hexporter
  | started hexporter | copied hexporter | bucketDone hexporter | entrySent hexporter =>
    rw [hexporter] at htarget
    exact ⟨hqueue, htarget⟩
  | foundNone | notConnected | ended | entryFailed => exact ⟨hqueue, nofun⟩

/-- What it has still to send of a bucket it had before, or copies from the
table. -/
theorem ExportTurn.mem_nodes {n : Node} {queue : List Nat} {place : ExporterAt}
    {sent : Option (Nat × Message)} (h : ExportTurn n queue place sent) {node : DataNode}
    (hnode : node ∈ place.nodes) :
    node ∈ n.exporter.nodes ∨ ∃ bucket, node ∈ n.table.chains bucket := by
  cases h with
  | @copied target bucket hexporter => exact Or.inr ⟨bucket, hnode⟩
  | entrySent hexporter =>
    rw [hexporter]
    exact Or.inl (List.mem_cons_of_mem _ hnode)
  | taken | counted | foundItems | foundNone | connected | notConnected | recounted | started
  | ended | bucketDone | entryFailed => cases hnode

namespace Cluster

@[simp] theorem node_exported (s : Cluster) (w : Nat) (queue : List Nat) (place : ExporterAt)
    (sent : Option (Nat × Message)) :
    (s.exported w queue place sent).node w
      = { s.node w with exportQueue := queue, exporter := place } := by
  cases sent <;> simp [exported, send]

section Moves

variable {d : Delivery} {s t : Cluster} {l : Label}

/-- Nothing but its own turns moves an export thread. -/
theorem exporter_move (hmove : Move d s l t) {x : Nat} (hl : l ≠ .runExport x) :
    (t.node x).exporter = (s.node x).exporter := by
  have hother : ∀ w : Nat, l = .runExport w → ∀ n, ((s.setNode w n).node x) = s.node x := by
    intro w hw n
    exact node_setNode_of_ne fun hx => hl (by rw [hw, hx])
  cases hmove with
  | dropped | readOther | readKnown => rfl
  | @entry w worker shouldExportData =>
    have hadd : ((s.addPeer w worker).node x).exporter = (s.node x).exporter := by
      unfold addPeer
      split
      · rfl
      · exact proj_setNode Node.exporter (by rfl) x
    unfold receiveEntry
    split
    · unfold addExportRequest
      split
      · exact hadd
      · exact (proj_setNode Node.exporter (by rfl) x).trans hadd
    · exact hadd
  | stored | refused | notified | notifyFailed | broadcastDone | accepted | readNew | hungUp
  | storedPeerData => exact proj_setNode Node.exporter (by rfl) x
  | exportTaken => exact congrArg Node.exporter (hother _ rfl _)
  | exportMoved => exact congrArg Node.exporter (hother _ rfl _)
  | exportSent => exact congrArg Node.exporter (hother _ rfl _)

/-- A request finds room in a queue that is not full. -/
theorem exportQueue_addExportRequest {w target : Nat}
    (hroom : (s.node w).exportQueue.length < maxWorkers) :
    ((s.addExportRequest w target).node w).exportQueue = (s.node w).exportQueue ++ [target] := by
  simp [addExportRequest, Nat.not_le.mpr hroom]

@[simp] theorem exportQueue_addPeer (s : Cluster) (w peer x : Nat) :
    ((s.addPeer w peer).node x).exportQueue = (s.node x).exportQueue := by
  unfold addPeer
  split
  · rfl
  · exact proj_setNode Node.exportQueue (by rfl) x

/-- Nothing but its own turns and a WORKER_ENTRY changes an export
queue. -/
theorem exportQueue_move (hmove : Move d s l t) {x : Nat} (hl : l ≠ .runExport x)
    (hentry : ∀ worker, l ≠ .receive x (.workerEntry worker true)) :
    (t.node x).exportQueue = (s.node x).exportQueue := by
  have hother : ∀ w : Nat, l = .runExport w → ∀ n, ((s.setNode w n).node x) = s.node x := by
    intro w hw n
    exact node_setNode_of_ne fun hx => hl (by rw [hw, hx])
  cases hmove with
  | dropped | readOther | readKnown => rfl
  | @entry w worker shouldExportData =>
    have hadd := exportQueue_addPeer s w worker x
    cases shouldExportData with
    | false => exact hadd
    | true =>
      have hne : x ≠ w := by
        rintro rfl
        exact hentry worker rfl
      simp only [receiveEntry, if_true, addExportRequest]
      split
      · exact hadd
      · rw [node_setNode_of_ne hne]
        exact hadd
  | stored | refused | notified | notifyFailed | broadcastDone | accepted | readNew | hungUp
  | storedPeerData => exact proj_setNode Node.exportQueue (by rfl) x
  | exportTaken => exact congrArg Node.exportQueue (hother _ rfl _)
  | exportMoved => exact congrArg Node.exportQueue (hother _ rfl _)
  | exportSent => exact congrArg Node.exportQueue (hother _ rfl _)

end Moves

end Cluster

end LoadBalancing.Worker
