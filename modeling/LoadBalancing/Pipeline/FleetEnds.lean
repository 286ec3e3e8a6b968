/-
LoadBalancing.Pipeline.FleetEnds — what a step of the fleet does at its two
ends.

At one end are the clients: what they have sent, and what of it their
receiver threads have read (`step_clients`). At the other end are the
workers, whose threads move as in `Worker.Cluster`, whose connections come
and break, and which end (`step_cluster`). Most steps concern neither.

No `sorry`, no `axiom`, no `native_decide`.
-/
import LoadBalancing.Pipeline.FleetPlaces
import LoadBalancing.Worker.StoredValues

namespace LoadBalancing.Pipeline.Fleet

open LoadBalancing.Base LoadBalancing.Lib LoadBalancing.LoadBalancer LoadBalancing.Worker

/-! ## The two ends -/

section Steps

variable {s t : State}

/-- What the clients have sent, and what of it has been read. -/
inductive ClientStep (s t : State) : Prop
  | none (hfrom : t.fromClient = s.fromClient) (hsent : t.sent = s.sent)
      (hentered : t.entered = s.entered)
  | sent (i : Nat) (message : Message)
      (hfrom : t.fromClient = Function.update s.fromClient i (s.fromClient i ++ [message]))
      (hsent : t.sent = s.sent ++ [message]) (hentered : t.entered = s.entered)
  | read {i : Nat} {message : Message} {rest : List Message}
      (hunread : s.fromClient i = message :: rest)
      (hfrom : t.fromClient = Function.update s.fromClient i rest) (hsent : t.sent = s.sent)
      (hentered : t.entered = s.entered ∨
        ∃ request copy, copy.Same request ∧ requestMessage request = message ∧
          t.entered = s.entered ++ [request] ∧ t.items = .request copy ::ₘ s.items)
  | left (i : Nat) (hfrom : t.fromClient = Function.update s.fromClient i [])
      (hsent : t.sent = s.sent) (hentered : t.entered = s.entered)

/-- What may become of the workers when none ends and none stores a key for
a client. -/
inductive QuietMove (d : Worker.Delivery) (s : State) : Cluster → Prop
  | none : QuietMove d s s.cluster
  | move {l : Worker.Label} {cluster : Cluster} (hmove : Cluster.Move d s.cluster l cluster)
      (hquiet : l.request? = .none) : QuietMove d s cluster
  | told (w : Nat) (message : Message) (connected : Bool) :
      QuietMove d s (s.receiveOther w message connected)
  | notifyFailed {w peer : Nat} {key value : CString} {todo removed : List Nat}
      (hreceiver : (s.cluster.node w).receiver = .notifying key value (peer :: todo) removed) :
      QuietMove d s (s.cluster.setNode w { s.cluster.node w with
        receiver := .notifying key value todo (removed ++ [peer]) })
  | exportFailed (w : Nat) : QuietMove d s (s.cluster.setExporter w .idle)
  | broken (c : Nat × Nat) : QuietMove d s (breakChannel s.cluster c)

/-- What happens to the workers, and what is logged of it. -/
inductive ClusterStep (d : Worker.Delivery) (s t : State) : Prop
  | quiet (hmove : QuietMove d s t.cluster) (hstopped : t.stopped = s.stopped)
      (hstored : t.stored = s.stored)
  | stored {w : Nat} {message : Message} {request : StoreRequest} {allocated : Bool}
      (hmem : Item.toWorker w message ∈ s.items) (hw : w < s.cluster.size)
      (htype : MessageType.ofValue? message.type = some .storeRequest)
      (hdecode : storeRequest? message.payload = some request)
      (hmove : Cluster.Move d s.cluster (.receive w (.storeRequest message.payload allocated))
        t.cluster)
      (hstopped : t.stopped = s.stopped)
      (hstored : t.stored = s.stored ++ storedKey w request.key
        (setHashTable (s.cluster.node w).table request.key request.value allocated).1)
  | ended (w : Nat) (hcluster : t.cluster = endNode s.cluster w)
      (hstopped : t.stopped = Function.update s.stopped w true) (hstored : t.stored = s.stored)
      (htoWorker : t.toWorker w = []) (hreplying : t.replying w = [])
      (hitems : t.items ≤ s.items)

/-- A step that concerns neither. -/
structure SameEnds (s t : State) : Prop where
  fromClient : t.fromClient = s.fromClient
  sent : t.sent = s.sent
  entered : t.entered = s.entered
  cluster : t.cluster = s.cluster
  stopped : t.stopped = s.stopped
  stored : t.stored = s.stored

theorem SameEnds.putToWorker (h : SameEnds s t) (w : Option Nat) (message : Message) :
    SameEnds s (t.putToWorker w message) := by
  unfold State.putToWorker
  cases w with
  | none => exact h
  | some w =>
    rw [Option.elim_some]
    split
    · exact ⟨h.fromClient, h.sent, h.entered, h.cluster, h.stopped, h.stored⟩
    · exact h

theorem sameEnds_dispatch {sendResult : Int}
    (h : s.dispatchStep sendResult = some t) : SameEnds s t := by
  unfold State.dispatchStep at h
  split at h
  · split at h
    · cases h
      exact ⟨rfl, rfl, rfl, rfl, rfl, rfl⟩
    · cases h
      exact ⟨rfl, rfl, rfl, rfl, rfl, rfl⟩
    · cases h
      exact ⟨rfl, rfl, rfl, rfl, rfl, rfl⟩
    · split at h
      · cases h
        refine SameEnds.putToWorker ?_ _ _
        exact ⟨rfl, rfl, rfl, rfl, rfl, rfl⟩
      · split at h
        · cases h
          exact ⟨rfl, rfl, rfl, rfl, rfl, rfl⟩
        · cases h
          exact ⟨rfl, rfl, rfl, rfl, rfl, rfl⟩
  · cases h

theorem sameEnds_respond {w : Nat} {sendResult : Int} (h : s.respondStep w sendResult = some t) :
    SameEnds s t := by
  unfold State.respondStep at h
  split at h
  · cases h
  · split at h
    · split at h
      · cases h
        exact ⟨rfl, rfl, rfl, rfl, rfl, rfl⟩
      · cases h
        exact ⟨rfl, rfl, rfl, rfl, rfl, rfl⟩
    · cases h

theorem sameEnds_workerReceiver {w : Nat} (h : s.workerReceiverStep w = some t) : SameEnds s t := by
  unfold State.workerReceiverStep at h
  split at h
  · cases h
  · rename_i message rest hfrom
    split at h
    · simp only at h
      split at h
      · rename_i error herror
        cases h
        refine SameEnds.putToWorker ?_ _ _
        exact ⟨rfl, rfl, rfl, rfl, rfl, rfl⟩
      · cases h
        exact ⟨rfl, rfl, rfl, rfl, rfl, rfl⟩
    · cases h

theorem sameEnds_reply {sendResult : Int} (h : s.replyStep sendResult = some t) :
    SameEnds s t := by
  unfold State.replyStep at h
  split at h
  · cases h
  · simp only at h
    split at h
    · cases h
      exact ⟨rfl, rfl, rfl, rfl, rfl, rfl⟩
    · split at h
      · cases h
        exact ⟨rfl, rfl, rfl, rfl, rfl, rfl⟩
      · cases h
        exact ⟨rfl, rfl, rfl, rfl, rfl, rfl⟩

/-- The labels that concern neither end. -/
def Label.middle : Label → Bool
  | .connect .. | .changeWorkers _ | .rewire _ | .announce .. | .takeRequest | .pickWorker
  | .dispatch _ | .respond .. | .breakFromWorker _ | .workerReceiver _ | .takeResponse
  | .reply _ => true
  | _ => false

theorem sameEnds_of_middle {d : Worker.Delivery} {l : Label}
    (hmiddle : l.middle = true) (h : step d s l = some t) : SameEnds s t := by
  cases l with
  | disconnect | clientSend | clientReceiver | worker | work | notifyFails | exportFails
  | breakPeers | endWorker | garble => cases hmiddle
  | connect | changeWorkers | rewire =>
    cases h
    exact ⟨rfl, rfl, rfl, rfl, rfl, rfl⟩
  | breakFromWorker w =>
    simp only [step, State.breakFromWorkerStep] at h
    split at h
    · cases h
      exact ⟨rfl, rfl, rfl, rfl, rfl, rfl⟩
    · cases h
  | announce w message =>
    simp only [step] at h
    split at h
    · cases h
      exact SameEnds.putToWorker ⟨rfl, rfl, rfl, rfl, rfl, rfl⟩ _ _
    · cases h
  | takeRequest =>
    simp only [step, State.takeRequestStep] at h
    split at h
    · cases h
    · cases h
      exact ⟨rfl, rfl, rfl, rfl, rfl, rfl⟩
  | pickWorker =>
    simp only [step, State.pickWorkerStep] at h
    split at h
    · split at h
      · cases h
        exact ⟨rfl, rfl, rfl, rfl, rfl, rfl⟩
      · cases h
        exact ⟨rfl, rfl, rfl, rfl, rfl, rfl⟩
    · cases h
  | dispatch => exact sameEnds_dispatch h
  | respond => exact sameEnds_respond h
  | workerReceiver => exact sameEnds_workerReceiver h
  | takeResponse =>
    simp only [step, State.takeResponseStep] at h
    split at h
    · cases h
    · cases h
      exact ⟨rfl, rfl, rfl, rfl, rfl, rfl⟩
  | reply => exact sameEnds_reply h

/-- **The clients' end of a step.** -/
theorem step_clients {d : Worker.Delivery} {l : Label}
    (hl : l.framed) (h : step d s l = some t) : ClientStep s t := by
  by_cases hmiddle : l.middle = true
  · have hsame := sameEnds_of_middle hmiddle h
    exact .none hsame.fromClient hsame.sent hsame.entered
  · cases l with
    | disconnect i =>
      simp only [step, State.disconnectStep] at h
      split at h
      · split at h
        · cases h
          exact .left i rfl rfl rfl
        · cases h
      · cases h
    | clientSend i message =>
      simp only [step, State.clientSendStep] at h
      split at h
      · split at h
        · cases h
          exact .sent i message rfl rfl rfl
        · cases h
      · cases h
    | clientReceiver i =>
      obtain ⟨message, rest, hunread, hfrom, hsent, ⟨request, copy, hsame, -, hmessage, hentered,
        hitems⟩ | ⟨hentered, -⟩⟩ := clientReceiver_cases h
      · exact .read hunread hfrom hsent (Or.inr ⟨request, copy, hsame, hmessage, hentered, hitems⟩)
      · exact .read hunread hfrom hsent (Or.inl hentered)
    | worker w allocated connected =>
      obtain ⟨message, rest, cluster, reply, log, -, -, -, -, rfl⟩ := workerStep_turn h
      exact .none rfl rfl rfl
    | work l =>
      cases l with
      | receive => cases h
      | notify | accept | read | hangUp | storePeerData | runExport =>
        simp only [step] at h
        split at h
        · obtain ⟨cluster, -, rfl⟩ := Option.map_eq_some_iff.mp h
          exact .none rfl rfl rfl
        · cases h
    | notifyFails w =>
      simp only [step, State.notifyFailsStep] at h
      split at h
      · cases h
        exact .none rfl rfl rfl
      · cases h
    | exportFails | breakPeers =>
      cases h
      exact .none rfl rfl rfl
    | endWorker w =>
      simp only [step, State.endWorkerStep] at h
      split at h
      · cases h
        exact .none rfl rfl rfl
      · cases h
    | garble => cases hl
    | _ => exact absurd rfl hmiddle

/-- **The workers' end of a step.** -/
theorem step_cluster {d : Worker.Delivery} {l : Label}
    (hl : l.framed) (h : step d s l = some t) : ClusterStep d s t := by
  by_cases hmiddle : l.middle = true
  · have hsame := sameEnds_of_middle hmiddle h
    exact .quiet (hsame.cluster ▸ .none) hsame.stopped hsame.stored
  · cases l with
    | disconnect i =>
      simp only [step, State.disconnectStep] at h
      split at h
      · split at h
        · cases h
          exact .quiet .none rfl rfl
        · cases h
      · cases h
    | clientSend i message =>
      simp only [step, State.clientSendStep] at h
      split at h
      · split at h
        · cases h
          exact .quiet .none rfl rfl
        · cases h
      · cases h
    | clientReceiver i =>
      simp only [step, State.clientReceiverStep] at h
      split at h
      · split at h
        · split at h
          · cases h
            exact .quiet .none rfl rfl
          · cases h
            exact .quiet .none rfl rfl
        · cases h
      · cases h
    | worker w allocated connected =>
      obtain ⟨message, rest, cluster, reply, log, hto, hw, -, hturn, rfl⟩ := workerStep_turn h
      cases hturn with
      | dropped | retrieved => exact .quiet .none rfl (List.append_nil _)
      | stored htype hdecode hstep =>
        refine .stored ?_ hw.1 htype hdecode (Cluster.step_move hstep) rfl rfl
        simp only [State.items, Multiset.mem_add]
        refine Or.inl (Or.inl (Or.inl (Or.inl (Or.inl (Or.inr ?_)))))
        exact mem_gather.mpr ⟨w, hw.1, message, by rw [hto]; exact List.mem_cons_self, rfl⟩
      | other connected => exact .quiet (.told w message connected) rfl (List.append_nil _)
    | work l =>
      cases l with
      | receive => cases h
      | notify | accept | read | hangUp | storePeerData | runExport =>
        simp only [step] at h
        split at h
        · obtain ⟨cluster, hcluster, rfl⟩ := Option.map_eq_some_iff.mp h
          exact .quiet (.move (Cluster.step_move hcluster) rfl) rfl rfl
        · cases h
    | notifyFails w =>
      simp only [step, State.notifyFailsStep] at h
      split at h
      · rename_i key value peer todo removed hreceiver
        cases h
        exact .quiet (.notifyFailed hreceiver) rfl rfl
      · cases h
    | exportFails w =>
      cases h
      exact .quiet (.exportFailed w) rfl rfl
    | breakPeers c =>
      cases h
      exact .quiet (.broken c) rfl rfl
    | endWorker w =>
      obtain ⟨lost, -, hlost⟩ := @items_endWorker d _ _ _ h
      have hitems : t.items ≤ s.items := hlost ▸ Multiset.le_add_left _ _
      simp only [step, State.endWorkerStep] at h
      split at h
      · cases h
        exact .ended w rfl rfl rfl (Function.update_self _ _ _) (Function.update_self _ _ _) hitems
      · cases h
    | garble => cases hl
    | _ => exact absurd rfl hmiddle

/-- An entry stores nothing: a worker connects and queues an export. -/
theorem receiveOther_cases (s : State) (w : Nat) (message : Message)
    (connected : Bool) :
    s.receiveOther w message connected = s.cluster ∨
      ∃ peer, (s.receiveOther w message connected = s.cluster.addPeer w peer) ∨
        (s.receiveOther w message connected
          = (s.cluster.addPeer w peer).addExportRequest w peer) ∨
        s.receiveOther w message connected = s.cluster.addExportRequest w peer := by
  unfold State.receiveOther
  split
  · split
    · rename_i workerId address port shouldExportData hreceive
      cases s.net.workerWithId workerId.toInt32 with
      | none => exact Or.inl rfl
      | some peer =>
        rw [Option.elim_some]
        cases connected
        · simp only [Bool.false_eq_true, if_false]
          split
          · exact Or.inr ⟨peer, Or.inr (Or.inr rfl)⟩
          · exact Or.inl rfl
        · simp only [if_true]
          split
          · exact Or.inr ⟨peer, Or.inr (Or.inl rfl)⟩
          · exact Or.inr ⟨peer, Or.inl rfl⟩
    · exact Or.inl rfl
  · exact Or.inl rfl

/-- A move that stores no key for a client brings nothing new. -/
theorem holds_quiet {d : Worker.Delivery} {Put : CString → CString → Prop} {cluster : Cluster}
    (hholds : Cluster.Holds Put s.cluster) (hmove : QuietMove d s cluster) :
    Cluster.Holds Put cluster := by
  cases hmove with
  | none => exact hholds
  | move hmove hquiet =>
    refine Cluster.holds_move hholds hmove fun request hrequest => ?_
    rw [hquiet] at hrequest
    cases hrequest
  | told w message connected =>
    rcases receiveOther_cases s w message connected with heq | ⟨peer, heq | heq | heq⟩
    · rwa [heq]
    · rw [heq]
      exact hholds.addPeer w peer
    · rw [heq]
      exact (hholds.addPeer w peer).addExportRequest w peer
    · rw [heq]
      exact hholds.addExportRequest w peer
  | @notifyFailed w peer key value todo removed hreceiver =>
    have hnotified := (hholds.nodes w).receiver _ _ _ _ hreceiver
    refine hholds.setNode ⟨(hholds.nodes w).table, ?_, (hholds.nodes w).listener,
      (hholds.nodes w).exporter⟩
    intro key' value' todo' removed' hr
    cases hr
    exact hnotified
  | exportFailed w => exact hholds.setExporter fun key value hmem => by cases hmem
  | broken c =>
    have hchannel := hholds.setChannel c (List.nil_subset _)
    exact ⟨hchannel.nodes, hchannel.channels⟩

/-- **What the workers hold.** A step leaves nothing in the workers but what
may be put there, if what it stores may. -/
theorem holds_cluster {d : Worker.Delivery} {Put : CString → CString → Prop}
    (hholds : Cluster.Holds Put s.cluster) (hstep : ClusterStep d s t)
    (hput : ∀ w message request, Item.toWorker w message ∈ s.items →
      MessageType.ofValue? message.type = some .storeRequest →
      storeRequest? message.payload = some request → Put request.key request.value) :
    Cluster.Holds Put t.cluster := by
  cases hstep with
  | quiet hmove => exact holds_quiet hholds hmove
  | @stored w message request allocated hmem hw htype hdecode hmove =>
    exact Cluster.holds_move hholds hmove fun request hrequest =>
      hput w message request hmem htype hrequest
  | ended w hcluster =>
    rw [hcluster]
    have hnode : Cluster.Holds Put (s.cluster.setNode w Node.fresh) :=
      hholds.setNode ((Cluster.holds_start Put 0).nodes w)
    exact ⟨hnode.nodes, hnode.channels⟩

end Steps

end LoadBalancing.Pipeline.Fleet
