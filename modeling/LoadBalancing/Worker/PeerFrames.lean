/-
LoadBalancing.Worker.PeerFrames — the byte streams between workers.

In `Worker.Cluster` a message is sent in one step. Here a `ProtocolSend`
is its two sends, the header and the payload, and other threads move in
between; a thread has made its step of the cluster when its frame is
complete. Two threads of a worker send to its peers: the receiver thread
inside `BroadcastData`, which holds the peer lock, and the export thread
inside `ExportHashTableToPeer`, which holds bucket locks and takes the
peer lock only to look up its socket in `GetPeerConnection`. No lock is
held by both while they send.

`peer_frames_whole_of_alone`: a run in which no thread sends a header
into the other's open frame leaves whole frames on every connection with
no send in progress. `broadcast_cuts_export` is a run that cuts one.

Out of scope: failing and partial sends.

No `sorry`, no `axiom`, no `native_decide`.
-/
import LoadBalancing.Base.SharedStreams
import LoadBalancing.Base.Transition
import LoadBalancing.Lib.NetworkLib
import LoadBalancing.Worker.Cluster

namespace LoadBalancing.Worker.PeerFrames

open LoadBalancing.Base LoadBalancing.Lib

/-! ## Sends in two parts -/

/-- The threads of a worker that send to its peers: `ReceiverThread` and
`ExportThread`. -/
inductive Thread where
  | receiver
  | exporter
  deriving DecidableEq

/-- A thread of a worker. -/
abbrev Writer := Nat × Thread

/-- The workers, and the bytes on the connections from worker to peer. -/
structure State where
  cluster : Cluster
  streams : SharedStreams Writer (Nat × Nat) Message UInt8

/-- One step: of the cluster, without a send; the header or the payload
send of a thread of worker `w`. -/
inductive Label where
  | quiet (l : Worker.Label)
  | sendHeader (w : Nat) (thread : Thread)
  | sendPayload (w : Nat) (thread : Thread)
  deriving DecidableEq

/-- The header of a message on the wire. -/
def headerBytes (m : Message) : List UInt8 := header m.type (UInt16.ofNat m.payload.length)

/-- The peer and the message a thread is about to send, or is sending. -/
def nextMessage (s : Cluster) (w : Nat) : Thread → Option (Nat × Message)
  | .receiver =>
    match (s.node w).receiver with
    | .notifying key value (peer :: _) _ =>
      (sendPeerNotify key value).map fun message => (peer, message)
    | _ => none
  | .exporter =>
    match (s.node w).exporter.connectedTo, (s.node w).exporter.message with
    | some target, some message => some (target, message)
    | _, _ => none

/-- The step of the cluster that a thread makes with its send. -/
def Thread.label (w : Nat) : Thread → Worker.Label
  | .receiver => .notify w
  | .exporter => .runExport w

/-- May this step be made without a send? The lookup of
`GetPeerConnection` waits for the peer lock, which `BroadcastData`
holds. -/
def mayMove (s : Cluster) : Worker.Label → Bool
  | .notify w => (nextMessage s w .receiver).isNone
  | .runExport w =>
    (nextMessage s w .exporter).isNone &&
      match (s.node w).exporter, (s.node w).receiver with
      | .connecting _, .notifying _ _ _ _ => false
      | _, _ => true
  | _ => true

/-- One step. A message without a payload is complete with its header. -/
def step (d : Delivery) (s : State) : Label → Option State
  | .quiet l =>
    if mayMove s.cluster l then
      (Cluster.step d s.cluster l).map fun cluster => { s with cluster := cluster }
    else none
  | .sendHeader w thread =>
    match nextMessage s.cluster w thread with
    | none => none
    | some (peer, message) =>
      (s.streams.sendFirst headerBytes Message.payload (w, thread) (w, peer) message).bind
        fun streams =>
          if message.payload.isEmpty then
            (Cluster.step d s.cluster (thread.label w)).map fun cluster => ⟨cluster, streams⟩
          else some { s with streams := streams }
  | .sendPayload w thread =>
    (s.streams.sendSecond (w, thread)).bind fun streams =>
      (Cluster.step d s.cluster (thread.label w)).map fun cluster => ⟨cluster, streams⟩

/-- `n` workers before the first connection. -/
def start (n : Nat) : State := ⟨Cluster.start n, SharedStreams.new⟩

/-- A message that one worker sends to another. -/
def PeerMessage (m : Message) : Prop :=
  m.type = MessageType.peerNotify.value ∨ m.type = MessageType.dataExportStart.value ∨
    m.type = MessageType.dataEntry.value ∨ m.type = MessageType.dataExportEnd.value

/-- On a connection with no send in progress, the stream is a
concatenation of the frames of the `ProtocolSend` calls made on it, in
some order. -/
def State.WholeFrames (s : State) : Prop :=
  ∀ c, s.streams.Idle c → ∃ frames : List Message, frames.Perm (s.streams.sent c) ∧
    (∀ m ∈ frames, PeerMessage m) ∧ s.streams.bytes c = frames.flatMap Message.frame

/-- If this step sends a header, the other thread is not between header
and payload on that connection. -/
def Alone (s : State) : Label → Prop
  | .sendHeader w thread =>
    match nextMessage s.cluster w thread with
    | some (peer, _) => s.streams.IdleBut (w, thread) (w, peer)
    | none => True
  | _ => True

instance (s : State) (l : Label) : Decidable (Alone s l) := by
  cases l <;> simp only [Alone] <;> try infer_instance
  split <;> infer_instance

/-! ## Whole frames -/

/-- Threads send nothing but the four messages between workers. -/
theorem peerMessage_of_nextMessage {s : Cluster} {w peer : Nat} {thread : Thread} {m : Message}
    (h : nextMessage s w thread = some (peer, m)) : PeerMessage m := by
  cases thread with
  | receiver =>
    simp only [nextMessage] at h
    split at h
    · obtain ⟨message, hmessage, heq⟩ := Option.map_eq_some_iff.mp h
      cases heq
      simp only [sendPeerNotify] at hmessage
      split at hmessage
      · cases hmessage
      · cases hmessage
        exact Or.inl rfl
    · cases h
  | exporter =>
    simp only [nextMessage] at h
    split at h
    · rename_i target message hconnected hmessage
      cases h
      unfold ExporterAt.message at hmessage
      split at hmessage
      · split at hmessage
        · cases hmessage
        · cases hmessage
          exact Or.inr (Or.inl rfl)
      · split at hmessage
        · cases hmessage
        · cases hmessage
          exact Or.inr (Or.inr (Or.inr rfl))
      · simp only [entryMessage, sendDataEntry] at hmessage
        split at hmessage
        · split at hmessage
          · cases hmessage
          · cases hmessage
            exact Or.inr (Or.inr (Or.inl rfl))
        · cases hmessage
      · cases hmessage
    · cases h

/-- The streams hold the frames of messages between workers. -/
structure Keeps (s : State) : Prop where
  framed : s.streams.Framed headerBytes Message.payload
  messages : ∀ c, ∀ m ∈ s.streams.sent c, PeerMessage m

theorem keeps_start (n : Nat) : Keeps (start n) :=
  ⟨SharedStreams.framed_new, by simp [start, SharedStreams.new]⟩

/-- **Step lemma.** A step that cuts no frame keeps the streams framed. -/
theorem keeps_step {d : Delivery} (s : State) (l : Label) (t : State) (hI : Keeps s)
    (halone : Alone s l) (h : step d s l = some t) : Keeps t := by
  cases l with
  | quiet l =>
    simp only [step] at h
    split at h
    · obtain ⟨cluster, -, rfl⟩ := Option.map_eq_some_iff.mp h
      exact ⟨hI.framed, hI.messages⟩
    · cases h
  | sendHeader w thread =>
    simp only [step] at h
    split at h
    · cases h
    · rename_i peer m hnext
      obtain ⟨streams, hsend, hrest⟩ := Option.bind_eq_some_iff.mp h
      simp only [Alone, hnext] at halone
      have hframed := hI.framed.sendFirst halone hsend
      have hsent := SharedStreams.sent_sendFirst hsend
      have hkeeps : Keeps ⟨s.cluster, streams⟩ := by
        refine ⟨hframed, ?_⟩
        intro c m' hm'
        simp only [hsent] at hm'
        by_cases hc : c = (w, peer)
        · subst hc
          rw [Function.update_self] at hm'
          rcases List.mem_append.mp hm' with hold | hnew
          · exact hI.messages _ m' hold
          · rw [List.mem_singleton.mp hnew]
            exact peerMessage_of_nextMessage hnext
        · rw [Function.update_of_ne hc] at hm'
          exact hI.messages c m' hm'
      split at hrest
      · obtain ⟨cluster, -, rfl⟩ := Option.map_eq_some_iff.mp hrest
        exact ⟨hkeeps.framed, hkeeps.messages⟩
      · cases hrest
        exact hkeeps
  | sendPayload w thread =>
    simp only [step] at h
    obtain ⟨streams, hsend, hrest⟩ := Option.bind_eq_some_iff.mp h
    obtain ⟨cluster, -, rfl⟩ := Option.map_eq_some_iff.mp hrest
    refine ⟨hI.framed.sendSecond hsend, ?_⟩
    rw [SharedStreams.sent_sendSecond hsend]
    exact hI.messages

/-- **Frame atomicity of undisturbed runs.** When every header of a run is
sent while the other thread of its worker stands mid-frame on no same
connection, every idle connection carries whole frames, in the order of
the calls. -/
theorem peer_frames_whole_of_alone {d : Delivery} {n : Nat} {ls : List Label} {s : State}
    (halone : Along (step d) Alone (start n) ls) (h : exec (step d) (start n) ls = some s) :
    s.WholeFrames := by
  have hkeeps := exec_invariant_along keeps_step (keeps_start n) halone h
  intro c hidle
  exact ⟨s.streams.sent c, List.Perm.refl _, hkeeps.messages c, hkeeps.framed.of_idle hidle⟩

/-! ## A cut frame -/

/-- The DATA_EXPORT_START of one entry. -/
def startMessage : Message := ⟨MessageType.dataExportStart.value, [0, 0, 0, 1]⟩

example : sendDataExportStart 1 = some startMessage := by decide

/-- The PEER_NOTIFY of `j` with value `w`. -/
def notifyMessage : Message := ⟨MessageType.peerNotify.value, [0, 1, 106, 0, 1, 119]⟩

example : sendPeerNotify ⟨[106], by decide⟩ ⟨[119], by decide⟩ = some notifyMessage := by decide

/-- Worker 0 stores `k` and is asked to export to worker 1, up to the
count for its DATA_EXPORT_START. -/
def exportBegins : List Label :=
  [.quiet (.receive 0 (.storeRequest [0, 0, 0, 1, 0, 1, 107, 0, 1, 118] true)),
    .quiet (.notify 0), .quiet (.receive 0 (.workerEntry 1 true))]
    ++ List.replicate 67 (.quiet (.runExport 0))

/-- The message is sent, and then `j` is stored and broadcast. -/
def separateRun : List Label :=
  exportBegins ++ [.sendHeader 0 .exporter, .sendPayload 0 .exporter,
    .quiet (.receive 0 (.storeRequest [0, 0, 0, 1, 0, 1, 106, 0, 1, 119] true)),
    .sendHeader 0 .receiver, .sendPayload 0 .receiver]

/-- `j` is stored and broadcast in the middle of the message. -/
def interleavedRun : List Label :=
  exportBegins ++ [.sendHeader 0 .exporter,
    .quiet (.receive 0 (.storeRequest [0, 0, 0, 1, 0, 1, 106, 0, 1, 119] true)),
    .sendHeader 0 .receiver, .sendPayload 0 .exporter, .sendPayload 0 .receiver]

theorem peer_frames_whole_of_alone_separateRun :
    ∃ s, exec (step .firstAccepted) (start 2) separateRun = some s ∧ s.WholeFrames := by
  have hrun : (exec (step .firstAccepted) (start 2) separateRun).isSome = true := by
    decide +kernel
  obtain ⟨s, hs⟩ := Option.isSome_iff_exists.mp hrun
  exact ⟨s, hs, peer_frames_whole_of_alone (by decide +kernel) hs⟩

/-- **The peer lock does not protect the export's frame**: the header of
the notification lands between the header and the payload of the export's
message, and no order of whole frames reads like that. -/
theorem broadcast_cuts_export :
    ¬ ∀ (d : Delivery) (n : Nat) (ls : List Label) (s : State),
      exec (step d) (start n) ls = some s → s.WholeFrames := by
  intro hall
  have hrun : (exec (step .firstAccepted) (start 2) interleavedRun).map
      (fun s => (decide (s.streams.Idle (0, 1)), s.streams.sent (0, 1),
        (s.streams.bytes (0, 1)).take 4))
        = some (true, [startMessage, notifyMessage], [15, 0, 4, 30]) := by decide +kernel
  obtain ⟨s, hs, hvalues⟩ := Option.map_eq_some_iff.mp hrun
  obtain ⟨hidle, hvalues⟩ := Prod.mk.inj hvalues
  obtain ⟨hsent, hbytes⟩ := Prod.mk.inj hvalues
  obtain ⟨frames, hperm, -, heq⟩ := hall _ 2 interleavedRun s hs (0, 1) (of_decide_eq_true hidle)
  rw [hsent] at hperm
  have hfirst := take_flatMap_mem Message.frame 4 hperm (by decide) (by decide)
  rw [← heq, hbytes] at hfirst
  exact absurd hfirst (by decide)

end LoadBalancing.Worker.PeerFrames
