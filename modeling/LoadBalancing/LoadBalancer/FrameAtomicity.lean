/-
LoadBalancing.LoadBalancer.FrameAtomicity — the byte streams of the load
balancer's sockets under its concurrent writers.

`ProtocolSend` sends the header and the payload of a message in two
sends. Several threads write to one socket: the request dispatcher and
the receiver threads to a worker, the response dispatcher and the
client's own receiver thread to a client. Only the `WORKER_ENTRY`
messages of a registration are sent under the worker list's lock; the
other writers hold no lock, so a frame can be cut by another.

`frames_whole_of_alone`: a run in which no thread sends a header into
another's open frame leaves whole frames on every idle socket.
`interleaved_dispatch` is a run that cuts one.

Out of scope: failing and partial sends, which `Lib.NetworkLib` models.

No `sorry`, no `axiom`, no `native_decide`.
-/
import LoadBalancing.Base.SharedStreams
import LoadBalancing.Base.Transition
import LoadBalancing.Lib.NetworkLib

namespace LoadBalancing.LoadBalancer.FrameAtomicity

open LoadBalancing.Base LoadBalancing.Lib

/-! ## Writers -/

/-- A socket of the load balancer, by the number of the worker or the
client at its other end. -/
inductive Endpoint where
  | worker (n : Nat)
  | client (n : Nat)
  deriving DecidableEq

/-- A thread that sends: `WorkerClientRequestDispatcherThread`,
`ClientWorkerResponseDispatcherThread`, and the `WorkerDataReceiverThread`
or `ClientDataReceiverThread` of one connection. -/
inductive Writer where
  | requestDispatcher
  | responseDispatcher
  | workerReceiver (n : Nat)
  | clientReceiver (n : Nat)
  deriving DecidableEq

/-- The messages a thread sends to a socket. A worker's receiver thread
sends `SendError` and `SendShutdown` to its own worker, and the entries of
`BroadcastNewWorkerJoined` and `SendWorkerRegistryEntries` to any. -/
def Writer.writes : Writer → Endpoint → MessageType → Bool
  | .requestDispatcher, .worker _, type => type = .storeRequest || type = .retrieveRequest
  | .responseDispatcher, .client _, type =>
    type = .putResponse || type = .getResponse || type = .error
  | .workerReceiver n, .worker k, type =>
    type = .workerEntry || n = k && (type = .error || type = .shutdown)
  | .clientReceiver n, .client k, type => n = k && (type = .error || type = .shutdown)
  | _, _, _ => false

/-- The streams of all sockets and the thread inside the critical section
of the worker list. -/
structure State where
  streams : SharedStreams Writer Endpoint Message UInt8
  listLock : Option Writer

/-- One step: a thread enters or leaves the list's critical section, or
makes the header or the payload send of a `ProtocolSend`. -/
inductive Label where
  | enterList (w : Writer)
  | leaveList (w : Writer)
  | sendHeader (w : Writer) (e : Endpoint) (m : Message)
  | sendPayload (w : Writer)

/-- The header of a message on the wire. -/
def headerBytes (m : Message) : List UInt8 := header m.type (UInt16.ofNat m.payload.length)

/-- May this thread start to send this message now? -/
def State.maySend (s : State) (w : Writer) (e : Endpoint) (m : Message) : Bool :=
  m.payload.length ≤ maxMessageSize &&
    (MessageType.ofValue? m.type).any fun type =>
      w.writes e type && (type != .workerEntry || s.listLock == some w)

/-- One step of a thread. A thread stays in the critical section until
its send is complete. -/
def step (s : State) : Label → Option State
  | .enterList w =>
    match s.listLock, s.streams.frameOf w with
    | none, none => some { s with listLock := some w }
    | _, _ => none
  | .leaveList w =>
    match s.streams.frameOf w with
    | none => if s.listLock = some w then some { s with listLock := none } else none
    | some _ => none
  | .sendHeader w e m =>
    if s.maySend w e m then
      (s.streams.sendFirst headerBytes Message.payload w e m).map fun streams =>
        { s with streams := streams }
    else none
  | .sendPayload w =>
    (s.streams.sendSecond w).map fun streams => { s with streams := streams }

/-- All connections as they are accepted. -/
def init : State := ⟨SharedStreams.new, none⟩

/-- On a socket with no send in progress, the stream is a concatenation
of the frames of the `ProtocolSend` calls made, in some order. -/
def State.WholeFrames (s : State) : Prop :=
  ∀ e, s.streams.Idle e →
    ∃ frames : List Message, frames.Perm (s.streams.sent e) ∧
      s.streams.bytes e = frames.flatMap Message.frame

/-- If this step sends a header, no other thread is between header and
payload on that socket. -/
def Alone (s : State) : Label → Prop
  | .sendHeader w e _ => s.streams.IdleBut w e
  | _ => True

instance (s : State) (l : Label) : Decidable (Alone s l) :=
  match l with
  | .sendHeader w e _ => inferInstanceAs (Decidable (s.streams.IdleBut w e))
  | .enterList _ | .leaveList _ | .sendPayload _ => isTrue trivial

/-! ## Whole frames -/

/-- **Step lemma.** A step that cuts no frame keeps the streams framed. -/
theorem framed_step {s t : State} {l : Label}
    (hI : s.streams.Framed headerBytes Message.payload) (halone : Alone s l)
    (h : step s l = some t) : t.streams.Framed headerBytes Message.payload := by
  cases l with
  | enterList w =>
    simp only [step] at h
    split at h
    · cases h; exact hI
    · cases h
  | leaveList w =>
    simp only [step] at h
    split at h
    · split at h
      · cases h; exact hI
      · cases h
    · cases h
  | sendHeader w e m =>
    simp only [step] at h
    split at h
    · obtain ⟨streams, hsend, rfl⟩ := Option.map_eq_some_iff.mp h
      exact hI.sendFirst halone hsend
    · cases h
  | sendPayload w =>
    obtain ⟨streams, hsend, rfl⟩ := Option.map_eq_some_iff.mp h
    exact hI.sendSecond hsend

/-- **Frame atomicity of undisturbed runs.** When every header of a run
is sent while no other thread stands mid-frame on that socket, every
idle socket carries whole frames, in the order of the calls. -/
theorem frames_whole_of_alone {ls : List Label} {s : State} (halone : Along step Alone init ls)
    (h : exec step init ls = some s) : s.WholeFrames := by
  have hframed : s.streams.Framed headerBytes Message.payload :=
    exec_invariant_along (I := fun s => s.streams.Framed headerBytes Message.payload)
      (fun _ _ _ hI hP hs => framed_step hI hP hs) SharedStreams.framed_new halone h
  intro e hidle
  exact ⟨s.streams.sent e, List.Perm.refl _, hframed.of_idle hidle⟩

/-! ## A cut frame -/

/-- A STORE_REQUEST of client 1. -/
def storeMessage : Message :=
  ⟨MessageType.storeRequest.value, [0, 0, 0, 1, 0, 1, 107, 0, 1, 118]⟩

example : sendStoreRequest 1 ⟨[107], by decide⟩ ⟨[118], by decide⟩ = some storeMessage := by
  decide

/-- The WORKER_ENTRY that announces worker 2. -/
def entryMessage : Message :=
  ⟨MessageType.workerEntry.value, [0, 0, 0, 2, 0, 1, 49, 19, 136, 0]⟩

example : sendWorkerEntry 2 ⟨[49], by decide⟩ 5000 0 = some entryMessage := by decide

/-- The dispatcher sends to worker 1, and then worker 2 registers. -/
def separateRun : List Label :=
  [.sendHeader .requestDispatcher (.worker 1) storeMessage, .sendPayload .requestDispatcher,
   .enterList (.workerReceiver 2), .sendHeader (.workerReceiver 2) (.worker 1) entryMessage,
   .sendPayload (.workerReceiver 2), .leaveList (.workerReceiver 2)]

/-- Worker 2 registers in the middle of the dispatcher's send. -/
def interleavedRun : List Label :=
  [.sendHeader .requestDispatcher (.worker 1) storeMessage, .enterList (.workerReceiver 2),
   .sendHeader (.workerReceiver 2) (.worker 1) entryMessage, .sendPayload .requestDispatcher,
   .sendPayload (.workerReceiver 2), .leaveList (.workerReceiver 2)]

theorem frames_whole_of_alone_separateRun :
    ∃ s, exec step init separateRun = some s ∧ s.WholeFrames := by
  have hrun : (exec step init separateRun).isSome = true := by decide
  obtain ⟨s, hs⟩ := Option.isSome_iff_exists.mp hrun
  exact ⟨s, hs, frames_whole_of_alone (by decide) hs⟩

/-- **The list lock does not protect the dispatcher's frame**: the entry's
header lands between the request's header and its payload, and no order
of whole frames reads like that. -/
theorem interleaved_dispatch :
    ¬ ∀ (ls : List Label) (s : State), exec step init ls = some s → s.WholeFrames := by
  intro hall
  have hrun : (exec step init interleavedRun).map
      (fun s => (decide (s.streams.Idle (.worker 1)), s.streams.sent (.worker 1),
        (s.streams.bytes (.worker 1)).take 4))
        = some (true, [storeMessage, entryMessage], [10, 0, 10, 14]) := by decide
  obtain ⟨s, hs, hvalues⟩ := Option.map_eq_some_iff.mp hrun
  obtain ⟨hidle, hvalues⟩ := Prod.mk.inj hvalues
  obtain ⟨hsent, hbytes⟩ := Prod.mk.inj hvalues
  obtain ⟨frames, hperm, heq⟩ := hall interleavedRun s hs (.worker 1) (of_decide_eq_true hidle)
  rw [hsent] at hperm
  have hfirst := take_flatMap_mem Message.frame 4 hperm (by decide) (by decide)
  rw [← heq, hbytes] at hfirst
  exact absurd hfirst (by decide)

end LoadBalancing.LoadBalancer.FrameAtomicity
