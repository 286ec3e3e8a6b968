/-
LoadBalancing.LoadBalancer.SharedLibs — the records of
`LoadBalancer/SharedLibs.h` that the threads of the load balancer pass to
each other.

A `ClientRequest` and a `WorkerResponse` carry a message in a fixed array
with a size. They are moved by assigning the fields and copying the first
`dataSize` bytes, so a slot keeps the tail of an earlier, longer message.
`Payload` is what the two have in common; `content` is the part that is
copied, and `content_copy` says that it arrives unchanged whatever was
there before.
-/
import LoadBalancing.Base.CString
import LoadBalancing.Lib.SharedConfig

namespace LoadBalancing.LoadBalancer

open LoadBalancing.Base LoadBalancing.Lib

/-- A socket handle; `INVALID_SOCKET` is `none`. -/
abbrev Socket := Nat

/-- `WorkerNode`, without the two links. -/
structure WorkerNode where
  workerId : Int32
  workerSocket : Option Socket
  workerAddress : CString
  workerPeerPort : Int32
  isConnected : Bool
  isReady : Bool
  deriving DecidableEq

/-! ## Queued messages -/

/-- `memcpy(dst, src, n)`, as the new contents of `dst`. -/
def memcpy (dst src : List UInt8) (n : Nat) : List UInt8 := src.take n ++ dst.drop n

theorem take_memcpy {src : List UInt8} {n : Nat} (h : n ≤ src.length) (dst : List UInt8) :
    (memcpy dst src n).take n = src.take n := by
  rw [memcpy, List.take_append_of_le_length (by rw [List.length_take]; omega), List.take_take,
    Nat.min_self]

/-- A message in an array: its bytes, how many of them count, and its
type, the byte from the wire. -/
structure Payload where
  data : List UInt8
  dataSize : Nat
  messageType : UInt8
  dataSize_le : dataSize ≤ data.length

namespace Payload

/-- A message received into a buffer of its own size. -/
def ofMessage (messageType : UInt8) (bytes : List UInt8) : Payload :=
  ⟨bytes, bytes.length, messageType, Nat.le_refl _⟩

/-- Copy a message over another one. -/
def copy (src dst : Payload) : Payload :=
  { src with
    data := memcpy dst.data src.data src.dataSize
    dataSize_le := by
      have := src.dataSize_le
      rw [memcpy, List.length_append, List.length_take]
      omega }

/-- The first `dataSize` bytes: what a decoder is given. -/
def content (p : Payload) : List UInt8 := p.data.take p.dataSize

@[simp] theorem content_ofMessage (messageType : UInt8) (bytes : List UInt8) :
    (ofMessage messageType bytes).content = bytes := List.take_length

@[simp] theorem content_copy (src dst : Payload) : (src.copy dst).content = src.content :=
  take_memcpy src.dataSize_le dst.data

@[simp] theorem messageType_copy (src dst : Payload) :
    (src.copy dst).messageType = src.messageType := rfl

end Payload

/-- `ClientRequest`. -/
structure ClientRequest extends Payload where
  clientSocket : Option Socket
  clientId : Int32

/-- `WorkerResponse`. -/
structure WorkerResponse extends Payload where
  workerSocket : Option Socket
  workerId : Int32
  clientId : Int32

/-- A message after `memset(…, 0, …)`. -/
def zeroPayload : Payload := ⟨List.replicate maxMessageSize 0, 0, 0, Nat.zero_le _⟩

namespace ClientRequest

/-- A request after `memset(request, 0, sizeof(ClientRequest))`. -/
def zero : ClientRequest := { zeroPayload with clientSocket := some 0, clientId := 0 }

/-- Copy a request over another one. -/
def copy (src dst : ClientRequest) : ClientRequest :=
  { src with toPayload := src.toPayload.copy dst.toPayload }

/-- Two requests say the same: they differ at most in the bytes behind
`dataSize`. -/
def Same (a b : ClientRequest) : Prop :=
  a.clientSocket = b.clientSocket ∧ a.clientId = b.clientId ∧ a.messageType = b.messageType ∧
    a.dataSize = b.dataSize ∧ a.content = b.content

/-- A copied request says what the original says. -/
theorem same_copy (src dst : ClientRequest) : (src.copy dst).Same src :=
  ⟨rfl, rfl, rfl, rfl, Payload.content_copy _ _⟩

theorem Same.trans {a b c : ClientRequest} (h : a.Same b) (h' : b.Same c) : a.Same c :=
  ⟨h.1.trans h'.1, h.2.1.trans h'.2.1, h.2.2.1.trans h'.2.2.1, h.2.2.2.1.trans h'.2.2.2.1,
    h.2.2.2.2.trans h'.2.2.2.2⟩

end ClientRequest

namespace WorkerResponse

/-- A response after `memset(response, 0, sizeof(WorkerResponse))`. -/
def zero : WorkerResponse :=
  { zeroPayload with workerSocket := some 0, workerId := 0, clientId := 0 }

/-- Copy a response over another one. -/
def copy (src dst : WorkerResponse) : WorkerResponse :=
  { src with toPayload := src.toPayload.copy dst.toPayload }

/-- Two responses say the same. -/
def Same (a b : WorkerResponse) : Prop :=
  a.workerSocket = b.workerSocket ∧ a.workerId = b.workerId ∧ a.clientId = b.clientId ∧
    a.messageType = b.messageType ∧ a.dataSize = b.dataSize ∧ a.content = b.content

theorem same_copy (src dst : WorkerResponse) : (src.copy dst).Same src :=
  ⟨rfl, rfl, rfl, rfl, rfl, Payload.content_copy _ _⟩

theorem Same.trans {a b c : WorkerResponse} (h : a.Same b) (h' : b.Same c) : a.Same c :=
  ⟨h.1.trans h'.1, h.2.1.trans h'.2.1, h.2.2.1.trans h'.2.2.1, h.2.2.2.1.trans h'.2.2.2.1,
    h.2.2.2.2.1.trans h'.2.2.2.2.1, h.2.2.2.2.2.trans h'.2.2.2.2.2⟩

end WorkerResponse

end LoadBalancing.LoadBalancer
