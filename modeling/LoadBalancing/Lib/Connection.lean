/-
LoadBalancing.Lib.Connection — one direction of a connection, byte by
byte.

A connection holds the bytes sent and not yet received. `send` and
`receive` are the calls of `ProtocolSend` and `ProtocolReceive` at its two
ends, each end with the answers of its own system. On a reliable link the
bytes are always the frames of the messages in between: `holds_send` and
`holds_receive` are `protocolSend_healthy` and `protocolReceive_healthy`
for a connection, and let its users speak of messages.
-/
import LoadBalancing.Lib.StreamReassembly

namespace LoadBalancing.Lib

open LoadBalancing.Base

/-- The calls made at the two ends, and the bytes in between. -/
structure Connection where
  sendCalls : Nat
  receiveCalls : Nat
  bytes : List UInt8

/-- What the systems at the two ends answer. -/
structure Link where
  sends : Nat → SocketAnswer
  receives : Nat → SocketAnswer

/-- A link without errors at either end. -/
structure Link.Reliable (link : Link) : Prop where
  sends : Healthy link.sends
  receives : Healthy link.receives

/-- A message every receiver takes: with a type, and no longer than its
buffer. -/
def Message.Fits (m : Message) : Prop := m.type ≠ 0 ∧ m.payload.length ≤ maxMessageSize

/-! ## Messages on a wire -/

/-- The bytes are the frames of the messages. -/
def OnWire (wire : List UInt8) (messages : List Message) : Prop :=
  wire = messages.flatMap Message.frame

/-- A frame has at least its header. -/
theorem frame_ne_nil (m : Message) : m.frame ≠ [] := by
  intro h
  have hlen := congrArg List.length h
  simp [Message.frame, headerSize] at hlen

/-- A message sent goes behind the others. -/
theorem OnWire.append {wire : List UInt8} {messages : List Message} (h : OnWire wire messages)
    (m : Message) : OnWire (wire ++ m.frame) (messages ++ [m]) := by
  rw [OnWire, List.flatMap_append, ← h, List.flatMap_singleton]

/-- A wire is empty when there is no message on it. -/
theorem OnWire.eq_nil {wire : List UInt8} {messages : List Message} (h : OnWire wire messages) :
    wire = [] ↔ messages = [] := by
  rw [OnWire] at h
  rw [h]
  cases messages with
  | nil => simp
  | cons m rest => simp [frame_ne_nil]

/-! ## Connections -/

namespace Connection

/-- A connection before the first message. -/
def new : Connection := ⟨0, 0, []⟩

/-- `ProtocolSend` at one end. -/
def send (link : Link) (c : Connection) (m : Message) : Int × Connection :=
  let (result, side) := protocolSend link.sends m ⟨c.sendCalls, c.bytes⟩
  (result, { c with sendCalls := side.calls, bytes := side.wire })

/-- `ProtocolReceive` at the other, into a buffer of `MAX_MESSAGE_SIZE`
bytes. -/
def receive (link : Link) (c : Connection) : Int × Connection × Option Received :=
  let (result, side, received) :=
    protocolReceive link.receives maxMessageSize ⟨c.receiveCalls, c.bytes⟩
  (result, { c with receiveCalls := side.calls, bytes := side.stream }, received)

/-- The messages in between. -/
def Holds (c : Connection) (messages : List Message) : Prop := OnWire c.bytes messages

theorem holds_new : new.Holds [] := rfl

theorem holds_send {link : Link} (hlink : link.Reliable) {c : Connection}
    {messages : List Message} (h : c.Holds messages) {m : Message} (hm : m.Fits) :
    ∃ c', c.send link m = (((headerSize + m.payload.length : Nat) : Int), c') ∧
      c'.Holds (messages ++ [m]) := by
  obtain ⟨calls, hsend⟩ := protocolSend_healthy hlink.sends hm.2 ⟨c.sendCalls, c.bytes⟩
  refine ⟨{ c with sendCalls := calls, bytes := c.bytes ++ m.frame }, ?_, h.append m⟩
  simp only [send, hsend]

theorem holds_receive {link : Link} (hlink : link.Reliable) {c : Connection} {m : Message}
    {rest : List Message} (h : c.Holds (m :: rest)) (hm : m.Fits) :
    ∃ c', c.receive link = (0, c', some ⟨m.type, m.payload.length, m.payload⟩) ∧
      c'.Holds rest := by
  obtain ⟨calls, hreceive⟩ := protocolReceive_healthy hlink.receives hm.1 hm.2 c.receiveCalls
    (rest.flatMap Message.frame)
  have hbytes : c.bytes = m.frame ++ rest.flatMap Message.frame := by
    rw [h, List.flatMap_cons]
  rw [← hbytes] at hreceive
  refine ⟨{ c with receiveCalls := calls, bytes := rest.flatMap Message.frame }, ?_, rfl⟩
  simp only [receive, hreceive]

end Connection

end LoadBalancing.Lib
