import TopicTree.Packet.Field

/-!
# Packets without a body

Three packets are nothing but their header: the two halves of a keepalive exchange, and the goodbye
of a client.
-/

namespace TopicTree

/-- A packet that carries no payload. -/
inductive Bare
  | pingReq
  | pingResp
  | disconnect
  deriving DecidableEq, Repr

namespace Bare

/-- The packet type. -/
def type : Bare → PacketType
  | pingReq => .pingReq
  | pingResp => .pingResp
  | disconnect => .disconnect

/-- The name under which an unexpected payload is reported. -/
def label : Bare → String
  | pingReq => "PingReq"
  | pingResp => "PingResp"
  | disconnect => "Disconnect"

/-- Checks that a frame is this packet, with nothing in it. -/
def ofFrame (packet : Bare) (frame : Frame) : Except WireError Unit := do
  frame.expect packet.type
  if frame.payload = [] then .ok () else .error (.malformed packet.label)

/-- Writes the packet. -/
def toFrame (packet : Bare) : Frame :=
  Frame.empty packet.type.headerByte

end Bare
end TopicTree
