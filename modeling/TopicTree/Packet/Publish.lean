import TopicTree.Packet.Field

/-!
# PUBLISH

A message on a topic. The delivery class stands in the header flags, and a packet identifier is
there exactly when the class is above at-most-once.
-/

namespace TopicTree

/-- An application message. -/
structure Publish where
  topic : String
  packetId : Option UInt16
  payload : Bytes
  qos : Qos
  retain : Bool
  dup : Bool
  deriving DecidableEq, Repr

namespace Publish

/-- A message that may get lost and is not retained. -/
def plain (topic : String) (payload : Bytes) : Publish :=
  ⟨topic, none, payload, .atMostOnce, false, false⟩

/-- Takes the packet identifier that goes with a delivery class. -/
def readId (qos : Qos) (bytes : Bytes) : Except WireError (Option UInt16 × Bytes) :=
  if qos.needsId then do
    let (id, rest) ← Field.readWord "packet id" bytes
    return (some id, rest)
  else .ok (none, bytes)

/-- Reads a PUBLISH. The delivery class is looked at before any field. -/
def ofFrame (frame : Frame) : Except WireError Publish := do
  frame.expect .publish
  let qos ← frame.flags.qos
  let (topic, rest) ← Field.readText "topic" frame.payload
  let (packetId, payload) ← readId qos rest
  return ⟨topic, packetId, payload, qos, frame.flags.retain, frame.flags.dup⟩

/-- Adds the packet identifier, which has to be there exactly when the class needs one. -/
def addId (frame : Frame) (qos : Qos) (packetId : Option UInt16) : Except WireError Frame :=
  match qos.needsId, packetId with
  | false, none => .ok frame
  | true, some id => frame.addWord id
  | _, _ => .error (.malformed "packet id")

/-- The header byte of a message. -/
def header (publish : Publish) : UInt8 :=
  PacketType.publish.headerByte |||
    (HeaderFlags.ofParts publish.qos publish.retain publish.dup).bits

/-- Writes a PUBLISH. -/
def toFrame (publish : Publish) : Except WireError Frame := do
  let frame ← (Frame.empty publish.header).addText "topic" publish.topic
  let frame ← addId frame publish.qos publish.packetId
  frame.append publish.payload

end Publish
end TopicTree
