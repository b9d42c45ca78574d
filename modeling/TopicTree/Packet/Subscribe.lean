import TopicTree.Packet.Field

/-!
# SUBSCRIBE and SUBACK

A SUBSCRIBE lists one to eight topic filters with the delivery class wanted for each; its SUBACK
repeats the packet identifier and grants or refuses the filters in the same order.
-/

namespace TopicTree

/-- A request for messages on some topics. -/
structure Subscribe where
  packetId : UInt16
  /-- The filters and the highest delivery class wanted for each. -/
  filters : List (String × Qos)
  /-- There is room for a few filters only. -/
  few : filters.length ≤ maxSubscribe
  deriving DecidableEq, Repr

namespace Subscribe

/-- Takes one filter; of the byte behind it only the two lowest bits count. -/
def readFilter (bytes : Bytes) : Except WireError ((String × Qos) × Bytes) := do
  let (filter, rest) ← Field.readText "topic filter" bytes
  let (wanted, rest) ← Field.readByte "requested qos" rest
  let qos ← Qos.ofByte (wanted &&& 3)
  return ((filter, qos), rest)

/-- Takes filters until the bytes are used up; `room` more may come. -/
def readFilters : (room : Nat) → Bytes → Except WireError (List (String × Qos))
  | _, [] => .ok []
  | 0, bytes => do
    let _ ← readFilter bytes
    .error (.fieldTooLong "topic filters" (maxSubscribe + 1) maxSubscribe)
  | room + 1, bytes => do
    let (filter, rest) ← readFilter bytes
    let filters ← readFilters room rest
    return filter :: filters

/-- Reads a SUBSCRIBE. -/
def ofFrame (frame : Frame) : Except WireError Subscribe := do
  frame.expect .subscribe
  let (packetId, rest) ← Field.readWord "packet id" frame.payload
  let filters ← readFilters maxSubscribe rest
  if filters = [] then .error (.malformed "topic filters")
  else if few : filters.length ≤ maxSubscribe then .ok ⟨packetId, filters, few⟩
  else .error (.fieldTooLong "topic filters" (maxSubscribe + 1) maxSubscribe)

/-- Adds filters in order. -/
def addFilters (frame : Frame) : List (String × Qos) → Except WireError Frame
  | [] => .ok frame
  | (filter, qos) :: filters => do
    let frame ← frame.addText "topic filter" filter
    let frame ← frame.addByte qos.toByte
    addFilters frame filters

/-- Writes a SUBSCRIBE. -/
def toFrame (subscribe : Subscribe) : Except WireError Frame := do
  let frame ← (Frame.empty PacketType.subscribe.headerByte).addWord subscribe.packetId
  addFilters frame subscribe.filters

end Subscribe

/-- What became of one filter. -/
inductive Grant
  | granted (qos : Qos)
  | refused
  deriving DecidableEq, Repr

namespace Grant

/-- The byte of a refusal. -/
abbrev refusedByte : UInt8 := 0x80

/-- The byte of a grant. -/
def toByte : Grant → UInt8
  | granted qos => qos.toByte
  | refused => refusedByte

/-- The grant that a byte stands for. -/
def ofByte (byte : UInt8) : Except WireError Grant :=
  if byte = refusedByte then .ok refused
  else (Qos.ofByte byte).map granted

/-- Every grant is read back from its byte. -/
@[simp]
theorem ofByte_toByte (grant : Grant) : ofByte grant.toByte = .ok grant := by
  cases grant with
  | granted qos => cases qos <;> rfl
  | refused => rfl

end Grant

/-- The answer to a SUBSCRIBE. -/
structure SubAck where
  packetId : UInt16
  /-- One grant per filter, in the order of the filters. -/
  grants : List Grant
  /-- There are no more grants than there can be filters. -/
  few : grants.length ≤ maxSubscribe
  deriving DecidableEq, Repr

namespace SubAck

/-- Reads a SUBACK. -/
def ofFrame (frame : Frame) : Except WireError SubAck := do
  frame.expect .subAck
  let (packetId, rest) ← Field.readWord "packet id" frame.payload
  if rest = [] ∨ maxSubscribe < rest.length then .error (.malformed "suback returns")
  let grants ← rest.mapM Grant.ofByte
  if few : grants.length ≤ maxSubscribe then .ok ⟨packetId, grants, few⟩
  else .error (.malformed "suback returns")

/-- Writes a SUBACK. -/
def toFrame (ack : SubAck) : Except WireError Frame := do
  let frame ← (Frame.empty PacketType.subAck.headerByte).addWord ack.packetId
  frame.append (ack.grants.map Grant.toByte)

end SubAck
end TopicTree
