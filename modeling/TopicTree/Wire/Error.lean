import TopicTree.Wire.PacketType

/-!
# Wire errors

Everything that can go wrong between bytes and packets, one cause per constructor. The wording of
each cause is in `WireError.message` and nowhere else.
-/

namespace TopicTree

/-- Why bytes are not a frame or packet, or why a packet does not fit a frame. -/
inductive WireError
  /-- The length field goes on after its fourth byte. -/
  | lengthOverflow
  /-- A payload, or a length to be encoded, exceeds what there is room for. -/
  | frameTooLarge (size max : Nat)
  /-- The destination cannot take the whole encoded frame. -/
  | bufferTooSmall (needed available : Nat)
  /-- The header nibble names no packet type. -/
  | unknownPacketType (nibble : UInt8)
  /-- The frame is of another packet type than the one asked for. -/
  | unexpectedPacketType (expected actual : PacketType)
  /-- A field is cut short or contradicts another one. -/
  | malformed (field : String)
  /-- A text field is not UTF-8. -/
  | notUtf8 (field : String)
  /-- A field is longer than its length field can say, or a list longer than its table. -/
  | fieldTooLong (field : String) (len max : Nat)
  /-- The delivery bits hold a value that is no delivery class. -/
  | unknownQos (bits : UInt8)
  deriving DecidableEq, Repr

/-- The wording of each cause. -/
def WireError.message : WireError → String
  | lengthOverflow => "remaining length overflow: continuation chain longer than 4 bytes"
  | frameTooLarge size max => s!"frame too large: {size} bytes exceeds capacity {max}"
  | bufferTooSmall needed available =>
    s!"buffer too small: need {needed} bytes, {available} available"
  | unknownPacketType nibble => s!"invalid packet type: {nibble}"
  | unexpectedPacketType expected actual =>
    s!"unexpected packet type: expected {expected.name}, got {actual.name}"
  | malformed field => s!"malformed {field}"
  | notUtf8 field => s!"invalid utf-8 in {field}"
  | fieldTooLong field len max => s!"{field} too long: {len} bytes exceeds {max}"
  | unknownQos bits => s!"invalid qos: {bits}"

/-- The type that the high nibble of a header byte names. -/
def PacketType.ofHeader (header : UInt8) : Except WireError PacketType :=
  match ofNibble? (header >>> 4) with
  | some type => .ok type
  | none => .error (.unknownPacketType (header >>> 4))

end TopicTree
