/-!
# Packet types

The high nibble of a frame's first byte names its packet type; the values 0 and 15 name none. Three
types come with a fixed flag nibble of 2, PUBLISH chooses its flags per message, all others have 0.
-/

namespace TopicTree

/-- The control packets, in the order of their nibbles 1 to 14. -/
inductive PacketType
  | connect
  | connAck
  | publish
  | pubAck
  | pubRec
  | pubRel
  | pubComp
  | subscribe
  | subAck
  | unsubscribe
  | unsubAck
  | pingReq
  | pingResp
  | disconnect
  deriving DecidableEq, Repr

namespace PacketType

/-- The nibble that names a type on the wire. -/
def nibble : PacketType → UInt8
  | connect => 1
  | connAck => 2
  | publish => 3
  | pubAck => 4
  | pubRec => 5
  | pubRel => 6
  | pubComp => 7
  | subscribe => 8
  | subAck => 9
  | unsubscribe => 10
  | unsubAck => 11
  | pingReq => 12
  | pingResp => 13
  | disconnect => 14

/-- The type that a nibble names. -/
def ofNibble? : UInt8 → Option PacketType
  | 1 => some connect
  | 2 => some connAck
  | 3 => some publish
  | 4 => some pubAck
  | 5 => some pubRec
  | 6 => some pubRel
  | 7 => some pubComp
  | 8 => some subscribe
  | 9 => some subAck
  | 10 => some unsubscribe
  | 11 => some unsubAck
  | 12 => some pingReq
  | 13 => some pingResp
  | 14 => some disconnect
  | _ => none

/-- The flag nibble that goes with a type whose flags are not chosen per message. -/
def fixedFlags : PacketType → UInt8
  | pubRel | subscribe | unsubscribe => 2
  | _ => 0

/-- The first byte of a frame of this type with its fixed flags. -/
def headerByte (type : PacketType) : UInt8 :=
  type.nibble <<< 4 ||| type.fixedFlags

/-- The upper-case name used in messages. -/
def name : PacketType → String
  | connect => "CONNECT"
  | connAck => "CONNACK"
  | publish => "PUBLISH"
  | pubAck => "PUBACK"
  | pubRec => "PUBREC"
  | pubRel => "PUBREL"
  | pubComp => "PUBCOMP"
  | subscribe => "SUBSCRIBE"
  | subAck => "SUBACK"
  | unsubscribe => "UNSUBSCRIBE"
  | unsubAck => "UNSUBACK"
  | pingReq => "PINGREQ"
  | pingResp => "PINGRESP"
  | disconnect => "DISCONNECT"

/-- Every type is named by its own nibble. -/
@[simp]
theorem ofNibble?_nibble (type : PacketType) : ofNibble? type.nibble = some type := by
  cases type <;> rfl

/-- The high nibble of a header byte is the nibble of its type. -/
@[simp]
theorem headerByte_shift (type : PacketType) : type.headerByte >>> 4 = type.nibble := by
  cases type <;> rfl

end PacketType
end TopicTree
