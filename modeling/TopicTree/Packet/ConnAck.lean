import TopicTree.Packet.Field

/-!
# CONNACK

The answer to a CONNECT: whether a stored session was resumed, and the outcome. What follows the two
bytes is not looked at.
-/

namespace TopicTree

/-- Why a session was opened or refused. -/
inductive ConnectOutcome
  | accepted
  | badProtocolLevel
  | badClientId
  | serverUnavailable
  | badCredentials
  | notAuthorized
  deriving DecidableEq, Repr

namespace ConnectOutcome

/-- The number of an outcome on the wire. -/
def toByte : ConnectOutcome → UInt8
  | accepted => 0
  | badProtocolLevel => 1
  | badClientId => 2
  | serverUnavailable => 3
  | badCredentials => 4
  | notAuthorized => 5

/-- The outcome with a given number. -/
def ofByte : UInt8 → Except WireError ConnectOutcome
  | 0 => .ok accepted
  | 1 => .ok badProtocolLevel
  | 2 => .ok badClientId
  | 3 => .ok serverUnavailable
  | 4 => .ok badCredentials
  | 5 => .ok notAuthorized
  | _ => .error (.malformed "connack return code")

/-- Every outcome is read back from its number. -/
@[simp]
theorem ofByte_toByte (outcome : ConnectOutcome) : ofByte outcome.toByte = .ok outcome := by
  cases outcome <;> rfl

end ConnectOutcome

/-- The answer to a CONNECT. -/
structure ConnAck where
  sessionPresent : Bool
  outcome : ConnectOutcome
  deriving DecidableEq, Repr

namespace ConnAck

/-- Reads a CONNACK. Of the flags only the lowest one may be set. -/
def ofFrame (frame : Frame) : Except WireError ConnAck := do
  frame.expect .connAck
  let (flags, rest) ← Field.readByte "connack flags" frame.payload
  if flags &&& 0xfe ≠ 0 then .error (.malformed "connack flags")
  let (code, _) ← Field.readByte "connack return code" rest
  let outcome ← ConnectOutcome.ofByte code
  return ⟨flags &&& 1 ≠ 0, outcome⟩

/-- Writes a CONNACK. -/
def toFrame (ack : ConnAck) : Except WireError Frame :=
  Frame.ofPayload PacketType.connAck.headerByte
    [if ack.sessionPresent then 1 else 0, ack.outcome.toByte]

end ConnAck
end TopicTree
