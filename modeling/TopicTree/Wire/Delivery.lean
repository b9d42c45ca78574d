import TopicTree.Wire.Error

/-!
# Delivery classes and header flags

The low nibble of a PUBLISH header carries the retain flag (bit 0), the delivery class (bits 1 and
2) and the redelivery flag (bit 3). Of the four values that two bits can hold, the last one is no
delivery class.
-/

namespace TopicTree

/-- How often a message may arrive. -/
inductive Qos
  | atMostOnce
  | atLeastOnce
  | exactlyOnce
  deriving DecidableEq, Repr, Inhabited

namespace Qos

/-- The number of a class on the wire. -/
def toByte : Qos → UInt8
  | atMostOnce => 0
  | atLeastOnce => 1
  | exactlyOnce => 2

/-- The class with a given number. -/
def ofByte (bits : UInt8) : Except WireError Qos :=
  if bits = 0 then .ok atMostOnce
  else if bits = 1 then .ok atLeastOnce
  else if bits = 2 then .ok exactlyOnce
  else .error (.unknownQos bits)

/-- Whether messages of this class carry a packet identifier. -/
def needsId (qos : Qos) : Bool :=
  qos ≠ atMostOnce

/-- Every class is read back from its number. -/
@[simp]
theorem ofByte_toByte (qos : Qos) : ofByte qos.toByte = .ok qos := by
  cases qos <;> rfl

end Qos

/-- The flag nibble of a header byte; the high nibble of `bits` is zero. -/
structure HeaderFlags where
  bits : UInt8
  deriving DecidableEq, Repr

namespace HeaderFlags

/-- The bit that asks for the message to be retained. -/
abbrev retainBit : UInt8 := 1

/-- The two bits of the delivery class. -/
abbrev qosBits : UInt8 := 6

/-- The bit of a repeated delivery. -/
abbrev dupBit : UInt8 := 8

/-- The flags of a header byte. -/
def ofHeader (header : UInt8) : HeaderFlags :=
  ⟨header &&& 0x0f⟩

/-- The flags of a PUBLISH. -/
def ofParts (qos : Qos) (retain dup : Bool) : HeaderFlags :=
  ⟨qos.toByte <<< 1 ||| (if retain then retainBit else 0) ||| (if dup then dupBit else 0)⟩

/-- The delivery class. -/
def qos (flags : HeaderFlags) : Except WireError Qos :=
  Qos.ofByte ((flags.bits &&& qosBits) >>> 1)

/-- Whether the retain flag is set. -/
def retain (flags : HeaderFlags) : Bool :=
  flags.bits &&& retainBit ≠ 0

/-- Whether the redelivery flag is set. -/
def dup (flags : HeaderFlags) : Bool :=
  flags.bits &&& dupBit ≠ 0

/-- The same flags with another delivery class. -/
def withQos (flags : HeaderFlags) (qos : Qos) : HeaderFlags :=
  ⟨flags.bits &&& (retainBit ||| dupBit) ||| qos.toByte <<< 1⟩

end HeaderFlags
end TopicTree
