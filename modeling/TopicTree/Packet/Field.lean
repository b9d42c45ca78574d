import TopicTree.Wire.Frame

/-!
# Packet fields

The body of a packet is a row of fields: bytes, big-endian words, and blocks and texts that announce
their own length in a word. A reader takes a field off the front of the bytes and names the field
when they are too short for it; a writer adds a field at the end of a frame, all of it or none.
-/

namespace TopicTree

namespace Field

/-- The longest block that a length word can announce. -/
abbrev maxBlock : Nat := 65535

/-- A word, high byte first. -/
def wordBytes (word : UInt16) : Bytes :=
  [(word.toNat / 256).toUInt8, (word.toNat % 256).toUInt8]

/-- The word that two bytes spell. -/
def wordOf (high low : UInt8) : UInt16 :=
  (high.toNat * 256 + low.toNat).toUInt16

/-- Takes one byte. -/
def readByte (field : String) : Bytes → Except WireError (UInt8 × Bytes)
  | byte :: rest => .ok (byte, rest)
  | [] => .error (.malformed field)

/-- Takes a word. -/
def readWord (field : String) : Bytes → Except WireError (UInt16 × Bytes)
  | high :: low :: rest => .ok (wordOf high low, rest)
  | _ => .error (.malformed field)

/-- Takes `len` bytes. -/
def readExact (field : String) (len : Nat) (bytes : Bytes) : Except WireError (Bytes × Bytes) :=
  if bytes.length < len then .error (.malformed field)
  else .ok (bytes.take len, bytes.drop len)

/-- Takes a block that follows its own length word. -/
def readBlock (field : String) (bytes : Bytes) : Except WireError (Bytes × Bytes) := do
  let (len, rest) ← readWord field bytes
  readExact field len.toNat rest

/-- The text that a block of bytes spells. -/
def textOf (field : String) (bytes : Bytes) : Except WireError String :=
  match Text.ofBytes? bytes with
  | some text => .ok text
  | none => .error (.notUtf8 field)

/-- Takes a text that follows its own length word. -/
def readText (field : String) (bytes : Bytes) : Except WireError (String × Bytes) := do
  let (block, rest) ← readBlock field bytes
  let text ← textOf field block
  return (text, rest)

/-- Two bytes of a word spell it again. -/
@[simp]
theorem wordOf_wordBytes (word : UInt16) :
    wordOf (word.toNat / 256).toUInt8 (word.toNat % 256).toUInt8 = word := by
  apply UInt16.toNat_inj.1
  have := word.toNat_lt
  simp [wordOf]
  omega

/-- A word is read back from its own bytes, whatever follows. -/
@[simp]
theorem readWord_wordBytes (field : String) (word : UInt16) (rest : Bytes) :
    readWord field (wordBytes word ++ rest) = .ok (word, rest) := by
  simp [wordBytes, readWord]

/-- A text is read back from its own bytes. -/
@[simp]
theorem textOf_toBytes (field text : String) : textOf field (Text.toBytes text) = .ok text := by
  simp [textOf]

end Field

namespace Frame

/-- Adds one byte. -/
def addByte (frame : Frame) (byte : UInt8) : Except WireError Frame :=
  frame.append [byte]

/-- Adds a word. -/
def addWord (frame : Frame) (word : UInt16) : Except WireError Frame :=
  frame.append (Field.wordBytes word)

/-- Adds a block behind its length word. -/
def addBlock (frame : Frame) (field : String) (block : Bytes) : Except WireError Frame :=
  if Field.maxBlock < block.length then
    .error (.fieldTooLong field block.length Field.maxBlock)
  else do
    let frame ← frame.addWord block.length.toUInt16
    frame.append block

/-- Adds a text behind its length word. -/
def addText (frame : Frame) (field text : String) : Except WireError Frame :=
  frame.addBlock field (Text.toBytes text)

/-- Refuses a frame of another packet type. -/
def expect (frame : Frame) (expected : PacketType) : Except WireError Unit := do
  let actual ← frame.packetType
  if actual = expected then .ok ()
  else .error (.unexpectedPacketType expected actual)

end Frame
end TopicTree
