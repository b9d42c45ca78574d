import TopicTree.Packet.Field
import TopicTree.Text.Quoted

/-!
# CONNECT

A client opens its session with a CONNECT. One byte of flags says which of the optional fields
follow the client identifier: the will, the user name, the password. What comes after the announced
fields is not looked at.
-/

namespace TopicTree

/-- A message to be published when the client is lost. -/
structure Will where
  topic : String
  message : Bytes
  qos : Qos
  retain : Bool
  deriving DecidableEq, Repr

/-- A request to open a session. -/
structure Connect where
  /-- The protocol level that the client speaks. -/
  protocolLevel : UInt8
  clientId : String
  username : Option String
  password : Option Bytes
  will : Option Will
  /-- The longest silence, in seconds, that the client promises to keep. -/
  keepAlive : UInt16
  cleanSession : Bool
  deriving DecidableEq, Repr

namespace Connect

/-- The name that every CONNECT starts with. -/
abbrev protocolName : String := "MQTT"

/-- The level of MQTT 3.1.1. -/
abbrev currentLevel : UInt8 := 4

abbrev reservedFlag : UInt8 := 0x01
abbrev cleanSessionFlag : UInt8 := 0x02
abbrev willFlag : UInt8 := 0x04
abbrev willRetainFlag : UInt8 := 0x20
abbrev passwordFlag : UInt8 := 0x40
abbrev usernameFlag : UInt8 := 0x80

/-- Whether a flag is set. -/
def isSet (flags flag : UInt8) : Bool :=
  flags &&& flag ≠ 0

/-- Takes the will if its flag is set; its delivery class stands in bits 3 and 4 of the flags. -/
def readWill (flags : UInt8) (bytes : Bytes) : Except WireError (Option Will × Bytes) :=
  if isSet flags willFlag then do
    let (topic, rest) ← Field.readText "will topic" bytes
    let (message, rest) ← Field.readBlock "will message" rest
    let qos ← Qos.ofByte ((flags >>> 3) &&& 3)
    return (some ⟨topic, message, qos, isSet flags willRetainFlag⟩, rest)
  else .ok (none, bytes)

/-- Takes the user name if its flag is set. -/
def readUsername (flags : UInt8) (bytes : Bytes) : Except WireError (Option String × Bytes) :=
  if isSet flags usernameFlag then do
    let (username, rest) ← Field.readText "username" bytes
    return (some username, rest)
  else .ok (none, bytes)

/-- Takes the password if its flag is set. -/
def readPassword (flags : UInt8) (bytes : Bytes) : Except WireError (Option Bytes × Bytes) :=
  if isSet flags passwordFlag then do
    let (password, rest) ← Field.readBlock "password" bytes
    return (some password, rest)
  else .ok (none, bytes)

/-- Reads a CONNECT. -/
def ofFrame (frame : Frame) : Except WireError Connect := do
  frame.expect .connect
  let (name, rest) ← Field.readText "protocol name" frame.payload
  if name ≠ protocolName then .error (.malformed "protocol name")
  let (protocolLevel, rest) ← Field.readByte "protocol level" rest
  let (flags, rest) ← Field.readByte "connect flags" rest
  if isSet flags reservedFlag then .error (.malformed "connect flags")
  let (keepAlive, rest) ← Field.readWord "keep alive" rest
  let (clientId, rest) ← Field.readText "client id" rest
  let (will, rest) ← readWill flags rest
  let (username, rest) ← readUsername flags rest
  let (password, _) ← readPassword flags rest
  return ⟨protocolLevel, clientId, username, password, will, keepAlive,
    isSet flags cleanSessionFlag⟩

/-- The flags that announce a will. -/
def willFlags : Option Will → UInt8
  | none => 0
  | some will => willFlag ||| will.qos.toByte <<< 3 ||| (if will.retain then willRetainFlag else 0)

/-- The byte of flags. -/
def flagByte (connect : Connect) : UInt8 :=
  (if connect.cleanSession then cleanSessionFlag else 0)
    ||| (if connect.username.isSome then usernameFlag else 0)
    ||| (if connect.password.isSome then passwordFlag else 0)
    ||| willFlags connect.will

/-- Adds the will, if there is one. -/
def addWill (frame : Frame) : Option Will → Except WireError Frame
  | none => .ok frame
  | some will => do
    let frame ← frame.addText "will topic" will.topic
    frame.addBlock "will message" will.message

/-- Adds the user name, if there is one. -/
def addUsername (frame : Frame) : Option String → Except WireError Frame
  | none => .ok frame
  | some username => frame.addText "username" username

/-- Adds the password, if there is one. -/
def addPassword (frame : Frame) : Option Bytes → Except WireError Frame
  | none => .ok frame
  | some password => frame.addBlock "password" password

/-- Writes a CONNECT. -/
def toFrame (connect : Connect) : Except WireError Frame := do
  let frame ← (Frame.empty PacketType.connect.headerByte).addText "protocol name" protocolName
  let frame ← frame.addByte connect.protocolLevel
  let frame ← frame.addByte connect.flagByte
  let frame ← frame.addWord connect.keepAlive
  let frame ← frame.addText "client id" connect.clientId
  let frame ← addWill frame connect.will
  let frame ← addUsername frame connect.username
  addPassword frame connect.password

/-! ## Summary for logs -/

/-- An optional field of a summary. -/
def optionText : Option String → String
  | none => "None"
  | some text => s!"Some({text})"

/-- The will in a summary. -/
def willText (will : Will) : String :=
  let qos := match will.qos with
    | .atMostOnce => "AtMostOnce"
    | .atLeastOnce => "AtLeastOnce"
    | .exactlyOnce => "ExactlyOnce"
  let message := ", ".intercalate (will.message.map fun byte => toString byte.toNat)
  "Will \x7b topic: " ++ Text.quoted will.topic ++ ", message: [" ++ message ++ "], qos: " ++ qos
    ++ ", retain: " ++ (if will.retain then "true" else "false") ++ " \x7d"

/-- The summary of a CONNECT: every field but the password, of which only the size is told. -/
def summary (connect : Connect) : String :=
  "Connect \x7b protocol_level: " ++ toString connect.protocolLevel.toNat
    ++ ", client_id: " ++ Text.quoted connect.clientId
    ++ ", username: " ++ optionText (connect.username.map Text.quoted)
    ++ ", password: "
    ++ optionText (connect.password.map fun p => Text.quoted s!"<redacted {p.length} bytes>")
    ++ ", will: " ++ optionText (connect.will.map willText)
    ++ ", keep_alive: " ++ toString connect.keepAlive.toNat
    ++ ", clean_session: " ++ (if connect.cleanSession then "true" else "false") ++ " \x7d"

end Connect
end TopicTree
