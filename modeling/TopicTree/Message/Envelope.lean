import TopicTree.Address.Path
import TopicTree.Message.Params
import TopicTree.Packet.Publish

/-!
# Envelopes

Every message between nodes travels in a PUBLISH. Its topic is a two-character marker for the kind
of message, followed by the destination. Its payload is the correlation id, the method and the
source, each text behind a length byte, the return code of a response, and the parameters to the
end.
-/

namespace TopicTree

/-- What a message wants. -/
inductive Kind
  /-- To be handled by a method of the destination. -/
  | request
  /-- To settle a request of the destination. -/
  | response
  /-- To be told to subscribers at the top. -/
  | notification
  deriving DecidableEq, Repr

namespace Kind

/-- The marker in front of a topic. -/
def marker : Kind → String
  | request => "->"
  | response => "<-"
  | notification => "^^"

/-- The kind whose marker a topic starts with, and the rest of the topic. -/
def splitMarker (topic : String) : Option (Kind × String) :=
  [request, response, notification].findSome? fun kind =>
    (Level.after? kind.marker.toList topic.toList).map fun rest => (kind, String.ofList rest)

end Kind

/-- A message between nodes. -/
structure Envelope where
  kind : Kind
  /-- What is left of the way to the destination. -/
  dest : Path
  /-- The way back to the sender, as far as it is known. -/
  source : Path
  /-- The number under which the sender awaits the response. -/
  id : UInt16
  /-- The method asked for, or the name of the notification. -/
  method : String
  /-- How it went; `success` unless this is a response. -/
  code : ReturnCode
  qos : Qos
  params : Params
  /-- The method's name is short. -/
  methodFits : method.utf8ByteSize ≤ maxTitle
  deriving DecidableEq, Repr

namespace Envelope

/-- A message that still has to leave its sender, if its method's name is short enough. -/
def outgoing (kind : Kind) (dest : Path) (method : String) (id : UInt16) (qos : Qos)
    (params : Params) : Except Error Envelope :=
  if methodFits : method.utf8ByteSize ≤ maxTitle then
    .ok ⟨kind, dest, Path.empty .top, id, method, .success, qos, params, methodFits⟩
  else .error (.pathTooLong method.utf8ByteSize maxTitle)

/-- A request for a method. -/
def request (dest : Path) (method : String) (id : UInt16) (params : Params) :
    Except Error Envelope :=
  outgoing .request dest method id .atMostOnce params

/-- A notification, addressed to the top. -/
def notification (name : String) (id : UInt16) (qos : Qos) (params : Params) :
    Except Error Envelope :=
  outgoing .notification (Path.empty .top) name id qos params

/-- The response to a request, addressed to where the request came from. It carries output only when
it reports success. -/
def response (request : Envelope) (code : ReturnCode) (params : Params) : Envelope :=
  { request with
    kind := .response
    dest := request.source
    source := Path.empty .top
    code
    qos := .atMostOnce
    params := if code = .success then params else Params.empty }

/-! ## Reading -/

/-- Takes a text behind a length byte. -/
def readShortText (field : String) (bytes : Bytes) : Except WireError (String × Bytes) := do
  let (len, rest) ← Field.readByte field bytes
  let (block, rest) ← Field.readExact field len.toNat rest
  let text ← Field.textOf field block
  return (text, rest)

/-- Takes the return code that a response carries. -/
def readCode (kind : Kind) (bytes : Bytes) : Except WireError (ReturnCode × Bytes) :=
  if kind = .response then do
    let (code, rest) ← Field.readByte "code" bytes
    return (.ofByte code, rest)
  else .ok (.success, bytes)

/-- Reads a message from the frame that carries it. -/
def ofFrame (frame : Frame) : Except Error Envelope := do
  let publish ← Error.ofWire (Publish.ofFrame frame)
  let some (kind, topic) := Kind.splitMarker publish.topic | .error .notEnvelope
  let dest ← Path.ofText topic
  let (id, rest) ← Error.ofWire (Field.readWord "id" publish.payload)
  let (method, rest) ← Error.ofWire (readShortText "method" rest)
  let envelope ← outgoing kind dest method id publish.qos Params.empty
  let (sourceText, rest) ← Error.ofWire (readShortText "source" rest)
  let source ← Path.ofText sourceText
  let (code, rest) ← Error.ofWire (readCode kind rest)
  let params ← Params.ofBytes rest
  return { envelope with source, code, params }

/-! ## Writing -/

/-- Room for a marker or an anchor in front of a full path. -/
abbrev topicCapacity : Nat := maxPath + 8

/-- Adds bytes to a payload that has to fit one frame. -/
def addBytes (payload bytes : Bytes) : Except Error Bytes :=
  if frameCapacity < payload.length + bytes.length then
    .error (.wire (.frameTooLarge (frameCapacity + 1) frameCapacity))
  else .ok (payload ++ bytes)

/-- Adds a text behind a length byte. -/
def addShortText (payload : Bytes) (text : String) : Except Error Bytes :=
  if 255 < text.utf8ByteSize then .error (.pathTooLong text.utf8ByteSize 255)
  else do
    let payload ← addBytes payload [text.utf8ByteSize.toUInt8]
    addBytes payload (Text.toBytes text)

/-- The topic of a message: marker and destination. -/
def topic (envelope : Envelope) : Except Error String :=
  let text := envelope.kind.marker ++ envelope.dest.toText
  if topicCapacity < text.utf8ByteSize then
    .error (.pathTooLong envelope.dest.segments.utf8ByteSize maxPath)
  else .ok text

/-- The source of a message as it is written. -/
def sourceText (envelope : Envelope) : Except Error String :=
  if topicCapacity < envelope.source.toText.utf8ByteSize then
    .error (.pathTooLong (topicCapacity + 1) maxPath)
  else .ok envelope.source.toText

/-- The return code as it is written: one byte in a response, nothing otherwise. -/
def codeBytes (envelope : Envelope) : Bytes :=
  if envelope.kind = .response then [envelope.code.toByte] else []

/-- The payload of a message. -/
def payload (envelope : Envelope) : Except Error Bytes := do
  let bytes ← addBytes [] (Field.wordBytes envelope.id)
  let bytes ← addShortText bytes envelope.method
  let source ← envelope.sourceText
  let bytes ← addShortText bytes source
  let bytes ← addBytes bytes envelope.codeBytes
  addBytes bytes envelope.params.bytes

/-- The packet identifier of a message: its own id, which may not be 0 there. -/
def packetId (envelope : Envelope) : Option UInt16 :=
  if envelope.qos.needsId then some (if envelope.id = 0 then 1 else envelope.id) else none

/-- Writes a message into a frame. -/
def toFrame (envelope : Envelope) : Except Error Frame := do
  let topic ← envelope.topic
  let payload ← envelope.payload
  Error.ofWire
    (Publish.toFrame ⟨topic, envelope.packetId, payload, envelope.qos, false, false⟩)

end Envelope
end TopicTree
