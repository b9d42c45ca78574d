import TopicTree.Proofs.Message.RoundTrip

/-!
# The room that a message takes

A message goes through five bounded buffers on its way into a frame: its topic, its source text, the
byte that tells the length of a text, its payload, and the frame. The first four are never too
small. So a message is written exactly when all of it fits a frame, and when it does not, that is
what its sender hears, together with the room it would take.

A request or response with a short method and a notification always fit, however long their source
has grown.
-/

namespace TopicTree

/-- A PUBLISH whose topic and packet identifier leave room is written as the frame of its body, if
that fits. -/
theorem Publish.toFrame_eq_ofPayload {publish : Publish}
    (identified : publish.packetId.isSome = publish.qos.needsId)
    (front : (Field.textBytes publish.topic ++ idBytes publish.packetId).length ≤ frameCapacity) :
    publish.toFrame = Frame.ofPayload publish.header publish.body := by
  have hfits : (Field.textBytes publish.topic).length ≤ frameCapacity := by
    rw [List.length_append] at front
    omega
  have htopic : (Frame.empty publish.header).addText "topic" publish.topic
      = .ok ⟨publish.header, Field.textBytes publish.topic, hfits⟩ :=
    Frame.addText_eq_ok.2 ⟨rfl, rfl⟩
  have hid : addId ⟨publish.header, Field.textBytes publish.topic, hfits⟩ publish.qos
      publish.packetId
        = .ok ⟨publish.header, Field.textBytes publish.topic ++ idBytes publish.packetId, front⟩ :=
    addId_eq_ok.2 ⟨identified, rfl, rfl⟩
  rw [toFrame, htopic, ok_bind, hid, ok_bind, Frame.append, body, List.append_assoc]

namespace Envelope

/-- The room that a message takes in a frame: the topic with its marker behind a length word, the
packet identifier of a delivery class that needs one, and the record, which holds a return code in a
response. -/
def room (envelope : Envelope) : Nat :=
  2 + (2 + envelope.dest.toText.utf8ByteSize)
    + (if envelope.qos = .atMostOnce then 0 else 2)
    + 2 + (1 + envelope.method.utf8ByteSize) + (1 + envelope.source.toText.utf8ByteSize)
    + (if envelope.kind = .response then 1 else 0)
    + envelope.params.bytes.length

/-! ## The buffers before the frame -/

/-- The record of a message takes the room of its parts. -/
theorem length_record (envelope : Envelope) :
    (envelope.record envelope.codeByte).length
      = 2 + (1 + envelope.method.utf8ByteSize) + (1 + envelope.source.toText.utf8ByteSize)
        + (if envelope.kind = .response then 1 else 0) + envelope.params.bytes.length := by
  have hcode : envelope.codeByte.toList.length = if envelope.kind = .response then 1 else 0 := by
    unfold codeByte
    split <;> rfl
  simp only [record, List.length_append, Field.length_wordBytes, length_shortText, hcode]
  omega

/-- The topic and the packet identifier of a message take the room of their parts. -/
theorem length_front (envelope : Envelope) :
    (Field.textBytes envelope.written.topic ++ Publish.idBytes envelope.written.packetId).length
      = 2 + (2 + envelope.dest.toText.utf8ByteSize)
        + (if envelope.qos = .atMostOnce then 0 else 2) := by
  have hid : (Publish.idBytes envelope.packetId).length
      = if envelope.qos = .atMostOnce then 0 else 2 := by
    unfold packetId
    cases envelope.qos <;> rfl
  simp only [written, publication, List.length_append, Field.length_textBytes,
    String.utf8ByteSize_append, Kind.size_marker, hid]

/-- The packet of a message takes the room of the message. -/
theorem length_body (envelope : Envelope) : envelope.written.body.length = envelope.room := by
  have hfront := length_front envelope
  have hrecord := length_record envelope
  have hbody : envelope.written.body = Field.textBytes envelope.written.topic
      ++ Publish.idBytes envelope.written.packetId ++ envelope.record envelope.codeByte :=
    (List.append_assoc ..).symm
  rw [hbody, List.length_append, hfront, hrecord, room]
  omega

/-- A payload is never too large for the buffer that it is put together in. -/
theorem payload_eq (envelope : Envelope) :
    envelope.payload = .ok (envelope.record envelope.codeByte) := by
  have hmethod := envelope.methodFits
  have hsource := size_toText_le envelope.source
  have hparams := envelope.params.fits
  refine payload_eq_ok.2 ⟨?_, rfl⟩
  rw [length_record]
  simp only [maxTitle, maxPath, maxParams, frameCapacity] at *
  split <;> omega

/-- All that can go wrong in writing a message is that its packet does not fit a frame. -/
theorem toFrame_eq (envelope : Envelope) :
    envelope.toFrame
      = Error.ofWire (Frame.ofPayload envelope.written.header envelope.written.body) := by
  have hfront : (Field.textBytes envelope.written.topic
      ++ Publish.idBytes envelope.written.packetId).length ≤ frameCapacity := by
    have hdest := size_toText_le envelope.dest
    rw [length_front]
    simp only [maxPath, frameCapacity] at *
    split <;> omega
  have htopic : envelope.topic = .ok (envelope.kind.marker ++ envelope.dest.toText) :=
    if_neg (Nat.not_lt_of_le (size_topic_le envelope))
  rw [toFrame, htopic, ok_bind, payload_eq, ok_bind,
    ← Publish.toFrame_eq_ofPayload (isSome_packetId envelope) hfront]
  rfl

/-! ## Which messages fit -/

/-- A message is written if it takes no more room than a frame has. -/
theorem exists_toFrame_of_room {envelope : Envelope} (fits : envelope.room ≤ frameCapacity) :
    ∃ frame, envelope.toFrame = .ok frame := by
  rw [toFrame_eq, Frame.ofPayload, dif_pos (length_body envelope ▸ fits)]
  exact ⟨_, rfl⟩

/-- A message that takes more room than a frame has is refused for that. -/
theorem toFrame_of_room {envelope : Envelope} (large : frameCapacity < envelope.room) :
    envelope.toFrame = .error (.wire (.frameTooLarge envelope.room frameCapacity)) := by
  have hsize := length_body envelope
  rw [toFrame_eq, Frame.ofPayload, dif_neg (by omega), hsize]
  rfl

/-- A message that is light: its method is short, or it is a notification and names no place. -/
def IsLight (message : Envelope) : Prop :=
  message.method.utf8ByteSize ≤ maxMethodName ∨
    message.kind = .notification ∧ message.dest.segments = ""

/-- Every notification is light. -/
theorem isLight_of_notification {name : String} {id : UInt16} {qos : Qos} {params : Params}
    {message : Envelope} (made : notification name id qos params = .ok message) :
    message.IsLight := by
  unfold notification outgoing at made
  split at made
  · cases made
    exact .inr ⟨rfl, rfl⟩
  · cases made

/-- A light message fits a frame, whatever its source is. -/
theorem IsLight.room_le {envelope : Envelope} (light : envelope.IsLight) :
    envelope.room ≤ frameCapacity := by
  rcases light with short | ⟨hkind, hempty⟩
  · rw [← length_body]
    exact length_body_le short
  · have hdest : envelope.dest.toText.utf8ByteSize ≤ 5 := by
      rw [Path.toText, hempty]
      cases envelope.dest.anchor <;> decide
    have hsource := size_toText_le envelope.source
    have hmethod := envelope.methodFits
    have hparams := envelope.params.fits
    have hcode : ¬envelope.kind = .response := by
      rw [hkind]
      decide
    unfold room
    rw [if_neg hcode]
    simp only [maxTitle, maxPath, maxParams, frameCapacity] at *
    split <;> omega

end Envelope
end TopicTree
