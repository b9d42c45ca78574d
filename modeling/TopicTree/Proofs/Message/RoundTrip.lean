import TopicTree.Proofs.Message.Layout

/-!
# Messages go through frames

A written message is read back exactly when its paths are read back from their own text and no
return code is lost. The other way round, whatever was read can be written again and is the same
message then. A message whose method is no longer than a method on offer may be always fits a frame.
-/

namespace TopicTree

/-- A number that names no outcome is written as that of the catch-all. -/
theorem ReturnCode.toByte_ofByte : ∀ byte : UInt8,
    (ofByte byte).toByte = if byte ≤ 6 then byte else 255 := by
  refine forall_byte ?_
  decide +kernel

namespace Envelope

variable {envelope : Envelope} {frame : Frame}

/-- The byte of a return code is told by the record that it stands in. -/
theorem record_inj {code other : Option UInt8}
    (h : envelope.record code = envelope.record other) : code = other := by
  simp only [record, List.append_cancel_left_eq, List.append_cancel_right_eq] at h
  cases code <;> cases other <;> simp_all

/-- A written message is read back if its paths are read back from their own text and no code is
lost. -/
theorem ofFrame_written (made : envelope.toFrame = .ok frame) :
    ofFrame frame = .ok envelope ↔ envelope.dest.Reads ∧ envelope.source.Reads ∧
      (envelope.kind ≠ .response → envelope.code = .success) := by
  have hread : Publish.ofFrame frame = .ok envelope.written :=
    Publish.ofFrame_eq_ok_iff_toFrame.2 (toFrame_eq_ok.1 made)
  rw [ofFrame_eq_ok, ← eq_codeOf_codeByte, hread]
  constructor
  · rintro ⟨hdest, hsource, packetId, code, retain, dup, -, htold, heq⟩
    have hrecord := congrArg Publish.payload (Except.ok.inj heq)
    rw [← record_inj hrecord] at htold
    exact ⟨hdest, hsource, htold⟩
  · rintro ⟨hdest, hsource, htold⟩
    exact ⟨hdest, hsource, _, _, _, _, isSome_codeByte, htold, rfl⟩

/-! ## Messages that a frame can carry -/

/-- The packet of a message with a short method fits a frame. -/
theorem length_body_le (short : envelope.method.utf8ByteSize ≤ maxMethodName) :
    envelope.written.body.length ≤ frameCapacity := by
  have htopic := size_toText_le envelope.dest
  have hsource := size_toText_le envelope.source
  have hparams := envelope.params.fits
  have hid : (Publish.idBytes envelope.packetId).length ≤ 2 := by
    cases envelope.packetId <;> simp [Publish.idBytes]
  have hcode : envelope.codeByte.toList.length ≤ 1 := by
    cases envelope.codeByte <;> simp
  simp only [written, publication, record, Publish.body, List.length_append,
    Field.length_textBytes, Field.length_wordBytes, length_shortText, String.utf8ByteSize_append,
    Kind.size_marker]
  simp only [maxMethodName, maxPath, maxParams, frameCapacity] at *
  omega

/-- A message that a frame can carry: its method is short, its paths are read back from their own
text, and it is a response if it tells of anything but success. -/
structure Carried (envelope : Envelope) : Prop where
  short : envelope.method.utf8ByteSize ≤ maxMethodName
  dest : envelope.dest.Reads
  source : envelope.source.Reads
  plain : envelope.kind ≠ .response → envelope.code = .success

/-- A message that a frame can carry is read back from the frame that it is written into. -/
theorem Carried.exists_toFrame (carried : envelope.Carried) :
    ∃ frame, envelope.toFrame = .ok frame ∧ ofFrame frame = .ok envelope := by
  obtain ⟨frame, hframe, -⟩ := Envelope.exists_toFrame (length_body_le carried.short)
  exact ⟨frame, hframe,
    (ofFrame_written hframe).2 ⟨carried.dest, carried.source, carried.plain⟩⟩

/-! ## Messages that are read back -/

/-- A message that was made for paths which were read from a text: by one of the three makers, or
out of such a message with another source, number and delivery class. -/
inductive Made : Envelope → Prop
  | request {text method : String} {dest : Path} {id : UInt16} {params : Params}
      {message : Envelope} (parsed : Path.ofText text = .ok dest)
      (made : Envelope.request dest method id params = .ok message) : Made message
  | notification {name : String} {id : UInt16} {qos : Qos} {params : Params} {message : Envelope}
      (made : Envelope.notification name id qos params = .ok message) : Made message
  | response {text : String} {request : Envelope} {code : ReturnCode} {params : Params}
      (parsed : Path.ofText text = .ok request.source) : Made (request.response code params)
  | sent {text : String} {message : Envelope} {source : Path} {id : UInt16} {qos : Qos}
      (made : Made message) (parsed : Path.ofText text = .ok source) :
      Made { message with source, id, qos }

/-- The path without levels from the top is read back. -/
theorem reads_empty : (Path.empty .top).Reads :=
  Path.reads_top rfl rfl

/-- A message that is sent off has the given destination, no source yet and no return code. -/
theorem outgoing_eq_ok {kind : Kind} {dest : Path} {method : String} {id : UInt16} {qos : Qos}
    {params : Params} (h : outgoing kind dest method id qos params = .ok envelope) :
    envelope.dest = dest ∧ envelope.source = Path.empty .top ∧ envelope.code = .success := by
  unfold outgoing at h
  split at h
  · cases h
    exact ⟨rfl, rfl, rfl⟩
  · cases h

/-- A message that was made for paths which were read from a text loses nothing in a frame. -/
theorem Made.reads (made : Made envelope) :
    envelope.dest.Reads ∧ envelope.source.Reads ∧
      (envelope.kind ≠ .response → envelope.code = .success) := by
  induction made with
  | request parsed made =>
    obtain ⟨hdest, hsource, hcode⟩ := outgoing_eq_ok made
    rw [hdest, hsource]
    exact ⟨Path.reads_of_ofText parsed, reads_empty, fun _ => hcode⟩
  | notification made =>
    obtain ⟨hdest, hsource, hcode⟩ := outgoing_eq_ok made
    rw [hdest, hsource]
    exact ⟨reads_empty, reads_empty, fun _ => hcode⟩
  | response parsed =>
    exact ⟨Path.reads_of_ofText parsed, reads_empty, fun hkind => absurd rfl hkind⟩
  | sent _ parsed ih => exact ⟨ih.1, Path.reads_of_ofText parsed, ih.2.2⟩

/-- A written message is read back from its frame exactly when its paths are read back from their
own text and it tells of success unless it is a response; so every message is that was made for
paths which were read from a text. -/
theorem read_back_iff (written : envelope.toFrame = .ok frame) :
    (ofFrame frame = .ok envelope ↔ envelope.dest.Reads ∧ envelope.source.Reads ∧
        (envelope.kind ≠ .response → envelope.code = .success)) ∧
      (Made envelope → ofFrame frame = .ok envelope) :=
  ⟨ofFrame_written written, fun made => (ofFrame_written written).2 made.reads⟩

/-- A notification with the number 0 that has to arrive. -/
def unnumbered : Envelope :=
  ⟨.notification, Path.empty .top, Path.empty .top, 0, "temp", .success, .atLeastOnce,
    Params.empty, by decide⟩

/-- A request for a node under the local root whose first level reads like the way up. -/
def astray : Envelope :=
  ⟨.request, ⟨.near, "../lamp", by decide⟩, Path.empty .top, 7, "on", .success, .atMostOnce,
    Params.empty, by decide⟩

/-- The number 0 does no harm, and a level that reads like the way up does. -/
theorem astray_is_not_read_back :
    (∃ frame, unnumbered.toFrame = .ok frame ∧ ofFrame frame = .ok unnumbered) ∧
      ∃ frame, astray.toFrame = .ok frame ∧ ofFrame frame ≠ .ok astray := by
  obtain ⟨plain, hplain, -⟩ := exists_toFrame (@length_body_le unnumbered (by decide))
  obtain ⟨lost, hlost, -⟩ := exists_toFrame (@length_body_le astray (by decide))
  have hmade : Made unnumbered :=
    @Made.notification "temp" 0 .atLeastOnce Params.empty unnumbered rfl
  refine ⟨⟨plain, hplain, (read_back_iff hplain).2 hmade⟩, lost, hlost, ?_⟩
  intro hread
  have hreads : astray.dest.Reads := ((read_back_iff hlost).1.1 hread).1
  have hfar : Path.ofText astray.dest.toText = .ok ⟨.far, "lamp", by decide⟩ := rfl
  rw [Path.Reads, hfar] at hreads
  cases hreads

/-! ## Messages that are written again -/

/-- All that follows the length field in a frame that a message is read from: its topic, which holds
kind and destination, the packet identifier, and the record with the byte of the return code. -/
def layout (envelope : Envelope) (packetId : Option UInt16) (code : Option UInt8) : Bytes :=
  Field.textBytes (envelope.kind.marker ++ envelope.dest.toText)
    ++ (Publish.idBytes packetId ++ envelope.record code)

/-- Another identifier and another byte for the return code take the same room. -/
theorem length_layout_map (packetId : Option UInt16) (code : Option UInt8)
    (number : UInt16 → UInt16) (byte : UInt8 → UInt8) :
    (envelope.layout (packetId.map number) (code.map byte)).length
      = (envelope.layout packetId code).length := by
  cases packetId <;> cases code <;> simp [layout, record, Publish.idBytes]

/-- The packet identifier is that of the message wherever there is one. -/
theorem packetId_eq_map {packetId : Option UInt16}
    (identified : packetId.isSome = envelope.qos.needsId) :
    envelope.packetId = packetId.map fun _ => max envelope.id 1 := by
  have hmax : max envelope.id 1 = if envelope.id ≤ 1 then 1 else envelope.id := rfl
  have hnumber : (if envelope.id = 0 then 1 else envelope.id) = max envelope.id 1 := by
    grind
  cases packetId <;> simp [Envelope.packetId, ← identified, hnumber]

/-- The byte of a return code stays wherever it names an outcome of its own. -/
theorem codeByte_eq_map {code : Option UInt8} (placed : code.isSome ↔ envelope.kind = .response)
    (told : envelope.code = codeOf code) :
    envelope.codeByte = code.map fun byte => if byte ≤ 6 then byte else 255 := by
  cases code with
  | none => simpa [codeByte] using placed
  | some byte =>
    rw [codeByte, if_pos (placed.1 rfl), told]
    exact congrArg some (ReturnCode.toByte_ofByte byte)

/-- The header of a packet without the two flags that no message keeps. -/
theorem header_eq_and (packetId : Option UInt16) (code : Option UInt8) (retain dup : Bool) :
    envelope.written.header
      = (envelope.publication packetId code retain dup).header
        &&& ~~~(HeaderFlags.retainBit ||| HeaderFlags.dupBit) := by
  simp only [Publish.header, written, publication]
  cases envelope.qos <;> cases retain <;> cases dup <;> rfl

/-- Whatever was read can be written again and is the same message then. The new frame is the old
one without the retain and redelivery flags, with the number of the message for the packet
identifier and with the catch-all for a code that names no outcome. -/
theorem survives_rewriting (read : ofFrame frame = .ok envelope) :
    ∃ again, envelope.toFrame = .ok again ∧ ofFrame again = .ok envelope ∧
      again.header = frame.header &&& ~~~(HeaderFlags.retainBit ||| HeaderFlags.dupBit) ∧
      ∃ (packetId : Option UInt16) (code : Option UInt8),
        packetId.isSome = envelope.qos.needsId ∧ (code.isSome ↔ envelope.kind = .response) ∧
        frame.payload = envelope.layout packetId code ∧
        again.payload = envelope.layout (packetId.map fun _ => max envelope.id 1)
          (code.map fun byte => if byte ≤ 6 then byte else 255) := by
  obtain ⟨hdest, hsource, packetId, code, retain, dup, hcode, htold, hread⟩ := ofFrame_eq_ok.1 read
  obtain ⟨hid, hheader, hpayload⟩ := Publish.ofFrame_eq_ok.1 hread
  change packetId.isSome = envelope.qos.needsId at hid
  change frame.payload = envelope.layout packetId code at hpayload
  have hbody : envelope.written.body
      = envelope.layout (packetId.map fun _ => max envelope.id 1)
        (code.map fun byte => if byte ≤ 6 then byte else 255) := by
    rw [← packetId_eq_map hid, ← codeByte_eq_map hcode htold]
    rfl
  have hfits : envelope.written.body.length ≤ frameCapacity := by
    rw [hbody, length_layout_map]
    exact hpayload ▸ frame.fits
  have hplain : envelope.kind ≠ .response → envelope.code = .success := by
    intro hkind
    have hnone : code = none := by simpa [hkind] using hcode
    rw [htold, hnone]
    rfl
  obtain ⟨again, hagain, hheader', hpayload'⟩ := exists_toFrame hfits
  refine ⟨again, hagain, (ofFrame_written hagain).2 ⟨hdest, hsource, hplain⟩, ?_, packetId, code,
    hid, hcode, hpayload, hpayload'.trans hbody⟩
  rw [hheader', hheader]
  exact header_eq_and packetId code retain dup

/-- A frame that is delivered again and retained, with the packet identifier 9. It holds a response
with the number 0 and a code that names no outcome. -/
def worn : Frame :=
  ⟨0x3b, [0, 2, 60, 45, 0, 9, 0, 0, 2, 111, 110, 0, 77], by decide⟩

/-- The response that `worn` holds. -/
def settled : Envelope :=
  ⟨.response, Path.empty .top, Path.empty .top, 0, "on", .internal, .atLeastOnce, Params.empty,
    by decide⟩

/-- Written again, the response of `worn` has the packet identifier 1 and the code 255. -/
theorem worn_is_renewed :
    ofFrame worn = .ok settled ∧ ∃ again, settled.toFrame = .ok again ∧
      ofFrame again = .ok settled ∧ again.header = 0x32 ∧
      again.payload = [0, 2, 60, 45, 0, 1, 0, 0, 2, 111, 110, 0, 255] := by
  have hpacket : Publish.ofFrame worn = .ok (settled.publication (some 9) (some 77) true true) :=
    Publish.ofFrame_eq_ok.2 ⟨rfl, rfl, rfl⟩
  have hread : ofFrame worn = .ok settled :=
    ofFrame_eq_ok.2 ⟨reads_empty, reads_empty, _, _, _, _, by simp [settled], rfl, hpacket⟩
  obtain ⟨again, hagain, hsame, hheader, -⟩ := survives_rewriting hread
  obtain ⟨-, -, hpayload⟩ := Publish.toFrame_eq_ok.1 (toFrame_eq_ok.1 hagain)
  exact ⟨hread, again, hagain, hsame, hheader, hpayload⟩

end Envelope

end TopicTree
