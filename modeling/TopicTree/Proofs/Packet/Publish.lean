import TopicTree.Packet.Publish
import TopicTree.Proofs.Outcome

/-!
# Reading and writing a PUBLISH

Each reader succeeds exactly on the bytes that the writer of the same field makes, followed by
anything, and each writer adds exactly those bytes to a frame. So a PUBLISH is read from a frame
exactly when it is written as that frame: reading and writing are inverse to each other, and no two
frames hold the same PUBLISH.
-/

namespace TopicTree

/-- What holds of the bytes 0 to 255 holds of every byte. -/
theorem forall_byte {P : UInt8 → Prop} (h : ∀ n : Fin 256, P (UInt8.ofNat n)) (byte : UInt8) :
    P byte := by
  have hbyte := h ⟨byte.toNat, byte.toNat_lt⟩
  rwa [UInt8.ofNat_toNat] at hbyte

/-! ## Fields -/

namespace Field

variable {field text : String} {bytes block rest : Bytes}

/-- A byte is read from the front. -/
theorem readByte_eq_ok {byte : UInt8} :
    readByte field bytes = .ok (byte, rest) ↔ bytes = byte :: rest := by
  cases bytes <;> simp [readByte]

/-- The bytes of a word that two bytes spell are those two. -/
theorem wordBytes_wordOf (high low : UInt8) : wordBytes (wordOf high low) = [high, low] := by
  have hhigh := high.toNat_lt
  have hlow := low.toNat_lt
  have hword : (wordOf high low).toNat = high.toNat * 256 + low.toNat :=
    Nat.mod_eq_of_lt (by omega)
  have hdiv : (high.toNat * 256 + low.toNat) / 256 = high.toNat := by omega
  have hmod : (high.toNat * 256 + low.toNat) % 256 = low.toNat := by omega
  rw [wordBytes, hword, hdiv, hmod]
  change [UInt8.ofNat high.toNat, UInt8.ofNat low.toNat] = [high, low]
  rw [UInt8.ofNat_toNat, UInt8.ofNat_toNat]

/-- A word is read where its two bytes stand. -/
theorem readWord_eq_ok {word : UInt16} :
    readWord field bytes = .ok (word, rest) ↔ bytes = wordBytes word ++ rest := by
  constructor
  · intro h
    unfold readWord at h
    split at h
    · cases h
      rw [wordBytes_wordOf]
      rfl
    · cases h
  · rintro rfl
    exact readWord_wordBytes field word rest

/-- As many bytes as asked for are read from the front. -/
theorem readExact_eq_ok {len : Nat} :
    readExact field len bytes = .ok (block, rest) ↔ block.length = len ∧ bytes = block ++ rest := by
  constructor
  · intro h
    unfold readExact at h
    split at h
    · cases h
    · next henough =>
      cases h
      refine ⟨?_, (List.take_append_drop len bytes).symm⟩
      rw [List.length_take]
      omega
  · rintro ⟨rfl, rfl⟩
    have hlength : ¬(block ++ rest).length < block.length := by simp
    rw [readExact, if_neg hlength, List.take_left, List.drop_left]

/-- A text is read from its own bytes only. -/
theorem textOf_eq_ok : textOf field bytes = .ok text ↔ bytes = Text.toBytes text := by
  constructor
  · intro h
    unfold textOf at h
    split at h
    · next found hfound =>
      cases h
      exact (Text.toBytes_of_ofBytes? hfound).symm
    · cases h
  · rintro rfl
    exact textOf_toBytes field text

/-- A text behind its length word. -/
def textBytes (text : String) : Bytes :=
  wordBytes text.utf8ByteSize.toUInt16 ++ Text.toBytes text

@[simp]
theorem length_wordBytes (word : UInt16) : (wordBytes word).length = 2 :=
  rfl

@[simp]
theorem length_textBytes (text : String) : (textBytes text).length = 2 + text.utf8ByteSize := by
  rw [textBytes, List.length_append, length_wordBytes, Text.length_toBytes]

/-- A block behind its length word. -/
def blockBytes (block : Bytes) : Bytes :=
  wordBytes block.length.toUInt16 ++ block

@[simp]
theorem length_blockBytes (block : Bytes) : (blockBytes block).length = 2 + block.length := by
  rw [blockBytes, List.length_append, length_wordBytes]

/-- A text stands behind its length word as the block of its bytes does. -/
theorem blockBytes_toBytes (text : String) : blockBytes (Text.toBytes text) = textBytes text := by
  rw [blockBytes, textBytes, Text.length_toBytes]

/-- A block is read where it stands behind its length word. -/
theorem readBlock_eq_ok :
    readBlock field bytes = .ok (block, rest)
      ↔ block.length ≤ maxBlock ∧ bytes = blockBytes block ++ rest := by
  simp only [readBlock, bind_eq_ok, Prod.exists, readWord_eq_ok, readExact_eq_ok]
  constructor
  · rintro ⟨len, _, rfl, hlen, rfl⟩
    have hbound := len.toNat_lt
    refine ⟨by simp only [maxBlock]; omega, ?_⟩
    rw [blockBytes, hlen, Nat.toUInt16, UInt16.ofNat_toNat, List.append_assoc]
  · rintro ⟨hshort, rfl⟩
    refine ⟨block.length.toUInt16, block ++ rest, ?_, ?_, rfl⟩
    · rw [blockBytes, List.append_assoc]
    · exact (Nat.mod_eq_of_lt (Nat.lt_succ_of_le hshort)).symm

/-- A text is read where it stands behind its length word. -/
theorem readText_eq_ok :
    readText field bytes = .ok (text, rest)
      ↔ text.utf8ByteSize ≤ maxBlock ∧ bytes = textBytes text ++ rest := by
  simp only [readText, bind_eq_ok, pure_eq_ok, Prod.exists, Prod.mk.injEq, readBlock_eq_ok,
    textOf_eq_ok]
  constructor
  · rintro ⟨_, _, ⟨hshort, rfl⟩, found, rfl, rfl, rfl⟩
    rw [blockBytes_toBytes]
    exact ⟨Text.length_toBytes found ▸ hshort, rfl⟩
  · rintro ⟨hshort, rfl⟩
    refine ⟨Text.toBytes text, rest, ⟨?_, ?_⟩, text, rfl, rfl, rfl⟩
    · rwa [Text.length_toBytes]
    · rw [blockBytes_toBytes]

end Field

/-! ## Frames that grow -/

namespace Frame

variable {frame next : Frame} {field text : String} {bytes : Bytes}

/-- Frames of one header and one payload are the same. -/
theorem eq_of_parts (header : frame.header = next.header) (payload : frame.payload = next.payload) :
    frame = next := by
  cases frame
  cases next
  simp_all

/-- Bytes are added at the end of the payload, if that fits. -/
theorem append_eq_ok :
    frame.append bytes = .ok next
      ↔ next.header = frame.header ∧ next.payload = frame.payload ++ bytes := by
  constructor
  · intro h
    unfold append ofPayload at h
    split at h
    · cases h
      exact ⟨rfl, rfl⟩
    · cases h
  · rintro ⟨hheader, hpayload⟩
    have room : (frame.payload ++ bytes).length ≤ frameCapacity := hpayload ▸ next.fits
    rw [append, ofPayload, dif_pos room]
    exact congrArg _ (eq_of_parts hheader.symm hpayload.symm)

/-- A block is added behind its length word, if that fits. -/
theorem addBlock_eq_ok {block : Bytes} :
    frame.addBlock field block = .ok next
      ↔ next.header = frame.header ∧ next.payload = frame.payload ++ Field.blockBytes block := by
  simp only [addBlock, addWord, check_eq_ok, bind_eq_ok, append_eq_ok, Field.blockBytes]
  constructor
  · rintro ⟨_, word, ⟨hheader, hpayload⟩, hheader', hpayload'⟩
    exact ⟨hheader'.trans hheader, by rw [hpayload', hpayload, List.append_assoc]⟩
  · rintro ⟨hheader, hpayload⟩
    have hfits := next.fits
    simp only [hpayload, List.length_append, Field.length_wordBytes, frameCapacity] at hfits
    refine ⟨by simp only [Field.maxBlock]; omega,
      ⟨frame.header, frame.payload ++ Field.wordBytes block.length.toUInt16, ?_⟩,
      ⟨rfl, rfl⟩, hheader, by rw [hpayload, List.append_assoc]⟩
    simp only [List.length_append, Field.length_wordBytes, frameCapacity]
    omega

/-- A text is added behind its length word, if that fits. -/
theorem addText_eq_ok :
    frame.addText field text = .ok next
      ↔ next.header = frame.header ∧ next.payload = frame.payload ++ Field.textBytes text := by
  rw [addText, addBlock_eq_ok, Field.blockBytes_toBytes]

/-- A frame of the packet type that is asked for is not refused. -/
theorem expect_eq_ok {type : PacketType} :
    frame.expect type = .ok () ↔ frame.packetType = .ok type := by
  simp only [expect, bind_eq_ok]
  constructor
  · rintro ⟨actual, hactual, h⟩
    split at h
    · next heq => rw [hactual, heq]
    · cases h
  · intro h
    exact ⟨type, h, if_pos rfl⟩

end Frame

/-! ## Headers -/

/-- The delivery class is read from its own number only. -/
theorem Qos.ofByte_eq_ok {bits : UInt8} {qos : Qos} :
    ofByte bits = .ok qos ↔ bits = qos.toByte := by
  constructor
  · intro h
    unfold ofByte at h
    split at h
    · next hbits =>
      cases h
      exact hbits
    · split at h
      · next hbits =>
        cases h
        exact hbits
      · split at h
        · next hbits =>
          cases h
          exact hbits
        · cases h
  · rintro rfl
    exact ofByte_toByte qos

/-- The packet type is read from headers with its own nibble only. -/
theorem PacketType.ofHeader_eq_ok {header : UInt8} {type : PacketType} :
    ofHeader header = .ok type ↔ ofNibble? (header >>> 4) = some type := by
  unfold ofHeader
  split <;> simp_all

namespace HeaderFlags

/-- The flags of a PUBLISH are read back from its header. -/
theorem ofHeader_header (qos : Qos) (retain dup : Bool) :
    PacketType.ofNibble? ((PacketType.publish.headerByte ||| (ofParts qos retain dup).bits) >>> 4)
        = some .publish ∧
      ofHeader (PacketType.publish.headerByte ||| (ofParts qos retain dup).bits)
        = ofParts qos retain dup := by
  cases qos <;> cases retain <;> cases dup <;> exact ⟨rfl, rfl⟩

/-- The parts of the flags of a PUBLISH are read back from them. -/
theorem parts_ofParts (qos : Qos) (retain dup : Bool) :
    (ofParts qos retain dup).qos = .ok qos ∧ (ofParts qos retain dup).retain = retain ∧
      (ofParts qos retain dup).dup = dup := by
  cases qos <;> cases retain <;> cases dup <;> exact ⟨rfl, rfl, rfl⟩

/-- A header that names a PUBLISH is told by its type and by the parts of its flags. -/
theorem header_eq_ofParts : ∀ (header : UInt8) (qos : Qos),
    PacketType.ofNibble? (header >>> 4) = some .publish →
    ((ofHeader header).bits &&& qosBits) >>> 1 = qos.toByte →
    header = PacketType.publish.headerByte
      ||| (ofParts qos (ofHeader header).retain (ofHeader header).dup).bits := by
  refine forall_byte ?_
  intro n qos
  revert n
  cases qos <;> decide +kernel

end HeaderFlags

namespace Publish

variable {frame : Frame} {publish : Publish}

/-- The header of a PUBLISH is the one that its parts are read from. -/
theorem header_eq_iff {header : UInt8} :
    header = publish.header ↔
      PacketType.ofHeader header = .ok .publish ∧
        (HeaderFlags.ofHeader header).qos = .ok publish.qos ∧
        (HeaderFlags.ofHeader header).retain = publish.retain ∧
        (HeaderFlags.ofHeader header).dup = publish.dup := by
  constructor
  · rintro rfl
    obtain ⟨htype, hflags⟩ := HeaderFlags.ofHeader_header publish.qos publish.retain publish.dup
    rw [Publish.header, hflags, PacketType.ofHeader_eq_ok]
    exact ⟨htype, HeaderFlags.parts_ofParts publish.qos publish.retain publish.dup⟩
  · rintro ⟨htype, hqos, hretain, hdup⟩
    rw [Publish.header, ← hretain, ← hdup]
    exact HeaderFlags.header_eq_ofParts header publish.qos (PacketType.ofHeader_eq_ok.1 htype)
      (Qos.ofByte_eq_ok.1 hqos)

/-! ## Bodies -/

/-- The bytes of a packet identifier, if there is one. -/
def idBytes (packetId : Option UInt16) : Bytes :=
  (packetId.map Field.wordBytes).getD []

/-- All that follows the length field in the frame of a PUBLISH. -/
def body (publish : Publish) : Bytes :=
  Field.textBytes publish.topic ++ (idBytes publish.packetId ++ publish.payload)

/-- A packet identifier that goes with the delivery class is read where it stands. -/
theorem readId_eq_ok {qos : Qos} {packetId : Option UInt16} {bytes rest : Bytes} :
    readId qos bytes = .ok (packetId, rest)
      ↔ packetId.isSome = qos.needsId ∧ bytes = idBytes packetId ++ rest := by
  cases hneeds : qos.needsId with
  | false => cases packetId <;> simp [readId, hneeds, idBytes, eq_comm]
  | true =>
    simp only [readId, hneeds, if_true, bind_eq_ok, pure_eq_ok, Prod.exists, Field.readWord_eq_ok,
      Prod.mk.injEq]
    cases packetId <;> simp [idBytes]

/-- A packet identifier that goes with the delivery class is added, if that fits. -/
theorem addId_eq_ok {next : Frame} {qos : Qos} {packetId : Option UInt16} :
    addId frame qos packetId = .ok next
      ↔ packetId.isSome = qos.needsId ∧ next.header = frame.header ∧
        next.payload = frame.payload ++ idBytes packetId := by
  cases hneeds : qos.needsId with
  | false =>
    cases packetId with
    | none =>
      simp only [addId, hneeds, Except.ok.injEq, Option.isSome_none, idBytes, Option.map_none,
        Option.getD_none, List.append_nil, true_and]
      exact ⟨fun h => h ▸ ⟨rfl, rfl⟩, fun h => Frame.eq_of_parts h.1.symm h.2.symm⟩
    | some id => simp [addId, hneeds]
  | true =>
    cases packetId with
    | none => simp [addId, hneeds]
    | some id => simp [addId, hneeds, Frame.addWord, Frame.append_eq_ok, idBytes]

/-- A PUBLISH is written as the frame of its header and body, if they fit one. -/
theorem toFrame_eq_ok :
    publish.toFrame = .ok frame
      ↔ publish.packetId.isSome = publish.qos.needsId ∧ frame.header = publish.header ∧
        frame.payload = publish.body := by
  simp only [toFrame, bind_eq_ok, Frame.addText_eq_ok, addId_eq_ok, Frame.append_eq_ok, body]
  constructor
  · rintro ⟨first, ⟨hheader, hpayload⟩, second, ⟨hid, hheader', hpayload'⟩, hheader'', hpayload''⟩
    refine ⟨hid, hheader''.trans (hheader'.trans hheader), ?_⟩
    rw [hpayload'', hpayload', hpayload, Frame.empty, List.nil_append, List.append_assoc]
  · rintro ⟨hid, hheader, hpayload⟩
    have hfits := frame.fits
    simp only [hpayload, List.length_append] at hfits
    refine ⟨⟨publish.header, Field.textBytes publish.topic, by omega⟩, ⟨rfl, rfl⟩,
      ⟨publish.header, Field.textBytes publish.topic ++ idBytes publish.packetId, ?_⟩,
      ⟨hid, rfl, rfl⟩, hheader, ?_⟩
    · rw [List.length_append]
      omega
    · rw [hpayload, List.append_assoc]

/-- A message on a topic is written if both leave room for the length of the topic. -/
theorem exists_toFrame_plain {topic : String} {payload : Bytes}
    (fits : 2 + topic.utf8ByteSize + payload.length ≤ frameCapacity) :
    ∃ frame, (plain topic payload).toFrame = .ok frame := by
  have hbody : (plain topic payload).body = Field.textBytes topic ++ payload := rfl
  have hfits : (plain topic payload).body.length ≤ frameCapacity := by
    rw [hbody, List.length_append, Field.length_textBytes]
    exact fits
  exact ⟨⟨_, _, hfits⟩, toFrame_eq_ok.2 ⟨rfl, rfl, rfl⟩⟩

/-- A PUBLISH is read from the frame of its header and body. -/
theorem ofFrame_eq_ok :
    ofFrame frame = .ok publish
      ↔ publish.packetId.isSome = publish.qos.needsId ∧ frame.header = publish.header ∧
        frame.payload = publish.body := by
  simp only [ofFrame, bind_eq_ok, pure_eq_ok, Prod.exists, Field.readText_eq_ok, readId_eq_ok,
    header_eq_iff, body]
  constructor
  · rintro ⟨_, htype, qos, hqos, topic, _, ⟨_, hpayload⟩, packetId, payload, ⟨hid, rfl⟩, rfl⟩
    exact ⟨hid, ⟨Frame.expect_eq_ok.1 htype, hqos, rfl, rfl⟩, hpayload⟩
  · rintro ⟨hid, ⟨htype, hqos, hretain, hdup⟩, hpayload⟩
    have hfits := frame.fits
    simp only [hpayload, List.length_append, Field.length_textBytes, frameCapacity] at hfits
    refine ⟨(), Frame.expect_eq_ok.2 htype, publish.qos, hqos, publish.topic, _, ⟨?_, hpayload⟩,
      publish.packetId, publish.payload, ⟨hid, rfl⟩, ?_⟩
    · simp only [Field.maxBlock]
      omega
    · rw [Frame.flags, hretain, hdup]

/-- A PUBLISH is read from frames of its packet type only. -/
theorem packetType_of_ofFrame (h : ofFrame frame = .ok publish) :
    frame.packetType = .ok .publish := by
  simp only [ofFrame, bind_eq_ok] at h
  obtain ⟨_, hexpect, -⟩ := h
  exact Frame.expect_eq_ok.1 hexpect

/-- A PUBLISH is read from a frame exactly when it is written as that frame. -/
theorem ofFrame_eq_ok_iff_toFrame : ofFrame frame = .ok publish ↔ publish.toFrame = .ok frame :=
  ofFrame_eq_ok.trans toFrame_eq_ok.symm

end Publish

end TopicTree
