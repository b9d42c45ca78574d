import TopicTree.Message.Envelope
import TopicTree.Proofs.Address.Text
import TopicTree.Proofs.Packet.Publish

/-!
# The packets of a message

A message is read from a frame exactly when the frame holds one of its packets: marker and paths,
the texts behind their lengths, the code of a response and the parameters. It is written as one of
these, with its own number for the packet identifier.
-/

namespace TopicTree

/-- A wire operation that is part of a larger one succeeds as it does alone. -/
theorem Error.ofWire_eq_ok {α : Type} {step : Except WireError α} {result : α} :
    Error.ofWire step = .ok result ↔ step = .ok result := by
  cases step <;> simp [Error.ofWire]

/-- A marker takes two bytes. -/
@[simp]
theorem Kind.size_marker (kind : Kind) : kind.marker.utf8ByteSize = 2 := by
  cases kind <;> rfl

/-- A topic is of a kind exactly when it starts with the marker of the kind. -/
theorem Kind.splitMarker_eq_some {kind : Kind} {topic rest : String} :
    splitMarker topic = some (kind, rest) ↔ topic = kind.marker ++ rest := by
  constructor
  · intro h
    obtain ⟨found, -, hfound⟩ := List.exists_of_findSome?_eq_some h
    obtain ⟨behind, hbehind, heq⟩ := Option.map_eq_some_iff.1 hfound
    cases heq
    rw [← String.toList_inj, String.toList_append, String.toList_ofList]
    exact Level.after?_eq_some_iff.1 hbehind
  · rintro rfl
    have hown :
        Level.after? kind.marker.toList (kind.marker ++ rest).toList = some rest.toList := by
      rw [Level.after?_eq_some_iff, String.toList_append]
    have hother : ∀ other : Kind, other ≠ kind →
        Level.after? other.marker.toList (kind.marker ++ rest).toList = none := by
      intro other hne
      rw [String.toList_append]
      cases other <;> cases kind <;> simp_all [marker, Level.after?]
    simp only [splitMarker, List.findSome?_cons]
    cases kind with
    | request => simp only [hown, Option.map_some, String.ofList_toList]
    | response =>
      simp only [hother request (by decide), Option.map_none, hown, Option.map_some,
        String.ofList_toList]
    | notification =>
      simp only [hother request (by decide), hother response (by decide), Option.map_none, hown,
        Option.map_some, String.ofList_toList]

namespace Envelope

variable {envelope : Envelope} {frame : Frame}

/-! ## Texts behind their length byte -/

/-- A text behind its length byte. -/
def shortText (text : String) : Bytes :=
  text.utf8ByteSize.toUInt8 :: Text.toBytes text

/-- The size of a text behind its length byte. -/
@[simp]
theorem length_shortText (text : String) : (shortText text).length = text.utf8ByteSize + 1 := by
  rw [shortText, List.length_cons, Text.length_toBytes]

/-- A text is read where it stands behind its length byte. -/
theorem readShortText_eq_ok {field text : String} {bytes rest : Bytes} :
    readShortText field bytes = .ok (text, rest)
      ↔ text.utf8ByteSize ≤ 255 ∧ bytes = shortText text ++ rest := by
  simp only [readShortText, bind_eq_ok, pure_eq_ok, Prod.exists, Prod.mk.injEq,
    Field.readByte_eq_ok, Field.readExact_eq_ok, Field.textOf_eq_ok]
  constructor
  · rintro ⟨len, _, rfl, _, _, ⟨hlen, rfl⟩, _, rfl, rfl, rfl⟩
    rw [Text.length_toBytes] at hlen
    have hbound := len.toNat_lt
    refine ⟨by omega, ?_⟩
    rw [shortText, hlen, Nat.toUInt8, UInt8.ofNat_toNat, List.cons_append]
  · rintro ⟨hshort, rfl⟩
    refine ⟨text.utf8ByteSize.toUInt8, Text.toBytes text ++ rest, rfl, _, rest, ⟨?_, rfl⟩, text,
      rfl, rfl, rfl⟩
    rw [Text.length_toBytes]
    exact (Nat.mod_eq_of_lt (Nat.lt_succ_of_le hshort)).symm

/-- Bytes are added to a payload, if the whole fits. -/
theorem addBytes_eq_ok {payload bytes result : Bytes} :
    addBytes payload bytes = .ok result
      ↔ (payload ++ bytes).length ≤ frameCapacity ∧ payload ++ bytes = result := by
  simp only [addBytes, check_eq_ok, Except.ok.injEq, List.length_append, Nat.not_lt]

/-- A text is added to a payload behind its length byte, if that can tell it and the whole fits. -/
theorem addShortText_eq_ok {payload result : Bytes} {text : String} :
    addShortText payload text = .ok result
      ↔ text.utf8ByteSize ≤ 255 ∧ (payload ++ shortText text).length ≤ frameCapacity ∧
        payload ++ shortText text = result := by
  simp only [addShortText, check_eq_ok, bind_eq_ok, addBytes_eq_ok, Nat.not_lt]
  constructor
  · rintro ⟨hshort, _, ⟨-, rfl⟩, hfits, rfl⟩
    simp only [List.append_assoc] at hfits ⊢
    exact ⟨hshort, hfits, rfl⟩
  · rintro ⟨hshort, hfits, rfl⟩
    have hfirst : (payload ++ [text.utf8ByteSize.toUInt8]).length ≤ frameCapacity := by
      simp only [List.length_append, length_shortText, List.length_singleton] at hfits ⊢
      omega
    refine ⟨hshort, _, ⟨hfirst, rfl⟩, ?_⟩
    simp only [List.append_assoc]
    exact ⟨hfits, rfl⟩

/-! ## Return codes -/

/-- What the byte of a return code tells, and what it tells that there is none. -/
def codeOf (byte : Option UInt8) : ReturnCode :=
  (byte.map ReturnCode.ofByte).getD .success

/-- The byte that a message tells its return code with. -/
def codeByte (envelope : Envelope) : Option UInt8 :=
  if envelope.kind = .response then some envelope.code.toByte else none

/-- A response, and nothing else, has a byte for its return code. -/
theorem isSome_codeByte : envelope.codeByte.isSome ↔ envelope.kind = .response := by
  unfold codeByte
  split <;> simp_all

/-- The return code of a message is read back, if only a response has another one than success. -/
theorem eq_codeOf_codeByte :
    envelope.code = codeOf envelope.codeByte
      ↔ (envelope.kind ≠ .response → envelope.code = .success) := by
  unfold codeByte codeOf
  split <;> simp_all

/-- A return code is read from its byte, which is there in a response and nowhere else. -/
theorem readCode_eq_ok {kind : Kind} {code : ReturnCode} {bytes rest : Bytes} :
    readCode kind bytes = .ok (code, rest)
      ↔ ∃ byte : Option UInt8, (byte.isSome ↔ kind = .response) ∧ code = codeOf byte ∧
        bytes = byte.toList ++ rest := by
  by_cases hkind : kind = .response
  · simp only [readCode, if_pos hkind, bind_eq_ok, pure_eq_ok, Prod.exists, Prod.mk.injEq,
      Field.readByte_eq_ok]
    constructor
    · rintro ⟨byte, _, rfl, rfl, rfl⟩
      exact ⟨some byte, by simp [hkind], rfl, rfl⟩
    · rintro ⟨byte, hbyte, rfl, rfl⟩
      obtain ⟨byte, rfl⟩ := Option.isSome_iff_exists.1 (hbyte.2 hkind)
      exact ⟨byte, rest, rfl, rfl, rfl⟩
  · simp only [readCode, if_neg hkind, Except.ok.injEq, Prod.mk.injEq]
    constructor
    · rintro ⟨rfl, rfl⟩
      exact ⟨none, by simp [hkind], rfl, rfl⟩
    · rintro ⟨byte, hbyte, rfl, rfl⟩
      have hnone : byte = none := by simpa [hkind] using hbyte
      subst hnone
      exact ⟨rfl, rfl⟩

/-! ## The packet of a message -/

/-- All that follows the packet identifier in the frame of a message. -/
def record (envelope : Envelope) (code : Option UInt8) : Bytes :=
  Field.wordBytes envelope.id ++ (shortText envelope.method
    ++ (shortText envelope.source.toText ++ (code.toList ++ envelope.params.bytes)))

/-- A packet that a message is read from: what the header says of retention and redelivery, which
packet identifier there is and which byte a code comes as is not for the message to say. -/
def publication (envelope : Envelope) (packetId : Option UInt16) (code : Option UInt8)
    (retain dup : Bool) : Publish :=
  ⟨envelope.kind.marker ++ envelope.dest.toText, packetId, envelope.record code, envelope.qos,
    retain, dup⟩

/-- The packet that a message is written as. -/
def written (envelope : Envelope) : Publish :=
  envelope.publication envelope.packetId envelope.codeByte false false

/-- The text of a path has room in a topic and behind a length byte. -/
theorem size_toText_le (path : Path) : path.toText.utf8ByteSize ≤ maxPath + 5 := by
  have hlead : path.anchor.lead.utf8ByteSize ≤ 5 := by cases path.anchor <;> decide
  have hfits := path.fits
  rw [Path.toText, String.utf8ByteSize_append]
  omega

/-- The topic of a message has room for its marker and its destination. -/
theorem size_topic_le (envelope : Envelope) :
    (envelope.kind.marker ++ envelope.dest.toText).utf8ByteSize ≤ topicCapacity := by
  have hdest := size_toText_le envelope.dest
  rw [String.utf8ByteSize_append, Kind.size_marker]
  simp only [topicCapacity, maxPath] at hdest ⊢
  omega

/-- The packet of a message has an identifier if its delivery class needs one. -/
theorem isSome_packetId (envelope : Envelope) :
    envelope.packetId.isSome = envelope.qos.needsId := by
  cases hqos : envelope.qos.needsId <;> simp [packetId, hqos]

/-- The payload of a message is its record, if that fits a frame. -/
theorem payload_eq_ok {bytes : Bytes} :
    envelope.payload = .ok bytes
      ↔ (envelope.record envelope.codeByte).length ≤ frameCapacity ∧
        envelope.record envelope.codeByte = bytes := by
  have hmethod : envelope.method.utf8ByteSize ≤ 255 :=
    Nat.le_trans envelope.methodFits (by decide)
  have hsource : envelope.source.toText.utf8ByteSize ≤ 255 :=
    Nat.le_trans (size_toText_le envelope.source) (by decide)
  have hroom : ¬topicCapacity < envelope.source.toText.utf8ByteSize :=
    Nat.not_lt_of_le (Nat.le_trans (size_toText_le envelope.source) (by decide))
  have hcode : envelope.codeBytes = envelope.codeByte.toList := by
    unfold codeBytes codeByte
    split <;> rfl
  simp only [payload, bind_eq_ok, addBytes_eq_ok, addShortText_eq_ok, sourceText, if_neg hroom,
    Except.ok.injEq, hcode, record]
  constructor
  · rintro ⟨_, ⟨-, rfl⟩, _, ⟨-, -, rfl⟩, _, rfl, _, ⟨-, -, rfl⟩, _, ⟨-, rfl⟩, hfits, rfl⟩
    simp only [List.nil_append, List.append_assoc, and_true] at hfits ⊢
    exact hfits
  · rintro ⟨hfits, rfl⟩
    refine ⟨_, ⟨?_, rfl⟩, _, ⟨hmethod, ?_, rfl⟩, _, rfl, _, ⟨hsource, ?_, rfl⟩, _, ⟨?_, rfl⟩, ?_⟩
    case refine_5 =>
      simp only [List.nil_append, List.append_assoc, and_true]
      exact hfits
    all_goals
      simp only [List.nil_append, List.length_append] at hfits ⊢
      omega

/-- A message is written as its packet is. -/
theorem toFrame_eq_ok : envelope.toFrame = .ok frame ↔ envelope.written.toFrame = .ok frame := by
  simp only [toFrame, topic, if_neg (Nat.not_lt_of_le (size_topic_le envelope)), bind_eq_ok,
    Except.ok.injEq, payload_eq_ok, Error.ofWire_eq_ok]
  constructor
  · rintro ⟨_, rfl, _, ⟨-, rfl⟩, h⟩
    exact h
  · intro h
    obtain ⟨-, -, hpayload⟩ := Publish.toFrame_eq_ok.1 h
    have hfits := frame.fits
    simp only [hpayload, Publish.body, List.length_append] at hfits
    exact ⟨_, rfl, _, ⟨by simp only [written, publication] at hfits; omega, rfl⟩, h⟩

/-- A message is written into a frame if its packet fits one. -/
theorem exists_toFrame (fits : envelope.written.body.length ≤ frameCapacity) :
    ∃ frame, envelope.toFrame = .ok frame ∧ frame.header = envelope.written.header ∧
      frame.payload = envelope.written.body :=
  ⟨⟨envelope.written.header, envelope.written.body, fits⟩,
    toFrame_eq_ok.2 (Publish.toFrame_eq_ok.2 ⟨isSome_packetId envelope, rfl, rfl⟩), rfl, rfl⟩

/-- A message is read from the frames that hold one of its packets. -/
theorem ofFrame_eq_ok :
    ofFrame frame = .ok envelope ↔ envelope.dest.Reads ∧ envelope.source.Reads ∧
      ∃ packetId code retain dup, (code.isSome ↔ envelope.kind = .response) ∧
        envelope.code = codeOf code ∧
        Publish.ofFrame frame = .ok (envelope.publication packetId code retain dup) := by
  constructor
  · intro h
    simp only [ofFrame, bind_eq_ok, Error.ofWire_eq_ok] at h
    obtain ⟨publish, hpublish, h⟩ := h
    split at h
    · next kind rest hmarker =>
      simp only [bind_eq_ok, Error.ofWire_eq_ok, pure_eq_ok, Prod.exists, Field.readWord_eq_ok,
        readShortText_eq_ok, readCode_eq_ok] at h
      obtain ⟨dest, hdest, id, _, hid, method, _, ⟨-, rfl⟩, started, hstarted, sourceText, _,
        ⟨-, rfl⟩, source, hsource, _, _, ⟨code, hcode, rfl, rfl⟩, params, hparams, rfl⟩ := h
      unfold outgoing at hstarted
      unfold Params.ofBytes at hparams
      split at hstarted
      · cases hstarted
        split at hparams
        · cases hparams
          refine ⟨Path.reads_of_ofText hdest, Path.reads_of_ofText hsource, publish.packetId, code,
            publish.retain, publish.dup, hcode, rfl, ?_⟩
          rw [hpublish, publication, record, Path.toText_of_ofText hdest,
            Path.toText_of_ofText hsource, ← Kind.splitMarker_eq_some.1 hmarker, ← hid]
        · cases hparams
      · cases hstarted
    · cases h
  · rintro ⟨hdest, hsource, packetId, code, retain, dup, hcode, htold, hread⟩
    have hmethod : envelope.method.utf8ByteSize ≤ 255 :=
      Nat.le_trans envelope.methodFits (by decide)
    have hshort : envelope.source.toText.utf8ByteSize ≤ 255 :=
      Nat.le_trans (size_toText_le envelope.source) (by decide)
    have hmarker : Kind.splitMarker (envelope.publication packetId code retain dup).topic
        = some (envelope.kind, envelope.dest.toText) := Kind.splitMarker_eq_some.2 rfl
    simp only [ofFrame, bind_eq_ok, Error.ofWire_eq_ok]
    refine ⟨_, hread, ?_⟩
    simp only [hmarker, bind_eq_ok, Error.ofWire_eq_ok, pure_eq_ok, Prod.exists,
      Field.readWord_eq_ok, readShortText_eq_ok, readCode_eq_ok]
    exact ⟨envelope.dest, hdest, envelope.id, _, rfl, envelope.method, _, ⟨hmethod, rfl⟩, _,
      dif_pos envelope.methodFits, envelope.source.toText, _, ⟨hshort, rfl⟩, envelope.source,
      hsource, envelope.code, _, ⟨code, hcode, htold, rfl⟩, envelope.params,
      dif_pos envelope.params.fits, rfl⟩

end Envelope

end TopicTree
