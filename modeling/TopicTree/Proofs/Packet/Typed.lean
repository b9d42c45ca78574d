import TopicTree.Packet.Bare
import TopicTree.Packet.ConnAck
import TopicTree.Proofs.Packet.Connect
import TopicTree.Proofs.Packet.Subscribe

/-!
# Packets are read back as they were written

Eight kinds of packets have a reader and a writer of their own. All that a writer does is to put a
row of parts behind a header, so what is true of rows is true of packets: they are written whole or
refused for one of two reasons. Only a PUBLISH has a reason of its own. What was written is read back
by the reader of its kind, and refused by all others.
-/

namespace TopicTree

/-! ## PUBLISH -/

namespace Publish

/-- The part of a packet identifier, if there is one. -/
def idParts : Option UInt16 → List Part
  | none => []
  | some id => [.plain (Field.wordBytes id)]

/-- The parts of a PUBLISH. -/
def parts (publish : Publish) : List Part :=
  .block "topic" (Text.toBytes publish.topic) :: (idParts publish.packetId ++ [.plain publish.payload])

/-- A packet identifier that goes with the delivery class is added as its part. -/
theorem addId_eq (frame : Frame) {qos : Qos} {packetId : Option UInt16}
    (numbered : packetId.isSome = qos.needsId) :
    addId frame qos packetId = frame.addParts (idParts packetId) := by
  cases packetId with
  | none =>
    rw [Option.isSome_none] at numbered
    simp only [addId, ← numbered]
    rfl
  | some id =>
    rw [Option.isSome_some] at numbered
    simp only [addId, ← numbered, idParts, Frame.addParts_singleton]
    rfl

/-- No packet identifier is added that does not go with the delivery class. -/
theorem addId_eq_error (frame : Frame) {qos : Qos} {packetId : Option UInt16}
    (h : packetId.isSome ≠ qos.needsId) :
    addId frame qos packetId = .error (.malformed "packet id") := by
  cases hneeds : qos.needsId <;> cases packetId <;> simp_all [addId]

/-- A PUBLISH whose identifier goes with its delivery class is written as its parts. -/
theorem toFrame_eq (publish : Publish) (numbered : publish.packetId.isSome = publish.qos.needsId) :
    publish.toFrame = (Frame.empty publish.header).addParts publish.parts := by
  simp only [toFrame, addId_eq _ numbered, parts, Frame.addParts_append, Frame.addParts_singleton,
    Frame.addParts_cons _ (.block "topic" (Text.toBytes publish.topic))]
  rfl

/-- A PUBLISH whose identifier does not go with its delivery class is refused. -/
theorem toFrame_eq_error {publish : Publish}
    (h : publish.packetId.isSome ≠ publish.qos.needsId) :
    ∃ e, publish.toFrame = .error e ∧
      (Part.Refusal 0 publish.parts e ∨ e = .malformed "packet id") := by
  simp only [toFrame, addId_eq_error _ h, error_bind]
  let topic := Part.block "topic" (Text.toBytes publish.topic)
  change ∃ e, ((Frame.empty publish.header).addPart topic >>= fun _ => _) = _ ∧ _
  cases htopic : (Frame.empty publish.header).addPart topic with
  | error e => exact ⟨e, rfl, .inl (Frame.addPart_eq_error htopic).front⟩
  | ok frame => exact ⟨_, rfl, .inr rfl⟩

/-- The parts of a PUBLISH are its body. -/
theorem row_parts (publish : Publish) : Part.row publish.parts = publish.body := by
  obtain ⟨_, packetId, _⟩ := publish
  cases packetId <;> simp [parts, body, idParts, idBytes, Part.bytes, Field.blockBytes_toBytes]

end Publish

/-! ## CONNACK -/

/-- An outcome is read from its own number only. -/
theorem ConnectOutcome.ofByte_eq_ok {byte : UInt8} {outcome : ConnectOutcome} :
    ofByte byte = .ok outcome ↔ byte = outcome.toByte := by
  constructor
  · intro h
    unfold ofByte at h
    split at h <;> cases h <;> rfl
  · rintro rfl
    exact ofByte_toByte outcome

/-- The byte that says whether a stored session was resumed. -/
def ConnAck.flagByte (ack : ConnAck) : UInt8 :=
  if ack.sessionPresent then 1 else 0

/-- Flags of which only the lowest one may be set say whether a stored session was resumed. -/
theorem ConnAck.flags_eq_iff : ∀ (flags : UInt8) (present : Bool),
    flags = (if present then 1 else 0) ↔ flags &&& 0xfe = 0 ∧ decide (flags &&& 1 ≠ 0) = present := by
  refine forall_byte ?_
  decide +kernel

/-- A CONNACK is read from the payloads that start with its two bytes. -/
theorem ConnAck.ofFrame_eq_ok {frame : Frame} {ack : ConnAck} :
    ofFrame frame = .ok ack
      ↔ frame.packetType = .ok .connAck ∧
        ∃ rest, frame.payload = ack.flagByte :: ack.outcome.toByte :: rest := by
  simp only [ofFrame, error_bind, bind_eq_ok, check_eq_ok, pure_eq_ok, Prod.exists,
    Field.readByte_eq_ok, ConnectOutcome.ofByte_eq_ok, flagByte]
  constructor
  · rintro ⟨_, hexpect, flags, _, hpayload, hflags, _, rest, rfl, outcome, rfl, rfl⟩
    refine ⟨Frame.expect_eq_ok.1 hexpect, rest, ?_⟩
    rw [hpayload]
    congr 1
    exact (flags_eq_iff flags _).2 ⟨Decidable.not_not.1 hflags, rfl⟩
  · rintro ⟨htype, rest, hpayload⟩
    obtain ⟨hflags, hpresent⟩ := (flags_eq_iff _ ack.sessionPresent).1 rfl
    exact ⟨(), Frame.expect_eq_ok.2 htype, _, _, hpayload, not_not_intro hflags, _, rest, rfl,
      ack.outcome, rfl, by rw [hpresent]⟩

/-! ## Packets without a body -/

/-- A packet without a body is read from its own frames with nothing in them. -/
theorem Bare.ofFrame_eq_ok {packet : Bare} {frame : Frame} :
    packet.ofFrame frame = .ok () ↔ frame.packetType = .ok packet.type ∧ frame.payload = [] := by
  simp only [ofFrame, bind_eq_ok]
  constructor
  · rintro ⟨_, hexpect, h⟩
    split at h
    · next hempty => exact ⟨Frame.expect_eq_ok.1 hexpect, hempty⟩
    · cases h
  · rintro ⟨htype, hempty⟩
    exact ⟨(), Frame.expect_eq_ok.2 htype, if_pos hempty⟩

/-! ## All packets -/

/-- The packet type is read back from a header with its fixed flags. -/
theorem PacketType.ofHeader_headerByte (type : PacketType) : ofHeader type.headerByte = .ok type := by
  cases type <;> rfl

/-- The kinds of packets that are read and written field by field. -/
inductive PacketKind
  | connect
  | connAck
  | publish
  | subscribe
  | subAck
  | bare (packet : Bare)
  deriving DecidableEq, Repr

/-- A packet of one of the kinds. -/
inductive Packet
  | connect (packet : Connect)
  | connAck (packet : ConnAck)
  | publish (packet : Publish)
  | subscribe (packet : Subscribe)
  | subAck (packet : SubAck)
  | bare (packet : Bare)
  deriving DecidableEq, Repr

namespace PacketKind

/-- The packet type of a kind. -/
def type : PacketKind → PacketType
  | connect => .connect
  | connAck => .connAck
  | publish => .publish
  | subscribe => .subscribe
  | subAck => .subAck
  | bare packet => packet.type

/-- Kinds are told by their packet types. -/
theorem type_inj {kind other : PacketKind} (h : kind.type = other.type) : kind = other := by
  rcases kind with _ | _ | _ | _ | _ | (_ | _ | _) <;>
    rcases other with _ | _ | _ | _ | _ | (_ | _ | _) <;> first | rfl | cases h

/-- The reader of a kind. -/
def ofFrame (kind : PacketKind) (frame : Frame) : Except WireError Packet :=
  match kind with
  | connect => (Connect.ofFrame frame).map .connect
  | connAck => (ConnAck.ofFrame frame).map .connAck
  | publish => (Publish.ofFrame frame).map .publish
  | subscribe => (Subscribe.ofFrame frame).map .subscribe
  | subAck => (SubAck.ofFrame frame).map .subAck
  | bare packet => (packet.ofFrame frame).map fun _ => .bare packet

/-- A reader refuses the frames of other packet types. -/
theorem ofFrame_of_packetType {kind : PacketKind} {frame : Frame} {actual : PacketType}
    (h : frame.packetType = .ok actual) (hne : actual ≠ kind.type) :
    kind.ofFrame frame = .error (.unexpectedPacketType kind.type actual) := by
  have hexpect : frame.expect kind.type = .error (.unexpectedPacketType kind.type actual) := by
    rw [Frame.expect, h, ok_bind, if_neg hne]
  cases kind <;>
    simp only [type] at hexpect <;>
    simp only [ofFrame, type, Connect.ofFrame, ConnAck.ofFrame, Publish.ofFrame, Subscribe.ofFrame,
      SubAck.ofFrame, Bare.ofFrame, hexpect, error_bind] <;>
    rfl

end PacketKind

namespace Packet

/-- The kind of a packet. -/
def kind : Packet → PacketKind
  | connect _ => .connect
  | connAck _ => .connAck
  | publish _ => .publish
  | subscribe _ => .subscribe
  | subAck _ => .subAck
  | bare packet => .bare packet

/-- The header of a packet. -/
def header : Packet → UInt8
  | publish packet => packet.header
  | packet => packet.kind.type.headerByte

/-- The writer of a packet. -/
def toFrame : Packet → Except WireError Frame
  | connect packet => packet.toFrame
  | connAck packet => packet.toFrame
  | publish packet => packet.toFrame
  | subscribe packet => packet.toFrame
  | subAck packet => packet.toFrame
  | bare packet => .ok packet.toFrame

/-- What a packet puts into its frame. -/
def parts : Packet → List Part
  | connect packet => packet.parts
  | connAck packet => [.plain [if packet.sessionPresent then 1 else 0, packet.outcome.toByte]]
  | publish packet => packet.parts
  | subscribe packet => .plain (Field.wordBytes packet.packetId)
      :: packet.filters.flatMap Subscribe.filterParts
  | subAck packet => [.plain (Field.wordBytes packet.packetId),
      .plain (packet.grants.map Grant.toByte)]
  | bare _ => []

/-- The payload of a packet. -/
def body (packet : Packet) : Bytes :=
  Part.row packet.parts

/-- Whether a packet has an identifier exactly if its delivery class needs one. -/
def Numbered : Packet → Prop
  | publish packet => packet.packetId.isSome = packet.qos.needsId
  | _ => True

/-- Whether a packet that asks about filters, or answers for them, has any. -/
def Filled : Packet → Prop
  | subscribe packet => packet.filters ≠ []
  | subAck packet => packet.grants ≠ []
  | _ => True

variable {packet : Packet} {frame : Frame} {e : WireError}

/-- A packet is written as its parts, if its identifier goes with its delivery class. -/
theorem toFrame_eq (numbered : packet.Numbered) :
    packet.toFrame = (Frame.empty packet.header).addParts packet.parts := by
  cases packet with
  | connect packet => exact packet.toFrame_eq
  | connAck packet =>
    rw [parts, Frame.addParts_singleton]
    rfl
  | publish packet => exact packet.toFrame_eq numbered
  | subscribe packet =>
    simp only [toFrame, Subscribe.toFrame, Subscribe.addFilters_eq]
    rfl
  | subAck packet =>
    simp only [toFrame, SubAck.toFrame, parts, Frame.addParts_cons _ (.plain (Field.wordBytes _)),
      Frame.addParts_singleton]
    rfl
  | bare packet => rfl

/-- A packet whose identifier does not go with its delivery class is refused. -/
theorem toFrame_of_not_numbered (h : ¬packet.Numbered) :
    ∃ e, packet.toFrame = .error e ∧
      (Part.Refusal 0 packet.parts e ∨ e = .malformed "packet id") := by
  cases packet with
  | publish packet => exact Publish.toFrame_eq_error h
  | _ => exact absurd trivial h

/-- A packet is written as the frame of its header and body, if its identifier goes with its
delivery class and the body fits a frame. -/
theorem toFrame_eq_ok :
    packet.toFrame = .ok frame
      ↔ packet.Numbered ∧ frame.header = packet.header ∧ frame.payload = packet.body := by
  by_cases numbered : packet.Numbered
  · rw [toFrame_eq numbered, Frame.addParts_eq_ok]
    exact (and_iff_right numbered).symm
  · refine ⟨fun h => ?_, fun h => absurd h.1 numbered⟩
    obtain ⟨e, herror⟩ := toFrame_of_not_numbered numbered
    rw [herror.1] at h
    cases h

/-- The header of a packet names the packet type of its kind. -/
theorem ofHeader_header (packet : Packet) :
    PacketType.ofHeader packet.header = .ok packet.kind.type := by
  cases packet with
  | publish packet =>
    exact PacketType.ofHeader_eq_ok.2
      (HeaderFlags.ofHeader_header packet.qos packet.retain packet.dup).1
  | _ => exact PacketType.ofHeader_headerByte _

/-- What was written for a packet is read back as that packet by the reader of its kind. -/
theorem ofFrame_of_toFrame (filled : packet.Filled) (h : packet.toFrame = .ok frame) :
    packet.kind.ofFrame frame = .ok packet := by
  obtain ⟨numbered, hheader, hpayload⟩ := toFrame_eq_ok.1 h
  have htype : frame.packetType = .ok packet.kind.type := by
    rw [Frame.packetType, hheader, ofHeader_header]
  cases packet with
  | connect packet =>
    refine map_eq_ok.2 ⟨packet, Connect.ofFrame_eq_ok.2 ⟨htype, packet.flagByte, [], ?_, ?_⟩, rfl⟩
    · exact Connect.announced_flagByte packet
    · exact hpayload.trans packet.row_parts
  | connAck packet =>
    exact map_eq_ok.2 ⟨packet, ConnAck.ofFrame_eq_ok.2 ⟨htype, [], hpayload⟩, rfl⟩
  | publish packet =>
    refine map_eq_ok.2 ⟨packet, Publish.ofFrame_eq_ok.2 ⟨numbered, hheader, ?_⟩, rfl⟩
    exact hpayload.trans packet.row_parts
  | subscribe packet =>
    refine map_eq_ok.2 ⟨packet, Subscribe.ofFrame_eq_ok.2 ⟨htype, filled, _, ?_, hpayload⟩, rfl⟩
    exact Subscribe.listed_parts packet.filters
  | subAck packet =>
    refine map_eq_ok.2 ⟨packet, SubAck.ofFrame_eq_ok.2 ⟨htype, filled, ?_⟩, rfl⟩
    simpa only [body, parts, Part.row_cons, Part.row_nil, Part.bytes, List.append_nil, SubAck.body]
      using hpayload
  | bare packet =>
    exact map_eq_ok.2 ⟨(), Bare.ofFrame_eq_ok.2 ⟨htype, hpayload⟩, rfl⟩

/-- What was written for a packet is refused by the readers of all other kinds. -/
theorem ofFrame_of_ne {kind : PacketKind} (h : packet.toFrame = .ok frame)
    (hne : kind ≠ packet.kind) :
    kind.ofFrame frame = .error (.unexpectedPacketType kind.type packet.kind.type) := by
  obtain ⟨-, hheader, -⟩ := toFrame_eq_ok.1 h
  have htype : frame.packetType = .ok packet.kind.type := by
    rw [Frame.packetType, hheader, ofHeader_header]
  exact PacketKind.ofFrame_of_packetType htype fun heq => hne (PacketKind.type_inj heq).symm

/-- A packet is refused if a block is longer than its length word can say or if the payload grows
too large; a PUBLISH also if its identifier does not go with its delivery class. -/
theorem toFrame_eq_error (h : packet.toFrame = .error e) :
    Part.Refusal 0 packet.parts e ∨ (¬packet.Numbered ∧ e = .malformed "packet id") := by
  by_cases numbered : packet.Numbered
  · rw [toFrame_eq numbered] at h
    exact .inl (Frame.addParts_eq_error h)
  · obtain ⟨cause, hcause, hreason⟩ := toFrame_of_not_numbered numbered
    obtain rfl : cause = e := by simpa only [hcause, Except.error.injEq] using h
    exact hreason.imp_right fun heq => ⟨numbered, heq⟩

/-- A packet is written exactly if its identifier goes with its delivery class and its body fits a
frame. Then all of the body is in the frame, the reader of its kind gives the packet back, and every
other reader names the two packet types. A packet that is not written was refused for one of the
reasons that there are. -/
theorem toFrame_read_back (packet : Packet) :
    ((∃ frame, packet.toFrame = .ok frame) ↔
      packet.Numbered ∧ packet.body.length ≤ frameCapacity) ∧
    (∀ frame, packet.toFrame = .ok frame →
      frame.header = packet.header ∧ frame.payload = packet.body ∧
      (packet.Filled → packet.kind.ofFrame frame = .ok packet) ∧
      ∀ kind, kind ≠ packet.kind →
        kind.ofFrame frame = .error (.unexpectedPacketType kind.type packet.kind.type)) ∧
    ∀ e, packet.toFrame = .error e →
      Part.Refusal 0 packet.parts e ∨ (¬packet.Numbered ∧ e = .malformed "packet id") := by
  refine ⟨⟨?_, ?_⟩, ?_, fun e => toFrame_eq_error⟩
  · rintro ⟨frame, h⟩
    obtain ⟨numbered, -, hpayload⟩ := toFrame_eq_ok.1 h
    exact ⟨numbered, hpayload ▸ frame.fits⟩
  · rintro ⟨numbered, fits⟩
    exact ⟨⟨packet.header, packet.body, fits⟩, toFrame_eq_ok.2 ⟨numbered, rfl, rfl⟩⟩
  · intro frame h
    obtain ⟨-, hheader, hpayload⟩ := toFrame_eq_ok.1 h
    exact ⟨hheader, hpayload, fun filled => ofFrame_of_toFrame filled h,
      fun kind hne => ofFrame_of_ne h hne⟩

/-- A CONNECT with a will and with a password, but without a user name, is read back. -/
theorem toFrame_read_back_connect :
    let packet := Packet.connect
      ⟨4, "c", none, some [1, 2], some ⟨"t", [3], .exactlyOnce, true⟩, 60, true⟩
    ∃ frame, packet.toFrame = .ok frame ∧ PacketKind.connect.ofFrame frame = .ok packet ∧
      PacketKind.publish.ofFrame frame = .error (.unexpectedPacketType .publish .connect) := by
  intro packet
  obtain ⟨hwritten, hread, -⟩ := toFrame_read_back packet
  obtain ⟨frame, h⟩ := hwritten.2 ⟨trivial, by decide⟩
  obtain ⟨-, -, hback, hothers⟩ := hread frame h
  exact ⟨frame, h, hback trivial, hothers .publish (by decide)⟩

end Packet

end TopicTree
