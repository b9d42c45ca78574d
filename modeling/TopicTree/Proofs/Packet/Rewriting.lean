import TopicTree.Proofs.Packet.Typed

/-!
# Writing again what was read

The readers are lenient: they skip what follows the last field of a CONNECT or a CONNACK, and they
do not look at all bits of a byte of flags or of a wanted delivery class. What they read can be
written again all the same. Writing leaves out what was not looked at and keeps every other byte
where it stood, so the packet is read back and its payload never grows.
-/

namespace TopicTree

/-! ## What is kept of a payload -/

namespace Connect

variable {flags : UInt8} {connect : Connect}

/-- The flags that are written again. Without a will, the bits of its delivery class and of its
retain flag are cleared. -/
def keptFlags (flags : UInt8) : UInt8 :=
  if isSet flags willFlag then flags else flags &&& 0xc7

/-- Flags are kept bit by bit, and those of a will together. -/
theorem keptFlags_eq : ∀ flags : UInt8, isSet flags reservedFlag = false →
    keptFlags flags =
      (if isSet flags cleanSessionFlag then cleanSessionFlag else 0)
        ||| (if isSet flags usernameFlag then usernameFlag else 0)
        ||| (if isSet flags passwordFlag then passwordFlag else 0)
        ||| (if isSet flags willFlag then willFlag ||| ((flags >>> 3) &&& 3) <<< 3
          ||| (if isSet flags willRetainFlag then willRetainFlag else 0) else 0) := by
  refine forall_byte ?_
  decide +kernel

/-- A CONNECT is written under what is kept of the flags that announced it. -/
theorem Announced.flagByte_eq (announced : Announced flags connect) :
    connect.flagByte = keptFlags flags := by
  rw [keptFlags_eq flags announced.reserved, announced.cleanSession, announced.username,
    announced.password, announced.will, flagByte]
  congr 1
  cases hwill : connect.will with
  | none => rfl
  | some will =>
    obtain ⟨hqos, hretain⟩ := announced.delivery will hwill
    rw [hqos, hretain]
    rfl

end Connect

namespace Subscribe

/-- A filter in a payload and the byte behind it. -/
def entryBytes (entry : String × UInt8) : Bytes :=
  Field.textBytes entry.1 ++ [entry.2]

/-- An entry is as long as its filter says, whatever the byte behind it. -/
theorem length_entryBytes (entry : String × UInt8) :
    (entryBytes entry).length = 3 + entry.1.utf8ByteSize := by
  rw [entryBytes, List.length_append, Field.length_textBytes, List.length_singleton]
  omega

/-- What is kept of the byte behind a filter. -/
def keptEntry (entry : String × UInt8) : String × UInt8 :=
  (entry.1, entry.2 &&& 3)

/-- Bytes that list filters are entries, and the filters are written as what is kept of them. -/
theorem Listed.exists_entries {filters : List (String × Qos)} {bytes : Bytes}
    (listed : Listed filters bytes) :
    ∃ entries : List (String × UInt8), bytes = entries.flatMap entryBytes ∧
      Part.row (filters.flatMap filterParts) = (entries.map keptEntry).flatMap entryBytes := by
  induction listed with
  | nil => exact ⟨[], rfl, rfl⟩
  | @cons filter qos filters bytes wanted told more ih =>
    obtain ⟨entries, hbytes, hrow⟩ := ih
    refine ⟨(filter, wanted) :: entries, ?_, ?_⟩
    · simp only [List.flatMap_cons, entryBytes, ← hbytes, List.append_assoc, List.singleton_append]
    · simp only [List.flatMap_cons, List.map_cons, Part.row_append, hrow, filterParts, Part.row_cons,
        Part.row_nil, Part.bytes, Field.blockBytes_toBytes, entryBytes, keptEntry, told,
        List.append_nil]

end Subscribe

/-- A payload of some kind, and what writing its packet again keeps of it. -/
inductive Rewritten : PacketKind → Bytes → Bytes → Prop
  | publish (payload : Bytes) : Rewritten .publish payload payload
  | subAck (payload : Bytes) : Rewritten .subAck payload payload
  | bare (packet : Bare) (payload : Bytes) : Rewritten (.bare packet) payload payload
  /-- Of the byte behind each filter only the two lowest bits are kept. -/
  | subscribe (packetId : UInt16) (entries : List (String × UInt8)) :
      Rewritten .subscribe
        (Field.wordBytes packetId ++ entries.flatMap Subscribe.entryBytes)
        (Field.wordBytes packetId ++ (entries.map Subscribe.keptEntry).flatMap Subscribe.entryBytes)
  /-- Bytes at the end are dropped. -/
  | connAck (payload rest : Bytes) : Rewritten .connAck (payload ++ rest) payload
  /-- Bytes at the end are dropped, and so are the bits of a will that is not there. The flags stand
  behind the protocol name and its level. -/
  | connect (front back rest : Bytes) (flags : UInt8) (behind : front.length = 7) :
      Rewritten .connect (front ++ flags :: (back ++ rest))
        (front ++ Connect.keptFlags flags :: back)

namespace Rewritten

/-- A payload does not grow when it is written again. -/
theorem length_le {kind : PacketKind} {payload kept : Bytes} (h : Rewritten kind payload kept) :
    kept.length ≤ payload.length := by
  cases h with
  | publish | subAck | bare => exact Nat.le_refl _
  | subscribe packetId entries =>
    refine Nat.le_of_eq ?_
    simp only [List.length_append, List.length_flatMap, List.map_map, Function.comp_def,
      Subscribe.length_entryBytes, Subscribe.keptEntry]
  | connAck => rw [List.length_append]; exact Nat.le_add_right _ _
  | connect front back rest flags =>
    simp only [List.length_append, List.length_cons]
    omega

end Rewritten

/-! ## Writing again -/

namespace Packet

variable {kind : PacketKind} {packet : Packet} {frame : Frame}

/-- A packet is of the kind that its reader reads. -/
theorem kind_of_ofFrame (read : kind.ofFrame frame = .ok packet) : packet.kind = kind := by
  cases kind <;> obtain ⟨_, -, rfl⟩ := map_eq_ok.1 read <;> rfl

/-- What was read has an identifier exactly if its delivery class needs one. -/
theorem numbered_of_ofFrame (read : kind.ofFrame frame = .ok packet) : packet.Numbered := by
  cases kind with
  | publish =>
    obtain ⟨publish, hpublish, rfl⟩ := map_eq_ok.1 read
    exact (Publish.ofFrame_eq_ok.1 hpublish).1
  | _ => obtain ⟨_, -, rfl⟩ := map_eq_ok.1 read; trivial

/-- What was read has filters, or answers for them, if it is to have any. -/
theorem filled_of_ofFrame (read : kind.ofFrame frame = .ok packet) : packet.Filled := by
  cases kind with
  | subscribe =>
    obtain ⟨subscribe, hsubscribe, rfl⟩ := map_eq_ok.1 read
    exact (Subscribe.ofFrame_eq_ok.1 hsubscribe).2.1
  | subAck =>
    obtain ⟨ack, hack, rfl⟩ := map_eq_ok.1 read
    exact (SubAck.ofFrame_eq_ok.1 hack).2.1
  | _ => obtain ⟨_, -, rfl⟩ := map_eq_ok.1 read; trivial

/-- The body of what was read is what is kept of the payload. -/
theorem rewritten_of_ofFrame (read : kind.ofFrame frame = .ok packet) :
    Rewritten kind frame.payload packet.body := by
  cases kind with
  | connect =>
    obtain ⟨connect, hconnect, rfl⟩ := map_eq_ok.1 read
    obtain ⟨-, flags, rest, announced, hpayload⟩ := Connect.ofFrame_eq_ok.1 hconnect
    have h := Rewritten.connect (Field.textBytes Connect.protocolName ++ [connect.protocolLevel])
      (Field.wordBytes connect.keepAlive ++ (Field.textBytes connect.clientId
        ++ (Connect.willBytes connect.will ++ (Connect.usernameBytes connect.username
          ++ Connect.passwordBytes connect.password)))) rest flags (by simp; decide)
    rw [body, parts, Connect.row_parts, hpayload, announced.flagByte_eq]
    simpa only [Connect.layout, List.append_assoc, List.singleton_append, List.append_nil,
      List.cons_append, List.nil_append] using h
  | connAck =>
    obtain ⟨ack, hack, rfl⟩ := map_eq_ok.1 read
    obtain ⟨-, rest, hpayload⟩ := ConnAck.ofFrame_eq_ok.1 hack
    rw [hpayload]
    exact .connAck [ack.flagByte, ack.outcome.toByte] rest
  | publish =>
    obtain ⟨publish, hpublish, rfl⟩ := map_eq_ok.1 read
    obtain ⟨-, -, hpayload⟩ := Publish.ofFrame_eq_ok.1 hpublish
    rw [body, parts, Publish.row_parts, hpayload]
    exact .publish _
  | subscribe =>
    obtain ⟨subscribe, hsubscribe, rfl⟩ := map_eq_ok.1 read
    obtain ⟨-, -, listed, hlisted, hpayload⟩ := Subscribe.ofFrame_eq_ok.1 hsubscribe
    obtain ⟨entries, rfl, hrow⟩ := hlisted.exists_entries
    rw [body, parts, Part.row_cons, hrow, hpayload]
    exact .subscribe subscribe.packetId entries
  | subAck =>
    obtain ⟨ack, hack, rfl⟩ := map_eq_ok.1 read
    obtain ⟨-, -, hpayload⟩ := SubAck.ofFrame_eq_ok.1 hack
    rw [hpayload]
    simp only [body, parts, Part.row_cons, Part.row_nil, Part.bytes, List.append_nil, SubAck.body]
    exact .subAck _
  | bare packet =>
    obtain ⟨_, hbare, rfl⟩ := map_eq_ok.1 read
    rw [(Bare.ofFrame_eq_ok.1 hbare).2]
    exact .bare packet []

/-- What was read can be written again, in a payload that is no longer and that keeps every byte
that was looked at. The reader gives the same packet back, and a PUBLISH is written as the very frame
that it was read from. -/
theorem toFrame_of_ofFrame (read : kind.ofFrame frame = .ok packet) :
    ∃ renewed, packet.toFrame = .ok renewed ∧
      renewed.payload.length ≤ frame.payload.length ∧
      kind.ofFrame renewed = .ok packet ∧
      Rewritten kind frame.payload renewed.payload ∧
      (kind = .publish → renewed = frame) := by
  have hkept := rewritten_of_ofFrame read
  have hfits : packet.body.length ≤ frameCapacity := Nat.le_trans hkept.length_le frame.fits
  let renewed : Frame := ⟨packet.header, packet.body, hfits⟩
  have hwritten : packet.toFrame = .ok renewed :=
    toFrame_eq_ok.2 ⟨numbered_of_ofFrame read, rfl, rfl⟩
  refine ⟨renewed, hwritten, hkept.length_le, ?_, hkept, ?_⟩
  · have hback := ofFrame_of_toFrame (filled_of_ofFrame read) hwritten
    rwa [kind_of_ofFrame read] at hback
  · rintro rfl
    obtain ⟨publish, hpublish, rfl⟩ := map_eq_ok.1 read
    have hsame : publish.toFrame = .ok frame := Publish.ofFrame_eq_ok_iff_toFrame.1 hpublish
    exact Except.ok.inj (hwritten.symm.trans hsame)

/-- A CONNECT with bits of a will that is not there and with bytes behind its last field is written
again without them. -/
theorem toFrame_of_ofFrame_connect :
    let frame : Frame :=
      ⟨0x10, [0, 4, 77, 81, 84, 84, 4, 0x3a, 0, 60, 0, 1, 99, 7, 7], by decide⟩
    let packet := Packet.connect ⟨4, "c", none, none, none, 60, true⟩
    PacketKind.connect.ofFrame frame = .ok packet ∧
      ∃ renewed, packet.toFrame = .ok renewed ∧
        renewed.payload = [0, 4, 77, 81, 84, 84, 4, 2, 0, 60, 0, 1, 99] ∧
        PacketKind.connect.ofFrame renewed = .ok packet := by
  intro frame packet
  have announced : Connect.Announced 0x3a ⟨4, "c", none, none, none, 60, true⟩ :=
    ⟨by decide, by decide, by decide, by simp, by decide, by decide⟩
  have htype : frame.packetType = .ok .connect := PacketType.ofHeader_headerByte .connect
  have hread : PacketKind.connect.ofFrame frame = .ok packet :=
    map_eq_ok.2 ⟨_, Connect.ofFrame_eq_ok.2 ⟨htype, 0x3a, [7, 7], announced, by decide⟩, rfl⟩
  obtain ⟨renewed, hwritten, -, hback, -⟩ := toFrame_of_ofFrame hread
  refine ⟨hread, renewed, hwritten, ?_, hback⟩
  exact (toFrame_eq_ok.1 hwritten).2.2

end Packet

end TopicTree
