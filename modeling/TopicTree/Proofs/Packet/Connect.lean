import TopicTree.Packet.Connect
import TopicTree.Proofs.Packet.Row

/-!
# Reading and writing a CONNECT

A CONNECT is read from every payload that lays out its fields under flags which announce them, no
matter what follows and what the bits say that announce nothing. It is written under the flags that
announce its fields and nothing else, so it is read back as it was.
-/

namespace TopicTree.Connect

variable {frame : Frame} {connect : Connect} {flags : UInt8} {bytes rest : Bytes}

/-! ## Flags -/

/-- Flags that announce the fields of a CONNECT. Without a will, the bits of its delivery class and
of its retain flag may be anything. -/
structure Announced (flags : UInt8) (connect : Connect) : Prop where
  reserved : isSet flags reservedFlag = false
  cleanSession : isSet flags cleanSessionFlag = connect.cleanSession
  will : isSet flags willFlag = connect.will.isSome
  delivery : ∀ will ∈ connect.will,
    (flags >>> 3) &&& 3 = will.qos.toByte ∧ isSet flags willRetainFlag = will.retain
  username : isSet flags usernameFlag = connect.username.isSome
  password : isSet flags passwordFlag = connect.password.isSome

/-- A CONNECT is written under flags that announce its fields. -/
theorem announced_flagByte (connect : Connect) : Announced connect.flagByte connect := by
  obtain ⟨_, _, username, password, will, _, clean⟩ := connect
  cases will with
  | none =>
    cases username <;> cases password <;> cases clean <;> constructor <;>
      simp only [isSet, flagByte, willFlags, Option.isSome, Bool.false_eq_true, if_true, if_false]
        <;> decide
  | some will =>
    obtain ⟨topic, message, qos, retain⟩ := will
    cases username <;> cases password <;> cases clean <;> cases qos <;> cases retain <;>
      constructor <;>
      simp only [isSet, flagByte, willFlags, Option.isSome, Bool.false_eq_true, if_true, if_false]
        <;> first | decide | rintro _ ⟨⟩; dsimp only; decide

/-! ## Optional fields -/

/-- The bytes of the will, if there is one. -/
def willBytes (will : Option Will) : Bytes :=
  (will.map fun will => Field.textBytes will.topic ++ Field.blockBytes will.message).getD []

/-- The bytes of the user name, if there is one. -/
def usernameBytes (username : Option String) : Bytes :=
  (username.map Field.textBytes).getD []

/-- The bytes of the password, if there is one. -/
def passwordBytes (password : Option Bytes) : Bytes :=
  (password.map Field.blockBytes).getD []

/-- A will is read where it stands, if it is announced. -/
theorem readWill_eq_ok {will : Option Will} :
    readWill flags bytes = .ok (will, rest)
      ↔ isSet flags willFlag = will.isSome ∧
        (∀ found ∈ will, (flags >>> 3) &&& 3 = found.qos.toByte ∧
          isSet flags willRetainFlag = found.retain ∧
          found.topic.utf8ByteSize ≤ Field.maxBlock ∧ found.message.length ≤ Field.maxBlock) ∧
        bytes = willBytes will ++ rest := by
  unfold readWill
  cases hset : isSet flags willFlag with
  | false => cases will <;> simp [willBytes, eq_comm]
  | true =>
    simp only [if_true, bind_eq_ok, pure_eq_ok, Prod.exists, Prod.mk.injEq, Field.readText_eq_ok,
      Field.readBlock_eq_ok, Qos.ofByte_eq_ok]
    constructor
    · rintro ⟨topic, _, ⟨htopic, rfl⟩, message, _, ⟨hmessage, rfl⟩, qos, hqos, rfl, rfl⟩
      refine ⟨rfl, ?_, by simp [willBytes]⟩
      rintro _ ⟨rfl⟩
      exact ⟨hqos, rfl, htopic, hmessage⟩
    · rintro ⟨hsome, hwill, rfl⟩
      obtain ⟨⟨topic, message, qos, retain⟩, rfl⟩ := Option.isSome_iff_exists.1 hsome.symm
      obtain ⟨hqos, rfl, htopic, hmessage⟩ := hwill _ rfl
      exact ⟨topic, _, ⟨htopic, by simp [willBytes]⟩, message, rest, ⟨hmessage, rfl⟩, qos, hqos,
        rfl, rfl⟩

/-- A user name is read where it stands, if it is announced. -/
theorem readUsername_eq_ok {username : Option String} :
    readUsername flags bytes = .ok (username, rest)
      ↔ isSet flags usernameFlag = username.isSome ∧
        (∀ name ∈ username, name.utf8ByteSize ≤ Field.maxBlock) ∧
        bytes = usernameBytes username ++ rest := by
  unfold readUsername
  cases hset : isSet flags usernameFlag with
  | false => cases username <;> simp [usernameBytes]
  | true =>
    simp only [if_true, bind_eq_ok, pure_eq_ok, Prod.exists, Prod.mk.injEq, Field.readText_eq_ok]
    cases username <;> simp [usernameBytes]

/-- A password is read where it stands, if it is announced. -/
theorem readPassword_eq_ok {password : Option Bytes} :
    readPassword flags bytes = .ok (password, rest)
      ↔ isSet flags passwordFlag = password.isSome ∧
        (∀ block ∈ password, block.length ≤ Field.maxBlock) ∧
        bytes = passwordBytes password ++ rest := by
  unfold readPassword
  cases hset : isSet flags passwordFlag with
  | false => cases password <;> simp [passwordBytes]
  | true =>
    simp only [if_true, bind_eq_ok, pure_eq_ok, Prod.exists, Prod.mk.injEq, Field.readBlock_eq_ok]
    cases password <;> simp [passwordBytes]

/-! ## The whole packet -/

/-- The payload of a CONNECT under some flags, and what follows it. -/
def layout (connect : Connect) (flags : UInt8) (rest : Bytes) : Bytes :=
  Field.textBytes protocolName ++ (connect.protocolLevel :: flags :: (Field.wordBytes connect.keepAlive
    ++ (Field.textBytes connect.clientId ++ (willBytes connect.will
      ++ (usernameBytes connect.username ++ (passwordBytes connect.password ++ rest))))))

/-- A CONNECT is read from the payloads that lay out its fields under flags which announce them. -/
theorem ofFrame_eq_ok :
    ofFrame frame = .ok connect
      ↔ frame.packetType = .ok .connect ∧
        ∃ flags rest, Announced flags connect ∧ frame.payload = connect.layout flags rest := by
  simp only [ofFrame, error_bind, bind_eq_ok, check_eq_ok, pure_eq_ok, Prod.exists,
    Field.readText_eq_ok, Field.readByte_eq_ok, Field.readWord_eq_ok, readWill_eq_ok,
    readUsername_eq_ok, readPassword_eq_ok]
  constructor
  · rintro ⟨_, hexpect, name, _, ⟨-, hpayload⟩, hname, level, _, rfl, flags, _, rfl, hreserved,
      keepAlive, _, rfl, clientId, _, ⟨-, rfl⟩, will, _, ⟨hwill, hfound, rfl⟩, username, _,
      ⟨husername, -, rfl⟩, password, rest, ⟨hpassword, -, rfl⟩, rfl⟩
    obtain rfl := Decidable.not_not.1 hname
    refine ⟨Frame.expect_eq_ok.1 hexpect, flags, rest, ?_, hpayload⟩
    exact {
      reserved := Bool.eq_false_iff.2 hreserved
      cleanSession := rfl
      will := hwill
      delivery := fun found hmem => ⟨(hfound found hmem).1, (hfound found hmem).2.1⟩
      username := husername
      password := hpassword }
  · rintro ⟨htype, flags, rest, announced, hpayload⟩
    have hfits := frame.fits
    simp only [hpayload, layout, List.length_append, List.length_cons, Field.length_textBytes,
      frameCapacity] at hfits
    refine ⟨(), Frame.expect_eq_ok.2 htype, protocolName, _, ⟨by decide, hpayload⟩, by simp,
      connect.protocolLevel, _, rfl, flags, _, rfl, by simp [announced.reserved],
      connect.keepAlive, _, rfl, connect.clientId, _, ⟨?_, rfl⟩, connect.will, _,
      ⟨announced.will, ?_, rfl⟩, connect.username, _, ⟨announced.username, ?_, rfl⟩,
      connect.password, rest, ⟨announced.password, ?_, rfl⟩, ?_⟩
    · simp only [Field.maxBlock]
      omega
    · intro will hwill
      obtain ⟨hqos, hretain⟩ := announced.delivery will hwill
      simp only [Option.mem_def.1 hwill, willBytes, Option.map_some, Option.getD_some,
        List.length_append, Field.length_textBytes, Field.length_blockBytes] at hfits
      refine ⟨hqos, hretain, ?_, ?_⟩ <;> simp only [Field.maxBlock] <;> omega
    · intro name hname
      simp only [Option.mem_def.1 hname, usernameBytes, Option.map_some, Option.getD_some,
        Field.length_textBytes] at hfits
      simp only [Field.maxBlock]
      omega
    · intro block hblock
      simp only [Option.mem_def.1 hblock, passwordBytes, Option.map_some, Option.getD_some,
        Field.length_blockBytes] at hfits
      simp only [Field.maxBlock]
      omega
    · rw [announced.cleanSession]

/-! ## Writing -/

/-- The parts of the will, if there is one. -/
def willParts : Option Will → List Part
  | none => []
  | some will =>
    [.block "will topic" (Text.toBytes will.topic), .block "will message" will.message]

/-- The parts of the user name, if there is one. -/
def usernameParts : Option String → List Part
  | none => []
  | some username => [.block "username" (Text.toBytes username)]

/-- The parts of the password, if there is one. -/
def passwordParts : Option Bytes → List Part
  | none => []
  | some password => [.block "password" password]

/-- The parts of a CONNECT. -/
def parts (connect : Connect) : List Part :=
  [.block "protocol name" (Text.toBytes protocolName), .plain [connect.protocolLevel],
    .plain [connect.flagByte], .plain (Field.wordBytes connect.keepAlive),
    .block "client id" (Text.toBytes connect.clientId)]
    ++ (willParts connect.will ++ (usernameParts connect.username ++ passwordParts connect.password))

/-- A will is added as its parts. -/
theorem addWill_eq (frame : Frame) (will : Option Will) :
    addWill frame will = frame.addParts (willParts will) := by
  cases will with
  | none => rfl
  | some will =>
    rw [willParts, Frame.addParts_cons]
    simp only [Frame.addParts_singleton]
    rfl

/-- A user name is added as its part. -/
theorem addUsername_eq (frame : Frame) (username : Option String) :
    addUsername frame username = frame.addParts (usernameParts username) := by
  cases username with
  | none => rfl
  | some username =>
    rw [usernameParts, Frame.addParts_singleton]
    rfl

/-- A password is added as its part. -/
theorem addPassword_eq (frame : Frame) (password : Option Bytes) :
    addPassword frame password = frame.addParts (passwordParts password) := by
  cases password with
  | none => rfl
  | some password =>
    rw [passwordParts, Frame.addParts_singleton]
    rfl

/-- A CONNECT is written as its parts. -/
theorem toFrame_eq (connect : Connect) :
    connect.toFrame = (Frame.empty PacketType.connect.headerByte).addParts connect.parts := by
  simp only [toFrame, addWill_eq, addUsername_eq, addPassword_eq, parts, List.cons_append,
    List.nil_append, ← Frame.addParts_append]
  rfl

/-- The parts of a CONNECT lay out its fields under its own flags, with nothing behind them. -/
theorem row_parts (connect : Connect) :
    Part.row connect.parts = connect.layout connect.flagByte [] := by
  obtain ⟨_, _, username, password, will, _, _⟩ := connect
  cases username <;> cases password <;> cases will <;>
    simp [parts, layout, willParts, usernameParts, passwordParts, willBytes, usernameBytes,
      passwordBytes, Part.bytes, Field.blockBytes_toBytes]

end TopicTree.Connect
