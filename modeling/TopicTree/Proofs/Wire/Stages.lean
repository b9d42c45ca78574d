import TopicTree.Proofs.Wire.Length
import TopicTree.Proofs.Wire.OneShot

/-!
# The stages of a decoder

What a decoder waits for, the frame it has so far and the bytes that it took since it was last as new
belong together: every byte and every reset leaves them so. So the number of missing bytes is never
0 while a payload is taken, and its frame has room for every one of them.
-/

namespace TopicTree

namespace Length

/-- One more byte spells one more digit, above those before. -/
theorem spelled_concat (bytes : Bytes) (byte : UInt8) :
    spelled (bytes ++ [byte]) = spelled bytes + digit byte * 128 ^ bytes.length := by
  rw [spelled, List.map_append, Nat.ofDigits_append, List.length_map, List.map_singleton,
    Nat.ofDigits_singleton, Nat.mul_comm]
  rfl

end Length

namespace Decoder

open Length (IsField GoesOn spelled spelled_concat)

/-- What can be done with a decoder. -/
inductive Act
  | byte (byte : UInt8)
  | reset
  deriving DecidableEq, Repr

/-- The decoder after a byte or a reset. -/
def act (decoder : Decoder) : Act → Decoder
  | .byte byte => (decoder.push byte).2
  | .reset => decoder.reset

/-- The decoder after bytes and resets. -/
def acts (decoder : Decoder) (acts : List Act) : Decoder :=
  acts.foldl act decoder

/-- What a decoder is once it has taken some bytes of a frame that is not complete. -/
inductive Holds : Bytes → Decoder → Prop
  | nothing : Holds [] start
  | header (header : UInt8) : Holds [header] ⟨.headerSeen, Frame.empty header⟩
  | length {header : UInt8} {digits : Bytes} (some : digits ≠ [])
      (few : digits.length ≤ Length.maxBytes) (goesOn : GoesOn digits) :
      Holds (header :: digits) ⟨.lengthSeen ⟨spelled digits, digits.length⟩, Frame.empty header⟩
  | payload {field : Bytes} {frame : Frame} {missing : Nat} (isField : IsField field)
      (fits : spelled field ≤ frameCapacity)
      (total : frame.payload.length + missing = spelled field) (pos : 0 < missing) :
      Holds (frame.header :: (field ++ frame.payload)) ⟨.payloadSeen missing, frame⟩

/-! ## One byte -/

variable {seen : Bytes} {decoder next : Decoder} {byte : UInt8}

/-- A payload that begins is missing as a whole. -/
theorem holds_beginPayload {header : UInt8} {field : Bytes} {stage : Stage}
    (isField : IsField field)
    (begun : beginPayload ⟨stage, Frame.empty header⟩ (spelled field) = (.ok none, next)) :
    Holds (header :: field) next := by
  unfold beginPayload at begun
  split at begun
  · cases begun
  · next hfits =>
    split at begun
    · cases begun
    · next hne =>
      cases begun
      have holds := @Holds.payload field (Frame.empty header) (spelled field) isField
        (Nat.le_of_not_lt hfits) (Nat.zero_add _) (Nat.pos_of_ne_zero hne)
      rwa [show (Frame.empty header).payload = [] from rfl, List.append_nil] at holds

/-- A byte of a length field ends the field or is counted in. -/
theorem holds_takeLength {header : UInt8} {digits : Bytes} {stage : Stage}
    (few : digits.length ≤ Length.maxBytes) (goesOn : GoesOn digits)
    (taken : takeLength ⟨stage, Frame.empty header⟩ ⟨spelled digits, digits.length⟩ byte
      = (.ok none, next)) :
    Holds (header :: (digits ++ [byte])) next := by
  unfold takeLength at taken
  rcases Nat.lt_or_eq_of_le few with hroom | hfull
  · by_cases hends : byte.toNat < 128
    · rw [Length.Partial.push_ends hroom hends] at taken
      rw [← spelled_concat] at taken
      exact holds_beginPayload ⟨hroom, goesOn, hends⟩ taken
    · have hgoes : 128 ≤ byte.toNat := Nat.le_of_not_lt hends
      rw [Length.Partial.push_goesOn hroom hgoes] at taken
      cases taken
      have hlength : (digits ++ [byte]).length = digits.length + 1 := by
        rw [List.length_append, List.length_singleton]
      have hmore : GoesOn (digits ++ [byte]) :=
        List.forall_mem_append.2 ⟨goesOn, GoesOn.cons hgoes Length.goesOn_nil⟩
      have holds := @Holds.length header (digits ++ [byte]) (by simp) (hlength ▸ hroom) hmore
      rwa [spelled_concat, hlength] at holds
  · rw [Length.Partial.push, if_pos hfull] at taken
    cases taken

/-- While bytes of a payload are missing, its frame has room for the next one. -/
theorem isSome_push? {frame : Frame} {field : Bytes} {missing : Nat}
    (fits : spelled field ≤ frameCapacity)
    (total : frame.payload.length + missing = spelled field) (pos : 0 < missing) (byte : UInt8) :
    ∃ longer, frame.push? byte = some longer ∧ longer.header = frame.header ∧
      longer.payload = frame.payload ++ [byte] := by
  have hroom : (frame.payload ++ [byte]).length ≤ frameCapacity := by
    rw [List.length_append, List.length_singleton]
    omega
  exact ⟨_, dif_pos hroom, rfl, rfl⟩

/-- A byte that comes to nothing is kept with those before. -/
theorem Holds.push (holds : Holds seen decoder) (pushed : decoder.push byte = (.ok none, next)) :
    Holds (seen ++ [byte]) next := by
  cases holds with
  | nothing =>
    cases pushed
    exact .header byte
  | header header =>
    exact @holds_takeLength next byte header [] .headerSeen (Nat.zero_le _) Length.goesOn_nil pushed
  | length some few goesOn => exact holds_takeLength few goesOn pushed
  | payload isField fits total pos =>
    obtain ⟨longer, hpush, hheader, hpayload⟩ := isSome_push? fits total pos byte
    simp only [Decoder.push, takePayload, hpush] at pushed
    split at pushed
    · cases pushed
    · next hmore =>
      cases pushed
      rw [List.cons_append, List.append_assoc, ← hheader, ← hpayload]
      refine .payload isField fits ?_ (Nat.pos_of_ne_zero hmore)
      rw [hpayload, List.length_append, List.length_singleton]
      omega

/-- No byte of a payload is refused. -/
theorem Holds.push_ne_error (holds : Holds seen decoder) {missing : Nat}
    (stage : decoder.stage = .payloadSeen missing) (byte : UInt8) (e : WireError) :
    (decoder.push byte).1 ≠ .error e := by
  cases holds with
  | nothing => cases stage
  | header => cases stage
  | length => cases stage
  | payload isField fits total pos =>
    obtain ⟨longer, hpush, -⟩ := isSome_push? fits total pos byte
    simp only [Decoder.push, takePayload, hpush]
    split <;> exact fun h => by cases h

/-! ## All bytes and resets -/

/-- Bytes and resets in two parts. -/
theorem acts_append (decoder : Decoder) (front back : List Act) :
    decoder.acts (front ++ back) = (decoder.acts front).acts back :=
  List.foldl_append

/-- A byte or a reset leaves a decoder as new, or the byte is kept with those before. -/
theorem Holds.after (holds : Holds seen decoder) (done : Act) :
    decoder.act done = start ∨
      ∃ byte, done = .byte byte ∧ Holds (seen ++ [byte]) (decoder.act done) := by
  cases done with
  | reset => exact .inl rfl
  | byte byte =>
    cases hpush : decoder.push byte with
    | mk outcome next =>
      have hact : decoder.act (.byte byte) = next := congrArg Prod.snd hpush
      rw [hact]
      by_cases hwaits : outcome = .ok none
      · exact .inr ⟨byte, rfl, holds.push (hwaits ▸ hpush)⟩
      · exact .inl (push_eq_start hpush hwaits)

/-- A decoder that has taken bytes and resets was as new once, and has taken bytes of one frame
since. -/
theorem exists_holds (acts : List Act) :
    ∃ before seen, acts = before ++ seen.map .byte ∧ start.acts before = start ∧
      Holds seen (start.acts acts) := by
  induction acts using List.reverseRecOn with
  | nil => exact ⟨[], [], rfl, rfl, .nothing⟩
  | append_singleton acts last ih =>
    obtain ⟨before, seen, hacts, hbefore, holds⟩ := ih
    have hlast : start.acts (acts ++ [last]) = (start.acts acts).act last := acts_append _ _ _
    rw [hlast]
    rcases holds.after last with hnew | ⟨byte, rfl, hholds⟩
    · rw [hnew]
      exact ⟨acts ++ [last], [], (List.append_nil _).symm, hlast.trans hnew, .nothing⟩
    · refine ⟨before, seen ++ [byte], ?_, hbefore, hholds⟩
      rw [hacts, List.map_append, List.append_assoc]
      rfl

/-- Whatever bytes a decoder has taken and however often it was reset, it was as new once, and the
bytes since are told by its stage. While it waits for a header there are none, and its frame is
cleared. After a header there is that one, and while a length is taken the header is followed by one
to four bytes that all go on, as many as are counted, with the value that they spell, which so many
digits can; in both stages the payload is empty. While a payload is taken, the header is followed by
a field for a length that fits a frame, and by the payload so far; what is missing is the rest of
that length and never nothing, the frame has room for every byte, and none is refused. -/
theorem stages_are_kept (acts : List Act) :
    let decoder := start.acts acts
    ∃ before seen, acts = before ++ seen.map .byte ∧ start.acts before = start ∧
      (decoder.stage = .idle → decoder.frame = .cleared ∧ seen = []) ∧
      (decoder.stage = .headerSeen →
        decoder.frame.payload = [] ∧ seen = [decoder.frame.header]) ∧
      (∀ field, decoder.stage = .lengthSeen field →
        decoder.frame.payload = [] ∧ 1 ≤ field.count ∧ field.count ≤ 4 ∧
        field.value < 128 ^ field.count ∧
        ∃ digits, seen = decoder.frame.header :: digits ∧ digits.length = field.count ∧
          GoesOn digits ∧ spelled digits = field.value) ∧
      ∀ missing, decoder.stage = .payloadSeen missing →
        1 ≤ missing ∧
        (∃ field, IsField field ∧ seen = decoder.frame.header :: (field ++ decoder.frame.payload) ∧
          decoder.frame.payload.length + missing = spelled field ∧ spelled field ≤ 512) ∧
        ∀ byte, (decoder.frame.push? byte).isSome ∧ ∀ e, (decoder.push byte).1 ≠ .error e := by
  intro decoder
  obtain ⟨before, seen, hacts, hbefore, holds⟩ := exists_holds acts
  have hnone : ∀ missing, decoder.stage = .payloadSeen missing → ∀ byte e,
      (decoder.push byte).1 ≠ .error e := fun _ => holds.push_ne_error
  refine ⟨before, seen, hacts, hbefore, ?_⟩
  change Holds seen decoder at holds
  clear_value decoder
  cases holds with
  | nothing => exact ⟨fun _ => ⟨rfl, rfl⟩, nofun, nofun, nofun⟩
  | header header => exact ⟨nofun, fun _ => ⟨rfl, rfl⟩, nofun, nofun⟩
  | @length header digits some few goesOn =>
    refine ⟨nofun, nofun, ?_, nofun⟩
    rintro field ⟨⟩
    exact ⟨rfl, List.length_pos_iff.2 some, few, Length.spelled_lt digits, digits, rfl, rfl, goesOn,
      rfl⟩
  | @payload field frame missing isField fits total pos =>
    refine ⟨nofun, nofun, nofun, ?_⟩
    rintro other ⟨⟩
    refine ⟨pos, ⟨field, isField, rfl, total, fits⟩, fun byte => ⟨?_, hnone missing rfl byte⟩⟩
    obtain ⟨longer, hpush, -⟩ := isSome_push? fits total pos byte
    exact hpush ▸ rfl

/-- A decoder that is reset within a length and then takes the header, the padded length and the
first byte of a payload of three misses two bytes, and has room for them. -/
theorem two_bytes_are_missing :
    let acts : List Act :=
      [.byte 0x20, .byte 0xff, .reset, .byte 0x30, .byte 0x83, .byte 0x00, .byte 7]
    let decoder := start.acts acts
    decoder.stage = .payloadSeen 2 ∧ 1 ≤ 2 ∧
      (∃ before seen field, acts = before ++ seen.map .byte ∧ start.acts before = start ∧
        IsField field ∧ seen = 0x30 :: (field ++ [7]) ∧ 1 + 2 = spelled field) ∧
      ∀ byte, (decoder.frame.push? byte).isSome ∧ ∀ e, (decoder.push byte).1 ≠ .error e := by
  intro acts decoder
  have hstage : decoder.stage = .payloadSeen 2 := rfl
  obtain ⟨before, seen, hacts, hbefore, -, -, -, hpayload⟩ := stages_are_kept acts
  obtain ⟨hmissing, ⟨field, isField, hseen, htotal, -⟩, hroom⟩ := hpayload 2 hstage
  exact ⟨hstage, hmissing, ⟨before, seen, field, hacts, hbefore, isField, hseen, htotal⟩, hroom⟩

end Decoder
end TopicTree
