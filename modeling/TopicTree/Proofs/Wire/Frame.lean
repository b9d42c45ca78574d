import TopicTree.Proofs.Outcome
import TopicTree.Proofs.Wire.Length
import TopicTree.Proofs.Wire.OneShot

/-!
# The bytes of a frame

On the wire a frame is its header, a length field that spells the size of its payload, and the
payload. A frame is written with the shortest such field and read with any of them; a longer one
holds the same digits and zeros behind them.
-/

namespace TopicTree

/-! ## Longer fields -/

namespace Length

/-- Whether no field for the same number is shorter. -/
def IsShortest (field : Bytes) : Prop :=
  ∀ other, IsField other → spelled other = spelled field → field.length ≤ other.length

/-- A field for a number has at least as many bytes as the size of the number says. -/
theorem IsField.size_le {field : Bytes} (h : IsField field) :
    size (spelled field) ≤ field.length := by
  have hbelow : ∀ count, field.length ≤ count → spelled field < 128 ^ count := fun count hcount =>
    Nat.lt_of_lt_of_le (spelled_lt field) (Nat.pow_le_pow_right (by decide) hcount)
  unfold size
  split
  · exact h.length_mem.1
  · next hone =>
    split
    · exact Nat.lt_of_not_le fun hle => hone (hbelow 1 hle)
    · next htwo =>
      split
      · exact Nat.lt_of_not_le fun hle => htwo (hbelow 2 hle)
      · next hthree => exact Nat.lt_of_not_le fun hle => hthree (hbelow 3 hle)

/-- Bytes that go on are told by their digits. -/
theorem GoesOn.ext {left right : Bytes} (hleft : GoesOn left) (hright : GoesOn right)
    (same : left.map digit = right.map digit) : left = right := by
  induction left generalizing right with
  | nil => exact (List.map_eq_nil_iff.1 same.symm).symm
  | cons byte left ih =>
    cases right with
    | nil => cases same
    | cons other right =>
      obtain ⟨hbyte, hleft⟩ := goesOn_cons.1 hleft
      obtain ⟨hother, hright⟩ := goesOn_cons.1 hright
      rw [List.map_cons, List.map_cons, List.cons.injEq] at same
      obtain ⟨hdigit, hrest⟩ := same
      have hlt := byte.toNat_lt
      have hlt' := other.toNat_lt
      have heq : byte = other := UInt8.toNat_inj.1 (by unfold digit at hdigit; omega)
      rw [heq, ih hleft hright hrest]

/-- A field is told by its digits. -/
theorem IsField.ext {left right : Bytes} (hleft : IsField left) (hright : IsField right)
    (same : left.map digit = right.map digit) : left = right := by
  obtain @⟨front, last, -, hgoes, hends⟩ := hleft
  obtain @⟨front', last', -, hgoes', hends'⟩ := hright
  rw [List.map_append, List.map_append] at same
  obtain ⟨hfront, hlast⟩ := List.append_inj' same rfl
  have hdigit : digit last = digit last' := List.cons.inj hlast |>.1
  have heq : last = last' := UInt8.toNat_inj.1 (by unfold digit at hdigit; omega)
  rw [hgoes.ext hgoes' hfront, heq]

/-- A field for a number holds the digits of the number and zeros behind them. -/
theorem IsField.map_digit {field : Bytes} (h : IsField field) :
    field.map digit = (digits (maxBytes - 1) (spelled field)).map digit
      ++ List.replicate (field.length - size (spelled field)) 0 := by
  have hsize := h.size_le
  have hsmall : ∀ bytes : Bytes, ∀ d ∈ bytes.map digit, d < 128 := by
    intro bytes d hd
    obtain ⟨byte, -, rfl⟩ := List.mem_map.1 hd
    exact digit_lt byte
  refine Nat.ofDigits_inj_of_len_eq (by decide : 1 < 128) ?_ (hsmall field) ?_ ?_
  · rw [List.length_append, List.length_map, List.length_map, List.length_replicate, length_digits]
    omega
  · intro d hd
    rcases List.mem_append.1 hd with hd | hd
    · exact hsmall _ d hd
    · rw [List.eq_of_mem_replicate hd]
      decide
  · rw [Nat.ofDigits_append_replicate_zero]
    exact (isField_digits h.spelled_le).2.symm

/-- The digits of a number are its only shortest field. -/
theorem IsField.isShortest_iff {field : Bytes} (h : IsField field) :
    IsShortest field ↔ field = digits (maxBytes - 1) (spelled field) := by
  obtain ⟨hdigits, hspelled⟩ := isField_digits h.spelled_le
  constructor
  · intro shortest
    refine h.ext hdigits ?_
    have hle := shortest _ hdigits hspelled
    rw [length_digits] at hle
    rw [h.map_digit, Nat.sub_eq_zero_of_le hle, List.replicate_zero, List.append_nil]
  · intro heq other hother hsame
    rw [heq, length_digits, ← hsame]
    exact hother.size_le

end Length

namespace Frame

open Length (IsField IsShortest spelled digit digits)

/-! ## Writing -/

/-- The most bytes that a frame takes on the wire. -/
abbrev maxEncoded : Nat :=
  1 + Length.maxBytes + frameCapacity

/-- A frame takes as many bytes on the wire as its size says. -/
theorem length_encode (frame : Frame) : frame.encode.length = frame.encodedSize := by
  rw [encode, encodedSize, List.cons_append, List.length_cons, List.length_append,
    Length.length_digits]
  omega

/-- The payload of a frame has a size that a length field can spell. -/
theorem payload_le (frame : Frame) : frame.payload.length ≤ Length.maxValue :=
  Nat.le_trans frame.fits (by decide)

/-- No frame takes more bytes than the most. -/
theorem encodedSize_le (frame : Frame) : frame.encodedSize ≤ maxEncoded := by
  have hsize : Length.size frame.payload.length ≤ Length.maxBytes := by
    obtain ⟨hfield, -⟩ := Length.isField_digits frame.payload_le
    rw [← Length.length_digits]
    exact hfield.length_mem.2
  have hfits := frame.fits
  simp only [encodedSize, maxEncoded]
  omega

/-- A frame is written at the front of a buffer that has room for it, and nothing behind it is
touched. -/
theorem exists_writeTo {frame : Frame} {buffer : Bytes}
    (room : frame.encodedSize ≤ buffer.length) :
    ∃ written, frame.writeTo buffer = .ok written ∧ written.length = buffer.length ∧
      written.take frame.encodedSize = frame.encode ∧
      written.drop frame.encodedSize = buffer.drop frame.encodedSize := by
  refine ⟨_, if_neg (Nat.not_lt_of_le room), ?_, ?_, ?_⟩
  · rw [List.length_append, List.length_drop, length_encode]
    omega
  · rw [← frame.length_encode, List.take_left]
  · rw [← frame.length_encode, List.drop_left]

/-- Writes the frame into a buffer part by part, after a look at the room for all of it. -/
def write (frame : Frame) : Sink.Writer := do
  let room := (← get).ahead.length
  if room < frame.encodedSize then throw (.refused (.bufferTooSmall frame.encodedSize room))
  Sink.put frame.header
  Length.write frame.payload.length
  Sink.putAll frame.payload

/-- A frame is written into a buffer that has room for it; another one refuses it and is as it
was. -/
theorem run_write (frame : Frame) (sink : Sink) :
    frame.write.run sink =
      if sink.ahead.length < frame.encodedSize then
        .error (.refused (.bufferTooSmall frame.encodedSize sink.ahead.length)) sink
      else .ok () (sink.after frame.encode) := by
  by_cases hshort : sink.ahead.length < frame.encodedSize
  · simp [write, hshort]
  · have hparts := (Sink.emits_put frame.header).append
      ((Length.emits_write frame.payload_le).append (Sink.emits_putAll frame.payload))
    have hencode : [frame.header] ++ (digits (Length.maxBytes - 1) frame.payload.length
        ++ frame.payload) = frame.encode := rfl
    have hroom : frame.encode.length ≤ sink.ahead.length := by
      rw [length_encode]
      exact Nat.le_of_not_lt hshort
    rw [hencode] at hparts
    simpa [write, hshort] using hparts sink hroom

/-! ## Reading -/

/-- A frame is read exactly from bytes that begin with its header, a field for the size of its
payload, and the payload. -/
theorem decode_eq_some {bytes : Bytes} {frame : Frame} {used : Nat} :
    decode bytes = .ok (some (frame, used)) ↔
      ∃ field rest, bytes = frame.header :: (field ++ (frame.payload ++ rest)) ∧ IsField field ∧
        spelled field = frame.payload.length ∧ used = 1 + field.length + frame.payload.length := by
  constructor
  · intro h
    cases bytes with
    | nil => cases h
    | cons header rest =>
      cases hread : Length.decode rest with
      | error e => simp [decode, hread] at h
      | ok answer =>
        cases answer with
        | none => simp [decode, hread] at h
        | some answer =>
          obtain ⟨len, taken⟩ := answer
          obtain ⟨field, tail, rfl, hfield, hspelled, rfl⟩ := Length.decode_eq_some.1 hread
          rw [decode_of_length hread, List.drop_left] at h
          split at h
          · cases h
          · split at h
            · cases h
            · next henough =>
              obtain ⟨read, hpayload, heq⟩ := map_eq_ok.1 h
              cases heq
              unfold ofPayload at hpayload
              split at hpayload
              · cases hpayload
                have hlength : (tail.take len).length = len :=
                  List.length_take_of_le (Nat.le_of_not_lt henough)
                refine ⟨field, tail.drop len, ?_, hfield, hspelled.trans hlength.symm, ?_⟩
                · rw [List.take_append_drop]
                · rw [hlength]
              · cases hpayload
  · rintro ⟨field, rest, rfl, hfield, hspelled, rfl⟩
    have hread := Length.decode_field hfield (frame.payload ++ rest)
    rw [decode_of_length hread, List.drop_left, hspelled, if_neg (Nat.not_lt_of_le frame.fits),
      if_neg (by rw [List.length_append]; omega), List.take_left, ofPayload, dif_pos frame.fits]
    rfl

/-- A frame is read back from its bytes, whatever follows. -/
theorem decode_encode (frame : Frame) (rest : Bytes) :
    decode (frame.encode ++ rest) = .ok (some (frame, frame.encode.length)) := by
  obtain ⟨hfield, hspelled⟩ := Length.isField_digits frame.payload_le
  refine decode_eq_some.2 ⟨_, rest, ?_, hfield, hspelled, ?_⟩
  · rw [encode, List.cons_append, List.cons_append, List.append_assoc]
  · rw [length_encode, encodedSize, Length.length_digits]

/-- Whether bytes from which frames are read one after the other come to bytes that cannot start a
frame. -/
inductive Stumbles : Bytes → Prop
  | here {bytes : Bytes} {e : WireError} (fails : decode bytes = .error e) : Stumbles bytes
  | later {bytes : Bytes} {frame : Frame} {used : Nat}
      (reads : decode bytes = .ok (some (frame, used))) (stumbles : Stumbles (bytes.drop used)) :
      Stumbles bytes

/-- Frames written one behind the other are read back, and nothing is left of them. -/
theorem decodeAll_encode (frames : List Frame) :
    decodeAll (frames.map encode).flatten = (frames, []) := by
  induction frames with
  | nil =>
    unfold decodeAll
    rfl
  | cons frame frames ih =>
    have hsome : frame.encode ++ (frames.map encode).flatten ≠ [] := by
      simp [encode]
    rw [List.map_cons, List.flatten_cons, decodeAll]
    split
    · next read used hread =>
      rw [decode_encode] at hread
      cases hread
      rw [if_neg hsome, List.drop_left, ih]
    · next hread =>
      rw [decode_encode] at hread
      cases hread
    · next hread =>
      rw [decode_encode] at hread
      cases hread

/-- Frames written one behind the other have no bytes at which reading them would stop. -/
theorem not_stumbles_encode (frames : List Frame) : ¬Stumbles (frames.map encode).flatten := by
  induction frames with
  | nil =>
    intro stumbles
    cases stumbles with
    | here fails => cases fails
    | later reads => cases reads
  | cons frame frames ih =>
    rw [List.map_cons, List.flatten_cons]
    intro stumbles
    cases stumbles with
    | here fails =>
      rw [decode_encode] at fails
      cases fails
    | later reads rest =>
      rw [decode_encode] at reads
      cases reads
      rw [List.drop_left] at rest
      exact ih rest

/-- A frame is written into a buffer if there is room for it, at the front and with as many bytes as
its size says, and nothing behind them is touched; otherwise it is refused, and the whole buffer is
as it was. Written part by part it is the same. It is read back from its bytes, whatever follows. If
a frame is read from the front of any bytes, those it took are its header, a field for the size of
its payload, and the payload, and written again it takes no more. It is written with the same bytes
exactly if the field is the shortest for that size; a longer one holds the same digits and zeros
behind them. -/
theorem frames_are_written_and_read (frame : Frame) (buffer rest : Bytes) :
    (frame.encodedSize ≤ buffer.length →
      (∃ written, frame.writeTo buffer = .ok written ∧ written.length = buffer.length ∧
        written.take frame.encodedSize = frame.encode ∧
        written.drop frame.encodedSize = buffer.drop frame.encodedSize) ∧
      ∀ front, frame.write.run ⟨front, buffer⟩
        = .ok () ⟨front ++ frame.encode, buffer.drop frame.encodedSize⟩) ∧
    (buffer.length < frame.encodedSize →
      frame.writeTo buffer = .error (.bufferTooSmall frame.encodedSize buffer.length) ∧
      ∀ front, frame.write.run ⟨front, buffer⟩
        = .error (.refused (.bufferTooSmall frame.encodedSize buffer.length)) ⟨front, buffer⟩) ∧
    frame.encode.length = frame.encodedSize ∧
    decode (frame.encode ++ rest) = .ok (some (frame, frame.encodedSize)) ∧
    ∀ bytes read used, decode bytes = .ok (some (read, used)) →
      used ≤ bytes.length ∧ read.encode.length ≤ used ∧
      ∃ field shortest, IsField field ∧ spelled field = read.payload.length ∧
        bytes.take used = read.header :: (field ++ read.payload) ∧
        read.encode = read.header :: (shortest ++ read.payload) ∧
        field.map digit = shortest.map digit ++ List.replicate (used - read.encode.length) 0 ∧
        (read.encode = bytes.take used ↔ IsShortest field) := by
  refine ⟨fun room => ⟨exists_writeTo room, fun front => ?_⟩,
    fun short => ⟨if_pos short, fun front => ?_⟩, frame.length_encode, ?_, ?_⟩
  · rw [run_write, if_neg (Nat.not_lt_of_le room), Sink.after, length_encode]
  · rw [run_write, if_pos short]
  · rw [decode_encode, length_encode]
  · intro bytes read used reads
    obtain ⟨field, behind, rfl, hfield, hspelled, rfl⟩ := decode_eq_some.1 reads
    have htake : (read.header :: (field ++ (read.payload ++ behind))).take
        (1 + field.length + read.payload.length) = read.header :: (field ++ read.payload) := by
      rw [← List.append_assoc, ← List.cons_append]
      exact List.take_left' (by simp only [List.length_cons, List.length_append]; omega)
    have hsize := hfield.size_le
    rw [hspelled] at hsize
    have hlength : read.encode.length = 1 + Length.size read.payload.length + read.payload.length :=
      read.length_encode
    refine ⟨?_, by omega, field, digits (Length.maxBytes - 1) read.payload.length, hfield, hspelled,
      htake, rfl, ?_, ?_⟩
    · simp only [List.length_cons, List.length_append]
      omega
    · have hzeros : 1 + field.length + read.payload.length - read.encode.length
          = field.length - Length.size read.payload.length := by omega
      rw [hzeros, ← hspelled]
      exact hfield.map_digit
    · rw [htake, hfield.isShortest_iff, hspelled, encode, List.cons_append, List.cons.injEq,
        List.append_cancel_right_eq]
      exact ⟨fun h => h.2.symm, fun h => ⟨rfl, h.symm⟩⟩

/-- A frame of three bytes fits a buffer of four and none of two. Read with a length of two bytes, it
took four. -/
theorem padded_frame_shrinks :
    let frame : Frame := ⟨0x30, [7], by decide⟩
    (∃ written, frame.writeTo [1, 2, 3, 4] = .ok written ∧ written.take 3 = [0x30, 1, 7] ∧
      written.drop 3 = [4]) ∧
    frame.write.run ⟨[], [1, 2, 3, 4]⟩ = .ok () ⟨[0x30, 1, 7], [4]⟩ ∧
    frame.writeTo [1, 2] = .error (.bufferTooSmall 3 2) ∧
    frame.write.run ⟨[], [1, 2]⟩ = .error (.refused (.bufferTooSmall 3 2)) ⟨[], [1, 2]⟩ ∧
    decode [0x30, 0x81, 0x00, 7, 9] = .ok (some (frame, 4)) ∧ frame.encode.length ≤ 4 ∧
      frame.encode ≠ [0x30, 0x81, 0x00, 7] := by
  intro frame
  obtain ⟨hroom, -, -, -, hread⟩ := frames_are_written_and_read frame [1, 2, 3, 4] []
  obtain ⟨-, hshort, -⟩ := frames_are_written_and_read frame [1, 2] []
  have hreads : decode [0x30, 0x81, 0x00, 7, 9] = .ok (some (frame, 4)) := rfl
  obtain ⟨⟨written, hwritten, -, hfront, hback⟩, hplace⟩ := hroom (by decide)
  obtain ⟨hrefused, hkept⟩ := hshort (by decide)
  exact ⟨⟨written, hwritten, hfront, hback⟩, hplace [], hrefused, hkept [], hreads,
    (hread _ _ _ hreads).2.1, by decide⟩

end Frame
end TopicTree
