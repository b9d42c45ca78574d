import TopicTree.Proofs.Wire.Length
import TopicTree.Wire.Decoder

/-!
# A frame goes through a stream

The bytes of a frame, taken one at a time by a decoder that waits for a header, complete that frame
with the last of them and with none before, and the decoder waits for a header again.
-/

namespace TopicTree

/-! ## The length field -/

namespace Length

/-- A digit without the high bit ends the field. -/
theorem push_last {state : Partial} {rest : Nat} (room : state.count < maxBytes)
    (small : rest < 128) :
    state.push rest.toUInt8 = .ok (.finished (state.value + rest * 128 ^ state.count)) := by
  have hbyte : rest.toUInt8.toNat = rest := Nat.mod_eq_of_lt (by omega)
  rw [Partial.push_ends room (hbyte.symm ▸ small), digit, hbyte, Nat.mod_eq_of_lt small]

/-- A digit with the high bit does not end the field. -/
theorem push_more {state : Partial} {rest : Nat} (room : state.count < maxBytes)
    (small : rest < 128) :
    state.push (rest + 128).toUInt8
      = .ok (.unfinished ⟨state.value + rest * 128 ^ state.count, state.count + 1⟩) := by
  have hbyte : (rest + 128).toUInt8.toNat = rest + 128 := Nat.mod_eq_of_lt (by omega)
  have hdigit : (rest + 128) % 128 = rest := by omega
  rw [Partial.push_goesOn room (by omega), digit, hbyte, hdigit]

end Length

namespace Decoder

/-! ## What bytes complete -/

/-- A run of bytes completes a frame with its last byte and with none before, and a header is waited
for then. -/
inductive Yields : Decoder → Bytes → Frame → Prop
  | last {decoder : Decoder} {byte : UInt8} {frame : Frame}
      (done : decoder.push byte = (.ok (some frame), start)) : Yields decoder [byte] frame
  | more {decoder next : Decoder} {byte : UInt8} {rest : Bytes} {frame : Frame}
      (goes : decoder.push byte = (.ok none, next)) (ends : Yields next rest frame) :
      Yields decoder (byte :: rest) frame

/-- The bytes that a payload misses complete its frame. -/
theorem yields_payload {header : UInt8} {done rest : Bytes} (some : rest ≠ [])
    (fits : (done ++ rest).length ≤ frameCapacity) (room : done.length ≤ frameCapacity) :
    Yields ⟨.payloadSeen rest.length, ⟨header, done, room⟩⟩ rest ⟨header, done ++ rest, fits⟩ := by
  induction rest generalizing done with
  | nil => exact absurd rfl some
  | cons byte rest ih =>
    have hroom : (done ++ [byte]).length ≤ frameCapacity := by
      simp only [List.length_append, List.length_cons, List.length_nil] at fits ⊢
      exact Nat.le_trans (by omega) fits
    have hpush : (⟨header, done, room⟩ : Frame).push? byte
        = .some ⟨header, done ++ [byte], hroom⟩ := dif_pos hroom
    cases rest with
    | nil =>
      refine .last ?_
      simp [push, takePayload, hpush]
    | cons next rest =>
      have hfits : (done ++ [byte] ++ next :: rest).length ≤ frameCapacity := by
        simpa using fits
      have hrest := ih (by simp) hfits hroom
      simp only [List.append_assoc, List.singleton_append] at hrest
      refine .more ?_ hrest
      simp [push, takePayload, hpush]

/-- After the last digit of a length field, a payload of that length completes the frame; an empty
one is complete at once. -/
theorem yields_last {decoder : Decoder} {frame : Frame} {state : Length.Partial} {digit : Nat}
    (stage : ∀ byte, decoder.push byte = decoder.takeLength state byte)
    (begun : decoder.frame = Frame.empty frame.header) (room : state.count < Length.maxBytes)
    (small : digit < 128)
    (length : state.value + digit * 128 ^ state.count = frame.payload.length) :
    Yields decoder (digit.toUInt8 :: frame.payload) frame := by
  have hpush : decoder.push digit.toUInt8 = decoder.beginPayload frame.payload.length := by
    rw [stage, takeLength, Length.push_last room small, length]
  have hfits := Nat.not_lt_of_le frame.fits
  cases hpayload : frame.payload with
  | nil =>
    refine .last ?_
    have hframe : Frame.empty frame.header = frame := by
      cases frame
      simp only [Frame.empty] at hpayload ⊢
      simp [hpayload]
    rw [hpush, beginPayload, if_neg hfits, hpayload, begun, hframe]
    rfl
  | cons byte rest =>
    have hsome : frame.payload ≠ [] := by simp [hpayload]
    have hne : frame.payload.length ≠ 0 := by simp [hpayload]
    have hrest : Yields ⟨.payloadSeen frame.payload.length, Frame.empty frame.header⟩
        frame.payload frame :=
      @yields_payload frame.header [] frame.payload hsome frame.fits (Nat.zero_le _)
    rw [← hpayload]
    refine .more ?_ hrest
    rw [hpush, beginPayload, if_neg hfits, if_neg hne, begun]

/-- After a length field a payload of that length completes the frame. -/
theorem yields_digits {decoder : Decoder} {frame : Frame} {state : Length.Partial}
    {more value : Nat} (stage : ∀ byte, decoder.push byte = decoder.takeLength state byte)
    (begun : decoder.frame = Frame.empty frame.header) (small : value < 128 ^ (more + 1))
    (room : state.count + more < Length.maxBytes)
    (length : state.value + value * 128 ^ state.count = frame.payload.length) :
    Yields decoder (Length.digits more value ++ frame.payload) frame := by
  induction more generalizing decoder state value with
  | zero =>
    have hdigit : value % 128 = value := Nat.mod_eq_of_lt (by simpa using small)
    rw [Length.digits, hdigit]
    exact yields_last stage begun room (by simpa using small) length
  | succ more ih =>
    rw [Length.digits]
    split
    · next hsmall => exact yields_last stage begun (by omega) hsmall length
    · have hgoes : decoder.push (value % 128 + 128).toUInt8
          = (.ok none, ⟨.lengthSeen ⟨state.value + value % 128 * 128 ^ state.count,
              state.count + 1⟩, decoder.frame⟩) := by
        rw [stage, takeLength, Length.push_more (by omega) (Nat.mod_lt _ (by decide))]
      refine .more hgoes (ih (fun _ => rfl) begun ?_ ?_ ?_)
      · rw [Nat.pow_succ] at small
        exact Nat.div_lt_of_lt_mul (by omega)
      · simp only
        omega
      · have hsplit : value % 128 + 128 * (value / 128) = value := Nat.mod_add_div value 128
        simp only [Nat.pow_succ]
        rw [← length, Nat.add_assoc]
        congr 1
        calc value % 128 * 128 ^ state.count + value / 128 * (128 ^ state.count * 128)
            = (value % 128 + 128 * (value / 128)) * 128 ^ state.count := by
              rw [Nat.add_mul, Nat.mul_comm (128 ^ state.count) 128, ← Nat.mul_assoc,
                Nat.mul_comm (value / 128) 128]
          _ = value * 128 ^ state.count := by rw [hsplit]

/-- The bytes of a frame complete that frame. -/
theorem yields_encode {decoder : Decoder} (idle : decoder.stage = .idle) (frame : Frame) :
    Yields decoder frame.encode frame := by
  have hheader : decoder.push frame.header
      = (.ok none, ⟨.headerSeen, Frame.empty frame.header⟩) := by
    simp only [push, idle]
  refine .more hheader (yields_digits (fun _ => rfl) rfl ?_ ?_ ?_)
  · exact Nat.lt_of_le_of_lt frame.fits (by decide)
  · decide
  · simp [Length.Partial.start]

/-- A run of bytes completes one frame at most. -/
theorem Yields.unique {decoder : Decoder} {bytes : Bytes} {left right : Frame}
    (h : Yields decoder bytes left) (h' : Yields decoder bytes right) : left = right := by
  induction h with
  | last done =>
    cases h' with
    | last done' => simpa using done.symm.trans done'
    | more goes _ => simp [done] at goes
  | more goes _ ih =>
    cases h' with
    | last done => simp [goes] at done
    | more goes' ends =>
      obtain rfl := (Prod.mk.inj (goes.symm.trans goes')).2
      exact ih ends

end Decoder

/-- Frames with the same bytes are the same. -/
theorem Frame.encode_inj {left right : Frame} (h : left.encode = right.encode) : left = right := by
  have hyields : ∀ frame : Frame, Decoder.start.Yields frame.encode frame :=
    Decoder.yields_encode rfl
  exact (hyields left).unique (h ▸ hyields right)

end TopicTree
