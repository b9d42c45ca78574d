import TopicTree.Limits
import TopicTree.Wire.Delivery
import TopicTree.Wire.Length

/-!
# Frames

A frame is a header byte and a payload of at most `frameCapacity` bytes. On the wire the length of
the payload stands between the two. The length is derived from the payload, so a frame cannot
contradict itself, and the bound is part of the type, so writing a frame never has to check it.
-/

namespace TopicTree

/-- One length-delimited unit of the wire. -/
structure Frame where
  /-- Packet type and flags. -/
  header : UInt8
  /-- All that follows the length field. -/
  payload : Bytes
  /-- A payload fits the buffers that carry it. -/
  fits : payload.length ≤ frameCapacity
  deriving DecidableEq, Repr

namespace Frame

/-- A frame without payload. -/
def empty (header : UInt8) : Frame :=
  ⟨header, [], Nat.zero_le _⟩

/-- The cleared frame: header 0 and no payload. -/
def cleared : Frame :=
  empty 0

instance : Inhabited Frame := ⟨cleared⟩

/-- A frame with a given payload, if the payload fits. -/
def ofPayload (header : UInt8) (payload : Bytes) : Except WireError Frame :=
  if fits : payload.length ≤ frameCapacity then .ok ⟨header, payload, fits⟩
  else .error (.frameTooLarge payload.length frameCapacity)

/-- The same payload under another header. -/
def withHeader (frame : Frame) (header : UInt8) : Frame :=
  { frame with header }

/-- Adds bytes at the end of the payload, all of them or none. -/
def append (frame : Frame) (bytes : Bytes) : Except WireError Frame :=
  ofPayload frame.header (frame.payload ++ bytes)

/-- Adds one byte at the end of the payload, if there is room. -/
def push? (frame : Frame) (byte : UInt8) : Option Frame :=
  if fits : (frame.payload ++ [byte]).length ≤ frameCapacity then
    some ⟨frame.header, frame.payload ++ [byte], fits⟩
  else none

/-- Keeps the first `len` bytes of the payload. -/
def truncate (frame : Frame) (len : Nat) : Frame :=
  ⟨frame.header, frame.payload.take len,
    Nat.le_trans (List.length_take_le' _ _) frame.fits⟩

/-- The packet type that the header names. -/
def packetType (frame : Frame) : Except WireError PacketType :=
  PacketType.ofHeader frame.header

/-- The flag nibble of the header. -/
def flags (frame : Frame) : HeaderFlags :=
  HeaderFlags.ofHeader frame.header

/-- The bytes of the frame on the wire. -/
def encode (frame : Frame) : Bytes :=
  frame.header :: Length.digits (Length.maxBytes - 1) frame.payload.length ++ frame.payload

/-- How many bytes the frame takes on the wire. -/
def encodedSize (frame : Frame) : Nat :=
  1 + Length.size frame.payload.length + frame.payload.length

/-- Writes the frame at the front of a buffer; a buffer without enough room is left alone. -/
def writeTo (frame : Frame) (buffer : Bytes) : Except WireError Bytes :=
  if buffer.length < frame.encodedSize then
    .error (.bufferTooSmall frame.encodedSize buffer.length)
  else .ok (frame.encode ++ buffer.drop frame.encodedSize)

/-- Reads one frame from the front of `bytes`: the frame and how many bytes it took, or nothing if
the bytes end inside the frame. -/
def decode (bytes : Bytes) : Except WireError (Option (Frame × Nat)) :=
  match bytes with
  | [] => .ok none
  | header :: rest =>
    match Length.decode rest with
    | .error e => .error e
    | .ok none => .ok none
    | .ok (some (len, used)) =>
      if frameCapacity < len then .error (.frameTooLarge len frameCapacity)
      else if (rest.drop used).length < len then .ok none
      else
        match ofPayload header ((rest.drop used).take len) with
        | .error e => .error e
        | .ok frame => .ok (some (frame, 1 + used + len))

/-- A frame that was read took at least one byte. -/
theorem used_pos_of_decode {bytes : Bytes} {frame : Frame} {used : Nat}
    (h : decode bytes = .ok (some (frame, used))) : 0 < used := by
  unfold decode at h
  split at h
  · simp at h
  · split at h
    · simp at h
    · simp at h
    · split at h
      · simp at h
      · split at h
        · simp at h
        · split at h
          · simp at h
          · simp only [Except.ok.injEq, Option.some.injEq, Prod.mk.injEq] at h
            omega

/-- Reads frames from the front of `bytes` until they end inside one: the frames, and the bytes of
the one that is cut short. Bytes that cannot start a frame are thrown away with all that follows. -/
def decodeAll (bytes : Bytes) : List Frame × Bytes :=
  match _read : decode bytes with
  | .ok (some (frame, used)) =>
    if bytes = [] then ([], [])
    else
      let (frames, rest) := decodeAll (bytes.drop used)
      (frame :: frames, rest)
  | .ok none => ([], bytes)
  | .error _ => ([], [])
termination_by bytes.length
decreasing_by
  have := used_pos_of_decode _read
  have := List.length_pos_iff.2 ‹¬bytes = []›
  simp only [List.length_drop]
  omega

end Frame
end TopicTree
