import TopicTree.Wire.Frame

/-!
# Decoding a stream

A decoder takes a stream one byte at a time. Each byte either leaves it waiting, completes a frame
or is refused; after a frame and after a refusal it waits for a header again, so a broken frame
costs only itself.
-/

namespace TopicTree

/-- What a decoder is waiting for. -/
inductive Stage
  /-- The header of the next frame. -/
  | idle
  /-- The first byte of the length. -/
  | headerSeen
  /-- The rest of the length. -/
  | lengthSeen (field : Length.Partial)
  /-- The payload, of which `remaining` bytes are missing. -/
  | payloadSeen (remaining : Nat)
  deriving DecidableEq, Repr

/-- A decoder in the middle of a stream: what it waits for and the frame so far. -/
structure Decoder where
  stage : Stage
  frame : Frame
  deriving DecidableEq, Repr

namespace Decoder

/-- What one byte led to: nothing yet, a frame, or a refusal. -/
abbrev Outcome := Except WireError (Option Frame)

/-- A decoder that has seen nothing. -/
def start : Decoder :=
  ⟨.idle, Frame.cleared⟩

instance : Inhabited Decoder := ⟨start⟩

/-- Forgets the frame so far. -/
def reset (decoder : Decoder) : Decoder :=
  { decoder with stage := .idle, frame := .cleared }

/-- The payload of `len` bytes begins. An oversized one is refused, an empty one completes the
frame at once. -/
def beginPayload (decoder : Decoder) (len : Nat) : Outcome × Decoder :=
  if frameCapacity < len then (.error (.frameTooLarge len frameCapacity), start)
  else if len = 0 then (.ok (some decoder.frame), start)
  else (.ok none, ⟨.payloadSeen len, decoder.frame⟩)

/-- A byte of the length field arrives. -/
def takeLength (decoder : Decoder) (field : Length.Partial) (byte : UInt8) : Outcome × Decoder :=
  match field.push byte with
  | .error e => (.error e, start)
  | .ok (.unfinished next) => (.ok none, ⟨.lengthSeen next, decoder.frame⟩)
  | .ok (.finished len) => decoder.beginPayload len

/-- A byte of the payload arrives. -/
def takePayload (decoder : Decoder) (remaining : Nat) (byte : UInt8) : Outcome × Decoder :=
  match decoder.frame.push? byte with
  | none => (.error (.frameTooLarge (frameCapacity + 1) frameCapacity), start)
  | some frame =>
    if remaining - 1 = 0 then (.ok (some frame), start)
    else (.ok none, ⟨.payloadSeen (remaining - 1), frame⟩)

/-- Takes the next byte of the stream. -/
def push (decoder : Decoder) (byte : UInt8) : Outcome × Decoder :=
  match decoder.stage with
  | .idle => (.ok none, ⟨.headerSeen, Frame.empty byte⟩)
  | .headerSeen => decoder.takeLength .start byte
  | .lengthSeen field => decoder.takeLength field byte
  | .payloadSeen remaining => decoder.takePayload remaining byte

/-- Takes a run of bytes: the outcome of each, and the decoder afterwards. -/
def run (decoder : Decoder) : Bytes → List Outcome × Decoder
  | [] => ([], decoder)
  | byte :: rest =>
    let (outcome, next) := decoder.push byte
    let (outcomes, last) := next.run rest
    (outcome :: outcomes, last)

end Decoder
end TopicTree
