import TopicTree.Channel.Basic
import TopicTree.Channel.ByteStream

/-!
# Scripted sockets

A medium of a single socket whose readings are known beforehand: bytes, pauses and failures in a
fixed order. What is written is kept, and writes fail as told. The socket is a plain transport,
which takes each run of bytes at once, or stands over a byte stream, of which every call goes wrong
in the same way until told otherwise.
-/

namespace TopicTree

/-- What one read at a scripted socket comes to. -/
inductive Reading
  | byte (value : UInt8)
  /-- No byte is there now. -/
  | blocked
  /-- The read was interrupted; it counts as no byte. -/
  | interrupted
  /-- The other side is gone. -/
  | closed
  | failed (reason : String)
  deriving DecidableEq, Repr

/-- How writes at a scripted socket go wrong. -/
structure WriteFaults where
  /-- Every write is refused before anything is written. -/
  refusal : Option TransportError
  /-- The most bytes that a stream takes at once, if there is a limit. -/
  piece : Option Nat
  /-- Every flush of a stream fails. -/
  flushFails : Bool
  deriving DecidableEq, Repr

/-- A scripted socket. -/
structure Script where
  /-- The socket stands over a byte stream. -/
  isStream : Bool
  readings : List Reading
  faults : WriteFaults
  written : Bytes
  deriving DecidableEq, Repr

/-- What the stream of a socket gives at a reading. -/
def Reading.atStream : Reading → Except IoError (Option UInt8)
  | byte value => .ok (some value)
  | blocked => .error ⟨.wouldBlock, "operation would block"⟩
  | interrupted => .error ⟨.interrupted, "operation interrupted"⟩
  | closed => .ok none
  | failed reason => .error ⟨.other, reason⟩

/-- What a plain transport gives at a reading. -/
def Reading.atTransport : Reading → Except TransportError (Option UInt8)
  | byte value => .ok (some value)
  | blocked | interrupted => .ok none
  | closed => .error .closed
  | failed reason => .error (.failed reason)

namespace WriteFaults

/-- What the writes of a stream come to while it is offered so many bytes. -/
def writes (faults : WriteFaults) (length : Nat) : List (Except IoError Nat) :=
  match faults.refusal, faults.piece with
  | some .closed, _ => [.error ⟨.other, "closed"⟩]
  | some (.failed reason), _ => [.error ⟨.other, reason⟩]
  | none, some most => List.replicate length (.ok most)
  | none, none => []

/-- What the next flush of a stream comes to. -/
def flushes (faults : WriteFaults) : List (Except IoError Unit) :=
  if faults.flushFails then [.error ⟨.other, "flush failed"⟩] else []

end WriteFaults

namespace Script

/-- A socket with an empty script. -/
def quiet (isStream : Bool) : Script :=
  ⟨isStream, [], ⟨none, none, false⟩, []⟩

/-- The stream that a socket stands over, while it is offered so many bytes. -/
def stream (script : Script) (length : Nat) : ByteStream :=
  ⟨script.readings.map Reading.atStream, script.faults.writes length, script.faults.flushes,
    script.written⟩

/-- Reads once; after the end of the script no byte is there. -/
def read (script : Script) : Except TransportError (Option UInt8) × Script :=
  match script.readings with
  | [] => (.ok none, script)
  | reading :: readings =>
    let outcome := if script.isStream then (script.stream 0).receive.1 else reading.atTransport
    (outcome, { script with readings })

/-- Writes a run of bytes. -/
def write (bytes : Bytes) (script : Script) : Except TransportError Unit × Script :=
  if script.isStream then
    let (outcome, after) := (script.stream bytes.length).transmit bytes
    (outcome, { script with written := after.taken })
  else
    match script.faults.refusal with
    | some e => (.error e, script)
    | none => (.ok (), { script with written := script.written ++ bytes })

/-- Every byte read leaves a shorter script. -/
theorem length_readings_lt {before after : Script} {byte : UInt8}
    (h : before.read = (.ok (some byte), after)) :
    after.readings.length < before.readings.length := by
  unfold read at h
  split at h
  · simp at h
  · next hreadings =>
    rw [← (Prod.mk.inj h).2, hreadings]
    simp

instance : Medium Script where
  receive _ := read
  transmit _ := write
  backlog _ script := script.readings.length
  backlog_lt := length_readings_lt

end Script
end TopicTree
