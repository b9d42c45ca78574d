import TopicTree.Text.Utf8
import TopicTree.Wire.Error

/-!
# Buffers that are written from their front

A buffer takes bytes one behind the other, each over the next of those that it had. That a byte
finds no room is no refusal but must not happen. A writer `Emits` bytes if it writes just these
wherever there is room for them, and writers that follow each other emit their bytes in that order.
-/

namespace TopicTree

/-- A buffer that is being written. -/
structure Sink where
  /-- The bytes written so far. -/
  written : Bytes
  /-- The bytes behind those, which can be written over. A buffer that grows has as many as are asked
  for. -/
  ahead : Bytes
  deriving DecidableEq, Repr

/-- Why writing stopped. -/
inductive Mishap
  /-- The writer refused. -/
  | refused (cause : WireError)
  /-- There was no room for a byte, and nobody had looked. -/
  | overrun
  deriving DecidableEq, Repr

namespace Sink

/-- Something that writes into a buffer. Where it stops, the buffer is left as it was written so
far. -/
abbrev Writer :=
  EStateM Mishap Sink Unit

/-- The buffer after a run of bytes. -/
def after (sink : Sink) (bytes : Bytes) : Sink :=
  ⟨sink.written ++ bytes, sink.ahead.drop bytes.length⟩

/-- Writes one byte. -/
def put (byte : UInt8) : Writer := do
  let sink ← get
  if sink.ahead = [] then throw .overrun
  set (sink.after [byte])

/-- Writes a run of bytes, for all of which there has to be room. -/
def putAll (bytes : Bytes) : Writer := do
  let sink ← get
  if sink.ahead.length < bytes.length then throw .overrun
  set (sink.after bytes)

/-- Whether a writer writes these bytes and nothing else wherever there is room for them. -/
def Emits (writer : Writer) (bytes : Bytes) : Prop :=
  ∀ sink : Sink, bytes.length ≤ sink.ahead.length → writer.run sink = .ok () (sink.after bytes)

/-- What is written in two parts is written as a whole. -/
theorem after_append (sink : Sink) (front back : Bytes) :
    (sink.after front).after back = sink.after (front ++ back) := by
  simp only [after, List.append_assoc, List.drop_drop, List.length_append]

theorem emits_put (byte : UInt8) : Emits (put byte) [byte] := by
  intro sink room
  have hroom : sink.ahead ≠ [] := List.length_pos_iff.1 room
  simp [put, hroom]

theorem emits_putAll (bytes : Bytes) : Emits (putAll bytes) bytes := by
  intro sink room
  have hroom : ¬sink.ahead.length < bytes.length := Nat.not_lt_of_le room
  simp [putAll, hroom]

/-- Writers that follow each other emit their bytes in that order. -/
theorem Emits.append {first second : Writer} {front back : Bytes} (hfirst : Emits first front)
    (hsecond : Emits second back) : Emits (first >>= fun _ => second) (front ++ back) := by
  intro sink room
  rw [List.length_append] at room
  have hroom : back.length ≤ (sink.after front).ahead.length := by
    rw [after, List.length_drop]
    omega
  rw [EStateM.run_bind, hfirst sink (by omega), ← after_append]
  exact hsecond _ hroom

end Sink
end TopicTree
