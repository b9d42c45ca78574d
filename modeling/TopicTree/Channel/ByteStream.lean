import TopicTree.Channel.Medium

/-!
# Byte streams

A byte stream is read and written by calls that may do less than they were asked for, be interrupted
or fail. What the calls come to is fixed beforehand; once that is used up no byte is there to be read
and everything is taken. A socket over a stream reads one byte at a time. It writes on until a run of
bytes is taken to the end, and then flushes.
-/

namespace TopicTree

/-- The kinds of errors of a stream, as far as they make a difference. -/
inductive IoKind
  /-- The call would have to wait. -/
  | wouldBlock
  /-- The call was interrupted before it did anything. -/
  | interrupted
  | other
  deriving DecidableEq, Repr

/-- Why a call at a stream came to nothing. -/
structure IoError where
  kind : IoKind
  reason : String
  deriving DecidableEq, Repr

namespace IoError

/-- A socket over a stream fails as the stream did. -/
def toTransport (e : IoError) : TransportError :=
  .failed e.reason

/-- Whether an error only says that there is no byte to be read now. -/
def isPause (e : IoError) : Bool :=
  e.kind = .wouldBlock || e.kind = .interrupted

end IoError

/-- A byte stream. -/
structure ByteStream where
  /-- What the reads to come give: a byte, or nothing at the end of the stream. -/
  reads : List (Except IoError (Option UInt8))
  /-- How many bytes the writes to come take at most. -/
  writes : List (Except IoError Nat)
  flushes : List (Except IoError Unit)
  /-- The bytes that were taken so far. -/
  taken : Bytes
  deriving Repr

namespace ByteStream

/-! ## Calls -/

/-- Reads into a place for one byte. -/
def read (stream : ByteStream) : Except IoError (Option UInt8) × ByteStream :=
  match stream.reads with
  | [] => (.error ⟨.wouldBlock, "operation would block"⟩, stream)
  | outcome :: reads => (outcome, { stream with reads })

/-- Offers bytes, of which the stream takes some from the front. The answer is how many. -/
def write (bytes : Bytes) (stream : ByteStream) : Except IoError Nat × ByteStream :=
  match stream.writes with
  | [] => (.ok bytes.length, { stream with taken := stream.taken ++ bytes })
  | .ok most :: writes =>
    (.ok (min most bytes.length), { stream with writes, taken := stream.taken ++ bytes.take most })
  | .error e :: writes => (.error e, { stream with writes })

/-- Flushes what was taken. -/
def flush (stream : ByteStream) : Except IoError Unit × ByteStream :=
  match stream.flushes with
  | [] => (.ok (), stream)
  | outcome :: flushes => (outcome, { stream with flushes })

/-- A write that takes something leaves less to be written or fewer writes to come. -/
theorem write_lt {bytes : Bytes} {stream after : ByteStream} {count : Nat} (nonempty : bytes ≠ [])
    (h : stream.write bytes = (.ok count, after)) :
    after.writes.length + (bytes.drop count).length < stream.writes.length + bytes.length := by
  have hpos : 0 < bytes.length := List.length_pos_iff.2 nonempty
  rw [List.length_drop]
  unfold write at h
  split at h
  · cases h
    exact Nat.add_lt_add_left (Nat.sub_lt hpos hpos) _
  · next hwrites =>
    cases h
    simp only [hwrites, List.length_cons]
    omega
  · cases h

/-- A write that fails leaves fewer writes to come. -/
theorem writes_lt {bytes : Bytes} {stream after : ByteStream} {e : IoError}
    (h : stream.write bytes = (.error e, after)) :
    after.writes.length < stream.writes.length := by
  unfold write at h
  split at h
  · cases h
  · cases h
  · next hwrites =>
    cases h
    simp [hwrites]

/-- Writes until all bytes are taken. An interrupted write is made again. -/
def writeAll (bytes : Bytes) (stream : ByteStream) : Except IoError Unit × ByteStream :=
  if bytes = [] then (.ok (), stream)
  else
    match _wrote : stream.write bytes with
    | (.ok 0, after) => (.error ⟨.other, "failed to write whole buffer"⟩, after)
    | (.ok count, after) => writeAll (bytes.drop count) after
    | (.error e, after) =>
      if e.kind = .interrupted then writeAll bytes after else (.error e, after)
termination_by stream.writes.length + bytes.length
decreasing_by
  · exact write_lt ‹_› _wrote
  · exact Nat.add_lt_add_right (writes_lt _wrote) _

/-! ## Sockets over streams -/

/-- What a read comes to at a socket: the end of the stream is a failure, a pause is none. -/
def outcome : Except IoError (Option UInt8) → Except TransportError (Option UInt8)
  | .ok none => .error .closed
  | .ok (some byte) => .ok (some byte)
  | .error e => if e.isPause then .ok none else .error e.toTransport

/-- Reads one byte, if there is one now. -/
def receive (stream : ByteStream) : Except TransportError (Option UInt8) × ByteStream :=
  let (result, after) := stream.read
  (outcome result, after)

/-- Writes a run of bytes and flushes. -/
def transmit (bytes : Bytes) (stream : ByteStream) : Except TransportError Unit × ByteStream :=
  match stream.writeAll bytes with
  | (.error e, after) => (.error e.toTransport, after)
  | (.ok (), after) =>
    match after.flush with
    | (.error e, last) => (.error e.toTransport, last)
    | (.ok (), last) => (.ok (), last)

/-- Every byte received leaves fewer reads to come. -/
theorem reads_lt {before after : ByteStream} {byte : UInt8}
    (h : before.receive = (.ok (some byte), after)) : after.reads.length < before.reads.length := by
  obtain ⟨reads, writes, flushes, taken⟩ := before
  cases reads with
  | nil => cases h
  | cons read reads =>
    obtain rfl := (Prod.mk.inj h).2
    exact Nat.lt_succ_self _

instance : Medium ByteStream where
  receive _ := receive
  transmit _ := transmit
  backlog _ stream := stream.reads.length
  backlog_lt := reads_lt

end ByteStream
end TopicTree
