import TopicTree.Channel.ByteStream
import TopicTree.Proofs.Channel.Watch

/-!
# Channels over byte streams

What a channel over a byte stream does follows from what the calls at the stream came to. A read
that had to wait or was interrupted does not count, and the end of the stream is a failure. A write
fails if the stream stops taking bytes, for good and not because of an interruption, or if the flush
behind it fails; each failed write is due to exactly one such call. What the stream has taken of a
frame is a front of its encoding, and all of it where the write succeeds.
-/

namespace TopicTree

namespace ByteStream

/-! ## Calls -/

/-- Whether a read fails for good: the stream has ended, or is broken. -/
def failsRead : Except IoError (Option UInt8) → Bool
  | .ok byte => byte.isNone
  | .error e => !e.isPause

/-- Whether a write ends a row of writes before its time. -/
def stopsWrite : Except IoError Nat → Bool
  | .ok most => most = 0
  | .error e => e.kind ≠ .interrupted

/-- A read gives a byte at a socket where it gives one at the stream. -/
theorem given_outcome (read : Except IoError (Option UInt8)) :
    given [outcome read] = given [read] := by
  rcases read with e | _ | byte
  · cases hpause : e.isPause <;> simp only [outcome, hpause] <;> rfl
  · rfl
  · rfl

/-- A read fails at a socket where it fails for good. -/
theorem failures_outcome (read : Except IoError (Option UInt8)) :
    failures [outcome read] = [read].countP failsRead := by
  rcases read with e | _ | byte
  · cases hpause : e.isPause <;>
      simp [outcome, failsRead, failures, hpause, Except.isOk, Except.toBool]
  · rfl
  · rfl

/-- How a stream changes when these calls are used up and these bytes are taken. -/
structure Spends (before : ByteStream) (reads : List (Except IoError (Option UInt8)))
    (writes : List (Except IoError Nat)) (flushes : List (Except IoError Unit)) (front : Bytes)
    (after : ByteStream) : Prop where
  reads : before.reads = reads ++ after.reads
  writes : before.writes = writes ++ after.writes
  flushes : before.flushes = flushes ++ after.flushes
  taken : after.taken = before.taken ++ front

namespace Spends

variable {before mid after : ByteStream} {reads moreReads : List (Except IoError (Option UInt8))}
  {writes moreWrites : List (Except IoError Nat)} {flushes moreFlushes : List (Except IoError Unit)}
  {front back : Bytes}

/-- A stream at which nothing was done. -/
theorem refl (stream : ByteStream) : stream.Spends [] [] [] [] stream :=
  ⟨rfl, rfl, rfl, (List.append_nil _).symm⟩

/-- What is used up in two parts. -/
theorem trans (first : before.Spends reads writes flushes front mid)
    (second : mid.Spends moreReads moreWrites moreFlushes back after) :
    before.Spends (reads ++ moreReads) (writes ++ moreWrites) (flushes ++ moreFlushes)
      (front ++ back) after where
  reads := by rw [first.reads, second.reads, List.append_assoc]
  writes := by rw [first.writes, second.writes, List.append_assoc]
  flushes := by rw [first.flushes, second.flushes, List.append_assoc]
  taken := by rw [second.taken, first.taken, List.append_assoc]

end Spends

variable {stream after : ByteStream} {bytes : Bytes}

/-- A reading at a socket uses one read, or none where no read is left. -/
theorem receive_spends {result : ReadOutcome} (h : stream.receive = (result, after)) :
    ∃ reads, stream.Spends reads [] [] [] after ∧ given [result] = given reads ∧
      failures [result] = reads.countP failsRead := by
  obtain ⟨reads, writes, flushes, taken⟩ := stream
  cases reads with
  | nil =>
    cases h
    exact ⟨[], .refl _, rfl, rfl⟩
  | cons read reads =>
    cases h
    exact ⟨[read], ⟨rfl, rfl, rfl, (List.append_nil _).symm⟩, given_outcome read,
      failures_outcome read⟩

/-- A write that takes as many bytes as it says, which stops a row of writes if there are none. -/
theorem write_spends {count : Nat} (nonempty : bytes ≠ [])
    (h : stream.write bytes = (.ok count, after)) :
    ∃ writes, stream.Spends [] writes [] (bytes.take count) after ∧
      writes.countP stopsWrite = if count = 0 then 1 else 0 := by
  have hpos : bytes.length ≠ 0 := fun h => nonempty (List.length_eq_zero_iff.1 h)
  obtain ⟨reads, writes, flushes, taken⟩ := stream
  rcases writes with _ | ⟨e | most, writes⟩
  · cases h
    refine ⟨[], ⟨rfl, rfl, rfl, ?_⟩, (if_neg hpos).symm⟩
    rw [List.take_length]
  · cases h
  · cases h
    refine ⟨[.ok most], ⟨rfl, rfl, rfl, ?_⟩, ?_⟩
    · rw [← List.take_eq_take_min]
    · have hzero : min most bytes.length = 0 ↔ most = 0 := by omega
      simp only [hzero, List.countP_cons, List.countP_nil, stopsWrite, decide_eq_true_eq,
        Nat.zero_add]

/-- A write that fails takes nothing. -/
theorem write_spends_error {e : IoError} (h : stream.write bytes = (.error e, after)) :
    stream.Spends [] [.error e] [] [] after := by
  obtain ⟨reads, writes, flushes, taken⟩ := stream
  rcases writes with _ | ⟨failure | most, writes⟩
  · cases h
  · cases h
    exact ⟨rfl, rfl, rfl, (List.append_nil _).symm⟩
  · cases h

/-- Whether a front of what was written was taken, and all of it if the write succeeded. -/
def Took {ε : Type} (wrote : Bytes × Except ε Unit) (front : Bytes) : Prop :=
  front <+: wrote.1 ∧ (wrote.2.isOk → front = wrote.1)

/-- What a write of a run of bytes comes to: bytes are taken, and if it fails just one of the calls
is the cause. -/
structure Serves (before : ByteStream) (bytes : Bytes) {ε : Type} (result : Except ε Unit)
    (writes : List (Except IoError Nat)) (flushes : List (Except IoError Unit)) (front : Bytes)
    (after : ByteStream) : Prop where
  spends : before.Spends [] writes flushes front after
  took : Took (bytes, result) front
  stopped : failures [result] = writes.countP stopsWrite + failures flushes

/-- A row of writes takes bytes from the front, until one write stops it. -/
theorem writeAll_serves (bytes : Bytes) (stream : ByteStream) :
    ∃ writes front, stream.Serves bytes (stream.writeAll bytes).1 writes [] front
      (stream.writeAll bytes).2 := by
  fun_induction writeAll bytes stream with
  | case1 stream => exact ⟨[], [], .refl stream, ⟨List.prefix_rfl, fun _ => rfl⟩, rfl⟩
  | case2 bytes stream nonempty after wrote =>
    obtain ⟨writes, hspends, hstops⟩ := write_spends nonempty wrote
    exact ⟨writes, [], hspends, ⟨List.nil_prefix, nofun⟩, hstops.symm⟩
  | case3 bytes stream nonempty count after progress wrote ih =>
    obtain ⟨writes, hspends, hstops⟩ := write_spends nonempty wrote
    obtain ⟨more, front, hrest⟩ := ih
    obtain ⟨hfits, hwhole⟩ := hrest.took
    refine ⟨writes ++ more, bytes.take count ++ front, hspends.trans hrest.spends, ⟨?_, ?_⟩, ?_⟩
    · obtain ⟨left, hleft⟩ := hfits
      exact ⟨left, by rw [List.append_assoc, hleft, List.take_append_drop]⟩
    · intro done
      rw [hwhole done, List.take_append_drop]
    · rw [hrest.stopped, List.countP_append, hstops, if_neg progress, Nat.zero_add]
  | case4 bytes stream nonempty e after wrote interrupted ih =>
    obtain ⟨more, front, hrest⟩ := ih
    refine ⟨.error e :: more, front, (write_spends_error wrote).trans hrest.spends, hrest.took, ?_⟩
    rw [hrest.stopped, List.countP_cons_of_neg (by simp [stopsWrite, interrupted])]
  | case5 bytes stream nonempty e after wrote fails =>
    refine ⟨[.error e], [], write_spends_error wrote, ⟨List.nil_prefix, nofun⟩, ?_⟩
    rw [List.countP_cons_of_pos (by simp [stopsWrite, fails])]
    rfl

/-- A flush uses one call, or none where no call is left. -/
theorem flush_spends {result : Except IoError Unit} (h : stream.flush = (result, after)) :
    ∃ flushes, stream.Spends [] [] flushes [] after ∧ failures [result] = failures flushes := by
  obtain ⟨reads, writes, flushes, taken⟩ := stream
  cases flushes with
  | nil =>
    cases h
    exact ⟨[], .refl _, rfl⟩
  | cons flushed flushes =>
    cases h
    exact ⟨[result], ⟨rfl, rfl, rfl, (List.append_nil _).symm⟩, rfl⟩

/-- A run of bytes is taken from the front, and flushed where all of it was taken. -/
theorem transmit_serves {result : Except TransportError Unit}
    (h : stream.transmit bytes = (result, after)) :
    ∃ writes flushes front, stream.Serves bytes result writes flushes front after := by
  obtain ⟨writes, front, hwrites⟩ := stream.writeAll_serves bytes
  unfold transmit at h
  split at h
  · next hwrote =>
    rw [hwrote] at hwrites
    cases h
    exact ⟨writes, [], front, hwrites.spends, ⟨hwrites.took.1, nofun⟩, hwrites.stopped⟩
  · next mid hwrote =>
    rw [hwrote] at hwrites
    obtain ⟨hspends, ⟨hfits, hwhole⟩, hstopped⟩ := hwrites
    have hnone : writes.countP stopsWrite = 0 := hstopped.symm
    have hboth : ∀ {flushes : List (Except IoError Unit)} {last : ByteStream},
        mid.Spends [] [] flushes [] last → stream.Spends [] writes flushes front last :=
      fun hflushes => by simpa using hspends.trans hflushes
    split at h
    · next hflush =>
      obtain ⟨flushes, hflushes, hfailed⟩ := flush_spends hflush
      cases h
      exact ⟨writes, flushes, front, hboth hflushes, ⟨hfits, nofun⟩, by rw [hnone, ← hfailed]; rfl⟩
    · next hflush =>
      obtain ⟨flushes, hflushes, hfailed⟩ := flush_spends hflush
      cases h
      exact ⟨writes, flushes, front, hboth hflushes, ⟨hfits, hwhole⟩, by rw [hnone, ← hfailed]; rfl⟩

/-! ## Streams that are watched -/

/-- What has become of a stream while it was watched: the calls that were used up, and of each
write the front that was taken. -/
structure Accounts (start : ByteStream) (watched : Watched ByteStream)
    (reads : List (Except IoError (Option UInt8))) (writes : List (Except IoError Nat))
    (flushes : List (Except IoError Unit)) (fronts : List Bytes) : Prop where
  spends : start.Spends reads writes flushes fronts.flatten watched.medium
  given : given watched.reads = given reads
  failedReads : failures watched.reads = reads.countP failsRead
  failedWrites : failures (watched.writes.map Prod.snd)
    = writes.countP stopsWrite + failures flushes
  took : List.Forall₂ Took watched.writes fronts

/-- A stream that is watched while a channel over it is used. -/
theorem exists_accounts (socket : String) (stream : ByteStream) (uses : List Use) :
    ∃ reads writes flushes fronts,
      stream.Accounts ((Life.begin socket (Watched.start stream)).run uses).medium reads writes
        flushes fronts := by
  have hstart : ∃ reads writes flushes fronts,
      stream.Accounts (Life.begin socket (Watched.start stream)).medium reads writes flushes fronts :=
    ⟨[], [], [], [], .refl stream, rfl, rfl, rfl, .nil⟩
  refine Life.run_keeps (P := fun watched => ∃ reads writes flushes fronts,
    stream.Accounts watched reads writes flushes fronts) ?_ ?_ hstart uses
  · rintro socket before outcome after ⟨reads, writes, flushes, fronts, h⟩ receives
    obtain ⟨hmedium, hreads, hwrites⟩ := Watched.receive_eq receives
    obtain ⟨more, hspends, hgiven, hfailed⟩ := receive_spends hmedium
    refine ⟨reads ++ more, writes, flushes, fronts, ?_, ?_, ?_, ?_, ?_⟩
    · simpa using h.spends.trans hspends
    · rw [hreads, given_append, given_append, h.given, hgiven]
    · rw [hreads, failures_append, h.failedReads, hfailed, List.countP_append]
    · rw [hwrites]
      exact h.failedWrites
    · rw [hwrites]
      exact h.took
  · rintro socket bytes before outcome after ⟨reads, writes, flushes, fronts, h⟩ transmits
    obtain ⟨hmedium, hreads, hwrites⟩ := Watched.transmit_eq transmits
    obtain ⟨moreWrites, moreFlushes, front, hserves⟩ := transmit_serves hmedium
    refine ⟨reads, writes ++ moreWrites, flushes ++ moreFlushes, fronts ++ [front], ?_, ?_, ?_, ?_,
      ?_⟩
    · simpa using h.spends.trans hserves.spends
    · rw [hreads]
      exact h.given
    · rw [hreads]
      exact h.failedReads
    · have hstopped : failures ([(bytes, outcome)].map Prod.snd)
          = moreWrites.countP stopsWrite + failures moreFlushes := hserves.stopped
      rw [hwrites, List.map_append, failures_append, h.failedWrites, hstopped, List.countP_append,
        failures_append]
      omega
    · rw [hwrites]
      exact List.rel_append h.took (.cons hserves.took .nil)

end ByteStream

/-! ## All that a channel did -/

/-- Whatever is done with a new channel, and whatever its reads and writes come to: it hands out the
frames that a fresh decoder tells of the bytes read so far, its decoder is where that decoder is, and
its counters count the frames, the writes, the refusals of the decoder and the failures. Each send
was one write, its next poll reads no further than it has to, its next send is one write, and no
frame is too large for the buffer through which it may be sent. That the medium is watched makes no
difference.

Over a byte stream, all this follows from the calls that were used up: the bytes are those that the
reads gave, and the failures are the reads that failed for good, the writes that stopped a row of
them, and the flushes that failed. Every other send succeeded. The stream has taken a front of each
frame that was sent, and all of it where the send succeeded. -/
theorem Life.run_accounts_for_all (socket : String) (uses : List Use) :
    (∀ {M : Type} [Medium M] (medium : M),
      let life := (begin socket medium).run uses
      let watched := (begin socket (Watched.start medium)).run uses
      let told := Decoder.start.run (given watched.medium.reads)
      let wrote := watched.medium.writes.map Prod.snd
      let polled := life.channel.poll watched.medium
      (watched.channel = life.channel ∧ watched.frames = life.frames ∧
        watched.medium.medium = life.medium) ∧
      life.frames = given told.1 ∧ life.channel.decoder = told.2 ∧
      life.channel.counters = {
        framesReceived := life.frames.length
        framesSent := successes wrote
        parseErrors := failures told.1
        transportErrors := failures watched.medium.reads + failures wrote } ∧
      watched.medium.writes.map Prod.fst = (uses.filterMap Use.sent?).map Frame.encode ∧
      Channel.PollKept life.channel watched.medium polled.1 polled.2.1 polled.2.2 ∧
      ∀ frame,
        let sent := life.channel.send frame watched.medium
        Channel.SendKept life.channel frame watched.medium sent.1 sent.2.1 sent.2.2 ∧
        life.channel.sendThrough (List.replicate Frame.maxEncoded 0) frame life.medium
          = ((life.channel.send frame life.medium).1.mapError .transport,
              (life.channel.send frame life.medium).2)) ∧
    ∀ stream : ByteStream,
      let life := (begin socket stream).run uses
      let watched := (begin socket (Watched.start stream)).run uses
      ∃ reads writes flushes fronts,
        stream.Spends reads writes flushes fronts.flatten life.medium ∧
        List.Forall₂ ByteStream.Took watched.medium.writes fronts ∧
        let told := Decoder.start.run (given reads)
        let failedSends := writes.countP ByteStream.stopsWrite + failures flushes
        life.frames = given told.1 ∧ life.channel.decoder = told.2 ∧
        life.channel.counters.framesReceived = life.frames.length ∧
        life.channel.counters.parseErrors = failures told.1 ∧
        life.channel.counters.transportErrors = reads.countP ByteStream.failsRead + failedSends ∧
        life.channel.counters.framesSent + failedSends = (uses.filterMap Use.sent?).length := by
  refine ⟨fun {M} _ medium => ?_, fun stream => ?_⟩
  · intro life watched told wrote polled
    have h : Kept socket watched life := kept_run socket medium uses
    refine ⟨⟨h.sameChannel, h.sameFrames, h.sameMedium⟩, h.account.told, h.account.decoder,
      h.counters, writes_run _ uses, Channel.poll_kept life.channel watched.medium, ?_⟩
    · intro frame sent
      refine ⟨Channel.send_kept life.channel frame watched.medium, ?_⟩
      exact Channel.sendThrough_eq (by rw [List.length_replicate]) life.channel frame life.medium
  · intro life watched
    have h : Kept socket watched life := kept_run socket stream uses
    obtain ⟨reads, writes, flushes, fronts, hspends, hgiven, hreads, hwrites, htook⟩ :=
      stream.exists_accounts socket uses
    have htold := h.account.told
    have hdecoder := h.account.decoder
    have hcounters := h.counters
    rw [hgiven] at htold hdecoder hcounters
    rw [hreads, hwrites] at hcounters
    have hsent : watched.medium.writes.length = (uses.filterMap Use.sent?).length := by
      have hwrote : watched.medium.writes.map Prod.fst
          = (uses.filterMap Use.sent?).map Frame.encode := writes_run _ uses
      simpa using congrArg List.length hwrote
    have htotal := successes_add_failures (watched.medium.writes.map Prod.snd)
    rw [hwrites, List.length_map, hsent] at htotal
    rw [h.sameMedium] at hspends
    refine ⟨reads, writes, flushes, fronts, hspends, htook, htold, hdecoder, ?_⟩
    rw [hcounters]
    exact ⟨rfl, rfl, rfl, htotal⟩

end TopicTree
