import TopicTree.Proofs.Network.Sockets
import TopicTree.Proofs.Wire.Frame

/-!
# A channel neither loses nor repeats bytes

A medium is watched while a channel polls and sends at it: every read and every write is kept, with
its outcome. The channel cannot tell. What it did follows from what was kept, however the bytes came
in between reads without one: its frames are the ones that a fresh decoder tells of those bytes, its
counters count them, the refusals of the decoder, the writes, and the reads and writes that failed.
A poll stops reading with the byte that completes a frame, and a frame is sent by one write.
-/

namespace TopicTree

/-! ## Watched media -/

/-- What a read came to. -/
abbrev ReadOutcome := Except TransportError (Option UInt8)

/-- What was written, and what the write came to. -/
abbrev WriteOutcome := Bytes × Except TransportError Unit

/-- A medium together with all that was read and written at its sockets so far. -/
structure Watched (M : Type) where
  medium : M
  reads : List ReadOutcome
  writes : List WriteOutcome

namespace Watched

variable {M : Type} [Medium M]

/-- A medium that is watched from now on. -/
def start (medium : M) : Watched M :=
  ⟨medium, [], []⟩

/-- Takes the next byte and keeps what the read came to. -/
def receive (socket : String) (watched : Watched M) : ReadOutcome × Watched M :=
  let (outcome, medium) := Medium.receive socket watched.medium
  (outcome, { watched with medium, reads := watched.reads ++ [outcome] })

/-- Writes a run of bytes and keeps it with what the write came to. -/
def transmit (socket : String) (bytes : Bytes) (watched : Watched M) :
    Except TransportError Unit × Watched M :=
  let (outcome, medium) := Medium.transmit socket bytes watched.medium
  (outcome, { watched with medium, writes := watched.writes ++ [(bytes, outcome)] })

/-- Reading is not changed by being watched. -/
theorem receive_eq {socket : String} {watched after : Watched M} {outcome : ReadOutcome}
    (h : watched.receive socket = (outcome, after)) :
    Medium.receive socket watched.medium = (outcome, after.medium) ∧
      after.reads = watched.reads ++ [outcome] ∧ after.writes = watched.writes := by
  cases h
  exact ⟨rfl, rfl, rfl⟩

/-- Writing is not changed by being watched. -/
theorem transmit_eq {socket : String} {bytes : Bytes} {watched after : Watched M}
    {outcome : Except TransportError Unit} (h : watched.transmit socket bytes = (outcome, after)) :
    Medium.transmit socket bytes watched.medium = (outcome, after.medium) ∧
      after.reads = watched.reads ∧ after.writes = watched.writes ++ [(bytes, outcome)] := by
  cases h
  exact ⟨rfl, rfl, rfl⟩

instance : Medium (Watched M) where
  receive := receive
  transmit := transmit
  backlog socket watched := Medium.backlog socket watched.medium
  backlog_lt h := Medium.backlog_lt (receive_eq h).1

end Watched

/-! ## Accounts -/

/-- What outcomes gave, in order. -/
def given {ε α : Type} (outcomes : List (Except ε (Option α))) : List α :=
  outcomes.filterMap fun outcome => outcome.toOption.join

/-- How many outcomes are failures. -/
def failures {ε α : Type} (outcomes : List (Except ε α)) : Nat :=
  outcomes.countP fun outcome => !outcome.isOk

/-- How many outcomes are no failures. -/
def successes {ε α : Type} (outcomes : List (Except ε α)) : Nat :=
  outcomes.countP fun outcome => outcome.isOk

section Counting

variable {ε α : Type}

@[simp]
theorem given_append (outcomes more : List (Except ε (Option α))) :
    given (outcomes ++ more) = given outcomes ++ given more :=
  List.filterMap_append

@[simp]
theorem failures_append (outcomes more : List (Except ε α)) :
    failures (outcomes ++ more) = failures outcomes + failures more :=
  List.countP_append

@[simp]
theorem successes_append (outcomes more : List (Except ε α)) :
    successes (outcomes ++ more) = successes outcomes + successes more :=
  List.countP_append

/-- Every outcome is one or the other. -/
theorem successes_add_failures (outcomes : List (Except ε α)) :
    successes outcomes + failures outcomes = outcomes.length := by
  have h := List.length_eq_countP_add_countP (fun outcome : Except ε α => outcome.isOk)
    (l := outcomes)
  simpa [successes, failures] using h.symm

end Counting

namespace Channel

/-- What becomes of a channel when it reads and writes: the frames it hands out, its decoder and its
counters follow from the bytes that the reads gave and from the failures. -/
structure Follows (channel : Channel) (reads : List ReadOutcome) (writes : List WriteOutcome)
    (frames : List Frame) (next : Channel) : Prop where
  socket : next.socket = channel.socket
  told : frames = given (channel.decoder.run (given reads)).1
  decoder : next.decoder = (channel.decoder.run (given reads)).2
  counters : next.counters = {
    framesReceived := channel.counters.framesReceived + frames.length
    framesSent := channel.counters.framesSent + successes (writes.map Prod.snd)
    parseErrors := channel.counters.parseErrors + failures (channel.decoder.run (given reads)).1
    transportErrors := channel.counters.transportErrors
      + (failures reads + failures (writes.map Prod.snd)) }

namespace Follows

variable {channel next last : Channel} {reads more : List ReadOutcome}
  {writes moreWrites : List WriteOutcome} {frames moreFrames : List Frame}

/-- Nothing comes of nothing. -/
theorem refl (channel : Channel) : Follows channel [] [] [] channel :=
  ⟨rfl, rfl, rfl, rfl⟩

/-- What happens in two parts is accounted for in one. -/
theorem trans (first : Follows channel reads writes frames next)
    (second : Follows next more moreWrites moreFrames last) :
    Follows channel (reads ++ more) (writes ++ moreWrites) (frames ++ moreFrames) last := by
  have hframes := second.told
  have hdecoder := second.decoder
  have hcounters := second.counters
  rw [first.decoder] at hframes hdecoder hcounters
  refine ⟨second.socket.trans first.socket, ?_, ?_, ?_⟩
  · rw [given_append, Decoder.run_append, given_append, ← first.told, ← hframes]
  · rw [given_append, Decoder.run_append, hdecoder]
  · rw [hcounters, first.counters, given_append, Decoder.run_append]
    simp only [List.map_append, failures_append, successes_append, List.length_append]
    congr 1 <;> omega

/-- A read that fails is counted. -/
theorem of_failed (channel : Channel) (e : TransportError) :
    Follows channel [.error e] [] [] channel.countTransportError :=
  ⟨rfl, rfl, rfl, rfl⟩

/-- A read without a byte changes nothing. -/
theorem of_none (channel : Channel) : Follows channel [.ok none] [] [] channel :=
  ⟨rfl, rfl, rfl, rfl⟩

/-- A byte that completes a frame is counted as that frame. -/
theorem of_frame {byte : UInt8} {frame : Frame} {decoder : Decoder}
    (h : channel.decoder.push byte = (.ok (some frame), decoder)) :
    Follows channel [.ok (some byte)] [] [frame] (channel.countReceived decoder) := by
  have hrun : channel.decoder.run (given [(.ok (some byte) : ReadOutcome)])
      = ([.ok (some frame)], decoder) := by
    change channel.decoder.run [byte] = _
    simp only [Decoder.run, h]
  exact ⟨rfl, by rw [hrun]; rfl, by rw [hrun]; rfl, by rw [hrun]; rfl⟩

/-- A byte that leaves the decoder waiting changes nothing else. -/
theorem of_more {byte : UInt8} {decoder : Decoder}
    (h : channel.decoder.push byte = (.ok none, decoder)) :
    Follows channel [.ok (some byte)] [] [] { channel with decoder } := by
  have hrun : channel.decoder.run (given [(.ok (some byte) : ReadOutcome)])
      = ([.ok none], decoder) := by
    change channel.decoder.run [byte] = _
    simp only [Decoder.run, h]
  exact ⟨rfl, by rw [hrun]; rfl, by rw [hrun], by rw [hrun]; rfl⟩

/-- A byte that the decoder refuses is counted. -/
theorem of_refused {byte : UInt8} {e : WireError} {decoder : Decoder}
    (h : channel.decoder.push byte = (.error e, decoder)) :
    Follows channel [.ok (some byte)] [] [] (channel.countParseError decoder) := by
  have hrun : channel.decoder.run (given [(.ok (some byte) : ReadOutcome)])
      = ([.error e], decoder) := by
    change channel.decoder.run [byte] = _
    simp only [Decoder.run, h]
  exact ⟨rfl, by rw [hrun]; rfl, by rw [hrun]; rfl, by rw [hrun]; rfl⟩

end Follows

variable {M : Type} [Medium M]

/-! ## Polls and sends -/

/-- What a poll read: bytes none of which completes a frame, and then either the byte that completes
the frame it returned or a read without a byte. -/
def Polled (channel : Channel) (reads : List ReadOutcome) (returned : Option Frame) : Prop :=
  ∃ taken last, reads = (taken.map fun byte => .ok (some byte)) ++ [last] ∧
    given (channel.decoder.run taken).1 = [] ∧ (returned.isSome ↔ ∃ byte, last = .ok (some byte))

/-- A byte that completes no frame may stand before what a poll reads. -/
theorem Polled.cons {channel next : Channel} {reads : List ReadOutcome} {returned : Option Frame}
    {byte : UInt8} {outcome : Decoder.Outcome}
    (pushed : channel.decoder.push byte = (outcome, next.decoder)) (silent : given [outcome] = [])
    (h : Polled next reads returned) : Polled channel (.ok (some byte) :: reads) returned := by
  obtain ⟨taken, last, rfl, htaken, hlast⟩ := h
  refine ⟨byte :: taken, last, rfl, ?_, hlast⟩
  rw [Decoder.run, pushed]
  change given ([outcome] ++ (next.decoder.run taken).1) = []
  rw [given_append, silent, htaken, List.append_nil]

/-- A poll of a watched medium: what the channel becomes follows from what was read, nothing is
written, and the poll read no further than it had to. -/
structure PollKept (channel : Channel) (before : Watched M) (returned : Option Frame)
    (next : Channel) (after : Watched M) : Prop where
  account : ∃ reads, after.reads = before.reads ++ reads ∧
    Follows channel reads [] returned.toList next ∧ Polled channel reads returned
  writes : after.writes = before.writes
  unwatched : channel.poll before.medium = (returned, next, after.medium)

/-- A read that ends a poll. -/
theorem PollKept.of_last {channel next : Channel} {before after : Watched M} {last : ReadOutcome}
    {returned : Option Frame} (receives : Medium.receive channel.socket before = (last, after))
    (follows : Follows channel [last] [] returned.toList next)
    (ends : returned.isSome ↔ ∃ byte, last = .ok (some byte))
    (unwatched : ∀ medium, Medium.receive channel.socket before.medium = (last, medium) →
      channel.poll before.medium = (returned, next, medium)) :
    PollKept channel before returned next after := by
  obtain ⟨hmedium, hreads, hwrites⟩ := Watched.receive_eq receives
  exact ⟨⟨[last], hreads, follows, [], last, rfl, rfl, ends⟩, hwrites, unwatched _ hmedium⟩

/-- A byte after which a poll goes on. -/
theorem PollKept.of_byte {channel mid next : Channel} {before between after : Watched M}
    {byte : UInt8} {outcome : Decoder.Outcome} {returned : Option Frame}
    (receives : Medium.receive channel.socket before = (.ok (some byte), between))
    (pushed : channel.decoder.push byte = (outcome, mid.decoder)) (silent : given [outcome] = [])
    (follows : Follows channel [.ok (some byte)] [] [] mid)
    (unwatched : ∀ medium, Medium.receive channel.socket before.medium = (.ok (some byte), medium) →
      channel.poll before.medium = mid.poll medium)
    (rest : PollKept mid between returned next after) :
    PollKept channel before returned next after := by
  obtain ⟨hmedium, hreads, hwrites⟩ := Watched.receive_eq receives
  obtain ⟨reads, hmore, hfollows, hpolled⟩ := rest.account
  refine ⟨⟨.ok (some byte) :: reads, ?_, follows.trans hfollows, hpolled.cons pushed silent⟩,
    rest.writes.trans hwrites, (unwatched _ hmedium).trans rest.unwatched⟩
  rw [hmore, hreads, List.append_assoc, List.singleton_append]

/-- Every poll of a watched medium is accounted for. -/
theorem poll_kept (channel : Channel) (before : Watched M) :
    PollKept channel before (channel.poll before).1 (channel.poll before).2.1
      (channel.poll before).2.2 := by
  induction channel, before using poll.induct_unfolding with
  | case1 channel before e after receives =>
    refine .of_last receives (.of_failed channel e) (by simp) fun medium h => ?_
    rw [poll_eq, h]
  | case2 channel before after receives =>
    refine .of_last receives (.of_none channel) (by simp) fun medium h => ?_
    rw [poll_eq, h]
  | case3 channel before byte after receives frame decoder pushed =>
    refine .of_last receives (.of_frame pushed) (by simp) fun medium h => ?_
    rw [poll_eq, h]
    simp only [pushed]
  | case4 channel before byte after receives decoder pushed ih =>
    refine .of_byte receives pushed rfl (.of_more pushed) (fun medium h => ?_) ih
    rw [poll_eq, h]
    simp only [pushed]
  | case5 channel before byte after receives e decoder pushed ih =>
    refine .of_byte receives pushed rfl (.of_refused pushed) (fun medium h => ?_) ih
    rw [poll_eq, h]
    simp only [pushed]

/-- Sending leaves the medium as its one write does. -/
theorem medium_send (channel : Channel) (frame : Frame) (medium : M) :
    (channel.send frame medium).2.2 = (Medium.transmit channel.socket frame.encode medium).2 := by
  unfold send
  split <;> next h => exact (congrArg Prod.snd h).symm

/-- A send at a watched medium: nothing is read, the frame is written by one write, and what the
channel becomes follows from what the write came to. -/
structure SendKept (channel : Channel) (frame : Frame) (before : Watched M)
    (outcome : Except TransportError Unit) (next : Channel) (after : Watched M) : Prop where
  reads : after.reads = before.reads
  writes : after.writes = before.writes ++ [(frame.encode, outcome)]
  account : Follows channel [] [(frame.encode, outcome)] [] next
  unwatched : channel.send frame before.medium = (outcome, next, after.medium)

/-- Every send at a watched medium is accounted for. -/
theorem send_kept (channel : Channel) (frame : Frame) (before : Watched M) :
    SendKept channel frame before (channel.send frame before).1 (channel.send frame before).2.1
      (channel.send frame before).2.2 := by
  cases hwrite : Medium.transmit channel.socket frame.encode before.medium with
  | mk outcome medium =>
    have htransmit : Medium.transmit channel.socket frame.encode before
        = (outcome, { before with medium, writes := before.writes ++ [(frame.encode, outcome)] }) := by
      change Watched.transmit channel.socket frame.encode before = _
      rw [Watched.transmit, hwrite]
    cases outcome with
    | ok =>
      simp only [send, htransmit]
      exact ⟨rfl, rfl, ⟨rfl, rfl, rfl, rfl⟩, by simp only [send, hwrite]⟩
    | error e =>
      simp only [send, htransmit]
      exact ⟨rfl, rfl, ⟨rfl, rfl, rfl, rfl⟩, by simp only [send, hwrite]⟩

end Channel

/-! ## Through a buffer -/

/-- Why a frame was not sent through a buffer. -/
inductive SendError
  /-- The frame did not go into the buffer. -/
  | wire (cause : WireError)
  /-- The write failed. -/
  | transport (cause : TransportError)
  deriving DecidableEq, Repr

namespace Channel

variable {M : Type} [Medium M]

/-- Writes one frame by way of a buffer: the frame goes to the front of the buffer, and that much of
the buffer is written at once. -/
def sendThrough (buffer : Bytes) (channel : Channel) (frame : Frame) (medium : M) :
    Except SendError Unit × Channel × M :=
  match frame.writeTo buffer with
  | .error e => (.error (.wire e), channel, medium)
  | .ok written =>
    match Medium.transmit channel.socket (written.take frame.encodedSize) medium with
    | (.ok (), after) => (.ok (), channel.countSent, after)
    | (.error e, after) => (.error (.transport e), channel.countTransportError, after)

/-- Sending through a buffer with room for every frame is sending: only the write can fail. -/
theorem sendThrough_eq {buffer : Bytes} (room : Frame.maxEncoded ≤ buffer.length)
    (channel : Channel) (frame : Frame) (medium : M) :
    channel.sendThrough buffer frame medium
      = ((channel.send frame medium).1.mapError .transport, (channel.send frame medium).2) := by
  obtain ⟨written, hwritten, -, hfront, -⟩ :=
    Frame.exists_writeTo (Nat.le_trans frame.encodedSize_le room)
  cases hwrite : Medium.transmit channel.socket frame.encode medium with
  | mk outcome after =>
    cases outcome <;> simp only [sendThrough, hwritten, hfront, send, hwrite] <;> rfl

end Channel

/-! ## Lives of channels -/

/-- What is done with a channel. -/
inductive Use
  | poll
  | send (frame : Frame)
  deriving DecidableEq, Repr

/-- The frame that a use sends, if it sends one. -/
def Use.sent? : Use → Option Frame
  | poll => none
  | send frame => some frame

/-- A channel in use at a medium. -/
structure Life (M : Type) where
  channel : Channel
  medium : M
  /-- The frames that polls returned so far. -/
  frames : List Frame

namespace Life

variable {M : Type} [Medium M]

/-- A channel of which no use was made. -/
def begin (socket : String) (medium : M) : Life M :=
  ⟨.ofSocket socket, medium, []⟩

/-- Uses a channel once. -/
def use (life : Life M) : Use → Life M
  | .poll =>
    let (returned, channel, medium) := life.channel.poll life.medium
    ⟨channel, medium, life.frames ++ returned.toList⟩
  | .send frame =>
    let (_, channel, medium) := life.channel.send frame life.medium
    { life with channel, medium }

/-- Uses a channel again and again. -/
def run (life : Life M) (uses : List Use) : Life M :=
  uses.foldl use life

/-- What reads and writes keep of a medium, the uses of a channel keep. -/
theorem run_keeps {P : M → Prop}
    (reads : ∀ {socket before outcome after}, P before →
      Medium.receive socket before = (outcome, after) → P after)
    (writes : ∀ {socket bytes before outcome after}, P before →
      Medium.transmit socket bytes before = (outcome, after) → P after)
    {life : Life M} (start : P life.medium) (uses : List Use) : P (life.run uses).medium := by
  induction uses generalizing life with
  | nil => exact start
  | cons use uses ih =>
    refine ih ?_
    cases use with
    | poll => exact Channel.poll_keeps reads start
    | send frame =>
      change P (life.channel.send frame life.medium).2.2
      rw [Channel.medium_send]
      exact writes start (Prod.eta _).symm

/-- Each send is one write, of the encoding of its frame, and nothing else is written. -/
theorem writes_run (life : Life (Watched M)) (uses : List Use) :
    (life.run uses).medium.writes.map Prod.fst
      = life.medium.writes.map Prod.fst ++ (uses.filterMap Use.sent?).map Frame.encode := by
  induction uses generalizing life with
  | nil => exact (List.append_nil _).symm
  | cons use uses ih =>
    refine (ih (life.use use)).trans ?_
    cases use with
    | poll =>
      have hsame : (life.use .poll).medium.writes = life.medium.writes :=
        (Channel.poll_kept life.channel life.medium).writes
      rw [hsame]
      rfl
    | send frame =>
      have hmore : (life.use (.send frame)).medium.writes = _ :=
        (Channel.send_kept life.channel frame life.medium).writes
      rw [hmore, List.map_append, List.append_assoc]
      rfl

/-- What is known of a channel at a watched medium: all of it follows from what was kept since the
channel was new, and without a watch it would be the same. -/
structure Kept (socket : String) (watched : Life (Watched M)) (life : Life M) : Prop where
  sameChannel : watched.channel = life.channel
  sameFrames : watched.frames = life.frames
  sameMedium : watched.medium.medium = life.medium
  account : Channel.Follows (.ofSocket socket) watched.medium.reads watched.medium.writes
    life.frames life.channel

/-- One more use is accounted for. -/
theorem Kept.use {socket : String} {watched : Life (Watched M)} {life : Life M}
    (h : Kept socket watched life) (use : Use) : Kept socket (watched.use use) (life.use use) := by
  obtain ⟨channel, before, frames⟩ := watched
  obtain ⟨_, _, _⟩ := life
  obtain ⟨rfl, rfl, rfl, haccount⟩ := h
  cases use with
  | poll =>
    have hpoll := Channel.poll_kept channel before
    obtain ⟨reads, hreads, hfollows, -⟩ := hpoll.account
    have haccount := haccount.trans hfollows
    rw [List.append_nil, ← hreads, ← hpoll.writes] at haccount
    simp only [Life.use, hpoll.unwatched]
    exact ⟨rfl, rfl, rfl, haccount⟩
  | send frame =>
    have hsend := Channel.send_kept channel frame before
    have haccount := haccount.trans hsend.account
    rw [List.append_nil, List.append_nil, ← hsend.reads, ← hsend.writes] at haccount
    simp only [Life.use, hsend.unwatched]
    exact ⟨rfl, rfl, rfl, haccount⟩

/-- All uses of a channel are accounted for. -/
theorem Kept.run {socket : String} {watched : Life (Watched M)} {life : Life M}
    (h : Kept socket watched life) (uses : List Use) :
    Kept socket (watched.run uses) (life.run uses) := by
  induction uses generalizing watched life with
  | nil => exact h
  | cons use uses ih => exact ih (h.use use)

/-- All uses of a new channel are accounted for. -/
theorem kept_run (socket : String) (medium : M) (uses : List Use) :
    Kept socket ((begin socket (Watched.start medium)).run uses) ((begin socket medium).run uses) :=
  Kept.run ⟨rfl, rfl, rfl, .refl _⟩ uses

omit [Medium M] in
/-- The counters of a channel that was new count what was kept since then. -/
theorem Kept.counters {socket : String} {watched : Life (Watched M)} {life : Life M}
    (h : Kept socket watched life) : life.channel.counters = {
      framesReceived := life.frames.length
      framesSent := successes (watched.medium.writes.map Prod.snd)
      parseErrors := failures (Decoder.start.run (given watched.medium.reads)).1
      transportErrors := failures watched.medium.reads
        + failures (watched.medium.writes.map Prod.snd) } := by
  have hcounters := h.account.counters
  simp only [Channel.ofSocket, Nat.zero_add] at hcounters
  exact hcounters

end Life

end TopicTree
