import TopicTree.Channel.Medium
import TopicTree.Wire.Decoder

/-!
# Frame channels

A channel sends and receives frames at a socket. It is polled: a poll takes bytes until they
complete a frame or run out, and a frame begun in one poll goes on in the next. Failures never stop
a channel; they are counted.
-/

namespace TopicTree

/-- What has happened on a channel so far. -/
structure Counters where
  framesReceived : Nat
  framesSent : Nat
  /-- Frames that the decoder refused. -/
  parseErrors : Nat
  /-- Reads and writes that failed. -/
  transportErrors : Nat
  deriving DecidableEq, Repr

/-- Frames over a socket. -/
structure Channel where
  socket : String
  decoder : Decoder
  counters : Counters
  deriving DecidableEq, Repr

namespace Channel

/-- A channel over a socket on which nothing has happened. -/
def ofSocket (socket : String) : Channel :=
  ⟨socket, .start, ⟨0, 0, 0, 0⟩⟩

/-- The channel after one more frame received. -/
def countReceived (channel : Channel) (decoder : Decoder) : Channel :=
  { channel with
    decoder
    counters := { channel.counters with framesReceived := channel.counters.framesReceived + 1 } }

/-- The channel after one more frame refused. -/
def countParseError (channel : Channel) (decoder : Decoder) : Channel :=
  { channel with
    decoder
    counters := { channel.counters with parseErrors := channel.counters.parseErrors + 1 } }

/-- The channel after one more failed read or write. -/
def countTransportError (channel : Channel) : Channel :=
  { channel with
    counters := { channel.counters with transportErrors := channel.counters.transportErrors + 1 } }

/-- The channel after one more frame sent. -/
def countSent (channel : Channel) : Channel :=
  { channel with
    counters := { channel.counters with framesSent := channel.counters.framesSent + 1 } }

/-- Takes bytes until one completes a frame, none is there, or the socket fails. -/
def poll {M : Type} [Medium M] (channel : Channel) (medium : M) : Option Frame × Channel × M :=
  match _taken : Medium.receive channel.socket medium with
  | (.error _, after) => (none, channel.countTransportError, after)
  | (.ok none, after) => (none, channel, after)
  | (.ok (some byte), after) =>
    match channel.decoder.push byte with
    | (.ok (some frame), decoder) => (some frame, channel.countReceived decoder, after)
    | (.ok none, decoder) => poll { channel with decoder } after
    | (.error _, decoder) => poll (channel.countParseError decoder) after
termination_by Medium.backlog channel.socket medium
decreasing_by
  all_goals exact Medium.backlog_lt _taken

/-- Writes one frame, all of it at once. -/
def send {M : Type} [Medium M] (channel : Channel) (frame : Frame) (medium : M) :
    Except TransportError Unit × Channel × M :=
  match Medium.transmit channel.socket frame.encode medium with
  | (.ok (), after) => (.ok (), channel.countSent, after)
  | (.error e, after) => (.error e, channel.countTransportError, after)

end Channel
end TopicTree
