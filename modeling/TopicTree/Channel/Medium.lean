import TopicTree.Text.Utf8

/-!
# Media

A medium joins sockets. A socket gives out bytes one at a time and takes whole runs of bytes; either
can fail. Nothing else is known about a medium, except that no socket has more than finitely many
bytes to give: each byte received leaves a smaller backlog.
-/

namespace TopicTree

/-- Why a socket failed. -/
inductive TransportError
  /-- The other side is gone. -/
  | closed
  /-- Anything else, with the reason given. -/
  | failed (reason : String)
  deriving DecidableEq, Repr

/-- The wording of each failure. -/
def TransportError.message : TransportError → String
  | closed => "transport closed"
  | failed reason => "transport i/o: " ++ reason

/-- What happens at the sockets, known by their labels, of a state `M` of the world outside. -/
class Medium (M : Type) where
  /-- Takes the next byte at a socket, if there is one now. -/
  receive : String → M → Except TransportError (Option UInt8) × M
  /-- Writes a run of bytes at a socket. -/
  transmit : String → Bytes → M → Except TransportError Unit × M
  /-- A bound on the bytes that a socket has to give. -/
  backlog : String → M → Nat
  /-- Every byte received makes the backlog smaller. -/
  backlog_lt : ∀ {socket : String} {before after : M} {byte : UInt8},
    receive socket before = (.ok (some byte), after) → backlog socket after < backlog socket before

end TopicTree
