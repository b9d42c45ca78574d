import TopicTree.Channel.Medium

/-!
# Cabling

A medium of any number of sockets, known by their labels. A socket queues the bytes that wait to be
received there. What is written at a socket joins the queue of its peer; without a peer it is gone.
Reads and writes fail as told. A socket is there as soon as somebody names it.
-/

namespace TopicTree

/-- A place where bytes come in and go out. -/
structure Socket where
  /-- The bytes that wait to be received. -/
  inbox : Bytes
  /-- Where the bytes written here go. -/
  peer : Option String
  /-- Every read fails. -/
  readFault : Option TransportError
  /-- Every write fails. -/
  writeFault : Option TransportError
  deriving DecidableEq, Repr

/-- A socket on which nothing has happened. -/
def Socket.quiet : Socket :=
  ⟨[], none, none, none⟩

/-- The sockets that have been named. -/
structure Cabling where
  sockets : List (String × Socket)
  deriving DecidableEq, Repr

namespace Cabling

/-- No socket has been named. -/
def empty : Cabling :=
  ⟨[]⟩

/-- The socket with a label. -/
def socket (cabling : Cabling) (label : String) : Socket :=
  (cabling.sockets.lookup label).getD Socket.quiet

/-- A list of labelled sockets with one of them replaced. -/
def setIn (label : String) (socket : Socket) : List (String × Socket) → List (String × Socket)
  | [] => [(label, socket)]
  | (other, old) :: rest =>
    if label = other then (label, socket) :: rest else (other, old) :: setIn label socket rest

/-- Replaces the socket with a label. -/
def set (cabling : Cabling) (label : String) (socket : Socket) : Cabling :=
  ⟨setIn label socket cabling.sockets⟩

/-- A socket that was replaced is found in the list under its label, and no other socket is
changed. -/
theorem lookup_setIn (label : String) (socket : Socket) (sockets : List (String × Socket))
    (other : String) :
    (setIn label socket sockets).lookup other
      = if other = label then some socket else sockets.lookup other := by
  induction sockets with
  | nil =>
    by_cases h : other = label
    · simp [setIn, h]
    · simp [setIn, List.lookup_cons, beq_eq_false_iff_ne.2 h, h]
  | cons head rest ih =>
    obtain ⟨first, old⟩ := head
    by_cases hl : label = first
    · subst hl
      by_cases ho : other = label
      · simp [setIn, ho]
      · simp [setIn, List.lookup_cons, beq_eq_false_iff_ne.2 ho, ho]
    · by_cases ho : other = first
      · subst ho
        simp [setIn, hl, Ne.symm hl]
      · simp [setIn, List.lookup_cons, hl, beq_eq_false_iff_ne.2 ho, ih]

/-- A socket that was replaced is found under its label, and no other socket is changed. -/
@[simp]
theorem socket_set (cabling : Cabling) (label : String) (socket : Socket) (other : String) :
    (cabling.set label socket).socket other
      = if other = label then socket else cabling.socket other := by
  simp only [set, Cabling.socket, lookup_setIn]
  split <;> rfl

/-- Puts bytes into the queue of a socket. -/
def feed (cabling : Cabling) (label : String) (bytes : Bytes) : Cabling :=
  let socket := cabling.socket label
  cabling.set label { socket with inbox := socket.inbox ++ bytes }

/-- Makes two sockets peers. -/
def connect (cabling : Cabling) (left right : String) : Cabling :=
  let cabling := cabling.set left { cabling.socket left with peer := some right }
  cabling.set right { cabling.socket right with peer := some left }

/-- Replaces the faults of a socket. -/
def setFaults (cabling : Cabling) (label : String) (readFault writeFault : Option TransportError) :
    Cabling :=
  cabling.set label { cabling.socket label with readFault, writeFault }

/-- Takes the first byte that waits at a socket. -/
def receive (label : String) (cabling : Cabling) :
    Except TransportError (Option UInt8) × Cabling :=
  let socket := cabling.socket label
  match socket.readFault, socket.inbox with
  | some e, _ => (.error e, cabling)
  | none, [] => (.ok none, cabling)
  | none, byte :: inbox => (.ok (some byte), cabling.set label { socket with inbox })

/-- Writes a run of bytes at a socket. -/
def transmit (label : String) (bytes : Bytes) (cabling : Cabling) :
    Except TransportError Unit × Cabling :=
  let socket := cabling.socket label
  match socket.writeFault, socket.peer with
  | some e, _ => (.error e, cabling)
  | none, none => (.ok (), cabling)
  | none, some peer => (.ok (), cabling.feed peer bytes)

/-- Every byte received leaves a shorter queue. -/
theorem length_inbox_lt {label : String} {before after : Cabling} {byte : UInt8}
    (h : receive label before = (.ok (some byte), after)) :
    (after.socket label).inbox.length < (before.socket label).inbox.length := by
  simp only [receive] at h
  split at h
  · simp at h
  · simp at h
  · next inbox _ hinbox =>
    rw [← (Prod.mk.inj h).2, hinbox]
    simp

instance : Medium Cabling where
  receive := receive
  transmit := transmit
  backlog label cabling := (cabling.socket label).inbox.length
  backlog_lt := length_inbox_lt

end Cabling
end TopicTree
