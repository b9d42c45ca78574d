import TopicTree.Message.Envelope
import TopicTree.Pool
import TopicTree.Tree.Basic

/-!
# Sites

A site is a tree where it stands: with the pool that its frames pass through, with the medium that
its channels reach, and with a log of everything that others can notice. All that a tree does is a
function from sites to sites. Whatever cannot be done is dropped, and no part of it is tried again.
-/

namespace TopicTree

/-- Something that others notice. -/
inductive Event
  /-- A run of bytes was written at a socket. -/
  | wrote (socket : String) (bytes : Bytes)
  /-- A socket refused a run of bytes. -/
  | writeFailed (socket : String) (bytes : Bytes)
  /-- A method of a node was called. -/
  | called (node : Nat) (method : String) (params : Params)
  /-- A caller was told how its request went. -/
  | replied (tag : String) (code : ReturnCode) (params : Params)
  /-- A listener was told that its link came up. -/
  | linkUp (tag : String)
  /-- The guard of a bridge was asked about a client. -/
  | asked (bridge : Nat) (credentials : Credentials)
  deriving DecidableEq, Repr

/-- A tree, its pool, its medium, and what has happened. -/
structure Site (M : Type) where
  tree : Tree
  pool : Pool
  medium : M
  /-- The events so far, in order. -/
  log : List Event

namespace Site

variable {M : Type}

/-- Adds an event to the log. -/
def note (site : Site M) (event : Event) : Site M :=
  { site with log := site.log ++ [event] }

/-- Changes the tree. -/
def withTree (site : Site M) (tree : Tree) : Site M :=
  { site with tree }

/-- Does something while a frame occupies a slot; without a free slot nothing is done. -/
def holding (site : Site M) (frame : Frame) (act : Site M → Site M) : Site M :=
  match site.pool.bind frame with
  | .error _ => site
  | .ok (slot, pool) =>
    let after := act { site with pool }
    { after with pool := after.pool.release slot }

variable [Medium M]

/-- Writes a frame at the channel of an entry. -/
def write (site : Site M) (id : Nat) (frame : Frame) : Site M :=
  match site.tree.channel? id with
  | none => site
  | some channel =>
    match channel.send frame site.medium with
    | (outcome, channel, medium) =>
      let after := { site with tree := site.tree.setChannel id channel, medium }
      match outcome with
      | .ok () => after.note (.wrote channel.socket frame.encode)
      | .error _ => after.note (.writeFailed channel.socket frame.encode)

/-- Sends a frame from an entry, through a slot of the pool. -/
def send (site : Site M) (id : Nat) (frame : Frame) : Site M :=
  site.holding frame (·.write id frame)

/-- Sends a packet from an entry, unless it cannot be written as a frame. -/
def sendPacket {ε : Type} (site : Site M) (id : Nat) (frame : Except ε Frame) : Site M :=
  match frame with
  | .ok frame => site.send id frame
  | .error _ => site

/-- Sends a message from an entry. -/
def sendEnvelope (site : Site M) (id : Nat) (message : Envelope) : Site M :=
  site.sendPacket id message.toFrame

/-! ## Telling requesters -/

/-- Tells the client of a bridge how a request went: a PUBLISH whose payload is the code and the
output. A client that is gone is not told. -/
def answerClient (site : Site M) (bridge : Nat) (topic : String) (code : ReturnCode)
    (params : Params) : Site M :=
  match site.tree.client? bridge with
  | none => site
  | some _ => site.sendPacket bridge (Publish.plain topic (code.toByte :: params.bytes)).toFrame

/-- Tells a requester of an entry how its request went. -/
def tell (site : Site M) (id : Nat) (requester : Requester) (code : ReturnCode)
    (params : Params) : Site M :=
  match requester with
  | .caller tag => site.note (.replied tag code params)
  | .client topic => site.answerClient id topic code params

end Site
end TopicTree
