import TopicTree.Address.Name
import TopicTree.Channel.Basic
import TopicTree.Tree.Endpoint

/-!
# Trees of nodes, links and bridges

A tree is a short list of entries that refer to each other by their places in it. A node offers
methods. A link joins the tree to another one over a channel: its hub end is a child of a node
there, its device end is the top of the tree on the other side. A bridge is a node with a channel of
its own, on which it serves one client.

Places are never given up, so an entry's number stays valid.
-/

namespace TopicTree

/-- Who a client claims to be. -/
structure Credentials where
  clientId : String
  username : Option String
  password : Option Bytes
  deriving DecidableEq, Repr

/-- Whether credentials are accepted, given those seen before, latest first. -/
abbrev Guard := List Credentials → Credentials → Bool

/-- The two ends of a link. -/
inductive LinkEnd
  /-- A child of a node; what comes in goes on upwards. -/
  | hub
  /-- The top of a tree, with the local root as its only child. -/
  | device
  deriving DecidableEq, Repr

/-- One end of a link between trees. -/
structure Link where
  place : LinkEnd
  channel : Channel
  /-- The least time between two attempts to have the link named. -/
  interval : Nat
  /-- The other side has confirmed the name. Only the device end waits for that. -/
  confirmed : Bool
  /-- The time of the latest attempt. -/
  lastAttempt : Option Nat
  /-- The tags of those who are told when the link comes up. -/
  listeners : List String

/-- An open session of a client. -/
structure Session where
  clientId : String
  /-- The topic filters that the client subscribed to. -/
  filters : List String
  deriving DecidableEq, Repr

/-- A node that serves one client. -/
structure Bridge where
  endpoint : Endpoint
  channel : Channel
  /-- The longest client identifier that is welcome. -/
  maxClientId : Nat
  /-- Nobody can connect before there is a guard. -/
  guard : Option Guard
  /-- The credentials that the guard has seen, latest first. -/
  seen : List Credentials
  session : Option Session

/-- What an entry is. -/
inductive Role
  | node (endpoint : Endpoint)
  | link (link : Link)
  | bridge (bridge : Bridge)

namespace Role

/-- Whether an entry is a plain node. -/
def isNode : Role → Bool
  | node _ => true
  | _ => false

/-- The endpoint of a node or bridge. -/
def endpoint? : Role → Option Endpoint
  | node endpoint => some endpoint
  | link _ => none
  | bridge inner => some inner.endpoint

/-- The channel of a link or bridge. -/
def channel? : Role → Option Channel
  | node _ => none
  | link inner => some inner.channel
  | bridge inner => some inner.channel

/-- The link that an entry is. -/
def link? : Role → Option Link
  | link inner => some inner
  | _ => none

/-- The bridge that an entry is. -/
def bridge? : Role → Option Bridge
  | bridge inner => some inner
  | _ => none

/-- The same entry with another endpoint. -/
def withEndpoint (endpoint : Endpoint) : Role → Role
  | node _ => node endpoint
  | link inner => link inner
  | bridge inner => bridge { inner with endpoint }

/-- The same entry with another channel. -/
def withChannel (channel : Channel) : Role → Role
  | node endpoint => node endpoint
  | link inner => link { inner with channel }
  | bridge inner => bridge { inner with channel }

end Role

/-- One place of a tree. -/
structure Entry where
  /-- The name among its siblings; a link has none at first. -/
  name : Option Name
  /-- The entry above; the top has none. -/
  parent : Option Nat
  /-- The entries below, in the order in which they came. -/
  children : List Nat
  role : Role

/-- Nodes, links and bridges that belong together. -/
structure Tree where
  entries : List Entry
  /-- How long a request waits for its response. -/
  timeout : Nat

namespace Tree

/-- A tree without entries. -/
def empty (timeout : Nat) : Tree :=
  ⟨[], timeout⟩

/-! ## Looking -/

/-- The number of entries. -/
def size (tree : Tree) : Nat :=
  tree.entries.length

/-- The entry at a place. -/
def get? (tree : Tree) (id : Nat) : Option Entry :=
  tree.entries[id]?

/-- The name of an entry. -/
def name? (tree : Tree) (id : Nat) : Option Name :=
  (tree.get? id).bind (·.name)

/-- The entry above an entry. -/
def parent? (tree : Tree) (id : Nat) : Option Nat :=
  (tree.get? id).bind (·.parent)

/-- The entries below an entry. -/
def children (tree : Tree) (id : Nat) : List Nat :=
  ((tree.get? id).map (·.children)).getD []

/-- The endpoint of a node or bridge. -/
def endpoint? (tree : Tree) (id : Nat) : Option Endpoint :=
  (tree.get? id).bind (·.role.endpoint?)

/-- The channel of a link or bridge. -/
def channel? (tree : Tree) (id : Nat) : Option Channel :=
  (tree.get? id).bind (·.role.channel?)

/-- The link at a place. -/
def link? (tree : Tree) (id : Nat) : Option Link :=
  (tree.get? id).bind (·.role.link?)

/-- The bridge at a place. -/
def bridge? (tree : Tree) (id : Nat) : Option Bridge :=
  (tree.get? id).bind (·.role.bridge?)

/-- Whether an entry has a given text as its name. -/
def isNamed (tree : Tree) (text : String) (id : Nat) : Bool :=
  (tree.name? id).any (·.text = text)

/-- The child of an entry with a given name. -/
def childNamed (tree : Tree) (parent : Nat) (text : String) : Option Nat :=
  (tree.children parent).find? (tree.isNamed text)

/-- Whether an entry is the device end of a link. -/
def isDeviceEnd (tree : Tree) (id : Nat) : Bool :=
  (tree.link? id).any (·.place = .device)

/-- Whether a link can carry messages. The hub end leaves it to the other end to say so. -/
def isProvisioned (tree : Tree) (id : Nat) : Bool :=
  (tree.link? id).any fun link => link.place = .hub || link.confirmed

/-- The number of responses that an entry waits for. -/
def pendingCount (tree : Tree) (id : Nat) : Nat :=
  ((tree.endpoint? id).map (·.pending.length)).getD 0

/-- The client identifier of the session that is open at a bridge. -/
def client? (tree : Tree) (id : Nat) : Option String :=
  ((tree.bridge? id).bind (·.session)).map (·.clientId)

/-! ## Changing -/

/-- Changes one entry. -/
def modify (tree : Tree) (id : Nat) (change : Entry → Entry) : Tree :=
  { tree with entries := tree.entries.modify id change }

/-- Changes the role of one entry. -/
def setRole (tree : Tree) (id : Nat) (change : Role → Role) : Tree :=
  tree.modify id fun entry => { entry with role := change entry.role }

/-- Replaces the endpoint of a node or bridge. -/
def setEndpoint (tree : Tree) (id : Nat) (endpoint : Endpoint) : Tree :=
  tree.setRole id (·.withEndpoint endpoint)

/-- Replaces the channel of a link or bridge. -/
def setChannel (tree : Tree) (id : Nat) (channel : Channel) : Tree :=
  tree.setRole id (·.withChannel channel)

/-- Replaces the link at a place. -/
def setLink (tree : Tree) (id : Nat) (link : Link) : Tree :=
  tree.setRole id fun _ => .link link

/-- Replaces the bridge at a place. -/
def setBridge (tree : Tree) (id : Nat) (bridge : Bridge) : Tree :=
  tree.setRole id fun _ => .bridge bridge

/-- Gives an entry a name. -/
def setName (tree : Tree) (id : Nat) (name : Name) : Tree :=
  tree.modify id fun entry => { entry with name := some name }

/-- A change of one entry changes the number of entries of no tree. -/
@[simp]
theorem size_modify (tree : Tree) (id : Nat) (change : Entry → Entry) :
    (tree.modify id change).size = tree.size := by
  simp [modify, size]

/-- A change of one entry is seen at its place only. -/
theorem get?_modify (tree : Tree) (id : Nat) (change : Entry → Entry) (other : Nat) :
    (tree.modify id change).get? other
      = if id = other then (tree.get? other).map change else tree.get? other := by
  simp only [modify, get?, List.getElem?_modify]
  split <;> simp

end Tree
end TopicTree
