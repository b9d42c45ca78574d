import TopicTree.Site.FanOut

/-!
# Routing

A message moves one entry at a time. On the way up every node puts its name in front of the source,
until the message reaches the entry where it turns: the top for a path from the top and for every
notification, the local root for a path from there. On the way down every node takes one level off
the destination, until none is left. A device end reached on the way up and a hub end reached on the
way down hand the message to the other tree.

A request that gets an answer turns into that answer where it stands. So a message goes up and down
at most twice, and `maxHops` steps are enough for every tree.
-/

namespace TopicTree

/-- A message at an entry, and where it is heading. -/
inductive Hop
  /-- Towards the top. -/
  | up (here : Nat) (message : Envelope)
  /-- Towards its destination. -/
  | down (here : Nat) (message : Envelope)

/-- Whether the entry above an entry is the device end of a link, so that it is the local root. -/
def Tree.isBelowLink (tree : Tree) (entry : Entry) : Bool :=
  entry.parent.any tree.isDeviceEnd

/-- Whether a message on its way up turns at an entry. -/
def Tree.isTurn (tree : Tree) (entry : Entry) (message : Envelope) : Bool :=
  if message.kind = .notification then entry.parent.isNone
  else
    match message.dest.anchor with
    | .top => entry.parent.isNone
    | .near => entry.parent.isNone || tree.isBelowLink entry
    | .far => false

namespace Site

variable {M : Type} [Medium M]

/-! ## Between trees -/

/-- Hands a message to the tree across the link above. What was far is near there. -/
def relayUp (site : Site M) (link : Nat) (message : Envelope) : Site M :=
  if message.dest.anchor = .far then
    site.sendEnvelope link { message with dest := message.dest.withAnchor .near }
  else site.sendEnvelope link message

/-- Hands a message to the tree below a link. Its destination starts at the local root there, and
what was near is far there. -/
def relayDown (site : Site M) (link : Nat) (message : Envelope) : Site M :=
  let arriving := { message with dest := message.dest.withAnchor .near }
  match message.source.anchor with
  | .top => site.sendEnvelope link arriving
  | .near => site.sendEnvelope link { arriving with source := message.source.withAnchor .far }
  | .far => site

/-! ## Within a tree -/

/-- Answers an undeliverable request; other messages are dropped. -/
def reject (site : Site M) (here : Nat) (message : Envelope) (code : ReturnCode) :
    Option Hop × Site M :=
  if message.kind = .request then (some (.up here (message.response code Params.empty)), site)
  else (none, site)

/-- Has a node answer a request. -/
def handle (site : Site M) (here : Nat) (endpoint : Endpoint) (message : Envelope) :
    Option Hop × Site M :=
  match endpoint.call? message.method message.params with
  | none => site.reject here message .noSuchMethod
  | some (reply, endpoint) =>
    (some (.up here (message.response reply.code reply.params)),
      (site.withTree (site.tree.setEndpoint here endpoint)).note
        (.called here message.method message.params))

/-- Ends the wait for a response. One that nobody waits for is dropped. -/
def settle (site : Site M) (here : Nat) (endpoint : Endpoint) (message : Envelope) : Site M :=
  match endpoint.settle? message.id with
  | none => site
  | some (row, endpoint) =>
    (site.withTree (site.tree.setEndpoint here endpoint)).tell here row.requester message.code
      message.params

/-- Hands a message to the node that it was meant for. -/
def deliver (site : Site M) (here : Nat) (message : Envelope) : Option Hop × Site M :=
  match site.tree.endpoint? here with
  | none => (none, site)
  | some endpoint =>
    match message.kind with
    | .request => site.handle here endpoint message
    | .response => (none, site.settle here endpoint message)
    | .notification => (none, site)

/-- One step towards the top. -/
def stepUp (site : Site M) (here : Nat) (message : Envelope) : Option Hop × Site M :=
  match site.tree.get? here with
  | none => (none, site)
  | some entry =>
    if site.tree.isDeviceEnd here then (none, site.relayUp here message)
    else if site.tree.isTurn entry message then
      if message.kind = .notification then (none, site.fanOut message)
      else
        let source := message.source.withAnchor message.dest.anchor
        (some (.down here { message with source }), site)
    else
      match entry.parent with
      | none => (none, site)
      | some above =>
        if site.tree.isBelowLink entry then (some (.up above message), site)
        else
          match entry.name with
          | none => (none, site)
          | some name =>
            match Path.prepend name.text message.source with
            | .error _ => (none, site)
            | .ok source => (some (.up above { message with source }), site)

/-- One step towards the destination, between nodes of one tree. -/
def descend (site : Site M) (here : Nat) (message : Envelope) : Option Hop × Site M :=
  if message.dest.isEmpty then site.deliver here message
  else
    match message.dest.first with
    | .error e => site.reject here message e.returnCode
    | .ok level =>
      match level.bind (site.tree.childNamed here) with
      | none => site.reject here message .noSuchNode
      | some child => (some (.down child { message with dest := message.dest.dropFirst }), site)

/-- One step towards the destination. -/
def stepDown (site : Site M) (here : Nat) (message : Envelope) : Option Hop × Site M :=
  match site.tree.get? here with
  | none => (none, site)
  | some entry =>
    match entry.role.link? with
    | none => site.descend here message
    | some link =>
      match link.place with
      | .hub => (none, site.relayDown here message)
      | .device => (none, site)

/-- One step. Without a next hop the message has arrived or is gone. -/
def step (site : Site M) : Hop → Option Hop × Site M
  | .up here message => site.stepUp here message
  | .down here message => site.stepDown here message

/-- At most `fuel` steps. -/
def carry : (fuel : Nat) → Hop → Site M → Site M
  | 0, _, site => site
  | fuel + 1, hop, site =>
    match site.step hop with
    | (none, after) => after
    | (some next, after) => carry fuel next after

/-- Moves a message until it has arrived or is gone. -/
def route (site : Site M) (hop : Hop) : Site M :=
  carry maxHops hop site

end Site
end TopicTree
