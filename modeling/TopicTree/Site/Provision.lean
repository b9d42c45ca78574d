import TopicTree.Site.Route

/-!
# Naming of links

The hub end of a link has no name at first. The device end asks for one again and again: it sends a
request with the name of its local root to the link manager of the hub, which is the hub end itself.
The hub end takes the name if it is free among its siblings, and says so. From then on the local
root is known by that name there, and when the device end hears of it, the link is up.
-/

namespace TopicTree

/-- The level that addresses the manager of a link. -/
abbrev linkManager : String := "_linkMan"

/-- The method that proposes a name to the manager of a link. -/
abbrev nameMethod : String := "_getName"

/-- The id of the requests between the two managers of a link. -/
abbrev namingId : UInt16 := 1234

/-- Whether a path leads to the manager of a link. -/
def Path.isManager (path : Path) : Bool :=
  match path.first with
  | .ok level => level = some linkManager
  | .error _ => false

/-- Whether it is time for an attempt to have a link named. -/
def Link.isDue (link : Link) (now : Nat) : Bool :=
  link.place = .device && !link.confirmed
    && link.lastAttempt.all fun last => link.interval ≤ now - last

/-- The request with which the device end of a link proposes the name of its local root. -/
def Tree.namingRequest? (tree : Tree) (link : Nat) : Option Envelope := do
  let root ← (tree.children link).head?
  let name ← tree.name? root
  let params ← (Params.ofText name.text).toOption
  let manager ← (Path.ofText linkManager).toOption
  let request ← (Envelope.request manager nameMethod namingId params).toOption
  return { request with source := manager }

namespace Site

variable {M : Type} [Medium M]

/-- Tells every listener of a link that it has come up. -/
def announce (site : Site M) (link : Link) : Site M :=
  link.listeners.foldl (fun site tag => site.note (.linkUp tag)) site

/-! ## The device end -/

/-- Attempts to have a link named, if that is due. -/
def provisionAt (now : Nat) (site : Site M) (id : Nat) : Site M :=
  match site.tree.link? id with
  | none => site
  | some link =>
    if link.isDue now then
      match site.tree.namingRequest? id with
      | none => site
      | some request =>
        (site.withTree (site.tree.setLink id { link with lastAttempt := some now })).sendEnvelope id
          request
    else site

/-- Takes note of the answer to an attempt. It counts if it tells of success with the name of the
local root, and once only. -/
def confirm (site : Site M) (id : Nat) (link : Link) (response : Envelope) : Site M :=
  match (site.tree.children id).head? with
  | none => site
  | some root =>
    if response.code ≠ .success ∨ response.params.text? 0 ≠ (site.tree.name? root).map (·.text)
      ∨ link.confirmed then site
    else (site.withTree (site.tree.setLink id { link with confirmed := true })).announce link

/-- Handles a message that came in at the device end of a link. -/
def receiveBelow (site : Site M) (id : Nat) (link : Link) (message : Envelope) : Site M :=
  if message.kind = .response ∧ message.dest.isManager then site.confirm id link message
  else
    match (site.tree.children id).head? with
    | none => site
    | some root => site.route (.down root message)

/-! ## The hub end -/

/-- Gives the hub end of a link a name, if no sibling has it. -/
def adopt (site : Site M) (id : Nat) (link : Link) (text : String) : ReturnCode × Site M :=
  match Name.ofText text with
  | .error _ => (.invalidParams, site)
  | .ok name =>
    if site.tree.isNamed text id then (.success, site)
    else
      match site.tree.parent? id with
      | none => (.internal, site)
      | some parent =>
        if (site.tree.childNamed parent text).isSome then (.badState, site)
        else
          let named := site.withTree (site.tree.setName id name)
          (.success, if (site.tree.name? id).isNone then named.announce link else named)

/-- Answers a request for a name. The answer goes back across the link and repeats the name if it
was taken. -/
def answerNaming (site : Site M) (id : Nat) (link : Link) (request : Envelope) : Site M :=
  let text := (request.params.text? 0).getD ""
  let (code, after) := site.adopt id link text
  let params :=
    if code = .success then (Params.ofText text).toOption.getD Params.empty else Params.empty
  after.sendEnvelope id (request.response code params)

/-- Handles a message that came in at the hub end of a link. Before the link has a name, nothing but
requests for one goes through. -/
def receiveAbove (site : Site M) (id : Nat) (link : Link) (message : Envelope) : Site M :=
  if message.kind = .request ∧ message.dest.isManager ∧ message.method = nameMethod then
    site.answerNaming id link message
  else
    match site.tree.name? id with
    | none => site
    | some _ => site.route (.up id message)

/-- Handles a frame that came in at a link. One that holds no message is dropped. -/
def receiveLink (site : Site M) (id : Nat) (link : Link) (frame : Frame) : Site M :=
  match Envelope.ofFrame frame with
  | .error _ => site
  | .ok message =>
    match link.place with
    | .device => site.receiveBelow id link message
    | .hub => site.receiveAbove id link message

end Site
end TopicTree
