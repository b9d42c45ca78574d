import TopicTree.Address.Filter
import TopicTree.Site.Basic

/-!
# Fan-out of notifications

A notification that reaches the top goes to every bridge whose client subscribed to its topic: the
way it came, a slash, and its name. All bridges share one frame.
-/

namespace TopicTree

/-- Whether the client of a session subscribed to a topic. -/
def Session.wants (session : Session) (topic : String) : Bool :=
  session.filters.any (Filter.accepts · topic)

/-- Whether a client at an entry subscribed to a topic. -/
def Entry.wants (entry : Entry) (topic : String) : Bool :=
  ((entry.role.bridge?).bind (·.session)).any (·.wants topic)

/-- The bridges whose clients subscribed to a topic, in the order of their places. -/
def Tree.subscribers (tree : Tree) (topic : String) : List Nat :=
  (List.range tree.size).filter fun id => (tree.get? id).any (·.wants topic)

namespace Site

variable {M : Type} [Medium M]

/-- Room for a full source, a slash and a full name. -/
abbrev fanOutCapacity : Nat := maxPath + 1 + maxTitle

/-- The topic under which clients know a notification. -/
def fanOutTopic (notification : Envelope) : String :=
  if notification.source.isEmpty then notification.method
  else notification.source.segments ++ "/" ++ notification.method

/-- Writes a frame to each of some bridges. One that fails keeps none of the others from it. -/
def writeAll (site : Site M) (frame : Frame) (bridges : List Nat) : Site M :=
  bridges.foldl (fun site bridge => site.write bridge frame) site

/-- Delivers a notification to the clients who subscribed to it. -/
def fanOut (site : Site M) (notification : Envelope) : Site M :=
  let topic := fanOutTopic notification
  let bridges := site.tree.subscribers topic
  if fanOutCapacity < topic.utf8ByteSize ∨ bridges = [] then site
  else
    match (Publish.plain topic notification.params.bytes).toFrame with
    | .error _ => site
    | .ok frame => site.holding frame (·.writeAll frame bridges)

end Site
end TopicTree
