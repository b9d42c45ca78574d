import TopicTree.Site.Route
import TopicTree.Tree.Build

/-!
# Requests and notifications

What the program around a tree asks its nodes to send. A refusal leaves the site as it was, except
that a notification which has got an id before it is refused keeps that id used.
-/

namespace TopicTree.Site

variable {M : Type} [Medium M]

/-- Sends a request from a node. The caller, known by `tag`, is told once how it went, which may be
before this is over. The answer is the id under which the node waits. -/
def execute (site : Site M) (node : Nat) (method path : String) (params : Params) (now : Nat)
    (tag : String) : Except Error (UInt16 × Site M) := do
  let dest ← Path.ofText path
  let request ← Envelope.request dest method 0 params
  let endpoint ← site.tree.needEndpoint node
  let (id, endpoint) ←
    endpoint.beginRequest method (now + site.tree.timeout) (.caller tag)
  let waiting := site.withTree (site.tree.setEndpoint node endpoint)
  return (id, waiting.route (.up node { request with id }))

/-- Sends a notification from a node to the subscribers at the top. -/
def notify (site : Site M) (node : Nat) (name : String) (qos : Qos) (data : Bytes) :
    Except Error Unit × Site M :=
  match (do
    let params ← Params.ofBytes data
    let endpoint ← site.tree.needEndpoint node
    return (params, endpoint.allocateId)) with
  | .error e => (.error e, site)
  | .ok (params, id, endpoint) =>
    let numbered := site.withTree (site.tree.setEndpoint node endpoint)
    match Envelope.notification name id qos params with
    | .error e => (.error e, numbered)
    | .ok notification => (.ok (), numbered.route (.up node notification))

end TopicTree.Site
