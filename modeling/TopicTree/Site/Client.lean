import TopicTree.Packet.Bare
import TopicTree.Packet.ConnAck
import TopicTree.Packet.Connect
import TopicTree.Packet.Subscribe
import TopicTree.Site.Request

/-!
# Clients of bridges

A bridge serves one client. The client opens a session, subscribes to topics and publishes. A
PUBLISH on the topic of a request is a request of the bridge, and its answer is published on the
topic of the response. A PUBLISH on a topic without a marker is a notification of the bridge.
Outside a session nothing but connecting and keepalive is heard.
-/

namespace TopicTree

/-- Why a CONNECT is refused before the guard is asked, if it is. -/
def Bridge.refusal? (bridge : Bridge) (connect : Connect) : Option ConnectOutcome :=
  if connect.protocolLevel ≠ Connect.currentLevel then some .badProtocolLevel
  else if min bridge.maxClientId TopicTree.maxClientId < connect.clientId.utf8ByteSize then
    some .badClientId
  else none

/-- Who a CONNECT claims to come from. -/
def Connect.credentials (connect : Connect) : Credentials :=
  ⟨connect.clientId, connect.username, connect.password⟩

namespace Session

/-- A session without subscriptions. -/
def start (clientId : String) : Session :=
  ⟨clientId, []⟩

/-- Subscribes to one filter, if there is room for it. -/
def subscribe (session : Session) (filter : String) : Grant × Session :=
  if filter ∈ session.filters then (.granted .atMostOnce, session)
  else if maxPath < filter.utf8ByteSize ∨ maxFilters ≤ session.filters.length then
    (.refused, session)
  else (.granted .atMostOnce, { session with filters := session.filters ++ [filter] })

/-- Subscribes to filters one after the other. -/
def subscribeAll (session : Session) : List String → List Grant × Session
  | [] => ([], session)
  | filter :: filters =>
    let (grant, session) := session.subscribe filter
    let (grants, session) := session.subscribeAll filters
    (grant :: grants, session)

/-- There is one grant per filter. -/
@[simp]
theorem length_subscribeAll (session : Session) (filters : List String) :
    (session.subscribeAll filters).1.length = filters.length := by
  induction filters generalizing session with
  | nil => rfl
  | cons filter filters ih => simp [subscribeAll, ih]

end Session

namespace Site

variable {M : Type} [Medium M]

/-! ## Sessions -/

/-- Tells the client of a bridge what became of its CONNECT. No session is ever resumed. -/
def acknowledge (site : Site M) (id : Nat) (outcome : ConnectOutcome) : Site M :=
  site.sendPacket id (ConnAck.toFrame ⟨false, outcome⟩)

/-- Asks the guard of a bridge about a client, and opens a session if it agrees. -/
def ask (site : Site M) (id : Nat) (bridge : Bridge) (guard : Guard) (who : Credentials) :
    Site M :=
  let asked := site.note (.asked id who)
  let wiser := { bridge with seen := who :: bridge.seen }
  if guard bridge.seen who then
    let session := some (Session.start who.clientId)
    (asked.withTree (site.tree.setBridge id { wiser with session })).acknowledge id .accepted
  else (asked.withTree (site.tree.setBridge id wiser)).acknowledge id .badCredentials

/-- Handles a CONNECT. A refusal leaves an open session open. -/
def connect (site : Site M) (id : Nat) (bridge : Bridge) (frame : Frame) : Site M :=
  match bridge.guard, Connect.ofFrame frame with
  | some guard, .ok connect =>
    match bridge.refusal? connect with
    | some outcome => site.acknowledge id outcome
    | none => site.ask id bridge guard connect.credentials
  | _, _ => site

/-- Handles a SUBSCRIBE. -/
def subscribe (site : Site M) (id : Nat) (bridge : Bridge) (frame : Frame) : Site M :=
  match Subscribe.ofFrame frame, bridge.session with
  | .ok subscribe, some session =>
    let filters := subscribe.filters.map (·.1)
    let after := (session.subscribeAll filters).2
    let ack : SubAck := ⟨subscribe.packetId, (session.subscribeAll filters).1, by
      simpa [filters] using subscribe.few⟩
    (site.withTree (site.tree.setBridge id { bridge with session := some after })).sendPacket id
      ack.toFrame
  | _, _ => site

/-- Closes the session of a bridge. -/
def disconnect (site : Site M) (id : Nat) (bridge : Bridge) : Site M :=
  site.withTree (site.tree.setBridge id { bridge with session := none })

/-! ## What clients publish -/

/-- The request that a client asks for: the target is a path, a slash and a method. -/
def clientRequest (target : String) (payload : Bytes) : Except Error Envelope := do
  let dest ← Path.ofText (String.ofList (Level.beforeLast target.toList))
  let params ← Params.ofBytes payload
  Envelope.request dest (String.ofList (Level.last target.toList)) 0 params

/-- Starts waiting for the response to a client's request. -/
def beginClientRequest (bridge : Bridge) (target : String) (payload : Bytes) (deadline : Nat)
    (replyTopic : String) : Except Error (Envelope × Endpoint) := do
  let request ← clientRequest target payload
  let (id, endpoint) ←
    bridge.endpoint.beginRequest request.method deadline (.client replyTopic)
  return ({ request with id }, endpoint)

/-- Sends a client's request. One that is refused is answered at once; one whose answer could have
no topic is dropped. -/
def requestFor (site : Site M) (id : Nat) (bridge : Bridge) (now : Nat) (target : String)
    (payload : Bytes) : Site M :=
  let replyTopic := Kind.response.marker ++ target
  if maxPath < replyTopic.utf8ByteSize then site
  else
    match beginClientRequest bridge target payload (now + site.tree.timeout) replyTopic with
    | .error e => site.answerClient id replyTopic e.returnCode Params.empty
    | .ok (request, endpoint) =>
      (site.withTree (site.tree.setEndpoint id endpoint)).route (.up id request)

/-- Handles a PUBLISH. -/
def publish (site : Site M) (id : Nat) (bridge : Bridge) (now : Nat) (frame : Frame) : Site M :=
  match Publish.ofFrame frame, bridge.session with
  | .ok publish, some _ =>
    match Kind.splitMarker publish.topic with
    | some (.request, target) => site.requestFor id bridge now target publish.payload
    | some _ => site
    | none => (site.notify id publish.topic publish.qos publish.payload).2
  | _, _ => site

/-- Handles a frame that came in at a bridge. -/
def receiveBridge (site : Site M) (id : Nat) (bridge : Bridge) (now : Nat) (frame : Frame) :
    Site M :=
  match frame.packetType with
  | .ok .connect => site.connect id bridge frame
  | .ok .pingReq => site.send id Bare.pingResp.toFrame
  | .ok .subscribe => site.subscribe id bridge frame
  | .ok .publish => site.publish id bridge now frame
  | .ok .disconnect => site.disconnect id bridge
  | _ => site

end Site
end TopicTree
