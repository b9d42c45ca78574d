import TopicTree.Network.Cabling
import TopicTree.Proofs.Message.Layout
import TopicTree.Proofs.Site.Lockstep

/-!
# Replies to clients

A request that a client publishes is answered as if a caller in the program had made it at that
moment from the bridge. A refusal is published at once. A request that is accepted is answered once,
with what the caller would be told, when the caller would be told it, and by the time that waiting
for the response is over at the latest.
-/

namespace TopicTree

/-- What the client is told in one log and the caller in another one: nothing yet in either, or the
same, once, in the same place. There is no other difference. -/
inductive Asker.Told (asker : Asker) (log log' : List Event) : Prop
  | waiting (same : log = log') (untold : log'.filterMap (Event.telling? asker.tag) = [])
  | done {front back : List Event} {code : ReturnCode} {params : Params} {frame : Frame}
      (written : (Publish.plain asker.topic (code.toByte :: params.bytes)).toFrame = .ok frame)
      (client : log = front ++ .wrote asker.socket frame.encode :: back)
      (caller : log' = front ++ .replied asker.tag code params :: back)
      (once : (front ++ back).filterMap (Event.telling? asker.tag) = [])

/-- Two runs that go on alike, the first one from a given site: the client attends it, and nobody
hands over the caller in the other one. -/
structure Asker.Runs {M : Type} [Medium M] (asker : Asker) (alike : M → M → Prop) (site : Site M)
    (steps steps' : List (RunStep M)) : Prop where
  alike : List.Forall₂ (RunStep.Alike alike asker.near) steps steps'
  attends : site.Attends asker.bridge steps
  others : ∀ step ∈ steps', ¬step.hands asker.tag

namespace Site

variable {M : Type} [Medium M]

/-- Sends a request of a caller from a node, with given bytes as its parameters. -/
def executeBytes (site : Site M) (node : Nat) (method path : String) (payload : Bytes) (now : Nat)
    (tag : String) : Except Error (Site M) := do
  let params ← Params.ofBytes payload
  let (_, after) ← site.execute node method path params now tag
  return after

/-- A request that is accepted is one of a caller with parameters that the bytes are. -/
theorem executeBytes_eq_ok {site issued : Site M} {node : Nat} {method path tag : String}
    {payload : Bytes} {now : Nat}
    (accepted : site.executeBytes node method path payload now tag = .ok issued) :
    ∃ params id, site.execute node method path params now tag = .ok (id, issued) := by
  simp only [executeBytes, bind_eq_ok] at accepted
  obtain ⟨params, -, ⟨id, after⟩, hexecute, hafter⟩ := accepted
  cases hafter
  exact ⟨params, id, hexecute⟩

/-- A client with a session has published a request, and its bridge handles that at the next
poll. -/
structure Receives (site : Site M) (id : Nat) (bridge : Bridge) (target : String) (payload : Bytes) :
    Prop where
  session : bridge.session.isSome
  heard : ∃ frame publish, site.heard? id = some (bridge, frame) ∧
    Publish.ofFrame frame = .ok publish ∧ publish.topic = "->" ++ target ∧
      publish.payload = payload

/-! ## The books of a caller -/

/-- A step that does not hand over the caller keeps its books. -/
theorem Keeps.of_take {tag : String} {step : RunStep M} (other : ¬step.hands tag) (site : Site M) :
    Keeps tag site (site.take step) := by
  have hmove : ∀ move : Move M, ¬move.hands tag → Keeps tag site (site.move move) := fun _ =>
    .of_move
  cases step with
  | build construction => exact hmove (.call (.build construction)) id
  | execute node method path params now tag =>
    exact hmove (.call (.execute node method path params now tag)) other
  | notify node name qos data => exact hmove (.call (.notify node name qos data)) id
  | expire now id => exact .of_change (.expire site now id)
  | provision now id => exact .of_changes (changes_provisionAt now site id)
  | poll now id => exact .of_changes (changes_pollAt now site id)
  | around pool medium => exact hmove (.around pool medium) id

/-- Steps that do not hand over the caller keep its books. -/
theorem Keeps.of_follow {tag : String} {steps : List (RunStep M)}
    (other : ∀ step ∈ steps, ¬step.hands tag) (site : Site M) :
    Keeps tag site (site.follow steps) := by
  induction steps generalizing site with
  | nil => exact .refl _
  | cons step rest ih =>
    rw [List.forall_mem_cons] at other
    exact (Keeps.of_take other.1 site).trans (ih other.2 _)

/-- The time that requests wait is the same all along steps. -/
theorem timeout_follow (steps : List (RunStep M)) (site : Site M) :
    (site.follow steps).tree.timeout = site.tree.timeout := by
  induction steps generalizing site with
  | nil => rfl
  | cons step rest ih =>
    refine (ih (site.take step)).trans ?_
    rcases take_cases site step with ⟨move, heq⟩ | changes
    · rw [heq, timeout_move]
    · exact changes.timeout_eq

end Site

namespace Mirror

variable {M : Type} [Medium M] {mirror : Mirror M}

/-- The same has happened at both sites if the caller has not been told. -/
theorem eq_of_untold {events events' : List Event} (h : List.Forall₂ mirror.Events events events')
    (untold : events'.filterMap (Event.telling? mirror.tag) = []) : events = events' := by
  induction h with
  | nil => rfl
  | cons head _ ih =>
    cases head with
    | same _ other =>
      rw [List.filterMap_cons_none other] at untold
      rw [ih untold]
    | own => simp [Event.telling?] at untold

/-- The client is told what the caller is told, if that is told once at most. -/
theorem told_of_events {events events' : List Event}
    (h : List.Forall₂ mirror.Events events events')
    (once : (events'.filterMap (Event.telling? mirror.tag)).length ≤ 1) :
    mirror.Told events events' := by
  induction h with
  | nil => exact .waiting rfl rfl
  | @cons first _ rest rest' head tail ih =>
    cases head with
    | same _ other =>
      rw [List.filterMap_cons_none other] at once
      cases ih once with
      | waiting same untold =>
        exact .waiting (by rw [same]) (by rw [List.filterMap_cons_none other, untold])
      | @done front back code params frame written client caller once =>
        have hclient : first :: rest
            = (first :: front) ++ .wrote mirror.socket frame.encode :: back := by rw [client]; rfl
        refine .done written hclient (by rw [caller]; rfl) ?_
        rw [List.cons_append, List.filterMap_cons_none other, once]
    | @own code params frame written =>
      have htold : Event.telling? mirror.tag (.replied mirror.tag code params)
          = some (code, params) := if_pos rfl
      rw [List.filterMap_cons_some htold, List.length_cons] at once
      have huntold : rest'.filterMap (Event.telling? mirror.tag) = [] :=
        List.eq_nil_of_length_eq_zero (by omega)
      have hclient : .wrote mirror.socket frame.encode :: rest
          = [] ++ .wrote mirror.socket frame.encode :: rest' := by
        rw [eq_of_untold tail huntold, List.nil_append]
      exact .done written hclient rfl huntold

/-! ## The request begins -/

/-- A target is taken apart at its last slash. -/
theorem level_of_target {target path method : String}
    (spells : target = path ++ "/" ++ method ∨ path = "" ∧ target = method)
    (single : '/' ∉ method.toList) :
    String.ofList (Level.beforeLast target.toList) = path ∧
      String.ofList (Level.last target.toList) = method := by
  rcases spells with rfl | ⟨rfl, rfl⟩
  · have htext : (path ++ "/" ++ method).toList = path.toList ++ '/' :: method.toList := by
      rw [String.toList_append, String.toList_append, List.append_assoc]
      rfl
    rw [htext, Level.beforeLast_append_slash _ single, Level.last_append_slash _ single,
      String.ofList_toList, String.ofList_toList]
    exact ⟨rfl, rfl⟩
  · rw [Level.beforeLast_eq_nil single, Level.last_eq_self single, String.ofList_toList]
    exact ⟨rfl, rfl⟩

/-- At one bridge the request of a client begins as that of a caller does, or is refused for the same
reason. -/
theorem agree_executeBytes {site : Site M} {bridge : Bridge} {target path method : String}
    (there : site.tree.bridge? mirror.bridge = some bridge)
    (endpoints : mirror.Endpoints mirror.bridge bridge.endpoint bridge.endpoint)
    (spells : target = path ++ "/" ++ method ∨ path = "" ∧ target = method)
    (single : '/' ∉ method.toList) (short : path.utf8ByteSize ≤ maxPath) (payload : Bytes)
    (now : Nat) :
    Agree (fun begun issued => ∃ endpoint, mirror.Endpoints mirror.bridge begun.2 endpoint ∧
        issued = (site.withTree (site.tree.setEndpoint mirror.bridge endpoint)).route
          (.up mirror.bridge begun.1))
      (Site.beginClientRequest bridge target payload (now + site.tree.timeout) mirror.topic)
      (site.executeBytes mirror.bridge method path payload now mirror.tag) := by
  obtain ⟨hpath, hmethod⟩ := level_of_target spells single
  obtain ⟨dest, hdest⟩ := Path.exists_ofText short
  have hneed : site.tree.needEndpoint mirror.bridge = .ok bridge.endpoint :=
    Site.needEndpoint_of_endpoint? (Tree.endpoint?_of_bridge? there)
  simp only [Site.beginClientRequest, Site.clientRequest, Site.executeBytes, Site.execute, hpath,
    hmethod, hdest, ok_bind, bind_assoc, hneed]
  refine .after fun params _ => .after fun request made => ?_
  obtain rfl : request.method = method := by
    unfold Envelope.request Envelope.outgoing at made
    split at made
    · cases made
      rfl
    · cases made
  refine .bind (endpoints.beginRequest (fun key => .own key _ rfl) request.method) ?_
  rintro ⟨key, begun⟩ ⟨_, begun'⟩ ⟨rfl, hbegun⟩
  exact .ok ⟨begun', hbegun, rfl⟩

/-- A request that is refused is answered at once. -/
theorem requestFor_of_error {site : Site M} {bridge : Bridge} {target : String} {payload : Bytes}
    {now : Nat} {e : Error} (fits : ("<-" ++ target).utf8ByteSize ≤ maxPath)
    (refused : Site.beginClientRequest bridge target payload (now + site.tree.timeout)
      ("<-" ++ target) = .error e) (id : Nat) :
    site.requestFor id bridge now target payload
      = site.answerClient id ("<-" ++ target) e.returnCode Params.empty := by
  have hreply : Kind.response.marker ++ target = "<-" ++ target := rfl
  simp only [Site.requestFor, hreply, if_neg (Nat.not_lt.2 fits), refused]

/-- A request that has begun is routed from its bridge. -/
theorem requestFor_of_ok {site : Site M} {bridge : Bridge} {target : String} {payload : Bytes}
    {now : Nat} {request : Envelope} {endpoint : Endpoint}
    (fits : ("<-" ++ target).utf8ByteSize ≤ maxPath)
    (begun : Site.beginClientRequest bridge target payload (now + site.tree.timeout)
      ("<-" ++ target) = .ok (request, endpoint)) (id : Nat) :
    site.requestFor id bridge now target payload
      = (site.withTree (site.tree.setEndpoint id endpoint)).route (.up id request) := by
  have hreply : Kind.response.marker ++ target = "<-" ++ target := rfl
  simp only [Site.requestFor, hreply, if_neg (Nat.not_lt.2 fits), begun]

/-- A client that is refused is told so, which makes no difference to what the site is compared
with. -/
theorem exists_refusal (site : Site M) (trees : mirror.Trees site.tree site.tree)
    (media : mirror.alike site.medium site.medium) (free : 0 ∈ site.pool.holders)
    (session : (site.tree.client? mirror.bridge).isSome) (code : ReturnCode) :
    ∃ frame, mirror.reply code Params.empty = .ok frame ∧
      let told := site.answerClient mirror.bridge mirror.topic code Params.empty
      told.log = site.log ++ [.wrote mirror.socket frame.encode] ∧
        told.pool.holders = site.pool.holders ∧ mirror.Trees told.tree site.tree ∧
        mirror.alike told.medium site.medium ∧
        ∀ entry, told.tree.awaited entry = site.tree.awaited entry := by
  obtain ⟨frame, hframe⟩ := exists_toFrame_reply mirror.fits code Params.empty
  obtain ⟨channel, hchannel⟩ := Site.exists_channel?_of_client? session
  have hrel := trees.channel? mirror.bridge
  rw [hchannel] at hrel
  cases hrel with
  | some hsame =>
    obtain ⟨after, hsent, hafter⟩ := mirror.veils.written frame.encode media
    rw [← hsame.own rfl] at hsent
    obtain ⟨kept, hkept, htold⟩ := Site.answerClient_eq session free hframe hchannel hsent
    refine ⟨frame, hframe, ?_⟩
    simp only [htold]
    refine ⟨by rw [hsame.own rfl], hkept, trees.setChannel_left fun other hother => ?_, hafter,
      fun entry => ?_⟩
    · obtain rfl : channel = other := Option.some.inj (hchannel.symm.trans hother)
      exact ⟨rfl, rfl, hsame.own, hsame.near⟩
    · simp only [Tree.awaited, Tree.endpoint?_setChannel]

/-- A PUBLISH of a request that its bridge handles is a request of the bridge, made while the frame
has a slot. -/
theorem exists_take_poll {site : Site M} {id : Nat} {bridge : Bridge} {target : String}
    {payload : Bytes} (asks : site.Receives id bridge target payload) (now : Nat) :
    ∃ slot held requested, site.pool.holders.findIdx? (· = 0) = some slot ∧
      held.pool.holders = site.pool.holders.modify slot (fun _ => 1) ∧
      (∃ pool, held = { site.polled id bridge.channel with pool }) ∧
      requested = Site.requestFor held id
        { bridge with channel := (bridge.channel.poll site.medium).2.1 } now target payload ∧
      site.take (.poll now id) = { requested with pool := requested.pool.release slot } := by
  obtain ⟨frame, publish, hheard, hpublish, htopic, rfl⟩ := asks.heard
  obtain ⟨session, hsession⟩ := Option.isSome_iff_exists.1 asks.session
  obtain ⟨hbridge, hfree, hframe⟩ := Site.heard?_eq_some hheard
  rcases Pool.bind_cases site.pool frame with ⟨hfull, -⟩ | ⟨slot, pool, hslot, hbind, hheld⟩
  · exact absurd (Pool.zero_mem_holders.2 hfree) hfull
  have htype := Publish.packetType_of_ofFrame hpublish
  have hmarker : Kind.splitMarker publish.topic = some (.request, target) :=
    Kind.splitMarker_eq_some.2 htopic
  have hbound : (site.polled id bridge.channel).pool.bind frame = .ok (slot, pool) := hbind
  refine ⟨slot, { site.polled id bridge.channel with pool }, _, hslot, hheld, ⟨pool, rfl⟩, rfl, ?_⟩
  change Site.pollAt now site id = _
  rw [Site.pollAt_eq (Tree.channel?_of_bridge? hbridge), hframe]
  dsimp only
  rw [Site.receive_of_bridge? (Site.bridge?_polled hbridge)]
  simp only [Site.holding, hbound, Site.receiveBridge, htype, Site.publish, hpublish, hsession,
    hmarker]

/-- What a request of the client is compared with: the same request of a caller, made at the site at
which the PUBLISH has come in. -/
structure Arrives (mirror : Mirror M) (site : Site M) (bridge : Bridge) (target path method : String)
    (payload : Bytes) : Prop where
  asks : site.Receives mirror.bridge bridge target payload
  topic : mirror.topic = "<-" ++ target
  spells : target = path ++ "/" ++ method ∨ path = "" ∧ target = method
  single : '/' ∉ method.toList
  short : target.utf8ByteSize ≤ 126
  free : 2 ≤ site.pool.available
  trees : mirror.Trees (site.polled mirror.bridge bridge.channel).tree
    (site.polled mirror.bridge bridge.channel).tree
  media : mirror.alike (site.polled mirror.bridge bridge.channel).medium
    (site.polled mirror.bridge bridge.channel).medium

namespace Arrives

variable {site : Site M} {bridge : Bridge} {target path method : String} {payload : Bytes}

/-- The path of the request is short enough to be read. -/
theorem path_le (h : mirror.Arrives site bridge target path method payload) :
    path.utf8ByteSize ≤ maxPath := by
  have hshort := h.short
  rcases h.spells with rfl | ⟨rfl, -⟩
  · simp only [String.utf8ByteSize_append] at hshort
    simp only [maxPath]
    omega
  · exact Nat.zero_le _

/-- The topic on which the client is told is short enough to be written. -/
theorem topic_le (h : mirror.Arrives site bridge target path method payload) :
    ("<-" ++ target).utf8ByteSize ≤ maxPath := by
  have hshort := h.short
  have hlead : "<-".utf8ByteSize = 2 := rfl
  rw [String.utf8ByteSize_append, hlead]
  simp only [maxPath]
  omega

/-- Before the request begins, the bridge has one endpoint whoever asks. -/
theorem endpoints (h : mirror.Arrives site bridge target path method payload) :
    mirror.Endpoints mirror.bridge bridge.endpoint bridge.endpoint := by
  obtain ⟨_, _, hheard, _⟩ := h.asks.heard
  have hrel := h.trees.endpoint? mirror.bridge
  rw [Tree.endpoint?_of_bridge? (Site.bridge?_polled (Site.heard?_eq_some hheard).1)] at hrel
  cases hrel with | some hsame => exact hsame

end Arrives

/-- The request of the client begins as that of the caller and is routed as that is, or the client is
told at once that it is refused. -/
theorem Arrives.cases {site : Site M} {bridge : Bridge} {target path method : String}
    {payload : Bytes} (h : mirror.Arrives site bridge target path method payload)
    (past : mirror.past = site.log) (past' : mirror.past' = site.log) (now : Nat)
    {polled answered : Site M} (arrived : site.polled mirror.bridge bridge.channel = polled)
    (handled : site.take (.poll now mirror.bridge) = answered) :
    (∃ issued, polled.executeBytes mirror.bridge method path payload now mirror.tag = .ok issued ∧
      mirror.Sites site.pool.holders site.pool.holders answered issued) ∨
    ∃ e frame, polled.executeBytes mirror.bridge method path payload now mirror.tag = .error e ∧
      mirror.reply e.returnCode Params.empty = .ok frame ∧
      answered.log = site.log ++ [.wrote mirror.socket frame.encode] ∧
      answered.pool.holders = site.pool.holders ∧
      mirror.Trees answered.tree polled.tree ∧ mirror.alike answered.medium polled.medium ∧
      ∀ entry, answered.tree.awaited entry = site.tree.awaited entry := by
  obtain ⟨frame, _, hheard, _⟩ := h.asks.heard
  obtain ⟨hbridge, -, -⟩ := Site.heard?_eq_some hheard
  have there := Site.bridge?_polled hbridge
  have htrees := h.trees
  have hmedia := h.media
  have hlog : polled.log = site.log := arrived ▸ rfl
  have hpool : polled.pool = site.pool := arrived ▸ rfl
  have hawaited : ∀ entry, polled.tree.awaited entry = site.tree.awaited entry := fun entry => by
    rw [← arrived, Site.polled, Tree.awaited, Tree.endpoint?_setChannel, Tree.awaited]
  obtain ⟨slot, held, requested, hslot, hheld, ⟨pool, hsite⟩, hrequested, hanswered⟩ :=
    exists_take_poll h.asks now
  rw [arrived] at there htrees hmedia hsite
  rw [handled] at hanswered
  have htree : held.tree = polled.tree := hsite ▸ rfl
  have hmedium : held.medium = polled.medium := hsite ▸ rfl
  have hpast : held.log = site.log := by rw [hsite, hlog]
  have hcount := Pool.count_le_count_modify site.pool.holders slot fun _ => 1
  have hfree : 2 ≤ site.pool.holders.count 0 := Pool.count_holders site.pool ▸ h.free
  have hzero : 0 ∈ site.pool.holders.modify slot fun _ => 1 := List.count_pos_iff.1 (by omega)
  have hclient : (polled.tree.client? mirror.bridge).isSome := by
    rw [Tree.client?, there, Option.isSome_map]
    exact h.asks.session
  have hrelease : ∀ other : Pool, other.holders = site.pool.holders.modify slot (fun _ => 1) →
      (other.release slot).holders = site.pool.holders := fun other hother => by
    rw [Pool.holders_release, hother, Pool.modify_modify_of_findIdx? hslot]
  have hagree := agree_executeBytes there h.endpoints h.spells h.single h.path_le payload now
  rw [h.topic, ← htree] at hagree
  generalize hbegun : Site.beginClientRequest _ target payload _ _ = begun at hagree
  generalize polled.executeBytes mirror.bridge method path payload now mirror.tag = issued
    at hagree ⊢
  rw [← htree] at hclient htrees
  rw [← hmedium] at hmedia
  cases hagree with
  | error e =>
    rw [requestFor_of_error h.topic_le hbegun] at hrequested
    obtain ⟨made, hmade, hlog', hholders, htrees', hmedia', hawaited'⟩ :=
      exists_refusal held htrees hmedia (hheld ▸ hzero) hclient e.returnCode
    rw [h.topic, ← hrequested] at hlog' hholders htrees' hmedia' hawaited'
    refine .inr ⟨e, made, rfl, hmade, ?_⟩
    rw [hanswered, ← htree, ← hmedium]
    exact ⟨hpast ▸ hlog', hrelease _ (hholders.trans hheld), htrees', hmedia',
      fun entry => (hawaited' entry).trans (htree ▸ hawaited entry)⟩
  | @ok begun issued hok =>
    obtain ⟨request, endpoint⟩ := begun
    obtain ⟨endpoint', hsame, rfl⟩ := hok
    rw [requestFor_of_ok h.topic_le hbegun] at hrequested
    have hbegin : mirror.Sites (site.pool.holders.modify slot fun _ => 1) site.pool.holders
        (held.withTree (held.tree.setEndpoint mirror.bridge endpoint))
        (polled.withTree (held.tree.setEndpoint mirror.bridge endpoint')) := by
      refine ⟨htrees.setEndpoint hsame, hmedium ▸ hmedia, hheld, congrArg Pool.holders hpool, [],
        [], ?_, ?_, .nil⟩
      · rw [Site.log_withTree, past, hpast, List.append_nil]
      · rw [Site.log_withTree, past', hlog, List.append_nil]
    have hcore := Tree.core_setEndpoint held.tree mirror.bridge endpoint
    have hroute := hbegin.route ⟨fun _ => List.count_pos_iff.1 (by omega), fun _ => hzero⟩
      (.up mirror.bridge request)
      (.inl ⟨Tree.client?_eq_of_core hcore mirror.bridge ▸ hclient, hzero⟩)
    refine .inl ⟨_, rfl, ?_⟩
    rw [hanswered, hrequested]
    exact ⟨hroute.trees, hroute.media, hrelease _ hroute.slots, hroute.slots', hroute.log⟩

/-- Where the caller is refused, so is the client, and what was written until then has left the whole
site as it was. -/
theorem Arrives.run_issueFor {site polled : Site M} {bridge : Bridge} {target path method : String}
    {payload : Bytes} (h : mirror.Arrives site bridge target path method payload)
    (arrived : site.polled mirror.bridge bridge.channel = polled) {now : Nat} {e : Error}
    (refused : polled.executeBytes mirror.bridge method path payload now mirror.tag = .error e) :
    (Site.issueFor mirror.bridge target payload now mirror.topic).run polled = .error e polled := by
  obtain ⟨_, _, hheard, _⟩ := h.asks.heard
  obtain ⟨hbridge, -, -⟩ := Site.heard?_eq_some hheard
  have there := Site.bridge?_polled hbridge
  rw [arrived] at there
  have hagree := agree_executeBytes there h.endpoints h.spells h.single h.path_le payload now
  rw [refused] at hagree
  rw [Site.run_issueFor there]
  generalize Site.beginClientRequest _ target payload _ _ = begun at hagree ⊢
  cases hagree with | error => rfl

/-! ## Until the caller is told -/

/-- What is owed to the caller is awaited by the bridge. -/
theorem eq_bridge_of_isOwed {left right : Tree} (h : mirror.Trees left right) {id : Nat}
    {row : Pending} (hrow : row ∈ right.awaited id) (owed : row.isOwed mirror.tag) :
    id = mirror.bridge := by
  rcases Asker.rel_cases (h.endpoint? id) with ⟨-, hnone⟩ | ⟨endpoint, endpoint', -, hendpoint, hsame⟩
  · rw [Tree.awaited, hnone] at hrow
    cases hrow
  · rw [Tree.awaited_of_endpoint? hendpoint] at hrow
    have hpending := hsame.pending
    generalize endpoint.pending = rows at hpending
    generalize endpoint'.pending = rows' at hrow hpending
    induction hpending with
    | nil => cases hrow
    | cons head _ ih =>
      rcases List.mem_cons.1 hrow with rfl | hrest
      · cases head with
        | same _ other => exact absurd (by simpa [Pending.isOwed] using owed) other
        | own _ _ here => exact here
      · exact ih hrest

namespace Sites

variable {held : List Nat} {site site' : Site M} {steps steps' : List (RunStep M)}

/-- The same happens in both runs, until the client and the caller are told. -/
theorem exists_events (h : mirror.Sites held held site site')
    (wellFormed : site'.tree.WellFormed) (runs : mirror.Runs mirror.alike site steps steps') :
    ∃ events events', (site.follow steps).log = mirror.past ++ events ∧
      (site'.follow steps').log = mirror.past' ++ events' ∧
      List.Forall₂ mirror.Events events events' := by
  obtain ⟨_, hafter⟩ := h.follow wellFormed runs.alike runs.others runs.attends
  exact hafter.log

/-- Nothing is owed to the caller any more once its waiting time is over at the bridge. -/
theorem owed_eq_zero (h : mirror.Sites held held site site') (wellFormed : site'.tree.WellFormed)
    (runs : mirror.Runs mirror.alike site steps steps') {due : Nat}
    (late : ∀ row ∈ site'.tree.waiting, row.isOwed mirror.tag → row.deadline ≤ due)
    (ends : .expire due mirror.bridge ∈ steps) :
    (site'.follow steps').tree.owed mirror.tag = 0 := by
  obtain ⟨alike, attends, others⟩ := runs
  induction alike generalizing held site site' with
  | nil => cases ends
  | @cons step step' rest rest' halike _ ih =>
    obtain ⟨hsession, hfree, hattends⟩ := attends
    rw [List.forall_mem_cons] at others
    have hstep : Site.Keeps mirror.tag site' (site'.take step') := .of_take others.1 site'
    rcases List.mem_cons.1 ends with rfl | hlater
    · cases halike
      have hrest : Site.Keeps mirror.tag (Site.expireAt due site' mirror.bridge)
          ((Site.expireAt due site' mirror.bridge).follow rest') := .of_follow others.2 _
      refine List.countP_eq_zero.2 fun row hrow howed => ?_
      have hmem := hrest.rows row hrow howed
      have hlate := late row (hstep.rows row hmem howed) howed
      obtain ⟨id, hid⟩ := Tree.mem_waiting.1 hmem
      rw [Site.awaited_expireAt] at hid
      split at hid
      · exact Nat.not_lt.2 hlate (Endpoint.mem_expireIn.1 hid).2
      · next hne => exact hne (eq_bridge_of_isOwed h.trees hid howed).symm
    · have hslots : site.pool.available = held.count 0 := by rw [← Pool.count_holders, h.slots]
      obtain ⟨_, htaken⟩ := h.take wellFormed halike others.1 hsession (hslots ▸ hfree)
      exact ih htaken (Site.wellFormed_take wellFormed step')
        (fun row hrow howed => late row (hstep.rows row hrow howed) howed) hlater hattends others.2

end Sites
end Mirror

namespace Site

variable {M : Type} [Medium M]

/-- Where nobody has handed over the caller, nothing is owed to it and it has not been told. -/
theorem untold_follow {tag : String} {steps : List (RunStep M)}
    (others : ∀ step ∈ steps, ¬step.hands tag) (timeout : Nat) (pool : Pool) (medium : M) :
    ((start timeout pool medium).follow steps).tree.owed tag = 0 ∧
      ((start timeout pool medium).follow steps).tellings tag = [] := by
  have htotal := (Keeps.of_follow others (start timeout pool medium)).total
  have hzero : (start timeout pool medium).tree.owed tag
      + ((start timeout pool medium).tellings tag).length = 0 := rfl
  exact ⟨by omega, List.eq_nil_of_length_eq_zero (by omega)⟩

/-- A site at which a channel was polled is like itself, if nothing is owed to the caller. -/
theorem trees_polled {site : Site M} {asker : Asker} {bridge : Bridge}
    (there : site.tree.bridge? asker.bridge = some bridge) (fresh : site.tree.owed asker.tag = 0)
    (socket : bridge.channel.socket = asker.socket)
    (nearby : ∀ id channel, site.tree.channel? id = some channel → asker.near channel.socket) :
    asker.Trees (site.polled asker.bridge bridge.channel).tree
      (site.polled asker.bridge bridge.channel).tree := by
  have hchannel := Tree.channel?_of_bridge? there
  have hsockets : ∀ id channel,
      (site.polled asker.bridge bridge.channel).tree.channel? id = some channel →
      ∃ old, site.tree.channel? id = some old ∧ channel.socket = old.socket := by
    intro id channel hfound
    rw [polled, Tree.channel?_setChannel] at hfound
    split at hfound
    · next heq =>
      rw [← heq, hchannel] at hfound
      exact ⟨bridge.channel, heq ▸ hchannel,
        Option.some.inj hfound ▸ Channel.socket_poll bridge.channel site.medium⟩
    · exact ⟨channel, hfound, rfl⟩
  refine .refl ?_ ?_ ?_ ?_
  · rw [polled, Tree.setChannel, Tree.setRole, Tree.size_modify]
    exact Tree.lt_size_of_endpoint? (Tree.endpoint?_of_bridge? there)
  · intro id row hrow howed
    rw [Tree.awaited, polled, Tree.endpoint?_setChannel] at hrow
    have hnone := List.countP_eq_zero.1 fresh row (Tree.mem_waiting.2 ⟨id, hrow⟩)
    exact hnone (by simp [Pending.isOwed, howed])
  · intro channel hfound
    obtain ⟨old, hold, heq⟩ := hsockets asker.bridge channel hfound
    obtain rfl : bridge.channel = old := Option.some.inj (hchannel.symm.trans hold)
    exact heq.trans socket
  · intro id channel hfound
    obtain ⟨old, hold, heq⟩ := hsockets id channel hfound
    exact heq ▸ nearby id old hold

end Site

/-- Cablings that nothing tells apart but at the far end of the cable at a port. -/
structure Cabling.Beyond (port client : String) (left right : Cabling) : Prop where
  same : ∀ label ≠ client, left.socket label = right.socket label
  cable : ∃ inbox fault, left.socket port = ⟨inbox, some client, fault, none⟩

/-- What is written at a port is seen at the far end of its cable only. -/
theorem Cabling.veils {port client : String} (apart : port ≠ client) :
    Veils (Cabling.Beyond port client) (· ≠ client) port where
  receive label near left right h := by
    obtain ⟨inbox, fault, hcable⟩ := h.cable
    simp only [Medium.receive, Cabling.receive, ← h.same label near]
    split
    · exact ⟨rfl, h⟩
    · exact ⟨rfl, h⟩
    · next byte rest _ _ =>
      refine ⟨rfl, fun other hother => ?_, ?_⟩
      · rw [Cabling.socket_set, Cabling.socket_set, h.same other hother]
      · rw [Cabling.socket_set, hcable]
        split
        · next heq =>
          subst heq
          exact ⟨rest, fault, by rw [hcable]⟩
        · exact ⟨inbox, fault, rfl⟩
  transmit label near bytes left right h := by
    obtain ⟨inbox, fault, hcable⟩ := h.cable
    simp only [Medium.transmit, Cabling.transmit, ← h.same label near]
    split
    · exact ⟨rfl, h⟩
    · exact ⟨rfl, h⟩
    · next peer _ _ =>
      refine ⟨rfl, fun other hother => ?_, ?_⟩
      · rw [Cabling.socket_feed, Cabling.socket_feed]
        split
        · next heq => rw [← heq, h.same other hother]
        · exact h.same other hother
      · rw [Cabling.socket_feed, hcable]
        split
        · next heq =>
          subst heq
          exact ⟨inbox ++ bytes, fault, by rw [hcable]⟩
        · exact ⟨inbox, fault, rfl⟩
  written bytes left right h := by
    obtain ⟨inbox, fault, hcable⟩ := h.cable
    refine ⟨_, Cabling.transmit_eq_ok hcable bytes, fun label hlabel => ?_, inbox, fault, ?_⟩
    · rw [Cabling.socket_feed, if_neg hlabel, h.same label hlabel]
    · rw [Cabling.socket_feed, if_neg apart, hcable]

namespace Site

variable {M : Type} [Medium M]

/-- Wherever a run has led: when the client of a bridge publishes a request there, it is answered as
a caller is who makes the same request from the bridge in the same state, in whatever follows
alike, as long as the client keeps its session, what is written to it goes out, and two slots are
free at every part of a tick. If the caller is refused, the client's request leaves nothing written
behind, the client is told so at once, and nothing more comes of it. If not, the client is told what
the caller is told, when the caller is told it: at most once, and exactly once as soon as overdue
waits of the bridge end when the waiting time is over. -/
theorem client_is_answered_like_caller {timeout : Nat} {pool : Pool} {medium : M}
    {before : List (RunStep M)} {site polled answered : Site M} {asker : Asker} {bridge : Bridge}
    {target path method : String} {payload : Bytes} {alike : M → M → Prop} {now : Nat}
    (reached : (start timeout pool medium).follow before = site)
    (own : ∀ step ∈ before, ¬step.hands asker.tag)
    (asks : site.Receives asker.bridge bridge target payload)
    (spells : target = path ++ "/" ++ method ∨ path = "" ∧ target = method)
    (single : '/' ∉ method.toList) (short : target.utf8ByteSize ≤ 126)
    (topic : asker.topic = "<-" ++ target) (socket : bridge.channel.socket = asker.socket)
    (nearby : ∀ id channel, site.tree.channel? id = some channel → asker.near channel.socket)
    (veils : Veils alike asker.near asker.socket) (free : 2 ≤ site.pool.available)
    (arrived : site.polled asker.bridge bridge.channel = polled)
    (here : alike polled.medium polled.medium)
    (handled : site.take (.poll now asker.bridge) = answered) :
    (∀ e, polled.executeBytes asker.bridge method path payload now asker.tag = .error e →
      (issueFor asker.bridge target payload now asker.topic).run polled = .error e polled ∧
      ∃ frame, asker.reply e.returnCode Params.empty = .ok frame ∧
        answered.log = site.log ++ [.wrote asker.socket frame.encode] ∧
        (∀ id, answered.tree.awaited id = site.tree.awaited id) ∧
        ∀ steps steps', asker.Runs alike answered steps steps' →
          ∃ events, (answered.follow steps).log = answered.log ++ events ∧
            (polled.follow steps').log = polled.log ++ events) ∧
    ∀ issued, polled.executeBytes asker.bridge method path payload now asker.tag = .ok issued →
      ∀ steps steps', asker.Runs alike answered steps steps' →
        ∃ events events', (answered.follow steps).log = site.log ++ events ∧
          (issued.follow steps').log = site.log ++ events' ∧ asker.Told events events' ∧
          ∀ due, now + timeout ≤ due → .expire due asker.bridge ∈ steps →
            (events'.filterMap (Event.telling? asker.tag)).length = 1 := by
  have hsite : site.tree.WellFormed := reached ▸ wellFormed_follow (.empty timeout) before
  have htimeout : site.tree.timeout = timeout := reached ▸ timeout_follow before _
  obtain ⟨howed, huntold⟩ := reached ▸ untold_follow own timeout pool medium
  obtain ⟨_, _, hheard, _⟩ := asks.heard
  obtain ⟨hbridge, -, -⟩ := heard?_eq_some hheard
  have hchannel := Tree.channel?_of_bridge? hbridge
  have hchange : Change site polled := arrived ▸ .poll hchannel
  have hpolled : Keeps asker.tag site polled := .of_change hchange
  have hlog : polled.log = site.log := arrived ▸ rfl
  have hdebts : polled.tree.owed asker.tag = 0 := by
    have htotal := hpolled.total
    simp only [tellings, hlog] at htotal
    omega
  have hfits : asker.topic.utf8ByteSize ≤ maxPath := by
    have hlead : "<-".utf8ByteSize = 2 := rfl
    rw [topic, String.utf8ByteSize_append, hlead]
    simp only [maxPath]
    omega
  have htrees : asker.Trees polled.tree polled.tree :=
    arrived ▸ trees_polled hbridge howed socket nearby
  let mirror : Mirror M := ⟨asker, alike, veils, hfits, site.log, site.log⟩
  have harrives : mirror.Arrives site bridge target path method payload :=
    ⟨asks, topic, spells, single, short, free, arrived ▸ htrees, arrived ▸ here⟩
  rcases harrives.cases rfl rfl now arrived handled with ⟨issued, hissued, hsites⟩ |
    ⟨e, frame, hrefused, hframe, hwrote, hholders, hafter, hmedia, hawaited⟩
  · refine ⟨fun e he => (by cases hissued.symm.trans he), fun other hother steps steps' runs => ?_⟩
    obtain rfl : issued = other := Except.ok.inj (hissued.symm.trans hother)
    obtain ⟨params, key, hexecute⟩ := executeBytes_eq_ok hother
    have hbegun : issued.tree.WellFormed := by
      have htaken := wellFormed_take (hchange.wellFormed hsite)
        (.execute asker.bridge method path params now asker.tag)
      simp only [take, move, perform, hexecute] at htaken
      exact htaken
    obtain ⟨events, events', hevents, hevents', hall⟩ := hsites.exists_events hbegun runs
    obtain ⟨hone, hlate⟩ := owed_execute hdebts hexecute
    have htotal := (Keeps.of_follow runs.others issued).total
    have htellings : (issued.follow steps').tellings asker.tag
        = events'.filterMap (Event.telling? asker.tag) := by
      rw [tellings, hevents', List.filterMap_append]
      exact congrArg (· ++ events'.filterMap _) huntold
    have hnone : polled.tellings asker.tag = [] := by rw [tellings, hlog, ← tellings, huntold]
    rw [hone, hnone, htellings, List.length_nil] at htotal
    have honce : (events'.filterMap (Event.telling? asker.tag)).length ≤ 1 := by omega
    refine ⟨events, events', hevents, hevents', Mirror.told_of_events hall honce,
      fun due hdue hover => ?_⟩
    have hwaits : polled.tree.timeout = timeout := arrived ▸ htimeout
    have hpaid : (issued.follow steps').tree.owed asker.tag = 0 :=
      hsites.owed_eq_zero hbegun runs (fun row hrow howed =>
        Nat.le_trans (hlate row hrow howed) (hwaits.symm ▸ hdue)) hover
    omega
  · refine ⟨fun other hother => ?_, fun issued hissued => by cases hrefused.symm.trans hissued⟩
    obtain rfl : e = other := Except.error.inj (hrefused.symm.trans hother)
    refine ⟨harrives.run_issueFor arrived hrefused, frame, hframe, hwrote, hawaited,
      fun steps steps' runs => ?_⟩
    have hsites : Mirror.Sites ⟨asker, alike, veils, hfits, answered.log, polled.log⟩
        site.pool.holders site.pool.holders answered polled :=
      ⟨hafter, hmedia, hholders, arrived ▸ rfl, [], [], by simp, by simp, .nil⟩
    obtain ⟨events, events', hevents, hevents', hall⟩ :=
      hsites.exists_events (hchange.wellFormed hsite) runs
    have htotal := (Keeps.of_follow runs.others polled).total
    have htellings : (polled.follow steps').tellings asker.tag
        = polled.tellings asker.tag ++ events'.filterMap (Event.telling? asker.tag) := by
      rw [tellings, hevents', List.filterMap_append, tellings]
    have hnone : polled.tellings asker.tag = [] := by rw [tellings, hlog, ← tellings, huntold]
    rw [hdebts, htellings, hnone, List.nil_append, List.length_nil] at htotal
    have huntold' : events'.filterMap (Event.telling? asker.tag) = [] :=
      List.eq_nil_of_length_eq_zero (by omega)
    exact ⟨events, hevents, Mirror.eq_of_untold hall huntold' ▸ hevents'⟩

/-- A CONNECT of protocol level 4 from client `c`, and a PUBLISH of a request behind it. -/
def visit : Bytes :=
  [0x10, 0x0d, 0, 4, 0x4d, 0x51, 0x54, 0x54, 4, 2, 0, 60, 0, 1, 0x63,
    0x30, 0x10, 0, 14, 0x2d, 0x3e, 0x7e, 0x2f, 0x2e, 0x2e, 0x2f, 0x64, 0x65, 0x73, 0x6b, 0x2f, 0x6f,
    0x6e]

/-- The steps that lead to a bridge below a local root whose client has a session and has published
a request for the other side of the link, where nobody answers. -/
def call : List (RunStep Cabling) :=
  [.build (.addDownlink "wire" "lamp" 10), .build (.addBridge 1 "door" "port" 23),
    .build (.setGuard 2 fun _ _ => true),
    .around (Pool.ofSize 2) ((Cabling.empty.connect "port" "client").feed "port" visit),
    .poll 1 2]

/-- A client whose request nobody answers is told of a timeout when a caller would be. -/
theorem visitor_times_out :
    let site := (start 5 (Pool.ofSize 2) Cabling.empty).follow call
    let answered := site.take (.poll 3 2)
    let steps : List (RunStep Cabling) := [.expire 7 2, .expire 8 2]
    let asker : Asker := ⟨2, "port", "<-~/../desk/on", "caller", (· ≠ "client")⟩
    ∃ issued events events', (answered.follow steps).log = site.log ++ events ∧
      (Site.follow issued steps).log = site.log ++ events' ∧ asker.Told events events' ∧
      (events'.filterMap (Event.telling? "caller")).length = 1 := by
  intro site answered steps asker
  let polled := ((site.tree.channel? 2).map (site.polled 2)).getD site
  have hissued : (polled.executeBytes 2 "on" "~/../desk" [] 3 "caller").isOk := by decide +kernel
  obtain ⟨issued, hissued⟩ := exists_eq_ok hissued
  have hheard : (site.heard? 2).map (fun heard => (heard.1.session.isSome, heard.1.channel.socket,
      (Publish.ofFrame heard.2).toOption))
      = some (true, "port", some (Publish.plain "->~/../desk/on" [])) := by decide +kernel
  obtain ⟨⟨bridge, frame⟩, hfound, heq⟩ := Option.map_eq_some_iff.1 hheard
  simp only [Prod.mk.injEq, toOption_eq_some] at heq
  obtain ⟨hsession, hsocket, hpublish⟩ := heq
  obtain ⟨hbridge, -, -⟩ := heard?_eq_some hfound
  have harrived : site.polled 2 bridge.channel = polled := by
    have hchannel := Tree.channel?_of_bridge? hbridge
    simp only [polled, hchannel, Option.map_some, Option.getD_some]
  have hsockets : ∀ id < site.tree.size,
      (site.tree.channel? id).all (·.socket ≠ "client") := by decide +kernel
  have hnearby : ∀ id channel, site.tree.channel? id = some channel → channel.socket ≠ "client" := by
    intro id channel hchannel
    by_cases hlt : id < site.tree.size
    · simpa [hchannel] using hsockets id hlt
    · have hnone : site.tree.get? id = none := List.getElem?_eq_none (Nat.le_of_not_lt hlt)
      rw [Tree.channel?, hnone] at hchannel
      cases hchannel
  have hown : ∀ step ∈ call, ¬step.hands "caller" := by
    simp [call, RunStep.hands]
  have hasks : site.Receives 2 bridge "~/../desk/on" [] :=
    ⟨hsession, frame, _, hfound, hpublish, rfl, rfl⟩
  have hspells : "~/../desk/on" = "~/../desk" ++ "/" ++ "on"
      ∨ "~/../desk" = "" ∧ "~/../desk/on" = "on" := .inl rfl
  have hhere : Cabling.Beyond "port" "client" polled.medium polled.medium :=
    ⟨fun _ _ => rfl, (polled.medium.socket "port").inbox, (polled.medium.socket "port").readFault, by
      decide +kernel⟩
  obtain ⟨-, haccepted⟩ := client_is_answered_like_caller (Eq.refl site) hown hasks hspells
    (by decide) (by decide) (Eq.refl asker.topic) hsocket hnearby (Cabling.veils (by decide))
    (by decide +kernel) harrived hhere rfl
  have hruns : asker.Runs (Cabling.Beyond "port" "client") answered steps steps := by
    refine ⟨.cons (.expire 7 2) (.cons (.expire 8 2) .nil), ?_, ?_⟩
    · refine ⟨by decide +kernel, fun _ => by decide +kernel, by decide +kernel,
        fun _ => by decide +kernel, trivial⟩
    · simp [steps, RunStep.hands]
  obtain ⟨events, events', hevents, hevents', htold, hover⟩ := haccepted issued hissued steps steps hruns
  exact ⟨issued, events, events', hevents, hevents', htold, hover 8 (by decide)
    (by simp [steps, asker])⟩

end Site
end TopicTree
