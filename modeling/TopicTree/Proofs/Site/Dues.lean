import TopicTree.Proofs.Routing.Fidelity
import TopicTree.Proofs.Routing.Publication
import TopicTree.Proofs.Site.Acceptance
import TopicTree.Proofs.Site.Adoption
import TopicTree.Proofs.Site.Interception
import TopicTree.Proofs.Site.Reserve

/-!
# What frames call for

Many a frame that comes in calls for one that goes out: an answer to whoever sent it, a message that
is handed over a link, or a notification that goes to those who subscribed to it. At a link it is
written in the same tick if one slot is free. At a bridge that takes two, because the frame that
came in keeps its slot until it has been handled: with one free slot nothing is written there.
-/

namespace TopicTree

namespace Site

variable {M : Type}

/-! ## What is called for -/

/-- What a message calls for where its way ends: one frame at each of some entries. -/
inductive Ends (tree : Tree) : Hop → List Nat → Frame → Prop
  /-- It is handed over a link. -/
  | relay {hop : Hop} {link : Nat} {relayed : Envelope} {frame : Frame}
      (relays : Relays tree hop link relayed) (made : relayed.toFrame = .ok frame) :
      Ends tree hop [link] frame
  /-- It is the response to a request of a client, who is told. -/
  | reply {here : Nat} {endpoint kept : Endpoint} {message : Envelope} {row : Pending}
      {topic : String} {frame : Frame} (there : tree.endpoint? here = some endpoint)
      (answers : message.kind = .response) (arrived : message.dest.isEmpty)
      (awaited : endpoint.settle? message.id = some (row, kept))
      (asked : row.requester = .client topic) (session : (tree.client? here).isSome)
      (made : (Publish.plain topic (message.code.toByte :: message.params.bytes)).toFrame
        = .ok frame) :
      Ends tree (.down here message) [here] frame
  /-- It is a notification at the top, and goes to those who subscribed to it. -/
  | spread {here : Nat} {entry : Entry} {message : Envelope} {frame : Frame}
      (there : tree.get? here = some entry) (top : entry.parent = none)
      (inner : ¬tree.isDeviceEnd here) (notifies : message.kind = .notification)
      (made : (Publish.plain (fanOutTopic message) message.params.bytes).toFrame = .ok frame) :
      Ends tree (.up here message) (tree.subscribers (fanOutTopic message)) frame

variable [Medium M]

/-- What a message calls for that sets out at a site. -/
def Owes (site : Site M) (hop : Hop) (ids : List Nat) (frame : Frame) : Prop :=
  ∃ last mid, Goes hop site last mid ∧ Ends mid.tree last ids frame

/-- How a hub end responds to a petition. -/
inductive Verdict (tree : Tree) (id : Nat) (petition : Envelope) : Envelope → Prop
  | granted {name : Name} (grants : tree.denial? id petition.wish = none)
      (wishes : name.text = petition.wish) :
      Verdict tree id petition (petition.response .success (.ofName name))
  | denied {code : ReturnCode} (denies : tree.denial? id petition.wish = some code) :
      Verdict tree id petition (petition.response code Params.empty)

/-- What a frame calls for that came in at a link. -/
inductive LinkOwes (site : Site M) (id : Nat) (link : Link) (frame : Frame) :
    List Nat → Frame → Prop
  /-- A petition for a name is answered. -/
  | petition {petition response : Envelope} {answer : Frame} (place : link.place = .hub)
      (below : (site.tree.parent? id).isSome) (reads : Envelope.ofFrame frame = .ok petition)
      (petitions : petition.isPetition) (verdict : Verdict site.tree id petition response)
      (made : response.toFrame = .ok answer) : LinkOwes site id link frame [id] answer
  /-- Any other message goes on from a hub end that has a name. -/
  | fromBelow {message : Envelope} {ids : List Nat} {answer : Frame} (place : link.place = .hub)
      (reads : Envelope.ofFrame frame = .ok message) (other : ¬message.isPetition)
      (named : (site.tree.name? id).isSome) (owes : site.Owes (.up id message) ids answer) :
      LinkOwes site id link frame ids answer
  /-- Unless it is for the device end itself, a message goes on from the local root. -/
  | fromAbove {message : Envelope} {root : Nat} {ids : List Nat} {answer : Frame}
      (place : link.place = .device) (reads : Envelope.ofFrame frame = .ok message)
      (other : ¬(message.kind = .response ∧ message.dest.isManager))
      (below : (site.tree.children id).head? = some root)
      (owes : site.Owes (.down root message) ids answer) : LinkOwes site id link frame ids answer

/-- What a frame calls for that came in at a bridge. -/
inductive BridgeOwes (site : Site M) (now id : Nat) (bridge : Bridge) (frame : Frame) :
    List Nat → Frame → Prop
  | pingReq (type : frame.packetType = .ok .pingReq) :
      BridgeOwes site now id bridge frame [id] Bare.pingResp.toFrame
  /-- A CONNECT is refused out of hand. -/
  | refused {guard : Guard} {connect : Connect} {outcome : ConnectOutcome} {answer : Frame}
      (type : frame.packetType = .ok .connect) (guarded : bridge.guard = some guard)
      (reads : Connect.ofFrame frame = .ok connect)
      (refuses : bridge.refusal? connect = some outcome)
      (made : ConnAck.toFrame ⟨false, outcome⟩ = .ok answer) :
      BridgeOwes site now id bridge frame [id] answer
  /-- The guard is asked about a CONNECT. -/
  | asked {guard : Guard} {connect : Connect} {answer : Frame}
      (type : frame.packetType = .ok .connect) (guarded : bridge.guard = some guard)
      (reads : Connect.ofFrame frame = .ok connect) (passes : bridge.refusal? connect = none)
      (made : ConnAck.toFrame ⟨false, if guard bridge.seen connect.credentials then .accepted
        else .badCredentials⟩ = .ok answer) :
      BridgeOwes site now id bridge frame [id] answer
  | subscribe {subscribe : Subscribe} {session : Session} {ack : SubAck} {answer : Frame}
      (type : frame.packetType = .ok .subscribe) (reads : Subscribe.ofFrame frame = .ok subscribe)
      (inSession : bridge.session = some session) (number : ack.packetId = subscribe.packetId)
      (grants : ack.grants = (session.subscribeAll (subscribe.filters.map (·.1))).1)
      (made : ack.toFrame = .ok answer) : BridgeOwes site now id bridge frame [id] answer
  /-- A request of the client is refused, and it is told at once. -/
  | refusedRequest {publish : Publish} {target : String} {e : Error} {answer : Frame}
      (type : frame.packetType = .ok .publish) (reads : Publish.ofFrame frame = .ok publish)
      (inSession : bridge.session.isSome)
      (marked : Kind.splitMarker publish.topic = some (.request, target))
      (short : (Kind.response.marker ++ target).utf8ByteSize ≤ maxPath)
      (refused : beginClientRequest bridge target publish.payload (now + site.tree.timeout)
        (Kind.response.marker ++ target) = .error e)
      (made : (Publish.plain (Kind.response.marker ++ target)
        (e.returnCode.toByte :: Params.empty.bytes)).toFrame = .ok answer) :
      BridgeOwes site now id bridge frame [id] answer
  /-- A request of the client sets out. -/
  | request {publish : Publish} {target : String} {request : Envelope} {endpoint : Endpoint}
      {ids : List Nat} {answer : Frame} (type : frame.packetType = .ok .publish)
      (reads : Publish.ofFrame frame = .ok publish) (inSession : bridge.session.isSome)
      (marked : Kind.splitMarker publish.topic = some (.request, target))
      (short : (Kind.response.marker ++ target).utf8ByteSize ≤ maxPath)
      (begins : beginClientRequest bridge target publish.payload (now + site.tree.timeout)
        (Kind.response.marker ++ target) = .ok (request, endpoint))
      (owes : (site.withTree (site.tree.setEndpoint id endpoint)).Owes (.up id request) ids
        answer) :
      BridgeOwes site now id bridge frame ids answer
  /-- A notification of the client sets out. -/
  | notification {publish : Publish} {params : Params} {notification : Envelope} {ids : List Nat}
      {answer : Frame} (type : frame.packetType = .ok .publish)
      (reads : Publish.ofFrame frame = .ok publish) (inSession : bridge.session.isSome)
      (unmarked : Kind.splitMarker publish.topic = none)
      (fits : Params.ofBytes publish.payload = .ok params)
      (begins : Envelope.notification publish.topic bridge.endpoint.allocateId.1 publish.qos params
        = .ok notification)
      (owes : (site.withTree (site.tree.setEndpoint id bridge.endpoint.allocateId.2)).Owes
        (.up id notification) ids answer) : BridgeOwes site now id bridge frame ids answer

/-- What a frame calls for that came in at an entry. -/
inductive CallsFor (site : Site M) (now id : Nat) (frame : Frame) (ids : List Nat)
    (answer : Frame) : Prop
  | link {link : Link} (there : site.tree.link? id = some link)
      (owes : site.LinkOwes id link frame ids answer)
  | bridge {bridge : Bridge} (there : site.tree.bridge? id = some bridge)
      (owes : site.BridgeOwes now id bridge frame ids answer)

/-! ## What is called for is written -/

/-- A frame has been written at the channel of an entry. -/
def Wrote (tree : Tree) (frame : Frame) (id : Nat) (event : Event) : Prop :=
  ∃ channel, tree.channel? id = some channel ∧ event = .wrote channel.socket frame.encode

/-- A frame has been written at each of some entries, after whatever else has happened. -/
def Delivers (frame : Frame) (ids : List Nat) (before after : Site M) : Prop :=
  ∃ events writes, after.log = before.log ++ events ++ writes ∧
    List.Forall₂ (Wrote before.tree frame) ids writes

variable {kind : M → Prop} {site before mid after : Site M} {id : Nat} {frame answer : Frame}
  {ids : List Nat}

/-- What has been written later at the same sockets has been written at them. -/
theorem Wrote.of_same {left right : Tree} {event : Event} (h : Wrote right frame id event)
    (same : left.SameSockets right) : Wrote left frame id event := by
  obtain ⟨channel, there, heq⟩ := h
  obtain ⟨old, hold, hsocket⟩ := same.exists_channel? there
  exact ⟨old, hold, hsocket ▸ heq⟩

omit [Medium M] in
/-- What is delivered behind some events is delivered. -/
theorem Delivers.behind (h : Delivers frame ids mid after)
    (log : ∃ events, mid.log = before.log ++ events) (same : before.tree.SameSockets mid.tree) :
    Delivers frame ids before after := by
  obtain ⟨early, hearly⟩ := log
  obtain ⟨events, writes, hlog, hwrites⟩ := h
  refine ⟨early ++ events, writes, ?_, hwrites.imp fun id event hwrote => hwrote.of_same same⟩
  rw [hlog, hearly, List.append_assoc before.log]

omit [Medium M] in
/-- What is delivered once the tree has changed is delivered. -/
theorem Delivers.withTree {tree : Tree} (h : Delivers frame ids (site.withTree tree) after)
    (same : site.tree.SameSockets tree) : Delivers frame ids site after :=
  h.behind ⟨[], by simp⟩ same

/-- A packet that is sent with a free slot is delivered. -/
theorem delivers_sendPacket {ε : Type} {packet : Except ε Frame} {channel : Channel}
    (accepting : Accepting kind site) (free : site.pool.available ≠ 0)
    (there : site.tree.channel? id = some channel) (made : packet = .ok frame) :
    Delivers frame [id] site (site.sendPacket id packet) := by
  obtain ⟨pool, -, hsend⟩ := send_eq there free frame
  obtain ⟨medium, -, hwrite⟩ := accepting.exists_write there frame
  rw [made, sendPacket, hsend, hwrite]
  exact ⟨[], [_], by simp, .cons ⟨channel, there, rfl⟩ .nil⟩

/-- A packet that is sent with a free slot once something has changed, but no channel, is
delivered. -/
theorem delivers_sendPacket_later {ε : Type} {packet : Except ε Frame} {channel : Channel}
    (accepting : Accepting kind before) (free : before.pool.available ≠ 0)
    (there : before.tree.channel? id = some channel) (made : packet = .ok frame)
    (channels : ∀ id, mid.tree.channel? id = before.tree.channel? id)
    (others : mid.pool = before.pool ∧ mid.medium = before.medium)
    (log : ∃ events, mid.log = before.log ++ events) :
    Delivers frame [id] before (mid.sendPacket id packet) := by
  have hsame : before.tree.SameSockets mid.tree := .of_channel? channels
  have hmid := accepting.of_same hsame (others.2 ▸ accepting.medium)
  have hthere := (channels id).trans there
  exact (delivers_sendPacket hmid (others.1 ▸ free) hthere made).behind log hsame

/-- A frame that is written at some entries is noted for each of them. -/
theorem exists_writeAll (accepting : Accepting kind site) (frame : Frame)
    (there : ∀ id ∈ ids, (site.tree.channel? id).isSome) :
    ∃ writes, (site.writeAll frame ids).log = site.log ++ writes ∧
      List.Forall₂ (Wrote site.tree frame) ids writes := by
  induction ids generalizing site with
  | nil => exact ⟨[], by simp [writeAll], .nil⟩
  | cons id rest ih =>
    obtain ⟨channel, hchannel⟩ := Option.isSome_iff_exists.1 (there id List.mem_cons_self)
    obtain ⟨medium, -, hwrite⟩ := accepting.exists_write hchannel frame
    have hsame : site.tree.SameSockets (site.write id frame).tree := by
      rw [hwrite]
      exact .of_core (Tree.core_setChannel hchannel rfl)
    obtain ⟨writes, hlog, hall⟩ := ih (accepting.write id frame) fun other hother => by
      have hmap := congrArg Option.isSome (hsame other)
      rw [Option.isSome_map, Option.isSome_map] at hmap
      exact hmap.trans (there other (List.mem_cons_of_mem id hother))
    refine ⟨.wrote channel.socket frame.encode :: writes, ?_, .cons ⟨channel, hchannel, rfl⟩ ?_⟩
    · change ((site.write id frame).writeAll frame rest).log = _
      rw [hlog, hwrite]
      simp
    · exact hall.imp fun other event hwrote => hwrote.of_same hsame

/-- A notification that goes out with a free slot is delivered to those who subscribed to it. -/
theorem delivers_fanOut {notification : Envelope} (accepting : Accepting kind site)
    (free : site.pool.available ≠ 0)
    (made : (Publish.plain (fanOutTopic notification) notification.params.bytes).toFrame
      = .ok frame) :
    Delivers frame (site.tree.subscribers (fanOutTopic notification)) site
      (site.fanOut notification) := by
  have hsize := size_clientTopic_le notification.source.fits notification.methodFits
  rw [← fanOutTopic_eq] at hsize
  by_cases hnone : site.tree.subscribers (fanOutTopic notification) = []
  · rw [fanOut, if_pos (.inr hnone), hnone]
    exact ⟨[], [], by simp, .nil⟩
  · obtain ⟨slot, pool, hbind⟩ := Pool.exists_bind free frame
    have hholding : Accepting kind { site with pool } := ⟨accepting.medium, accepting.takes⟩
    have hchannels : ∀ id ∈ site.tree.subscribers (fanOutTopic notification),
        (site.tree.channel? id).isSome := by
      intro id hid
      obtain ⟨bridge, -, hbridge, -⟩ := Tree.mem_subscribers.1 hid
      simp [Tree.channel?_of_bridge? hbridge]
    obtain ⟨writes, hlog, hwrites⟩ := exists_writeAll hholding frame hchannels
    rw [fanOut, if_neg (not_or.2 ⟨Nat.not_lt_of_le hsize, hnone⟩)]
    simp only [made, holding, hbind]
    exact ⟨[], writes, by simpa using hlog, hwrites⟩

/-- A client with a session is told with a free slot. -/
theorem delivers_answerClient {topic : String} {code : ReturnCode} {params : Params}
    (accepting : Accepting kind site) (free : site.pool.available ≠ 0)
    (session : (site.tree.client? id).isSome)
    (made : (Publish.plain topic (code.toByte :: params.bytes)).toFrame = .ok frame) :
    Delivers frame [id] site (site.answerClient id topic code params) := by
  obtain ⟨client, hclient⟩ := Option.isSome_iff_exists.1 session
  obtain ⟨channel, hchannel⟩ := exists_channel?_of_client? session
  simp only [answerClient, hclient]
  exact delivers_sendPacket accepting free hchannel made

/-- Where its way ends, what a message calls for is delivered with a free slot. -/
theorem Ends.delivers {hop : Hop} (h : Ends site.tree hop ids frame)
    (accepting : Accepting kind site) (free : site.pool.available ≠ 0) :
    ∃ after, site.step hop = (none, after) ∧ Delivers frame ids site after := by
  cases h with
  | @relay _ link relayed _ relays made =>
    obtain ⟨channel, hchannel⟩ : ∃ channel, site.tree.channel? link = some channel := by
      cases relays with
      | up outer =>
        rw [Tree.isDeviceEnd, Option.any_eq_true] at outer
        obtain ⟨found, hlink, -⟩ := outer
        exact ⟨_, Tree.channel?_of_link? hlink⟩
      | down there => exact ⟨_, Tree.channel?_of_link? there⟩
    exact ⟨_, relays.step, delivers_sendPacket accepting free hchannel made⟩
  | @reply here endpoint kept message row topic _ there answers arrived awaited asked session
      made =>
    have hform := (Tree.isSome_endpoint?_iff site.tree here).1 (by rw [there]; rfl)
    have hcore := Tree.core_setEndpoint site.tree here kept
    refine ⟨site.settle here endpoint message, ?_, ?_⟩
    · rw [stepDown_descend hform, descend, if_pos arrived]
      simp only [deliver, there, answers]
    · simp only [settle, awaited, tell, asked]
      refine Delivers.withTree ?_ (.of_core hcore)
      exact delivers_answerClient ((Accepting.steady kind).setEndpoint here kept accepting) free
        ((Tree.client?_eq_of_core hcore here).symm ▸ session) made
  | @spread here entry message _ there top inner notifies made =>
    refine ⟨site.fanOut message, ?_, delivers_fanOut accepting free made⟩
    have hturn : site.tree.isTurn entry message := by
      rw [Tree.isTurn, if_pos notifies, top]
      rfl
    simp only [step, stepUp, there, if_neg inner, if_pos hturn, if_pos notifies]

/-- What a message calls for that sets out is delivered with a free slot. -/
theorem Owes.delivers {hop : Hop} (h : site.Owes hop ids frame)
    (wellFormed : site.tree.WellFormed) (accepting : Accepting kind site)
    (free : site.pool.available ≠ 0) : Delivers frame ids site (site.route hop) := by
  obtain ⟨last, mid, hgoes, hends⟩ := h
  have hworks := hgoes.works
  have hsame : site.tree.SameSockets mid.tree := .of_channel? hworks.channel?
  obtain ⟨after, hstep, hdelivers⟩ :=
    hends.delivers (accepting.of_same hsame (hworks.medium ▸ accepting.medium)) (hworks.pool ▸ free)
  obtain ⟨calls, hcalls, -⟩ := hworks.log
  rw [hgoes.route_eq wellFormed hstep]
  exact hdelivers.behind ⟨calls, hcalls⟩ hsame

/-- What a message calls for that sets out from an entry whose endpoint has begun a request or given
out a number is delivered with a free slot. -/
theorem Owes.delivers_begun {endpoint : Endpoint} {hop : Hop}
    (h : (site.withTree (site.tree.setEndpoint id endpoint)).Owes hop ids frame)
    (wellFormed : site.tree.WellFormed) (accepting : Accepting kind site)
    (free : site.pool.available ≠ 0) :
    Delivers frame ids site ((site.withTree (site.tree.setEndpoint id endpoint)).route hop) := by
  have hsame : site.tree.SameSockets (site.tree.setEndpoint id endpoint) :=
    .of_core (Tree.core_setEndpoint site.tree id endpoint)
  have hwell := wellFormed.congr (Tree.outline_setEndpoint site.tree id endpoint).symm
  have haccepting := (Accepting.steady kind).setEndpoint id endpoint accepting
  exact (h.delivers hwell haccepting free).withTree hsame

/-! ## Frames at links -/

/-- The response to a petition is delivered with a free slot. -/
theorem delivers_answerNaming {link : Link} {petition response : Envelope}
    (there : site.tree.link? id = some link) (below : (site.tree.parent? id).isSome)
    (verdict : Verdict site.tree id petition response) (made : response.toFrame = .ok answer)
    (accepting : Accepting kind site) (free : site.pool.available ≠ 0) :
    Delivers answer [id] site (site.answerNaming id link petition) := by
  obtain ⟨above, habove⟩ := Option.isSome_iff_exists.1 below
  have hchannel := Tree.channel?_of_link? there
  cases verdict with
  | @granted name grants wishes =>
    obtain ⟨other, hother, hanswer⟩ := answerNaming_of_granted habove grants link
    obtain rfl : other = name := Name.text_inj.1 (hother.trans wishes.symm)
    rw [hanswer]
    exact delivers_sendPacket_later accepting free hchannel made
      (Tree.channel?_setName site.tree id other) ⟨rfl, rfl⟩ ⟨_, rfl⟩
  | denied denies =>
    rw [answerNaming_of_denied habove denies]
    exact delivers_sendPacket accepting free hchannel made

/-- What a frame at a link calls for is delivered with a free slot. -/
theorem LinkOwes.delivers {link : Link} (h : site.LinkOwes id link frame ids answer)
    (there : site.tree.link? id = some link) (wellFormed : site.tree.WellFormed)
    (accepting : Accepting kind site) (free : site.pool.available ≠ 0) :
    Delivers answer ids site (site.receiveLink id link frame) := by
  cases h with
  | petition place below reads petitions verdict made =>
    simp only [receiveLink, reads, place, receiveAbove, if_pos (of_decide_eq_true petitions)]
    exact delivers_answerNaming there below verdict made accepting free
  | fromBelow place reads other named owes =>
    obtain ⟨name, hname⟩ := Option.isSome_iff_exists.1 named
    simp only [receiveLink, reads, place, receiveAbove,
      if_neg fun asks => other (decide_eq_true asks), hname]
    exact owes.delivers wellFormed accepting free
  | fromAbove place reads other below owes =>
    simp only [receiveLink, reads, place, receiveBelow, if_neg other, below]
    exact owes.delivers wellFormed accepting free

/-! ## Frames at bridges -/

/-- What a message calls for does not depend on how many slots are free, if one is. -/
theorem Owes.twins {spare : Nat} {left right : Site M} {hop : Hop} (h : left.Owes hop ids frame)
    (twins : Twins (spare + 1) left right) : right.Owes hop ids frame := by
  obtain ⟨last, mid, hgoes, hends⟩ := h
  induction hgoes generalizing right with
  | here hop site => exact ⟨hop, right, .here hop right, twins.tree ▸ hends⟩
  | @step hop next last site mid after first rest ih =>
    obtain ⟨hnext, hafter⟩ := twins.step hop
    rw [first] at hnext hafter
    obtain ⟨last', mid', hgoes, hends'⟩ := ih hafter hends
    have hstep : right.step hop = (some next, (right.step hop).2) := Prod.ext hnext rfl
    exact ⟨last', mid', .step hstep hgoes, hends'⟩

/-- What a frame at a bridge calls for does not depend on how many slots are free, if one is. -/
theorem BridgeOwes.twins {spare now : Nat} {left right : Site M} {bridge : Bridge}
    (h : left.BridgeOwes now id bridge frame ids answer) (twins : Twins (spare + 1) left right) :
    right.BridgeOwes now id bridge frame ids answer := by
  have hsame := twins.tree
  cases h with
  | pingReq type => exact .pingReq type
  | refused type guarded reads refuses made => exact .refused type guarded reads refuses made
  | asked type guarded reads passes made => exact .asked type guarded reads passes made
  | subscribe type reads inSession number grants made =>
    exact .subscribe type reads inSession number grants made
  | refusedRequest type reads inSession marked short refused made =>
    exact .refusedRequest type reads inSession marked short (hsame ▸ refused) made
  | request type reads inSession marked short begins owes =>
    exact .request type reads inSession marked short (hsame ▸ begins)
      (hsame ▸ owes.twins (twins.withTree _))
  | notification type reads inSession unmarked fits begins owes =>
    exact .notification type reads inSession unmarked fits begins
      (hsame ▸ owes.twins (twins.withTree _))

/-- What a frame at a bridge calls for is delivered with a slot free beside its own. -/
theorem BridgeOwes.delivers {now : Nat} {bridge : Bridge}
    (h : site.BridgeOwes now id bridge frame ids answer)
    (there : site.tree.bridge? id = some bridge) (wellFormed : site.tree.WellFormed)
    (accepting : Accepting kind site) (free : site.pool.available ≠ 0) :
    Delivers answer ids site (site.receiveBridge id bridge now frame) := by
  have hchannel := Tree.channel?_of_bridge? there
  cases h with
  | pingReq type =>
    simp only [receiveBridge, type]
    let packet : Except WireError Frame := .ok Bare.pingResp.toFrame
    have made : packet = .ok Bare.pingResp.toFrame := rfl
    exact delivers_sendPacket accepting free hchannel made
  | refused type guarded reads refuses made =>
    simp only [receiveBridge, type, connect, guarded, reads, refuses]
    exact delivers_sendPacket accepting free hchannel made
  | @asked guard connect _ type guarded reads passes made =>
    simp only [receiveBridge, type, Site.connect, guarded, reads, passes, ask]
    split
    · next agrees =>
      rw [if_pos agrees] at made
      exact delivers_sendPacket_later accepting free hchannel made
        (Tree.channel?_setBridge there (by rfl)) ⟨rfl, rfl⟩ ⟨[_], rfl⟩
    · next disagrees =>
      rw [if_neg disagrees] at made
      exact delivers_sendPacket_later accepting free hchannel made
        (Tree.channel?_setBridge there (by rfl)) ⟨rfl, rfl⟩ ⟨[_], rfl⟩
  | @subscribe subscribe session ack _ type reads inSession number grants made =>
    obtain ⟨packetId, granted, few⟩ := ack
    subst number grants
    simp only [receiveBridge, type, Site.subscribe, reads, inSession]
    exact delivers_sendPacket_later accepting free hchannel made
      (Tree.channel?_setBridge there (by rfl)) ⟨rfl, rfl⟩ ⟨[], by simp⟩
  | refusedRequest type reads inSession marked short refused made =>
    obtain ⟨session, hsession⟩ := Option.isSome_iff_exists.1 inSession
    have hclient : (site.tree.client? id).isSome := by
      simp [Tree.client?, there, hsession]
    simp only [receiveBridge, type, publish, reads, hsession, marked, requestFor,
      if_neg (Nat.not_lt_of_le short), refused]
    exact delivers_answerClient accepting free hclient made
  | @request publish target request endpoint _ _ type reads inSession marked short begins owes =>
    obtain ⟨session, hsession⟩ := Option.isSome_iff_exists.1 inSession
    simp only [receiveBridge, type, Site.publish, reads, hsession, marked, requestFor,
      if_neg (Nat.not_lt_of_le short), begins]
    exact owes.delivers_begun wellFormed accepting free
  | notification type reads inSession unmarked fits begins owes =>
    obtain ⟨session, hsession⟩ := Option.isSome_iff_exists.1 inSession
    have hneed := needEndpoint_of_endpoint? (Tree.endpoint?_of_bridge? there)
    simp only [receiveBridge, type, publish, reads, hsession, unmarked, notify, fits, hneed,
      ok_bind, pure_def, begins]
    exact owes.delivers_begun wellFormed accepting free

/-! ## Polls -/

/-- What a frame calls for is delivered with one free slot at a link, and with two at a bridge. -/
theorem CallsFor.delivers {now : Nat} (h : site.CallsFor now id frame ids answer)
    (wellFormed : site.tree.WellFormed) (accepting : Accepting kind site)
    (enough : site.tree.demand id ≤ site.pool.available) :
    Delivers answer ids site (site.receive now id frame) := by
  unfold Tree.demand at enough
  cases h with
  | link there owes =>
    have hfree : site.pool.available ≠ 0 := by
      split at enough <;> omega
    simp only [receive, there, if_neg hfree]
    exact owes.delivers there wellFormed accepting hfree
  | @bridge bridge there owes =>
    rw [there, Option.isSome_some, if_pos rfl] at enough
    obtain ⟨slot, pool, hbind⟩ := Pool.exists_bind (by omega : site.pool.available ≠ 0) frame
    have hclaimed := Pool.available_of_bind hbind
    have hfree : pool.available ≠ 0 := by omega
    have hheld : Twins 1 site { site with pool } := .intro pool (by omega) (by omega)
    rw [receive_of_bridge? there]
    simp only [holding, hbind]
    have hholding : Accepting kind { site with pool } := ⟨accepting.medium, accepting.takes⟩
    exact (owes.twins hheld).delivers there wellFormed hholding hfree

/-- The site at the turn of an entry in a tick, when the channels before its own have been
polled. -/
def turn (now : Nat) (site : Site M) (id : Nat) : Site M :=
  (List.range id).foldl (pollAt now) (site.beforePolls now)

/-- Up to the turn of an entry there are only changes. -/
theorem changes_turn (now : Nat) (site : Site M) (id : Nat) : Changes site (site.turn now id) :=
  (changes_beforePolls now site).trans (changes_foldl (changes_pollAt now) _ _)

/-- Up to the turn of an entry the pool is restored. -/
theorem restores_turn (now : Nat) (site : Site M) (id : Nat) : Restores site (site.turn now id) :=
  ((Restores.foldl (restores_expireAt now) _ site).trans
    (Restores.foldl (restores_provisionAt now) _ _)).trans
    (Restores.foldl (restores_pollAt now) _ _)

/-- After the turn of an entry a tick only adds to the log. -/
theorem exists_log_tick {now : Nat} (there : id < site.tree.size) :
    ∃ events, (site.tick now).log = (pollAt now (site.turn now id) id).log ++ events := by
  obtain ⟨more, hmore⟩ := Nat.exists_eq_add_of_le (Nat.succ_le_of_lt there)
  have hsize : (site.beforePolls now).tree.size = id + 1 + more :=
    (changes_beforePolls now site).size_eq.trans hmore
  have htick : site.tick now = ((List.range more).map (id + 1 + ·)).foldl (pollAt now)
      (pollAt now (site.turn now id) id) := by
    change (site.beforePolls now).forEntries (pollAt now) = _
    rw [forEntries, hsize, List.range_add, List.foldl_append, List.range_succ, List.foldl_append]
    rfl
  rw [htick]
  exact (changes_foldl (changes_pollAt now) _ _).exists_log

/-- Where every socket takes what is written, whatever a frame at a link calls for is written in the
tick if one slot is free when the tick begins. A frame at a bridge keeps a slot itself: what it
calls for is written if a second one is free, and with one nothing is written there. Further slots
make no difference to what is done with a frame, nor, with two, to what is done in the tick. -/
theorem dues_are_written {kind : M → Prop} {site : Site M} (wellFormed : site.tree.WellFormed)
    (accepting : Accepting kind site) (now : Nat) {id : Nat} {channel : Channel} {frame : Frame}
    (there : (site.turn now id).tree.channel? id = some channel)
    (comes : (channel.poll (site.turn now id).medium).1 = some frame) :
    let turn := site.turn now id
    let heard := turn.polled id channel
    let after := pollAt now turn id
    (∀ ids answer, heard.CallsFor now id frame ids answer →
      turn.tree.demand id ≤ site.pool.available →
      Delivers answer ids turn after ∧ ∃ later, (site.tick now).log = after.log ++ later) ∧
    (site.pool.available = 1 → (turn.tree.bridge? id).isSome → Mute heard after) ∧
    (∀ pool : Pool, turn.tree.demand id ≤ site.pool.available →
      turn.tree.demand id ≤ pool.available →
      ∃ left, pollAt now { turn with pool } id = { after with pool := left }) ∧
    ∀ pool : Pool, 2 ≤ site.pool.available → 2 ≤ pool.available →
      ∃ left, tick { site with pool } now = { site.tick now with pool := left } := by
  intro turn heard after
  have hchanges := changes_turn now site id
  have hpool : turn.pool.available = site.pool.available := (restores_turn now site id).available_eq
  refine ⟨fun ids answer calls enough => ⟨?_, ?_⟩, fun last hbridge => ?_,
    fun pool own other => ?_, fun pool own other => ?_⟩
  · have hwell : turn.tree.WellFormed :=
      hchanges.induction (P := fun site => site.tree.WellFormed) Change.wellFormed wellFormed
    have hsteady := Accepting.steady kind
    have hheard := hsteady.poll there (hsteady.changes hchanges accepting)
    have hafter : after = heard.receive now id frame := by
      change pollAt now (site.turn now id) id = _
      rw [pollAt_eq there, comes]
    rw [hafter]
    refine (calls.delivers (hwell.congr (outline_polled turn id channel).symm) hheard ?_).behind
      ⟨[], by simp [heard, polled]⟩
      (.of_core (Tree.core_setChannel there (Channel.socket_poll channel turn.medium)))
    exact (turn.tree.demand_setChannel id _).symm ▸ hpool.symm ▸ enough
  · refine exists_log_tick ?_
    rw [← hchanges.size_eq]
    obtain ⟨entry, hentry, -⟩ := Option.bind_eq_some_iff.1 there
    exact (List.getElem?_eq_some_iff.1 hentry).1
  · obtain ⟨bridge, hbridge⟩ := Option.isSome_iff_exists.1 hbridge
    obtain rfl := Option.some.inj ((Tree.channel?_of_bridge? hbridge).symm.trans there)
    exact Mute.pollAt hbridge (hpool.trans last) now
  · have htwins : Twins (turn.tree.demand id) turn { turn with pool } :=
      .intro pool (hpool.symm ▸ own) other
    exact (htwins.pollAt (Nat.le_refl _) now).exists_pool
  · have htwins : Twins 2 site { site with pool } := .intro pool own other
    exact (htwins.tick now).exists_pool

/-- A site with one slot, a hub end at whose socket a petition for the name `shed` waits, and a
bridge at whose socket a PINGREQ waits. -/
def cramped : Site Cabling :=
  (start 5 (Pool.ofSize 1) Cabling.empty).run
    [.call (.build (.addRoot "hub")), .call (.build (.addUplink 0 "above" 10)),
      .call (.build (.addBridge 0 "door" "below" 23)),
      .around (Pool.ofSize 1) ((Cabling.empty.feed "above"
        [48, 37, 0, 10, 45, 62, 95, 108, 105, 110, 107, 77, 97, 110, 4, 210, 8, 95, 103, 101, 116,
          78, 97, 109, 101, 8, 95, 108, 105, 110, 107, 77, 97, 110, 4, 115, 104, 101, 100]).feed
        "below" [192, 0])]

/-- The tree of the site is well formed. -/
theorem wellFormed_cramped : cramped.tree.WellFormed :=
  Reachable.wellFormed ⟨_, _, _, _, rfl⟩

/-- Its sockets take whatever is written. -/
theorem accepting_cramped : Accepting Cabling.Faultless cramped where
  medium label := by
    change ((Cabling.feed _ "below" _).socket label).writeFault = none
    rw [Cabling.feed, Cabling.socket_set]
    split
    · rfl
    · rw [Cabling.feed, Cabling.socket_set]
      split <;> rfl
  takes _ := Cabling.accepts _

/-- The petition is answered, although there is only one slot. -/
theorem petition_is_answered_with_one_slot :
    let turn := cramped.turn 0 1
    cramped.pool.available = 1 ∧ ∃ channel frame answer, turn.tree.channel? 1 = some channel ∧
      (channel.poll turn.medium).1 = some frame ∧
      (turn.polled 1 channel).CallsFor 0 1 frame [1] answer ∧
      Delivers answer [1] turn (pollAt 0 turn 1) := by
  intro turn
  let channel := (turn.tree.channel? 1).get (by decide +kernel)
  have there : turn.tree.channel? 1 = some channel := (Option.some_get _).symm
  let frame := (channel.poll turn.medium).1.get (by decide +kernel)
  have comes : (channel.poll turn.medium).1 = some frame := (Option.some_get _).symm
  let heard := turn.polled 1 channel
  have hlink : (heard.tree.link? 1).map (·.place) = some .hub := by decide +kernel
  obtain ⟨link, hlink, place⟩ := Option.map_eq_some_iff.1 hlink
  let petition := (Envelope.ofFrame frame).toOption.get (by decide +kernel)
  have reads : Envelope.ofFrame frame = .ok petition := toOption_eq_some.1 (Option.some_get _).symm
  have petitions : petition.isPetition := by decide +kernel
  have grants : heard.tree.denial? 1 petition.wish = none := by decide +kernel
  have hname : (Name.ofText petition.wish).isOk := by decide +kernel
  obtain ⟨name, hname⟩ := exists_eq_ok hname
  obtain ⟨answer, made⟩ := Envelope.exists_toFrame_answer petitions .success (.ofName name)
  have calls : heard.CallsFor 0 1 frame [1] answer :=
    .link hlink (.petition place (by decide +kernel) reads petitions
      (.granted grants (Name.text_of_ofText hname)) made)
  have one : cramped.pool.available = 1 := by decide +kernel
  have enough : turn.tree.demand 1 ≤ cramped.pool.available := by decide +kernel
  obtain ⟨delivers, -⟩ := dues_are_written wellFormed_cramped accepting_cramped 0 there comes
  exact ⟨one, channel, frame, answer, there, comes, calls, (delivers [1] answer calls enough).1⟩

/-- The PINGREQ calls for a PINGRESP, and nothing is written at the bridge. -/
theorem ping_is_not_answered_with_one_slot :
    let turn := cramped.turn 0 2
    cramped.Reachable ∧ cramped.pool.available = 1 ∧ Accepting Cabling.Faultless cramped ∧
      ∃ channel frame, turn.tree.channel? 2 = some channel ∧
        (channel.poll turn.medium).1 = some frame ∧
        (turn.polled 2 channel).CallsFor 0 2 frame [2] Bare.pingResp.toFrame ∧
        channel.socket = "below" ∧
        ∀ bytes, .wrote "below" bytes ∉ (cramped.tick 0).log := by
  intro turn
  let channel := (turn.tree.channel? 2).get (by decide +kernel)
  have there : turn.tree.channel? 2 = some channel := (Option.some_get _).symm
  let frame := (channel.poll turn.medium).1.get (by decide +kernel)
  have comes : (channel.poll turn.medium).1 = some frame := (Option.some_get _).symm
  let heard := turn.polled 2 channel
  obtain ⟨bridge, hbridge⟩ : ∃ bridge, heard.tree.bridge? 2 = some bridge :=
    Option.isSome_iff_exists.1 (by decide +kernel)
  have type : frame.packetType.toOption = some .pingReq := by decide +kernel
  have calls : heard.CallsFor 0 2 frame [2] Bare.pingResp.toFrame :=
    .bridge hbridge (.pingReq (toOption_eq_some.1 type))
  have silent : (cramped.tick 0).log.filterMap (Event.writing? "below") = [] := by decide +kernel
  refine ⟨⟨_, _, _, _, rfl⟩, by decide +kernel, accepting_cramped, channel, frame, there, comes,
    calls, by decide +kernel, fun bytes hbytes => ?_⟩
  have hwritten := List.filterMap_eq_nil_iff.1 silent _ hbytes
  simp [Event.writing?] at hwritten

end Site
end TopicTree
