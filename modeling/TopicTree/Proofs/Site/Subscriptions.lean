import TopicTree.Proofs.Packet.Typed
import TopicTree.Proofs.Site.Acceptance
import TopicTree.Proofs.Site.Table

/-!
# Subscriptions

The table of filters that a bridge keeps for its client is told by the frames that the bridge has
handled: by what was sought in SUBSCRIBEs since the CONNECT that opened the session. Nothing that
happens elsewhere at the site touches it. Every SUBSCRIBE that can be read is answered in one SUBACK,
filter by filter, and one that cannot be read is as if it had not been sent.
-/

namespace TopicTree

/-! ## Where sessions stay as they are -/

namespace Site

variable {M : Type} [Medium M] {site before after : Site M} {id : Nat} {frame : Frame}

/-- Sending a packet changes no session. -/
theorem session?_sendPacket {ε : Type} (site : Site M) (id : Nat) (packet : Except ε Frame)
    (other : Nat) : (site.sendPacket id packet).tree.session? other = site.tree.session? other :=
  Tree.session?_eq_of_core (sendPacket_cases site id packet).1 other

omit [Medium M] in
/-- Telling the listeners of a link changes no session. -/
theorem session?_announce (site : Site M) (link : Link) (other : Nat) :
    (site.announce link).tree.session? other = site.tree.session? other := by
  rw [announce_eq]

/-- Seeing to a link changes no session. -/
theorem session?_provisionAt (now : Nat) (site : Site M) (id other : Nat) :
    (provisionAt now site id).tree.session? other = site.tree.session? other := by
  unfold provisionAt
  split
  · rfl
  · next link there =>
    split
    · split
      · rfl
      · rw [sendEnvelope, session?_sendPacket, withTree]
        exact Tree.session?_setLink there other
    · rfl

omit [Medium M] in
/-- A name that is wished for at a hub end changes no session, whether it is taken or not. -/
theorem session?_adopt (site : Site M) (id : Nat) (link : Link) (text : String) (other : Nat) :
    (site.adopt id link text).2.tree.session? other = site.tree.session? other := by
  obtain ⟨kept, -⟩ | ⟨name, -, named⟩ := adopt_cases site id link text
  · rw [kept]
  · rw [named]
    exact Tree.session?_setName site.tree id name other

/-- A frame that comes in at a link changes no session. -/
theorem session?_receiveLink {link : Link} (there : site.tree.link? id = some link) (frame : Frame)
    (other : Nat) : (site.receiveLink id link frame).tree.session? other
      = site.tree.session? other := by
  have hroute : ∀ hop, (site.route hop).tree.session? other = site.tree.session? other := by
    intro hop
    have hcarries : Carries (fun _ _ => True) site (site.route hop) :=
      .route (fun _ _ _ _ => trivial) fun _ _ _ _ _ _ => trivial
    exact Tree.session?_eq_of_core hcarries.core other
  unfold receiveLink
  split
  · rfl
  · split
    · unfold receiveBelow
      split
      · unfold Site.confirm
        split
        · rfl
        · split
          · rfl
          · rw [session?_announce, withTree]
            exact Tree.session?_setLink there other
      · split
        · rfl
        · exact hroute _
    · unfold receiveAbove
      split
      · simp only [answerNaming, sendEnvelope, session?_sendPacket]
        exact session?_adopt site id link _ other
      · split
        · rfl
        · exact hroute _

end Site

/-! ## What a frame makes of a session -/

/-- The session at a bridge once a frame of its client has been handled. -/
def Bridge.sessionAfter (bridge : Bridge) (frame : Frame) : Option Session :=
  match bridge.turn? frame, Subscribe.ofFrame frame with
  | some client, _ => client.map Session.start
  | none, .ok subscribe =>
    bridge.session.map fun session => (session.subscribeAll (subscribe.filters.map (·.1))).2
  | none, .error _ => bridge.session

/-- A frame that opens and closes no session and seeks no filter leaves the session as it is. -/
theorem Bridge.sessionAfter_of_unheard {bridge : Bridge} {frame : Frame}
    (turn : bridge.turn? frame = none) (other : frame.packetType ≠ .ok .subscribe) :
    bridge.sessionAfter frame = bridge.session := by
  unfold sessionAfter
  rw [turn]
  split
  · next h => cases h
  · next h => exact absurd (Subscribe.ofFrame_eq_ok.1 h).1 other
  · rfl

/-- A frame that opens or closes a session leaves a new one or none. -/
theorem Bridge.sessionAfter_of_turn? {bridge : Bridge} {frame : Frame} {client : Option String}
    (turn : bridge.turn? frame = some client) :
    bridge.sessionAfter frame = client.map Session.start := by
  rw [sessionAfter, turn]

namespace Site

variable {M : Type} [Medium M] {site before after : Site M} {id : Nat} {frame : Frame}
  {bridge : Bridge}

/-- A CONNECT that the guard agrees to opens a session, and no other does. -/
theorem session?_connect (there : site.tree.bridge? id = some bridge)
    (type : frame.packetType = .ok .connect) (other : Nat) :
    (site.connect id bridge frame).tree.session? other
      = if id = other then bridge.sessionAfter frame else site.tree.session? other := by
  have same : bridge.turn? frame = none →
      site.tree.session? other
        = if id = other then bridge.sessionAfter frame else site.tree.session? other := by
    intro hturn
    split
    · next heq =>
      rw [Bridge.sessionAfter_of_unheard hturn (by simp [type]), ← heq,
        Tree.session?_of_bridge? there]
    · rfl
  have hturn := bridge.turn?_of_connect type
  unfold Site.connect
  split
  · next guard connect hguard hconnect =>
    have hpresented := Bridge.presented?_of_read type hguard hconnect
    split
    · next outcome hrefusal =>
      rw [hpresented, if_neg (by simp [hrefusal]), Option.bind_none] at hturn
      rw [acknowledge, session?_sendPacket]
      exact same hturn
    · next hrefusal =>
      rw [hpresented, if_pos hrefusal, Option.bind_some] at hturn
      simp only [ask]
      split
      · next hagrees =>
        rw [if_pos hagrees] at hturn
        rw [acknowledge, session?_sendPacket, withTree, Bridge.sessionAfter_of_turn? hturn]
        exact Tree.session?_setBridge there other
      · next hrefuses =>
        rw [if_neg hrefuses] at hturn
        rw [acknowledge, session?_sendPacket, withTree,
          Bridge.sessionAfter_of_unheard hturn (by simp [type])]
        exact Tree.session?_setBridge there other
  · next hmissing =>
    refine same ?_
    rw [hturn, Bridge.presented?_of_unread hmissing, Option.bind_none]

/-- A SUBSCRIBE that can be read seeks its filters in the session. -/
theorem session?_subscribe (there : site.tree.bridge? id = some bridge)
    (type : frame.packetType = .ok .subscribe) (other : Nat) :
    (site.subscribe id bridge frame).tree.session? other
      = if id = other then bridge.sessionAfter frame else site.tree.session? other := by
  have hturn : bridge.turn? frame = none :=
    Bridge.turn?_of_ne (by simp [type]) (by simp [type])
  unfold Site.subscribe
  split
  · next subscribe session hreads hsession =>
    rw [session?_sendPacket, withTree, Tree.session?_setBridge there, Bridge.sessionAfter, hturn,
      hreads, hsession]
    rfl
  · next hunread =>
    split
    · next heq =>
      rw [Bridge.sessionAfter, hturn, ← heq, Tree.session?_of_bridge? there]
      cases hreads : Subscribe.ofFrame frame with
      | error e => rfl
      | ok subscribe =>
        cases hsession : bridge.session with
        | none => rfl
        | some session => exact absurd hsession (hunread subscribe session hreads)
    · rfl

/-- What a client publishes changes no session. -/
theorem session?_publish (there : site.tree.bridge? id = some bridge) (now : Nat) (frame : Frame)
    (other : Nat) : (site.publish id bridge now frame).tree.session? other
      = site.tree.session? other := by
  have routes : ∀ path?, Routes M (fun _ _ => True) site.tree path? :=
    routes_of_forall (fun _ _ => trivial) site.tree
  unfold Site.publish
  split
  · split
    · exact Tree.session?_eq_of_core (Carries.requestFor (routes _) there now _).core other
    · rfl
    · exact Tree.session?_eq_of_core (Carries.notify (routes none) id _ _ _).core other
  · rfl

/-- A frame that comes in at a bridge makes of its session what is told, and changes no other. -/
theorem session?_receiveBridge (there : site.tree.bridge? id = some bridge) (now : Nat)
    (frame : Frame) (other : Nat) :
    (site.receiveBridge id bridge now frame).tree.session? other
      = if id = other then bridge.sessionAfter frame else site.tree.session? other := by
  have unheard : bridge.turn? frame = none → frame.packetType ≠ .ok .subscribe →
      site.tree.session? other
        = if id = other then bridge.sessionAfter frame else site.tree.session? other := by
    intro hturn hother
    split
    · next heq =>
      rw [Bridge.sessionAfter_of_unheard hturn hother, ← heq, Tree.session?_of_bridge? there]
    · rfl
  unfold Site.receiveBridge
  split
  · next type => exact session?_connect there type other
  · next type =>
    refine (Tree.session?_eq_of_core ?_ other).trans
      (unheard (Bridge.turn?_of_ne (by simp [type]) (by simp [type])) (by simp [type]))
    exact (sendPacket_cases site id (.ok _ : Except Error Frame)).1
  · next type => exact session?_subscribe there type other
  · next type =>
    rw [session?_publish there]
    exact unheard (Bridge.turn?_of_ne (by simp [type]) (by simp [type])) (by simp [type])
  · next type =>
    rw [disconnect, withTree, Bridge.sessionAfter_of_turn? (if_pos type)]
    exact Tree.session?_setBridge there other
  · next hconnect _ hsubscribe _ hdisconnect =>
    exact unheard (Bridge.turn?_of_ne hconnect hdisconnect) hsubscribe

/-! ## Steps -/

/-- A poll at which a bridge handles a frame is the handling of it, with a slot that is given back. -/
theorem pollAt_of_heard? (now : Nat) (h : site.heard? id = some (bridge, frame)) :
    ∃ slot claimed, site.pool.bind frame = .ok (slot, claimed) ∧
      let heard : Bridge := { bridge with channel := (bridge.channel.poll site.medium).2.1 }
      let mid : Site M := { site.polled id bridge.channel with pool := claimed }
      mid.tree.bridge? id = some heard ∧
        pollAt now site id = { mid.receiveBridge id heard now frame with
          pool := (mid.receiveBridge id heard now frame).pool.release slot } := by
  obtain ⟨there, free, comes⟩ := heard?_eq_some h
  obtain ⟨slot, claimed, hbind⟩ := Pool.exists_bind free frame
  refine ⟨slot, claimed, hbind, bridge?_polled there, ?_⟩
  have hpool : (site.polled id bridge.channel).pool.bind frame = .ok (slot, claimed) := hbind
  rw [pollAt_eq (Tree.channel?_of_bridge? there), comes]
  dsimp only
  rw [receive_of_bridge? (bridge?_polled there), holding, hpool]

/-- A poll at which a bridge handles a frame makes of its session what is told, and changes no
other. -/
theorem session?_pollAt_of_heard? (now : Nat) (h : site.heard? id = some (bridge, frame))
    (other : Nat) : (pollAt now site id).tree.session? other
      = if id = other then bridge.sessionAfter frame else site.tree.session? other := by
  obtain ⟨hbridge, -, -⟩ := heard?_eq_some h
  obtain ⟨slot, claimed, -, there, heq⟩ := pollAt_of_heard? now h
  have hcarries : Carries (fun _ _ => True) site (site.polled id bridge.channel) :=
    carries_polled (Tree.channel?_of_bridge? hbridge)
  rw [heq]
  dsimp only
  rw [session?_receiveBridge there]
  exact if_congr Iff.rfl rfl (Tree.session?_eq_of_core hcarries.core other)

/-- A poll at which no bridge handles a frame changes no session. -/
theorem session?_pollAt_of_silent (now : Nat) (h : site.heard? id = none) (other : Nat) :
    (pollAt now site id).tree.session? other = site.tree.session? other := by
  cases hchannel : site.tree.channel? id with
  | none => simp only [pollAt, hchannel]
  | some channel =>
    have hcarries : Carries (fun _ _ => True) site (site.polled id channel) :=
      carries_polled hchannel
    have hpolled := Tree.session?_eq_of_core hcarries.core other
    rcases pollAt_cases hchannel now with heq | ⟨link, frame, -, there, heq⟩ |
      ⟨bridge, frame, hheard, -⟩
    · rw [heq, hpolled]
    · rw [heq, session?_receiveLink there, hpolled]
    · rw [h] at hheard
      cases hheard

/-- What a step does to the session of a bridge is told by the frame that the bridge handles in it,
if there is one. -/
theorem session?_take (site : Site M) (id : Nat) (step : RunStep M) :
    (site.take step).tree.session? id
      = (site.heardIn? id step).elim (site.tree.session? id) fun heard =>
          heard.1.sessionAfter heard.2 := by
  have routes : ∀ path?, Routes M (fun _ _ => True) site.tree path? :=
    routes_of_forall (fun _ _ => trivial) site.tree
  cases step with
  | build construction =>
    simp only [take, move, perform]
    split
    · rfl
    · next hbuilt => exact Tree.session?_construct hbuilt id
  | execute node method path params now tag =>
    exact Tree.session?_eq_of_core (Carries.execute (routes _) node method params now tag).core id
  | notify node name qos data =>
    exact Tree.session?_eq_of_core (Carries.notify (routes none) node name qos data).core id
  | expire now other =>
    have hcarries : Carries (fun _ _ => True) site (expireAt now site other) :=
      .expireAt now site other
    exact Tree.session?_eq_of_core hcarries.core id
  | provision now other => exact session?_provisionAt now site other id
  | poll now other =>
    rw [take, heardIn?]
    cases hheard : site.heard? other with
    | none =>
      rw [session?_pollAt_of_silent now hheard]
      split
      · next heq => rw [← heq, hheard, Option.elim_none]
      · rfl
    | some heard =>
      rw [session?_pollAt_of_heard? now hheard]
      split
      · next heq => rw [← heq, hheard, Option.elim_some]
      · rfl
  | around pool medium => rfl

end Site

/-! ## Runs -/

/-- The filters that have been sought in the session at a bridge, once a frame of its client has been
handled. -/
def Bridge.soughtAfter (sought : List String) (heard : Bridge × Frame) : List String :=
  match heard.1.turn? heard.2, Subscribe.ofFrame heard.2 with
  | some _, _ => []
  | none, .ok subscribe => sought ++ subscribe.filters.map (·.1)
  | none, .error _ => sought

/-- Whether a session, if it is open, has the table of the filters that were sought. -/
def Session.Tabled (sought : List String) (session? : Option Session) : Prop :=
  ∀ session, session? = some session → session.filters = Session.table sought

/-- A frame leaves the table of what has been sought then. -/
theorem Bridge.tabled_sessionAfter {bridge : Bridge} {sought : List String}
    (tabled : Session.Tabled sought bridge.session) (frame : Frame) :
    Session.Tabled (Bridge.soughtAfter sought (bridge, frame)) (bridge.sessionAfter frame) := by
  intro session hsession
  unfold Bridge.sessionAfter at hsession
  unfold Bridge.soughtAfter
  split at hsession
  · next turn _ hturn =>
    rw [hturn]
    obtain ⟨client, -, rfl⟩ := Option.map_eq_some_iff.1 hsession
    rfl
  · next subscribe hturn hreads =>
    rw [hturn, hreads]
    obtain ⟨⟨client, filters⟩, hopened, rfl⟩ := Option.map_eq_some_iff.1 hsession
    obtain rfl : filters = Session.table sought := tabled _ hopened
    rw [Session.subscribeAll_table]
  · next hturn hunread =>
    rw [hturn, hunread]
    exact tabled session hsession

/-- A frame that opens and closes no session leaves the session with its client and its filters, and
perhaps with more. -/
theorem Bridge.sessionAfter_grows {bridge : Bridge} {frame : Frame} {session : Session}
    (turn : bridge.turn? frame = none) (opened : bridge.session = some session) :
    ∃ later, bridge.sessionAfter frame = some later ∧ later.clientId = session.clientId ∧
      session.filters <+: later.filters := by
  unfold sessionAfter
  rw [turn, opened]
  split
  · next h => cases h
  · exact ⟨_, rfl, session.clientId_subscribeAll _, session.prefix_subscribeAll _⟩
  · exact ⟨session, rfl, rfl, List.prefix_rfl⟩

namespace Site

variable {M : Type} [Medium M] {site before after : Site M} {id : Nat} {frame : Frame}
  {bridge : Bridge} {session : Session} {filters : List String}

/-- The filters that are sought at a bridge in the course of steps, since the session was opened. -/
def sought (site : Site M) (id : Nat) (steps : List (RunStep M)) : List String :=
  (site.heard id steps).foldl Bridge.soughtAfter []

/-- A bridge that handles a frame in a step has the session that is open. -/
theorem session?_of_heardIn? {step : RunStep M} (h : site.heardIn? id step = some (bridge, frame)) :
    site.tree.session? id = bridge.session := by
  obtain ⟨now, -, hheard⟩ := poll_of_heardIn? h
  exact Tree.session?_of_bridge? (heard?_eq_some hheard).1

/-- A step leaves the table of what has been sought then. -/
theorem tabled_take (tabled : Session.Tabled filters (site.tree.session? id)) (step : RunStep M) :
    Session.Tabled ((site.heardIn? id step).toList.foldl Bridge.soughtAfter filters)
      ((site.take step).tree.session? id) := by
  rw [session?_take]
  cases hheard : site.heardIn? id step with
  | none => exact tabled
  | some heard =>
    obtain ⟨bridge, frame⟩ := heard
    rw [session?_of_heardIn? hheard] at tabled
    exact Bridge.tabled_sessionAfter tabled frame

/-- Steps leave the table of what has been sought then. -/
theorem tabled_follow (tabled : Session.Tabled filters (site.tree.session? id))
    (steps : List (RunStep M)) :
    Session.Tabled ((site.heard id steps).foldl Bridge.soughtAfter filters)
      ((site.follow steps).tree.session? id) := by
  induction steps generalizing site filters with
  | nil => exact tabled
  | cons step steps ih =>
    rw [heard, List.foldl_append]
    exact ih (tabled_take tabled step)

/-- In the course of steps in which no frame opens or closes a session, a session keeps its client
and its filters. -/
theorem grows_follow (opened : site.tree.session? id = some session) {steps : List (RunStep M)}
    (within : ∀ heard ∈ site.heard id steps, heard.1.turn? heard.2 = none) :
    ∃ later, (site.follow steps).tree.session? id = some later ∧
      later.clientId = session.clientId ∧ session.filters <+: later.filters := by
  induction steps generalizing site session with
  | nil => exact ⟨session, opened, rfl, List.prefix_rfl⟩
  | cons step steps ih =>
    rw [heard, List.forall_mem_append] at within
    obtain ⟨hfirst, hlater⟩ := within
    obtain ⟨mid, hmid, hclient, hkept⟩ : ∃ mid, (site.take step).tree.session? id = some mid ∧
        mid.clientId = session.clientId ∧ session.filters <+: mid.filters := by
      rw [session?_take]
      cases hheard : site.heardIn? id step with
      | none => exact ⟨session, opened, rfl, List.prefix_rfl⟩
      | some heard =>
        rw [session?_of_heardIn? hheard] at opened
        exact Bridge.sessionAfter_grows (hfirst heard (by simp [hheard])) opened
    obtain ⟨later, hfollow, hclient', hkept'⟩ := ih hmid hlater
    exact ⟨later, hfollow, hclient'.trans hclient, hkept.trans hkept'⟩

end Site

/-! ## Answers -/

/-- Whether a frame is a SUBSCRIBE that is well formed: behind the packet identifier it lists filters,
at least one and no more than there is room for, and nothing else. -/
def Frame.Lists (frame : Frame) (packetId : UInt16) (filters : List String) : Prop :=
  frame.packetType = .ok .subscribe ∧ 1 ≤ filters.length ∧ filters.length ≤ maxSubscribe ∧
    ∃ entries listed, entries.map Prod.fst = filters ∧ Subscribe.Listed entries listed ∧
      frame.payload = Field.wordBytes packetId ++ listed

/-- The SUBSCRIBEs that are read are the well-formed ones. -/
theorem Frame.lists_iff {frame : Frame} {packetId : UInt16} {filters : List String} :
    frame.Lists packetId filters ↔ ∃ subscribe, Subscribe.ofFrame frame = .ok subscribe ∧
      subscribe.packetId = packetId ∧ subscribe.filters.map (·.1) = filters := by
  simp only [Lists, Subscribe.ofFrame_eq_ok]
  constructor
  · rintro ⟨type, some, few, entries, listed, rfl, hlisted, hpayload⟩
    rw [List.length_map] at some few
    refine ⟨⟨packetId, entries, few⟩, ⟨type, ?_, listed, hlisted, hpayload⟩, rfl, rfl⟩
    exact List.ne_nil_of_length_pos some
  · rintro ⟨subscribe, ⟨type, some, listed, hlisted, hpayload⟩, rfl, rfl⟩
    refine ⟨type, ?_, ?_, subscribe.filters, listed, rfl, hlisted, hpayload⟩
    · rw [List.length_map]
      exact List.length_pos_of_ne_nil some
    · rw [List.length_map]
      exact subscribe.few

/-- Every SUBACK that answers for something can be written, and is read as what it is. -/
theorem SubAck.exists_toFrame (ack : SubAck) (some : ack.grants ≠ []) :
    ∃ answer, ack.toFrame = .ok answer ∧ ofFrame answer = .ok ack := by
  have hfits : (Packet.subAck ack).body.length ≤ frameCapacity := by
    have hfew := ack.few
    simp only [Packet.body, Packet.parts, Part.row_cons, Part.row_nil, Part.bytes,
      List.length_append, Field.length_wordBytes, List.length_map, List.length_nil, frameCapacity]
    simp only [maxSubscribe] at hfew
    omega
  have made : (Packet.subAck ack).toFrame
      = .ok ⟨(Packet.subAck ack).header, (Packet.subAck ack).body, hfits⟩ :=
    Packet.toFrame_eq_ok.2 ⟨trivial, rfl, rfl⟩
  have filled : (Packet.subAck ack).Filled := some
  obtain ⟨read, hread, heq⟩ := map_eq_ok.1 (Packet.ofFrame_of_toFrame filled made)
  cases heq
  exact ⟨_, made, hread⟩

namespace Site

variable {M : Type} [Medium M] {site before after : Site M} {id : Nat} {frame : Frame}
  {bridge : Bridge} {session : Session} {filters : List String}

/-- A packet that is sent with a free slot to a socket that takes it is written, and nothing else is
noted. -/
theorem log_sendPacket {ε : Type} {packet : Except ε Frame} {channel : Channel}
    (there : site.tree.channel? id = some channel) (free : site.pool.available ≠ 0)
    (takes : (Medium.transmit channel.socket frame.encode site.medium).1 = .ok ())
    (made : packet = .ok frame) :
    (site.sendPacket id packet).log = site.log ++ [.wrote channel.socket frame.encode] := by
  obtain ⟨pool, -, hsend⟩ := send_eq there free frame
  rw [made, sendPacket, hsend, write_eq there, takes]
  rfl

/-- A SUBSCRIBE that is read in a session is answered in one SUBACK with its number, which tells what
is granted for each filter. -/
theorem log_subscribe {subscribe : Subscribe} {ack : SubAck} {answer : Frame}
    (there : site.tree.bridge? id = some bridge) (free : site.pool.available ≠ 0)
    (reads : Subscribe.ofFrame frame = .ok subscribe) (opened : bridge.session = some session)
    (number : ack.packetId = subscribe.packetId)
    (grants : ack.grants = (session.subscribeAll (subscribe.filters.map (·.1))).1)
    (made : ack.toFrame = .ok answer)
    (takes : (Medium.transmit bridge.channel.socket answer.encode site.medium).1 = .ok ()) :
    (site.subscribe id bridge frame).log
      = site.log ++ [.wrote bridge.channel.socket answer.encode] := by
  obtain ⟨packetId, granted, few⟩ := ack
  subst number grants
  simp only [Site.subscribe, reads, opened]
  have hchannel : ∀ session, (site.tree.setBridge id { bridge with session }).channel? id
      = some bridge.channel :=
    fun _ => (Tree.channel?_setBridge there (by rfl) id).trans (Tree.channel?_of_bridge? there)
  exact log_sendPacket (hchannel _) free takes made

/-- A SUBSCRIBE that cannot be read is as if it had not been sent. -/
theorem pollAt_of_unread (now : Nat) (heard : site.heard? id = some (bridge, frame))
    (type : frame.packetType = .ok .subscribe)
    (unread : ∀ subscribe, Subscribe.ofFrame frame ≠ .ok subscribe) :
    ∃ pool, site.pool.Restored pool ∧
      pollAt now site id = { site.polled id bridge.channel with pool } := by
  obtain ⟨slot, claimed, hbind, -, heq⟩ := pollAt_of_heard? now heard
  refine ⟨claimed.release slot, .release hbind (.refl claimed), ?_⟩
  rw [heq]
  simp only [receiveBridge, type, Site.subscribe]
  cases hreads : Subscribe.ofFrame frame with
  | error e => rfl
  | ok subscribe => exact absurd hreads (unread subscribe)

/-- What a poll does at which a bridge handles a SUBSCRIBE of its client, once some filters have been
sought in the session. -/
structure Subscribes (id : Nat) (bridge : Bridge) (frame : Frame) (session : Session)
    (filters : List String) (before after : Site M) : Prop where
  /-- The filters of one that is well formed are sought one after the other. If a slot is free beside
  its own, and the socket takes what is written, it is answered in one SUBACK with its number, which
  tells for each filter whether it is in the table behind it. -/
  listed : ∀ packetId more, frame.Lists packetId more →
    (∀ count, (session.subscribeAll (more.take count)).2.filters
      = Session.table (filters ++ more.take count)) ∧
    after.tree.session? id = some ⟨session.clientId, Session.table (filters ++ more)⟩ ∧
    (2 ≤ before.pool.available →
      (∀ bytes, (Medium.transmit bridge.channel.socket bytes
        (bridge.channel.poll before.medium).2.2).1 = .ok ()) →
      ∃ ack answer, ack.packetId = packetId ∧ ack.grants = Session.grants filters more ∧
        SubAck.ofFrame answer = .ok ack ∧
        after.log = before.log ++ [.wrote bridge.channel.socket answer.encode])
  /-- One that is not leaves nothing behind but that it was read off the socket. -/
  unlisted : (∀ packetId more, ¬frame.Lists packetId more) →
    ∃ pool, before.pool.Restored pool ∧ after = { before.polled id bridge.channel with pool }

/-- A SUBSCRIBE of a client with a session is handled. -/
theorem subscribes_pollAt (tabled : Session.Tabled filters (site.tree.session? id)) (now : Nat)
    (heard : site.heard? id = some (bridge, frame)) (type : frame.packetType = .ok .subscribe)
    (opened : bridge.session = some session) :
    Subscribes id bridge frame session filters site (pollAt now site id) := by
  have hbridge := (heard?_eq_some heard).1
  rw [Tree.session?_of_bridge? hbridge] at tabled
  obtain ⟨client, held⟩ := session
  obtain rfl : held = Session.table filters := tabled _ opened
  refine ⟨fun packetId more lists => ⟨fun count => ?_, ?_, fun spare takes => ?_⟩, fun unlisted => ?_⟩
  · rw [Session.subscribeAll_table]
  · obtain ⟨subscribe, reads, -, rfl⟩ := Frame.lists_iff.1 lists
    have hturn : bridge.turn? frame = none :=
      Bridge.turn?_of_ne (by simp [type]) (by simp [type])
    rw [session?_pollAt_of_heard? now heard, if_pos rfl, Bridge.sessionAfter, hturn, reads, opened]
    exact congrArg some (congrArg Prod.snd (Session.subscribeAll_table client filters _))
  · obtain ⟨subscribe, reads, rfl, rfl⟩ := Frame.lists_iff.1 lists
    have hsome : subscribe.filters ≠ [] := (Subscribe.ofFrame_eq_ok.1 reads).2.1
    have hlength := Session.length_subscribeAll ⟨client, Session.table filters⟩
      (subscribe.filters.map (·.1))
    rw [Session.subscribeAll_table, List.length_map] at hlength
    let ack : SubAck := ⟨subscribe.packetId, Session.grants filters (subscribe.filters.map (·.1)),
      hlength ▸ subscribe.few⟩
    obtain ⟨answer, made, hread⟩ := ack.exists_toFrame fun hnone =>
      hsome (List.eq_nil_of_length_eq_zero (hlength ▸ congrArg List.length hnone))
    refine ⟨ack, answer, rfl, rfl, hread, ?_⟩
    obtain ⟨slot, claimed, hbind, there, heq⟩ := pollAt_of_heard? now heard
    have hclaimed := Pool.available_of_bind hbind
    have hgrants : ack.grants = ((Session.mk client (Session.table filters)).subscribeAll
        (subscribe.filters.map (·.1))).1 := by
      rw [Session.subscribeAll_table]
    rw [heq]
    simp only [receiveBridge, type]
    have hlog := log_subscribe there (by change claimed.available ≠ 0; omega) reads opened rfl hgrants
      made (by rw [Channel.socket_poll]; exact takes answer.encode)
    rw [hlog, Channel.socket_poll]
    rfl
  · refine pollAt_of_unread now heard type fun subscribe reads => ?_
    exact unlisted _ _ (Frame.lists_iff.2 ⟨subscribe, reads, rfl, rfl⟩)

/-- The table of an open session holds what has been sought in it since the CONNECT that opened it:
the first four filters that are not too long, each once. Until the next CONNECT that is accepted, or a
DISCONNECT, it only grows, and it is empty behind that CONNECT. A SUBSCRIBE is answered filter by
filter if it is well formed, and is as if it had not been sent if it is not. What is granted is in the
table right behind it; what is refused is new, and too long or one too many. -/
theorem subscriptions_are_answered (timeout : Nat) (pool : Pool) (medium : M)
    (steps : List (RunStep M)) (id : Nat) :
    let origin := start timeout pool medium
    let site := origin.follow steps
    let filters := origin.sought id steps
    (∀ session, site.tree.session? id = some session →
      session.filters = Session.table filters ∧
      session.filters.length ≤ maxFilters ∧ session.filters.Nodup ∧
      ∀ more, (∀ heard ∈ site.heard id more, heard.1.turn? heard.2 = none) →
        ∃ later, (site.follow more).tree.session? id = some later ∧
          later.clientId = session.clientId ∧ session.filters <+: later.filters) ∧
    (∀ step bridge frame client, site.heardIn? id step = some (bridge, frame) →
      bridge.turn? frame = some (some client) →
      (site.take step).tree.session? id = some ⟨client, []⟩) ∧
    (∀ more, (Session.table (filters ++ more)).Nodup ∧
      (Session.grants filters more).length = more.length ∧
      ∀ place filter, more[place]? = some filter →
        ((Session.grants filters more)[place]? = some (.granted .atMostOnce)
          ↔ filter ∈ Session.table (filters ++ more.take (place + 1))) ∧
        ((Session.grants filters more)[place]? = some .refused
          ↔ filter ∉ Session.table (filters ++ more.take place) ∧ (maxPath < filter.utf8ByteSize ∨
            (Session.table (filters ++ more.take place)).length = maxFilters))) ∧
    ∀ now bridge frame session, site.heard? id = some (bridge, frame) →
      frame.packetType = .ok .subscribe → bridge.session = some session →
      Subscribes id bridge frame session filters site (pollAt now site id) := by
  intro origin site filters
  have closed : origin.tree.session? id = none := by
    simp [origin, start, Tree.empty, Tree.session?, Tree.bridge?, Tree.get?]
  have untabled : Session.Tabled [] (origin.tree.session? id) := by
    intro session opened
    rw [closed] at opened
    cases opened
  have tabled : Session.Tabled filters (site.tree.session? id) := tabled_follow untabled steps
  refine ⟨fun session opened => ?_, fun step bridge frame client heard turn => ?_,
    fun more => ⟨Session.nodup_table _, List.length_mapIdx, fun place filter there =>
      ⟨Session.grants_eq_granted there, Session.grants_eq_refused there⟩⟩,
    fun now bridge frame session heard type opened => subscribes_pollAt tabled now heard type opened⟩
  · have htable := tabled session opened
    refine ⟨htable, ?_, ?_, fun more within => grows_follow opened within⟩
    · exact htable ▸ Session.length_table_le filters
    · exact htable ▸ Session.nodup_table filters
  · rw [session?_take, heard]
    exact Bridge.sessionAfter_of_turn? turn

/-- A SUBSCRIBE for `a` and `b`. -/
def firstAsk : Bytes :=
  [0x82, 0x0a, 0, 7, 0, 1, 0x61, 0, 0, 1, 0x62, 0]

/-- A SUBSCRIBE for `b`, a filter of 129 bytes, `c`, `d` and `e`. -/
def secondAsk : Bytes :=
  [0x82, 0x96, 0x01, 0, 8, 0, 1, 0x62, 0, 0, 129] ++ List.replicate 129 0x61
    ++ [0, 0, 1, 0x63, 0, 0, 1, 0x64, 0, 0, 1, 0x65, 0]

/-- The steps that lead to a bridge at whose socket a CONNECT and two SUBSCRIBEs wait. -/
def queue : List (RunStep Cabling) :=
  [.build (.addRoot "home"), .build (.addBridge 0 "door" "wire" 23),
    .build (.setGuard 1 fun _ who => who.clientId = "c"),
    .around (Pool.ofSize 2) (Cabling.empty.feed "wire" (greeting ++ firstAsk ++ secondAsk))]

/-- Once they have been taken, sockets take whatever is written. -/
theorem accepting_queue :
    Accepting Cabling.Faultless ((start 5 (Pool.ofSize 2) Cabling.empty).follow queue) where
  medium label := by
    change ((Cabling.feed _ "wire" _).socket label).writeFault = none
    rw [Cabling.feed, Cabling.socket_set]
    split <;> rfl
  takes _ := Cabling.accepts _

/-- Of the five filters in the second SUBSCRIBE the first is known, the second too long, and the last
one too many. -/
theorem last_filter_is_one_too_many :
    let site := (start 5 (Pool.ofSize 2) Cabling.empty).follow (queue ++ [.poll 1 1, .poll 1 1])
    ∃ ack answer, ack.packetId = 8 ∧
      ack.grants = [.granted .atMostOnce, .refused, .granted .atMostOnce, .granted .atMostOnce,
        .refused] ∧
      SubAck.ofFrame answer = .ok ack ∧
      (pollAt 1 site 1).log = site.log ++ [.wrote "wire" answer.encode] ∧
      ((pollAt 1 site 1).tree.session? 1).map (·.filters) = some ["a", "b", "c", "d"] := by
  intro site
  let found := (site.heard? 1).get (by decide +kernel)
  have heard : site.heard? 1 = some found := (Option.some_get _).symm
  let session := found.1.session.get (by decide +kernel)
  have opened : found.1.session = some session := (Option.some_get _).symm
  let subscribe := (Subscribe.ofFrame found.2).toOption.get (by decide +kernel)
  have reads : Subscribe.ofFrame found.2 = .ok subscribe :=
    toOption_eq_some.1 (Option.some_get _).symm
  have type := (Subscribe.ofFrame_eq_ok.1 reads).1
  obtain ⟨number, spare, socket⟩ : subscribe.packetId = 8 ∧ 2 ≤ site.pool.available ∧
      found.1.channel.socket = "wire" := by decide +kernel
  have lists : found.2.Lists 8 (subscribe.filters.map (·.1)) :=
    Frame.lists_iff.2 ⟨subscribe, reads, number, rfl⟩
  have accepting : Accepting Cabling.Faultless site :=
    (Accepting.steady _).changes ((changes_pollAt 1 _ 1).trans (changes_pollAt 1 _ 1))
      accepting_queue
  have sound := (Cabling.accepts found.1.channel.socket).poll accepting.medium
  have takes : ∀ bytes, (Medium.transmit found.1.channel.socket bytes
      (found.1.channel.poll site.medium).2.2).1 = .ok () := by
    intro bytes
    obtain ⟨after, taken, -⟩ := (Cabling.accepts found.1.channel.socket).transmit bytes sound
    exact congrArg Prod.fst taken
  obtain ⟨-, -, -, hsubscribes⟩ := subscriptions_are_answered 5 (Pool.ofSize 2) Cabling.empty
    (queue ++ [.poll 1 1, .poll 1 1]) 1
  obtain ⟨-, htable, hanswer⟩ :=
    (hsubscribes 1 found.1 found.2 session heard type opened).listed _ _ lists
  obtain ⟨ack, answer, hnumber, grants, hread, hlog⟩ := hanswer spare takes
  refine ⟨ack, answer, hnumber, ?_, hread, socket ▸ hlog, ?_⟩
  · rw [grants]
    decide +kernel
  · rw [htable]
    decide +kernel

end Site
end TopicTree
