import TopicTree.Proofs.Site.Links
import TopicTree.Proofs.Tree.Growth

/-!
# Sessions

The session of a bridge is what its client has made of it: the frames that the bridge has handled,
each with the guard that was posted then, tell whose session is open. Nothing else that happens to
the tree opens or closes one, asks the guard, or writes to a client without a session.
-/

namespace TopicTree

/-! ## What a frame means to a bridge -/

/-- The CONNECT in a frame, with the guard to be asked about it, if there is a guard, the packet is
well-formed and of protocol level 4, and its client identifier is not too long. -/
def Bridge.presented? (bridge : Bridge) (frame : Frame) : Option (Guard × Connect) :=
  match frame.packetType, bridge.guard, Connect.ofFrame frame with
  | .ok .connect, some guard, .ok connect =>
    if connect.protocolLevel = 4 ∧ connect.clientId.utf8ByteSize ≤ min bridge.maxClientId 64 then
      some (guard, connect)
    else none
  | _, _, _ => none

/-- Nothing is presented in a frame that is no CONNECT. -/
theorem Bridge.presented?_of_ne {bridge : Bridge} {frame : Frame}
    (other : frame.packetType ≠ .ok .connect) : bridge.presented? frame = none := by
  unfold presented?
  split
  · next h _ _ => exact absurd h other
  · rfl

/-- Whom the guard of a bridge is asked about when a frame is handled, if it is asked. -/
def Bridge.asked? (bridge : Bridge) (frame : Frame) : Option Credentials :=
  (bridge.presented? frame).map fun (_, connect) => connect.credentials

/-- What a frame does to the session of a bridge, if it does anything: a CONNECT that the guard
accepts opens one for its client, and a DISCONNECT leaves none. -/
def Bridge.turn? (bridge : Bridge) (frame : Frame) : Option (Option String) :=
  if frame.packetType = .ok .disconnect then some none
  else
    (bridge.presented? frame).bind fun (guard, connect) =>
      if guard bridge.seen connect.credentials then some (some connect.clientId) else none

/-- A frame that is neither CONNECT nor DISCONNECT does nothing to the session. -/
theorem Bridge.turn?_of_ne {bridge : Bridge} {frame : Frame}
    (noConnect : frame.packetType ≠ .ok .connect)
    (noDisconnect : frame.packetType ≠ .ok .disconnect) : bridge.turn? frame = none := by
  rw [turn?, if_neg noDisconnect, presented?_of_ne noConnect, Option.bind_none]

/-- A CONNECT opens a session if the guard agrees. -/
theorem Bridge.turn?_of_connect {bridge : Bridge} {frame : Frame}
    (type : frame.packetType = .ok .connect) :
    bridge.turn? frame = (bridge.presented? frame).bind fun found =>
      if found.1 bridge.seen found.2.credentials then some (some found.2.clientId) else none :=
  if_neg (by simp [type])

/-- A CONNECT is refused before the guard is asked exactly if it is of another protocol level or its
client identifier is too long. -/
theorem Bridge.refusal?_eq_none {bridge : Bridge} {connect : Connect} :
    bridge.refusal? connect = none ↔
      connect.protocolLevel = 4 ∧ connect.clientId.utf8ByteSize ≤ min bridge.maxClientId 64 := by
  unfold refusal?
  split
  · next hlevel => exact ⟨fun h => (by cases h), fun h => absurd h.1 hlevel⟩
  · next hlevel =>
    split
    · next hlong => exact ⟨fun h => (by cases h), fun h => absurd h.2 (Nat.not_le.2 hlong)⟩
    · next hshort =>
      exact ⟨fun _ => ⟨Classical.not_not.1 hlevel, Nat.le_of_not_lt hshort⟩, fun _ => rfl⟩

/-- A CONNECT that is well formed is presented to a guard that is there, if it is not refused before
that. -/
theorem Bridge.presented?_of_read {bridge : Bridge} {frame : Frame} {guard : Guard}
    {connect : Connect} (type : frame.packetType = .ok .connect) (guarded : bridge.guard = some guard)
    (reads : Connect.ofFrame frame = .ok connect) : bridge.presented? frame
      = if bridge.refusal? connect = none then some (guard, connect) else none := by
  simp only [presented?, type, guarded, reads, refusal?_eq_none]

/-- Nothing is presented where no guard is, or nothing well formed. -/
theorem Bridge.presented?_of_unread {bridge : Bridge} {frame : Frame}
    (unread : ∀ guard connect, bridge.guard = some guard → Connect.ofFrame frame = .ok connect →
      False) : bridge.presented? frame = none := by
  unfold presented?
  split
  · next guard connect _ guarded reads => exact (unread guard connect guarded reads).elim
  · rfl

/-- Whom the guard of a bridge was asked about, if an event tells of that. -/
def Event.asked? (id : Nat) : Event → Option Credentials
  | .asked bridge who => if bridge = id then some who else none
  | _ => none

/-- Subscribing leaves a session with its client. -/
theorem Session.clientId_subscribeAll (session : Session) (filters : List String) :
    (session.subscribeAll filters).2.clientId = session.clientId := by
  induction filters generalizing session with
  | nil => rfl
  | cons filter filters ih =>
    rw [Session.subscribeAll]
    simp only [ih]
    unfold Session.subscribe
    split
    · rfl
    · split <;> rfl

/-- The bytes of a CONNACK that refuses a client, or of a PINGRESP. -/
def IsSmallTalk (bytes : Bytes) : Prop :=
  (∃ outcome frame, outcome ≠ ConnectOutcome.accepted ∧
    ConnAck.toFrame ⟨false, outcome⟩ = .ok frame ∧ bytes = frame.encode) ∨
  bytes = Bare.pingResp.toFrame.encode

/-- The bytes of a CONNACK that accepts a client. -/
def IsWelcome (bytes : Bytes) : Prop :=
  ∃ frame, ConnAck.toFrame ⟨false, .accepted⟩ = .ok frame ∧ bytes = frame.encode

/-- The bytes that an event writes, or tries to write, at a socket. -/
def Event.writing? (socket : String) : Event → Option Bytes
  | .wrote other bytes | .writeFailed other bytes => if other = socket then some bytes else none
  | _ => none

/-- What a write writes at its socket. -/
theorem Event.writing?_eq_some {event : Event} {socket : String} {bytes : Bytes}
    (h : event = .wrote socket bytes ∨ event = .writeFailed socket bytes) :
    event.writing? socket = some bytes := by
  rcases h with rfl | rfl <;> exact if_pos rfl

namespace Site

variable {M : Type} [Medium M] {site : Site M} {id : Nat} {rule : Frame → Prop}

/-! ## The client's own frames -/

/-- What handling a frame of its client does at a bridge. -/
structure Handles (id : Nat) (bridge : Bridge) (frame : Frame) (before after : Site M) : Prop where
  client? : after.tree.client? id = (bridge.turn? frame).getD (before.tree.client? id)
  asked : after.log.filterMap (Event.asked? id)
    = before.log.filterMap (Event.asked? id) ++ (bridge.asked? frame).toList
  /-- A session that ends is told of to nobody. -/
  ended : bridge.turn? frame = some none → after.log = before.log
  /-- Outside a session the client reaches no methods and no waits. -/
  still : before.tree.client? id = none →
    ∀ other, after.tree.endpoint? other = before.tree.endpoint? other
  /-- Outside a session the client is told of itself only. -/
  log : ∃ events, after.log = before.log ++ events ∧ (before.tree.client? id = none →
    ∀ event ∈ events, (∃ who, event = .asked id who) ∨
      ∃ bytes, event.writing? bridge.channel.socket = some bytes ∧
        (IsSmallTalk bytes ∨ (∃ client, bridge.turn? frame = some (some client)) ∧ IsWelcome bytes))

omit [Medium M] in
/-- A frame after which the client has no session any more has ended it, and nobody is told of that. -/
theorem Handles.log_of_closed {after : Site M} {bridge : Bridge} {frame : Frame} {client : String}
    (h : Handles id bridge frame site after) (before : site.tree.client? id = some client)
    (closed : after.tree.client? id = none) : after.log = site.log := by
  refine h.ended ?_
  have hturn := h.client?
  rw [before, closed] at hturn
  cases hfound : bridge.turn? frame with
  | none => simp [hfound] at hturn
  | some turn => simpa [hfound] using hturn.symm

omit [Medium M] in
/-- What happens beside a bridge asks its guard nothing. -/
theorem Spares.asked_eq {before after : Site M} (h : Spares rule id before after) :
    after.log.filterMap (Event.asked? id) = before.log.filterMap (Event.asked? id) := by
  obtain ⟨events, hevents, hall⟩ := h.log
  have hnone : events.filterMap (Event.asked? id) = [] := by
    rw [List.filterMap_eq_nil_iff]
    intro event hevent
    have hspares := hall event hevent
    cases event with
    | asked bridge who => exact if_neg hspares
    | wrote socket bytes => rfl
    | writeFailed socket bytes => rfl
    | called node method params => rfl
    | replied tag code params => rfl
    | linkUp tag => rfl
  rw [hevents, List.filterMap_append, hnone, List.append_nil]

/-- A packet that is sent to the client asks nobody anything. -/
theorem asked_sendPacket {ε : Type} (site : Site M) (packet : Except ε Frame) :
    (site.sendPacket id packet).log.filterMap (Event.asked? id)
      = site.log.filterMap (Event.asked? id) := by
  rcases (sendPacket_cases site id packet).2 with hlog | ⟨_, _, event, _, _, hevent, hlog⟩
  · rw [hlog]
  · have hnone : Event.asked? id event = none := by rcases hevent with rfl | rfl <;> rfl
    simp [hlog, hnone]

namespace Handles

variable {bridge : Bridge} {frame : Frame}

omit [Medium M] in
/-- A frame that means nothing changes nothing. -/
theorem unheard (turn : bridge.turn? frame = none) (asked : bridge.asked? frame = none)
    (site : Site M) : Handles id bridge frame site site where
  client? := by simp [turn]
  asked := by simp [asked]
  ended _ := rfl
  still _ _ := rfl
  log := ⟨[], by simp, by simp⟩

/-- A frame that is answered with small talk means nothing to the session. -/
theorem smallTalk {ε : Type} {packet : Except ε Frame}
    (there : site.tree.bridge? id = some bridge) (turn : bridge.turn? frame = none)
    (asked : bridge.asked? frame = none)
    (talk : ∀ answer, packet = .ok answer → IsSmallTalk answer.encode) :
    Handles id bridge frame site (site.sendPacket id packet) where
  client? := by
    rw [Tree.client?_eq_of_core (sendPacket_cases site id packet).1, turn]
    rfl
  asked := by simp [asked_sendPacket, asked]
  ended h := by simp [turn] at h
  still _ := (alike_sendPacket site id packet).endpoint?
  log := by
    rcases (sendPacket_cases site id packet).2 with
      hlog | ⟨answer, channel, event, hanswer, hchannel, hevent, hlog⟩
    · exact ⟨[], by simp [hlog], by simp⟩
    · obtain rfl : bridge.channel = channel :=
        Option.some.inj ((Tree.channel?_of_bridge? there).symm.trans hchannel)
      refine ⟨[event], hlog, fun _ => ?_⟩
      rw [List.forall_mem_singleton]
      exact .inr ⟨answer.encode, Event.writing?_eq_some hevent, .inl (talk answer hanswer)⟩

/-- A refusal is told of in a CONNACK that refuses. -/
theorem isSmallTalk_of_refusal? {connect : Connect} {outcome : ConnectOutcome}
    (h : bridge.refusal? connect = some outcome) (answer : Frame)
    (written : ConnAck.toFrame ⟨false, outcome⟩ = .ok answer) : IsSmallTalk answer.encode := by
  refine .inl ⟨outcome, answer, ?_, written, rfl⟩
  rintro rfl
  unfold Bridge.refusal? at h
  split at h
  · cases h
  · split at h <;> cases h

/-- What a client is told of its session, once the bridge has its new state. -/
theorem acknowledged {wiser : Bridge} {outcome : ConnectOutcome} {connect : Connect} {guard : Guard}
    (there : site.tree.bridge? id = some bridge) (type : frame.packetType = .ok .connect)
    (presented : bridge.presented? frame = some (guard, connect))
    (same : wiser.channel = bridge.channel ∧ wiser.endpoint = bridge.endpoint)
    (session : wiser.session.map (·.clientId) = if guard bridge.seen connect.credentials
      then some connect.clientId else bridge.session.map (·.clientId))
    (told : outcome = .accepted → guard bridge.seen connect.credentials = true) :
    Handles id bridge frame site
      (((site.note (.asked id connect.credentials)).withTree
        (site.tree.setBridge id wiser)).acknowledge id outcome) := by
  have hturn : bridge.turn? frame
      = if guard bridge.seen connect.credentials then some (some connect.clientId) else none := by
    rw [Bridge.turn?_of_connect type, presented, Option.bind_some]
  have hchannel : ((site.note (.asked id connect.credentials)).withTree
      (site.tree.setBridge id wiser)).tree.channel? id = some bridge.channel :=
    (Tree.channel?_setBridge there same.1 id).trans (Tree.channel?_of_bridge? there)
  obtain ⟨hcore, hlog⟩ := sendPacket_cases ((site.note (.asked id connect.credentials)).withTree
    (site.tree.setBridge id wiser)) id (ConnAck.toFrame ⟨false, outcome⟩)
  constructor
  · rw [acknowledge, Tree.client?_eq_of_core hcore]
    simp only [Site.withTree, Tree.client?, Tree.bridge?_setBridge there, ↓reduceIte,
      Option.bind_some, session, hturn, there]
    split <;> rfl
  · rw [acknowledge, asked_sendPacket, Bridge.asked?, presented]
    simp [Site.note, Site.withTree, Event.asked?]
  · intro hended
    rw [hturn] at hended
    split at hended <;> cases hended
  · intro _ other
    refine ((alike_sendPacket _ id _).endpoint? other).trans ?_
    exact Tree.endpoint?_setBridge there same.2 other
  · rcases hlog with hlog | ⟨answer, channel, event, hanswer, hthere, hevent, hlog⟩
    · exact ⟨[.asked id connect.credentials], hlog, by simp⟩
    · obtain rfl : bridge.channel = channel := Option.some.inj (hchannel.symm.trans hthere)
      refine ⟨[.asked id connect.credentials, event], ?_, fun _ => ?_⟩
      · rw [acknowledge, hlog]
        simp [Site.note, Site.withTree]
      · simp only [List.mem_cons, List.not_mem_nil, or_false, forall_eq_or_imp, forall_eq]
        refine ⟨.inl ⟨_, rfl⟩, .inr ⟨answer.encode, Event.writing?_eq_some hevent, ?_⟩⟩
        by_cases haccepted : outcome = .accepted
        · subst haccepted
          rw [hturn, if_pos (told rfl)]
          exact .inr ⟨⟨_, rfl⟩, answer, hanswer, rfl⟩
        · exact .inl (.inl ⟨outcome, answer, haccepted, hanswer, rfl⟩)

/-- A CONNECT is handled. -/
theorem connect (there : site.tree.bridge? id = some bridge)
    (type : frame.packetType = .ok .connect) :
    Handles id bridge frame site (site.connect id bridge frame) := by
  have hnoTurn : bridge.presented? frame = none → bridge.turn? frame = none := by
    intro hnone
    rw [Bridge.turn?_of_connect type, hnone, Option.bind_none]
  unfold Site.connect
  split
  · next guard connect hguard hconnect =>
    have hpresented := Bridge.presented?_of_read type hguard hconnect
    split
    · next outcome hrefusal =>
      rw [if_neg (by simp [hrefusal])] at hpresented
      refine .smallTalk there (hnoTurn hpresented) (by simp [Bridge.asked?, hpresented]) ?_
      exact isSmallTalk_of_refusal? hrefusal
    · next hrefusal =>
      rw [if_pos hrefusal] at hpresented
      simp only [ask]
      split
      · next hagrees =>
        refine .acknowledged there type hpresented ⟨rfl, rfl⟩ ?_ fun _ => hagrees
        rw [if_pos hagrees]
        rfl
      · next hrefuses =>
        refine .acknowledged there type hpresented ⟨rfl, rfl⟩ ?_ fun h => (by cases h)
        rw [if_neg hrefuses]
  · next hmissing =>
    have hpresented := Bridge.presented?_of_unread hmissing
    exact .unheard (hnoTurn hpresented) (by simp [Bridge.asked?, hpresented]) site

omit [Medium M] in
/-- The session of a bridge is the session of its client. -/
theorem client?_ne_none (there : site.tree.bridge? id = some bridge)
    (opened : bridge.session.isSome) : site.tree.client? id ≠ none := by
  obtain ⟨session, hsession⟩ := Option.isSome_iff_exists.1 opened
  simp [Tree.client?, there, hsession]

omit [Medium M] in
/-- A frame is handled that is no CONNECT and leaves the session as it is. -/
theorem ofSpares {after : Site M} (noConnect : frame.packetType ≠ .ok .connect)
    (noDisconnect : frame.packetType ≠ .ok .disconnect) (opened : bridge.session.isSome)
    (there : site.tree.bridge? id = some bridge) (h : Spares rule id site after) :
    Handles id bridge frame site after where
  client? := by rw [h.client?, Bridge.turn?_of_ne noConnect noDisconnect]; rfl
  asked := by simp [h.asked_eq, Bridge.asked?, Bridge.presented?_of_ne noConnect]
  ended hended := by simp [Bridge.turn?_of_ne noConnect noDisconnect] at hended
  still hclosed := absurd hclosed (client?_ne_none there opened)
  log := by
    obtain ⟨events, hlog, -⟩ := h.log
    exact ⟨events, hlog, fun hclosed => absurd hclosed (client?_ne_none there opened)⟩

omit [Medium M] in
/-- A frame is handled while it has a slot. -/
theorem holding {act : Site M → Site M} (free : site.pool.available ≠ 0)
    (h : ∀ pool : Pool, Handles id bridge frame { site with pool } (act { site with pool })) :
    Handles id bridge frame site (site.holding frame act) := by
  obtain ⟨slot, pool, claimed⟩ := Pool.exists_bind free frame
  simp only [Site.holding, claimed]
  exact ⟨(h pool).client?, (h pool).asked, (h pool).ended, (h pool).still, (h pool).log⟩

/-- A client subscribes. -/
theorem subscribe (there : site.tree.bridge? id = some bridge)
    (type : frame.packetType = .ok .subscribe) :
    Handles id bridge frame site (site.subscribe id bridge frame) := by
  have noConnect : frame.packetType ≠ .ok .connect := by simp [type]
  have noDisconnect : frame.packetType ≠ .ok .disconnect := by simp [type]
  unfold Site.subscribe
  split
  · next subscribe session _ hsession =>
    have hset : Spares (fun _ => True) id site (site.withTree (site.tree.setBridge id
        { bridge with
          session := some (session.subscribeAll (subscribe.filters.map (·.1))).2 })) :=
      .setBridge there rfl fun _ => by simp [hsession, Session.clientId_subscribeAll]
    refine .ofSpares noConnect noDisconnect (by simp [hsession]) there
      (hset.trans (.sendPacket fun _ _ _ => .inl ?_))
    rw [hset.client?, Option.isSome_iff_ne_none]
    exact client?_ne_none there (by simp [hsession])
  · exact .unheard (Bridge.turn?_of_ne noConnect noDisconnect)
      (by simp [Bridge.asked?, Bridge.presented?_of_ne noConnect]) site

end Handles

/-- What handling a frame does at its bridge. -/
theorem handles_receiveBridge {bridge : Bridge} (there : site.tree.bridge? id = some bridge)
    (now : Nat) (frame : Frame) :
    Handles id bridge frame site (site.receiveBridge id bridge now frame) := by
  unfold Site.receiveBridge
  split
  · next type => exact .connect there type
  · next type =>
    have talk : ∀ answer, (.ok Bare.pingResp.toFrame : Except Error Frame) = .ok answer →
        IsSmallTalk answer.encode := by
      rintro answer ⟨⟩
      exact .inr rfl
    exact .smallTalk there (Bridge.turn?_of_ne (by simp [type]) (by simp [type]))
      (by simp [Bridge.asked?, Bridge.presented?_of_ne, type]) talk
  · next type =>
    exact .subscribe there type
  · next type =>
    have noConnect : frame.packetType ≠ .ok .connect := by simp [type]
    have noDisconnect : frame.packetType ≠ .ok .disconnect := by simp [type]
    cases hsession : bridge.session with
    | none =>
      have hsame : site.publish id bridge now frame = site := by
        unfold Site.publish
        split
        · next h => simp [hsession] at h
        · rfl
      rw [hsame]
      exact .unheard (Bridge.turn?_of_ne noConnect noDisconnect)
        (by simp [Bridge.asked?, Bridge.presented?_of_ne noConnect]) site
    | some session =>
      have hpublish : Spares (fun _ => True) id site (site.publish id bridge now frame) :=
        .publish (routes_of_forall (fun _ _ _ => trivial) _ _) there now
      exact .ofSpares noConnect noDisconnect (by simp [hsession]) there hpublish
  · next type =>
    have hturn : bridge.turn? frame = some none := if_pos type
    have hasked : bridge.asked? frame = none := by
      simp [Bridge.asked?, Bridge.presented?_of_ne, type]
    refine ⟨?_, by simp [Site.disconnect, Site.withTree, hasked], fun _ => rfl, fun _ => ?_, ?_⟩
    · simp [Site.disconnect, Site.withTree, Tree.client?, Tree.bridge?_setBridge there, hturn]
    · exact Tree.endpoint?_setBridge there rfl
    · exact ⟨[], by simp [Site.disconnect, Site.withTree], by simp⟩
  · next hconnect _ _ _ hdisconnect =>
    exact .unheard (Bridge.turn?_of_ne hconnect hdisconnect)
      (by simp [Bridge.asked?, Bridge.presented?_of_ne hconnect]) site

/-! ## Whole runs -/

/-- The frame of its client that a bridge handles in a step. -/
def heardIn? (site : Site M) (id : Nat) : RunStep M → Option (Bridge × Frame)
  | .poll _ other => if other = id then site.heard? id else none
  | _ => none

/-- The frames of its client that a bridge handles in the course of steps. -/
def heard (site : Site M) (id : Nat) : List (RunStep M) → List (Bridge × Frame)
  | [] => []
  | step :: steps => (site.heardIn? id step).toList ++ (site.take step).heard id steps

/-- A frame is handled at a poll. -/
theorem poll_of_heardIn? {step : RunStep M} {found : Bridge × Frame}
    (h : site.heardIn? id step = some found) :
    ∃ now, step = .poll now id ∧ site.heard? id = some found := by
  cases step with
  | poll now other =>
    simp only [heardIn?] at h
    split at h
    · next heq => exact ⟨now, heq ▸ rfl, h⟩
    · cases h
  | build | execute | notify | expire | provision | around => cases h

/-- At a poll at which a bridge handles nothing, nothing but its channel changes. -/
theorem pollAt_eq_polled {bridge : Bridge} (there : site.tree.bridge? id = some bridge) (now : Nat)
    (h : site.heard? id = none) : pollAt now site id = site.polled id bridge.channel := by
  rcases pollAt_cases (Tree.channel?_of_bridge? there) now with heq | ⟨link, frame, -, hlink, -⟩ |
    ⟨_, frame, hheard, -⟩
  · exact heq
  · rw [Tree.link?_eq_none_of_bridge? (bridge?_polled there)] at hlink
    cases hlink
  · rw [h] at hheard
    cases hheard

/-- A poll at which a bridge handles nothing does nothing to its session. -/
theorem spares_pollAt_self {bridge : Bridge} (there : site.tree.bridge? id = some bridge)
    (now : Nat) (h : site.heard? id = none) : Spares rule id site (pollAt now site id) := by
  rw [pollAt_eq_polled there now h]
  exact .of_carries (carries_polled (Tree.channel?_of_bridge? there))

/-- A poll at which a bridge handles a frame. -/
theorem handles_pollAt (now : Nat) {bridge : Bridge} {frame : Frame}
    (h : site.heard? id = some (bridge, frame)) :
    site.tree.bridge? id = some bridge ∧ Handles id bridge frame site (pollAt now site id) := by
  obtain ⟨hbridge, hfree, hframe⟩ := heard?_eq_some h
  have hthere := Tree.channel?_of_bridge? hbridge
  have hcarries : Carries (fun _ _ => True) site (site.polled id bridge.channel) :=
    carries_polled hthere
  have hclient := Tree.client?_eq_of_core hcarries.core id
  have hhandles : Handles id { bridge with channel := (bridge.channel.poll site.medium).2.1 } frame
      (site.polled id bridge.channel) (pollAt now site id) := by
    rw [pollAt_eq hthere, hframe]
    dsimp only
    rw [receive_of_bridge? (bridge?_polled hbridge)]
    refine .holding hfree fun pool => handles_receiveBridge ?_ now frame
    exact bridge?_polled hbridge
  refine ⟨hbridge, ?_, hhandles.asked, hhandles.ended, fun hclosed other => ?_, ?_⟩
  · rw [← hclient]
    exact hhandles.client?
  · refine (hhandles.still (hclient.trans hclosed) other).trans ?_
    exact Tree.endpoint?_setChannel _ _ _ _
  · obtain ⟨events, hlog, hall⟩ := hhandles.log
    rw [hclient, Channel.socket_poll] at hall
    exact ⟨events, hlog, hall⟩

/-- A step at which a bridge hears nothing goes on beside it, or builds and is not noted. -/
theorem beside_take {bridge : Bridge} (there : site.tree.bridge? id = some bridge) {step : RunStep M}
    (h : site.heardIn? id step = none) :
    Spares (fun _ => True) id site (site.take step) ∨ (site.take step).log = site.log := by
  rcases exists_or_forall_not (step = .poll · id) with ⟨now, rfl⟩ | beside
  · rw [heardIn?, if_pos rfl] at h
    exact .inl (spares_pollAt_self there now h)
  · refine (spares_take_beside site beside).imp_right ?_
    rintro ⟨construction, after, -, -, heq⟩
    rw [heq]
    rfl

omit [Medium M] in
/-- A link that comes up asks no guard. -/
theorem ComesUp.asked_eq {link : Link} {after : Site M} (h : ComesUp id link site after) :
    after.log.filterMap (Event.asked? id) = site.log.filterMap (Event.asked? id) := by
  obtain ⟨events, hlog, hall⟩ := h.log
  have hlisteners : (if site.tree.isUp id then [] else link.listeners.map Event.linkUp).filterMap
      (Event.asked? id) = [] := by
    split
    · rfl
    · simp [List.filterMap_map, Function.comp_def, Event.asked?]
  have hevents : events.filterMap (Event.asked? id) = [] := by
    rw [List.filterMap_eq_nil_iff]
    intro event hevent
    obtain ⟨socket, bytes, rfl | rfl⟩ := hall event hevent <;> rfl
  rw [hlog, List.filterMap_append, List.filterMap_append, hlisteners, hevents, List.append_nil,
    List.append_nil]

/-- A step at which a bridge hears nothing, or at which there is no bridge, does nothing to the
session and asks nothing. -/
theorem idle_take (wellFormed : site.tree.WellFormed) {step : RunStep M}
    (h : site.heardIn? id step = none) :
    (site.take step).tree.client? id = site.tree.client? id ∧
      (site.take step).log.filterMap (Event.asked? id)
        = site.log.filterMap (Event.asked? id) := by
  rcases exists_or_forall_not (step = .poll · id) with ⟨now, rfl⟩ | beside
  · rw [heardIn?, if_pos rfl] at h
    cases hbridge : site.tree.bridge? id with
    | some bridge =>
      have spares : Spares (fun _ => True) id site (pollAt now site id) :=
        spares_pollAt_self hbridge now h
      exact ⟨spares.client?, spares.asked_eq⟩
    | none =>
      cases hlink : site.tree.link? id with
      | some link =>
        rcases pollAt_link_cases wellFormed hlink now with ⟨_, spares⟩ | comes
        · exact ⟨spares.client?, spares.asked_eq⟩
        · exact ⟨comes.client?, comes.asked_eq⟩
      | none =>
        have hchannel : site.tree.channel? id = none :=
          Tree.channel?_eq_none hlink hbridge
        simp [take, pollAt, hchannel]
  · rcases spares_take_beside site beside with
      spares | ⟨construction, after, -, hbuilt, heq⟩
    · exact ⟨spares.client?, spares.asked_eq⟩
    · rw [heq]
      exact ⟨Tree.client?_construct hbuilt id, rfl⟩

/-- What a step does to the session of a bridge is told by the frame that the bridge handles in it,
if there is one, and so is whether the guard is asked. -/
theorem take_turn (wellFormed : site.tree.WellFormed) (id : Nat) (step : RunStep M) :
    (site.take step).tree.client? id
        = ((site.heardIn? id step).bind fun heard => heard.1.turn? heard.2).getD
            (site.tree.client? id) ∧
      (site.take step).log.filterMap (Event.asked? id)
        = site.log.filterMap (Event.asked? id)
          ++ ((site.heardIn? id step).bind fun heard => heard.1.asked? heard.2).toList := by
  cases hheard : site.heardIn? id step with
  | none =>
    obtain ⟨hclient, hasked⟩ := idle_take wellFormed hheard
    exact ⟨hclient, by simp [hasked]⟩
  | some heard =>
    obtain ⟨now, rfl, hpoll⟩ := poll_of_heardIn? hheard
    have hhandles := (handles_pollAt now hpoll).2
    exact ⟨hhandles.client?, hhandles.asked⟩

/-- The session and the questions after some steps are told by the frames handled in them. -/
theorem follow_turns (wellFormed : site.tree.WellFormed) (id : Nat) (steps : List (RunStep M)) :
    (site.follow steps).tree.client? id
        = (((site.heard id steps).filterMap fun heard => heard.1.turn? heard.2).getLast?).getD
            (site.tree.client? id) ∧
      (site.follow steps).log.filterMap (Event.asked? id)
        = site.log.filterMap (Event.asked? id)
          ++ (site.heard id steps).filterMap fun heard => heard.1.asked? heard.2 := by
  induction steps generalizing site with
  | nil => simp [follow, heard]
  | cons step steps ih =>
    obtain ⟨hclient, hasked⟩ := ih (wellFormed_take wellFormed step)
    obtain ⟨hturn, hask⟩ := take_turn wellFormed id step
    change ((site.take step).follow steps).tree.client? id = _ ∧
      ((site.take step).follow steps).log.filterMap (Event.asked? id) = _
    have hlist : ∀ {α : Type} (read : Bridge × Frame → Option α),
        (site.heardIn? id step).toList.filterMap read
          = ((site.heardIn? id step).bind read).toList := by
      intro α read
      cases site.heardIn? id step with
      | none => rfl
      | some heard => cases h : read heard <;> simp [h]
    rw [hclient, hasked, hturn, hask, heard, List.filterMap_append, List.getLast?_append,
      List.filterMap_append, List.append_assoc, hlist, hlist]
    refine ⟨?_, rfl⟩
    generalize ((site.take step).heard id steps).filterMap _ = turns
    generalize (site.heardIn? id step).bind (fun heard => heard.1.turn? heard.2) = first
    cases turns.getLast? with
    | none => cases first <;> rfl
    | some last => rfl

omit [Medium M] in
/-- What goes on beside an entry writes nothing at its socket while nobody has a session there and
nothing is handed over there. -/
theorem Spares.unwritten {before after : Site M} {socket : String} (h : Spares rule id before after)
    (own : ∀ other channel, before.tree.channel? other = some channel → channel.socket = socket →
      other = id)
    (silent : (before.tree.link? id).isSome → ∀ frame, ¬rule frame) :
    ∃ events, after.log = before.log ++ events ∧ (before.tree.client? id = none →
      ∀ event ∈ events, event.writing? socket = none) := by
  obtain ⟨events, hlog, hall⟩ := h.log
  refine ⟨events, hlog, fun closed event hevent => ?_⟩
  have outside : ∀ bytes : Bytes, ¬((before.tree.client? id).isSome ∨
      (before.tree.link? id).isSome ∧ ∃ frame : Frame, bytes = frame.encode ∧ rule frame) := by
    rintro bytes (hclient | ⟨hlink, frame, -, hrule⟩)
    · simp [closed] at hclient
    · exact silent hlink frame hrule
  have hspares := hall event hevent
  cases event with
  | wrote socket bytes =>
    obtain ⟨other, channel, hthere, rfl, may⟩ := hspares
    exact if_neg fun heq => outside bytes (may (own other channel hthere heq))
  | writeFailed socket bytes =>
    obtain ⟨other, channel, hthere, rfl, may⟩ := hspares
    exact if_neg fun heq => outside bytes (may (own other channel hthere heq))
  | called | replied | linkUp | asked => rfl

/-- What a step does and writes while a bridge has no session. -/
structure Discreet (id : Nat) (bridge : Bridge) (site : Site M) (step : RunStep M)
    (events : List Event) : Prop where
  log : (site.take step).log = site.log ++ events
  /-- Before a session and after one nothing but small talk is written to the client, and the
  welcome that opens the next session. -/
  writes : site.tree.client? id = none ∨ (site.take step).tree.client? id = none →
    ∀ event ∈ events, ∀ bytes, event.writing? bridge.channel.socket = some bytes →
      IsSmallTalk bytes ∨ (site.take step).tree.client? id ≠ none ∧ IsWelcome bytes
  /-- The bytes of the client call no method, begin and end no wait, and are answered to the client
  only; nothing else comes of them but a question to the guard. -/
  heard : site.tree.client? id = none → ∀ now, step = .poll now id →
    (∀ other, (site.take step).tree.endpoint? other = site.tree.endpoint? other) ∧
    ∀ event ∈ events, (∃ who, event = .asked id who) ∨
      (event.writing? bridge.channel.socket).isSome

/-- A step in which nothing comes in from the client writes nothing to it while it has no session. -/
theorem exists_discreet_of_unheard {bridge : Bridge} (wellFormed : site.tree.WellFormed)
    (there : site.tree.bridge? id = some bridge)
    (own : ∀ other channel, site.tree.channel? other = some channel →
      channel.socket = bridge.channel.socket → other = id) {step : RunStep M}
    (unheard : site.heardIn? id step = none) :
    ∃ events, Discreet id bridge site step events := by
  have hclient : (site.take step).tree.client? id = site.tree.client? id :=
    (idle_take wellFormed unheard).1
  obtain ⟨events, hlog, hsilent⟩ : ∃ events, (site.take step).log = site.log ++ events ∧
      (site.tree.client? id = none →
        ∀ event ∈ events, event.writing? bridge.channel.socket = none) := by
    rcases beside_take there unheard with spares | log
    · exact spares.unwritten own (by simp [Tree.link?_eq_none_of_bridge? there])
    · exact ⟨[], by simpa using log, by simp⟩
  refine ⟨events, hlog, fun hclosed event hevent bytes hbytes => ?_, ?_⟩
  · rw [hclient, or_self] at hclosed
    simp [hsilent hclosed event hevent] at hbytes
  · rintro - now rfl
    rw [heardIn?, if_pos rfl] at unheard
    have hpolled := pollAt_eq_polled there now unheard
    obtain rfl : events = [] := by
      have hsame : (site.take (.poll now id)).log = site.log := by
        rw [take, hpolled]
        rfl
      simpa [hsame] using hlog
    refine ⟨fun other => ?_, by simp⟩
    rw [take, hpolled]
    exact Tree.endpoint?_setChannel _ _ _ _

/-- A step in which a frame comes in from the client is discreet about it. -/
theorem exists_discreet_of_heard {found : Bridge × Frame} {step : RunStep M}
    (heard : site.heardIn? id step = some found) :
    ∃ events, Discreet id found.1 site step events := by
  obtain ⟨now, rfl, hpoll⟩ := poll_of_heardIn? heard
  obtain ⟨-, hhandles⟩ := handles_pollAt now hpoll
  obtain ⟨events, hlog, hall⟩ := hhandles.log
  refine ⟨events, hlog, fun hclosed event hevent bytes hbytes => ?_, fun hclosed _ _ => ?_⟩
  · cases hbefore : site.tree.client? id with
    | none =>
      rcases hall hbefore event hevent with ⟨who, rfl⟩ | ⟨written, hwritten, hkind⟩
      · cases hbytes
      · obtain rfl : written = bytes := Option.some.inj (hwritten.symm.trans hbytes)
        rcases hkind with hsmall | ⟨⟨client, hopens⟩, hwelcome⟩
        · exact .inl hsmall
        · refine .inr ⟨?_, hwelcome⟩
          rw [take, hhandles.client?, hopens]
          exact Option.some_ne_none client
    | some client =>
      have hafter : (site.take (.poll now id)).tree.client? id = none :=
        hclosed.resolve_left (by simp [hbefore])
      have hsame : site.log ++ events = site.log :=
        hlog.symm.trans (hhandles.log_of_closed hbefore hafter)
      obtain rfl : events = [] := by simpa using hsame
      cases hevent
  · refine ⟨hhandles.still hclosed, fun event hevent => ?_⟩
    rcases hall hclosed event hevent with hasks | ⟨bytes, hbytes, _⟩
    · exact .inl hasks
    · exact .inr (by simp [hbytes])

/-- Every step is discreet about a bridge that has its socket for itself. -/
theorem exists_discreet {bridge : Bridge} (wellFormed : site.tree.WellFormed)
    (there : site.tree.bridge? id = some bridge)
    (own : ∀ other channel, site.tree.channel? other = some channel →
      channel.socket = bridge.channel.socket → other = id) (step : RunStep M) :
    ∃ events, Discreet id bridge site step events := by
  cases hheard : site.heardIn? id step with
  | none => exact exists_discreet_of_unheard wellFormed there own hheard
  | some found =>
    obtain ⟨now, rfl, hpoll⟩ := poll_of_heardIn? hheard
    obtain rfl : bridge = found.1 :=
      Option.some.inj (there.symm.trans (handles_pollAt now hpoll).1)
    exact exists_discreet_of_heard hheard

/-- Sessions are what clients make of them: a client has a session exactly if the last of the
accepted CONNECTs and DISCONNECTs that its bridge has handled is a CONNECT with its identifier, the
guard is asked once about each CONNECT that comes so far and about nothing else, and every step is
discreet about a client without a session. -/
theorem sessions_are_earned (timeout : Nat) (pool : Pool) (medium : M) (steps : List (RunStep M))
    (id : Nat) :
    let origin := start timeout pool medium
    let site := origin.follow steps
    (∀ client, site.tree.client? id = some client ↔
      ((origin.heard id steps).filterMap fun heard => heard.1.turn? heard.2).getLast?
        = some (some client)) ∧
    site.log.filterMap (Event.asked? id)
      = (origin.heard id steps).filterMap (fun heard => heard.1.asked? heard.2) ∧
    ∀ bridge, site.tree.bridge? id = some bridge →
      (∀ other channel, site.tree.channel? other = some channel →
        channel.socket = bridge.channel.socket → other = id) →
      ∀ step, ∃ events, Discreet id bridge site step events := by
  have hempty : (start timeout pool medium).tree.WellFormed := .empty timeout
  obtain ⟨hclient, hasked⟩ := follow_turns hempty id steps
  have hnobody : (start timeout pool medium).tree.client? id = none := by
    simp [start, Tree.empty, Tree.client?, Tree.bridge?, Tree.get?]
  refine ⟨fun client => ?_, hasked, fun bridge there own step =>
    exists_discreet (wellFormed_follow hempty steps) there own step⟩
  rw [hclient, hnobody]
  generalize (List.filterMap _ _).getLast? = last
  cases last with
  | none => simp
  | some turn => simp

/-- A CONNECT of protocol level 4 from client `c`. -/
def greeting : Bytes :=
  [0x10, 0x0d, 0, 4, 0x4d, 0x51, 0x54, 0x54, 4, 2, 0, 60, 0, 1, 0x63]

/-- The steps that lead to a bridge at whose socket a CONNECT waits. -/
def knock : List (RunStep Cabling) :=
  [.build (.addRoot "home"), .build (.addBridge 0 "door" "wire" 23),
    .build (.setGuard 1 fun _ who => who.clientId = "c"),
    .around (Pool.ofSize 2) ((Cabling.empty.feed "wire" greeting))]

/-- The guard is asked about the client that knocks, a session is opened for it, and it is told of
nothing but its welcome. -/
theorem guest_is_welcomed :
    let site := (start 5 (Pool.ofSize 2) Cabling.empty).follow knock
    let after := site.take (.poll 1 1)
    after.tree.client? 1 = some "c" ∧ site.tree.client? 1 = none ∧
      after.log.filterMap (Event.asked? 1) = [⟨"c", none, none⟩] ∧
      ∃ bridge events, site.tree.bridge? 1 = some bridge ∧
        Discreet 1 bridge site (.poll 1 1) events ∧ events.length = 2 := by
  let origin := start 5 (Pool.ofSize 2) Cabling.empty
  let site := origin.follow knock
  obtain ⟨bridge, there⟩ : ∃ bridge, site.tree.bridge? 1 = some bridge := ⟨_, rfl⟩
  have own : ∀ other channel, site.tree.channel? other = some channel →
      channel.socket = bridge.channel.socket → other = 1 := by
    intro other channel hchannel _
    match other with
    | 0 => cases hchannel
    | 1 => rfl
    | _ + 2 => cases hchannel
  obtain ⟨hclient, hasked, -⟩ := sessions_are_earned 5 (Pool.ofSize 2) Cabling.empty
    (knock ++ [.poll 1 1]) 1
  obtain ⟨-, -, hdiscreet⟩ := sessions_are_earned 5 (Pool.ofSize 2) Cabling.empty knock 1
  obtain ⟨events, hevents⟩ := hdiscreet bridge there own (.poll 1 1)
  have hturns : (origin.heard 1 (knock ++ [.poll 1 1])).filterMap
      (fun heard => heard.1.turn? heard.2) = [some "c"] := by decide +kernel
  have hasks : (origin.heard 1 (knock ++ [.poll 1 1])).filterMap
      (fun heard => heard.1.asked? heard.2) = [⟨"c", none, none⟩] := by decide +kernel
  have hafter : origin.follow (knock ++ [.poll 1 1]) = site.take (.poll 1 1) :=
    follow_append origin knock [.poll 1 1]
  rw [hasks, hafter] at hasked
  refine ⟨hafter ▸ (hclient "c").2 (by rw [hturns]; rfl), by decide +kernel, hasked, bridge, events,
    there, hevents, ?_⟩
  have hlength := congrArg List.length hevents.log
  have hbefore : site.log.length = 0 := by decide +kernel
  have hnoted : (site.take (.poll 1 1)).log.length = 2 := by decide +kernel
  rw [List.length_append, hbefore, hnoted] at hlength
  omega

end Site
end TopicTree
