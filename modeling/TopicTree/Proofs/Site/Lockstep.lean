import TopicTree.Proofs.Network.Sockets
import TopicTree.Proofs.Site.Beside
import TopicTree.Proofs.Site.Mirror
import TopicTree.Proofs.Site.Steps

/-!
# Two sites in step

Sites that differ in who asks still do so after the same step of both, a tick taken apart included.
In the parts of a tick the client may have to be told, so it needs its session and a free slot then.
Outside ticks nobody is told but who asks then.
-/

namespace TopicTree

namespace RunStep

variable {M : Type}

/-- Whether a step is part of a tick. -/
def isTick : RunStep M → Bool
  | expire _ _ | provision _ _ | poll _ _ => true
  | _ => false

/-- Whether a step hands over a caller of a given tag. -/
def hands (tag : String) : RunStep M → Prop
  | execute _ _ _ _ _ other => other = tag
  | _ => False

/-- Steps that are the same but for the media around two sites. What is built has its channel at
one of some sockets. -/
inductive Alike (alike : M → M → Prop) (near : String → Prop) : RunStep M → RunStep M → Prop
  | build {construction : Construction} (there : ∀ socket ∈ construction.socket?, near socket) :
      Alike alike near (build construction) (build construction)
  | execute (node : Nat) (method path : String) (params : Params) (now : Nat) (tag : String) :
      Alike alike near (execute node method path params now tag)
        (execute node method path params now tag)
  | notify (node : Nat) (name : String) (qos : Qos) (data : Bytes) :
      Alike alike near (notify node name qos data) (notify node name qos data)
  | expire (now id : Nat) : Alike alike near (expire now id) (expire now id)
  | provision (now id : Nat) : Alike alike near (provision now id) (provision now id)
  | poll (now id : Nat) : Alike alike near (poll now id) (poll now id)
  | around (pool : Pool) {medium medium' : M} (media : alike medium medium') :
      Alike alike near (around pool medium) (around pool medium')

end RunStep

/-- While steps are taken the client of a bridge has a session, and two slots are free whenever a
part of a tick comes. -/
def Site.Attends {M : Type} [Medium M] (site : Site M) (id : Nat) : List (RunStep M) → Prop
  | [] => True
  | step :: steps => (site.tree.client? id).isSome ∧ (step.isTick → 2 ≤ site.pool.available) ∧
      (site.take step).Attends id steps

namespace Mirror

variable {M : Type} [Medium M] {mirror : Mirror M} {held : List Nat} {site site' : Site M}

/-- The same is received at channels that are alike, in media that are alike. -/
theorem receive_channel {id : Nat} {left right : Channel} {medium medium' after : M}
    (h : mirror.Channels id left right) (alike : mirror.alike medium medium')
    {result : Except TransportError (Option UInt8)}
    (taken : Medium.receive left.socket medium = (result, after)) :
    ∃ after', mirror.alike after after' ∧
      Medium.receive right.socket medium' = (result, after') := by
  obtain ⟨hsame, hafter⟩ := mirror.veils.receive left.socket h.near alike
  rw [taken] at hsame hafter
  exact ⟨_, hafter, h.socket ▸ Prod.ext hsame.symm rfl⟩

/-- Channels that are alike are polled alike, in media that are alike. -/
theorem poll_channel {id : Nat} {left right : Channel} {medium medium' : M}
    (h : mirror.Channels id left right) (alike : mirror.alike medium medium') :
    (left.poll medium).1 = (right.poll medium').1 ∧
      mirror.Channels id (left.poll medium).2.1 (right.poll medium').2.1 ∧
      mirror.alike (left.poll medium).2.2 (right.poll medium').2.2 := by
  fun_induction Channel.poll left medium generalizing right medium' with
  | case1 channel medium e after taken =>
    obtain ⟨after', hafter, hright⟩ := receive_channel h alike taken
    rw [right.poll_eq, hright]
    exact ⟨rfl, ⟨h.socket, h.decoder, h.own, h.near⟩, hafter⟩
  | case2 channel medium after taken =>
    obtain ⟨after', hafter, hright⟩ := receive_channel h alike taken
    rw [right.poll_eq, hright]
    exact ⟨rfl, h, hafter⟩
  | case3 channel medium byte after taken frame decoder pushed =>
    obtain ⟨after', hafter, hright⟩ := receive_channel h alike taken
    rw [h.decoder] at pushed
    rw [right.poll_eq, hright]
    simp only [pushed, true_and]
    exact ⟨⟨h.socket, rfl, h.own, h.near⟩, hafter⟩
  | case4 channel medium byte after taken decoder pushed ih =>
    obtain ⟨after', hafter, hright⟩ := receive_channel h alike taken
    rw [h.decoder] at pushed
    rw [right.poll_eq, hright]
    simp only [pushed]
    exact ih ⟨h.socket, rfl, h.own, h.near⟩ hafter
  | case5 channel medium byte after taken e decoder pushed ih =>
    obtain ⟨after', hafter, hright⟩ := receive_channel h alike taken
    rw [h.decoder] at pushed
    rw [right.poll_eq, hright]
    simp only [pushed]
    exact ih ⟨h.socket, rfl, h.own, h.near⟩ hafter

/-- A client's request begins at both bridges or is refused at both. -/
theorem agree_beginClientRequest {id : Nat} {bridge bridge' : Bridge}
    (endpoints : mirror.Endpoints id bridge.endpoint bridge'.endpoint) (target : String)
    (payload : Bytes) (deadline : Nat) (replyTopic : String) :
    Agree (fun begun begun' => begun.1 = begun'.1 ∧ mirror.Endpoints id begun.2 begun'.2)
      (Site.beginClientRequest bridge target payload deadline replyTopic)
      (Site.beginClientRequest bridge' target payload deadline replyTopic) := by
  unfold Site.beginClientRequest
  refine .after fun request _ => .bind (endpoints.beginRequest (fun _ => .same _ (by simp)) _) ?_
  rintro ⟨key, begun⟩ ⟨_, begun'⟩ ⟨rfl, hbegun⟩
  exact .ok ⟨rfl, hbegun⟩

namespace Sites

variable (h : mirror.Sites held held site site')
include h

/-! ## Calls -/

/-- The same is built at both sites. -/
theorem build {construction : Construction}
    (near : ∀ socket ∈ construction.socket?, mirror.near socket) :
    mirror.Sites held held (site.take (.build construction))
      (site'.take (.build construction)) := by
  have hagree := h.trees.construct near
  simp only [Site.take, Site.move, Site.perform]
  generalize site.tree.construct construction = built at hagree ⊢
  generalize site'.tree.construct construction = built' at hagree ⊢
  cases hagree with
  | error e => exact h
  | ok trees => exact h.withTree trees

/-- Another caller makes a request at both sites. -/
theorem execute (wellFormed : site'.tree.WellFormed) (node : Nat) (method path : String)
    (params : Params) (now : Nat) {other : String} (differ : other ≠ mirror.tag) :
    mirror.Sites held held (site.take (.execute node method path params now other))
      (site'.take (.execute node method path params now other)) := by
  have hagree : Agree (fun begun begun' => begun'.2.tellings mirror.tag = site'.tellings mirror.tag →
      mirror.Sites held held begun.2 begun'.2) (site.execute node method path params now other)
      (site'.execute node method path params now other) := by
    unfold Site.execute
    refine .after fun _ _ => .after fun _ _ => .bind (h.trees.needEndpoint node) fun _ _ hneed => ?_
    rw [h.trees.timeout]
    refine .bind (hneed.beginRequest (fun _ => .same _ ?_) method) ?_
    · simpa using differ
    · rintro ⟨id, begun⟩ ⟨_, begun'⟩ ⟨rfl, hbegun⟩
      exact .ok fun quiet =>
        (h.withTree (h.trees.setEndpoint hbegun)).route .rfl _ (.inr quiet)
  simp only [Site.take, Site.move, Site.perform]
  generalize site.execute node method path params now other = result at hagree ⊢
  generalize hexecute : site'.execute node method path params now other = result' at hagree ⊢
  cases hagree with
  | error e => exact h
  | ok hsites => exact hsites (Site.tellings_execute wellFormed hexecute differ)

/-- A notification is made at both sites. -/
theorem notify (node : Nat) (name : String) (qos : Qos) (data : Bytes) :
    mirror.Sites held held (site.notify node name qos data).2 (site'.notify node name qos data).2 := by
  have hquiet : (site'.notify node name qos data).2.tellings mirror.tag
      = site'.tellings mirror.tag := Site.tellings_notify site' node name qos data
  have hagree : Agree (fun numbered numbered' => numbered.1 = numbered'.1 ∧
      numbered.2.1 = numbered'.2.1 ∧ mirror.Endpoints node numbered.2.2 numbered'.2.2)
      (do
        let params ← Params.ofBytes data
        let endpoint ← site.tree.needEndpoint node
        return (params, endpoint.allocateId))
      (do
        let params ← Params.ofBytes data
        let endpoint ← site'.tree.needEndpoint node
        return (params, endpoint.allocateId)) :=
    .after fun params _ => .bind (h.trees.needEndpoint node) fun _ _ hneed =>
      .ok ⟨rfl, hneed.allocateId.1, hneed.allocateId.2⟩
  unfold Site.notify at hquiet ⊢
  generalize (do
    let params ← Params.ofBytes data
    let endpoint ← site.tree.needEndpoint node
    return (params, endpoint.allocateId)) = result at hagree ⊢
  generalize (do
    let params ← Params.ofBytes data
    let endpoint ← site'.tree.needEndpoint node
    return (params, endpoint.allocateId)) = result' at hagree hquiet ⊢
  cases hagree with
  | error e => exact h
  | @ok numbered numbered' hnumbered =>
    obtain ⟨params, id, endpoint⟩ := numbered
    obtain ⟨params', id', endpoint'⟩ := numbered'
    obtain ⟨rfl, rfl, hendpoint⟩ := hnumbered
    have hsites := h.withTree (h.trees.setEndpoint hendpoint)
    simp only [] at hquiet ⊢
    cases hmade : Envelope.notification name id qos params with
    | error e => exact hsites
    | ok notification =>
      rw [hmade] at hquiet
      exact hsites.route .rfl _ (.inr hquiet)

/-! ## Links -/

/-- The listeners of a link are told at both sites. -/
theorem announce (link : Link) :
    mirror.Sites held held (site.announce link) (site'.announce link) := by
  unfold Site.announce
  induction link.listeners generalizing site site' with
  | nil => exact h
  | cons tag rest ih => exact ih (h.note (.same _ rfl))

/-- A link is seen to at both sites. -/
theorem provisionAt (now id : Nat) :
    mirror.Sites held held (Site.provisionAt now site id) (Site.provisionAt now site' id) := by
  have hrel := h.trees.link? id
  have hrequest : site'.tree.namingRequest? id = site.tree.namingRequest? id := by
    have hname : site'.tree.name? = site.tree.name? :=
      funext fun id => (Tree.name?_congr h.trees.outline_eq id).symm
    rw [Tree.namingRequest?, Tree.namingRequest?, hname, Tree.children_congr h.trees.outline_eq]
  unfold Site.provisionAt
  rw [hrequest]
  generalize site.tree.link? id = link at hrel ⊢
  generalize site'.tree.link? id = link' at hrel ⊢
  cases hrel with
  | none => exact h
  | @some link link' hrole =>
    have hdue : link'.isDue now = link.isDue now := by cases hrole with | link => rfl
    simp only [hdue]
    split
    · cases site.tree.namingRequest? id with
      | none => exact h
      | some request =>
        cases hrole with
        | link channels =>
          exact (h.withTree (h.trees.setLink (.of_link channels rfl))).sendEnvelope .rfl id request
    · exact h

/-- The answer to an attempt is taken note of, or ignored, at both sites. -/
theorem confirm {id : Nat} {link link' : Link} (links : mirror.Roles id (.link link) (.link link'))
    (response : Envelope) :
    mirror.Sites held held (site.confirm id link response) (site'.confirm id link' response) := by
  cases links with
  | link channels =>
    unfold Site.confirm
    rw [← Tree.children_congr h.trees.outline_eq id]
    split
    · exact h
    · rw [← Tree.name?_congr h.trees.outline_eq]
      dsimp only
      split
      · exact h
      · exact (h.withTree (h.trees.setLink (.of_link channels rfl))).announce _

/-- A message that came in at a device end is handled at both sites. -/
theorem receiveBelow {id : Nat} {link link' : Link}
    (links : mirror.Roles id (.link link) (.link link')) (ready : mirror.Ready held site)
    (message : Envelope) :
    mirror.Sites held held (site.receiveBelow id link message)
      (site'.receiveBelow id link' message) := by
  unfold Site.receiveBelow
  rw [← Tree.children_congr h.trees.outline_eq id]
  split
  · exact h.confirm links message
  · split
    · exact h
    · exact h.route .rfl _ (.inl ready)

/-- A name is taken or refused at both sites. -/
theorem adopt {id : Nat} {link link' : Link} (links : mirror.Roles id (.link link) (.link link'))
    (text : String) :
    (site.adopt id link text).1 = (site'.adopt id link' text).1 ∧
      mirror.Sites held held (site.adopt id link text).2 (site'.adopt id link' text).2 := by
  cases links with
  | link channels =>
    have hname : site'.tree.name? = site.tree.name? :=
      funext fun id => (Tree.name?_congr h.trees.outline_eq id).symm
    unfold Site.adopt Tree.isNamed
    simp only [hname, ← Tree.parent?_congr h.trees.outline_eq,
      ← Tree.childNamed_congr h.trees.outline_eq]
    split
    · exact ⟨rfl, h⟩
    · split
      · exact ⟨rfl, h⟩
      · split
        · exact ⟨rfl, h⟩
        · split
          · exact ⟨rfl, h⟩
          · refine ⟨rfl, ?_⟩
            dsimp only
            split
            · exact (h.withTree (h.trees.setName id _)).announce _
            · exact h.withTree (h.trees.setName id _)

/-- A request for a name is answered at both sites. -/
theorem answerNaming {id : Nat} {link link' : Link}
    (links : mirror.Roles id (.link link) (.link link')) (request : Envelope) :
    mirror.Sites held held (site.answerNaming id link request)
      (site'.answerNaming id link' request) := by
  obtain ⟨hcode, hsites⟩ := h.adopt links ((request.params.text? 0).getD "")
  simp only [Site.answerNaming, ← hcode]
  exact hsites.sendEnvelope .rfl id _

/-- A message that came in at a hub end is handled at both sites. -/
theorem receiveAbove {id : Nat} {link link' : Link}
    (links : mirror.Roles id (.link link) (.link link')) (ready : mirror.Ready held site)
    (message : Envelope) :
    mirror.Sites held held (site.receiveAbove id link message)
      (site'.receiveAbove id link' message) := by
  unfold Site.receiveAbove
  rw [← Tree.name?_congr h.trees.outline_eq id]
  split
  · exact h.answerNaming links message
  · split
    · exact h
    · exact h.route .rfl _ (.inl ready)

/-- A frame that came in at a link is handled at both sites. -/
theorem receiveLink {id : Nat} {link link' : Link}
    (links : mirror.Roles id (.link link) (.link link')) (ready : mirror.Ready held site)
    (frame : Frame) :
    mirror.Sites held held (site.receiveLink id link frame) (site'.receiveLink id link' frame) := by
  have hplace : link'.place = link.place := by cases links with | link => rfl
  unfold Site.receiveLink
  rw [hplace]
  split
  · exact h
  · split
    · exact h.receiveBelow links ready _
    · exact h.receiveAbove links ready _

/-! ## Bridges -/

/-- A client is told what became of its CONNECT at both sites. -/
theorem acknowledge (id : Nat) (outcome : ConnectOutcome) :
    mirror.Sites held held (site.acknowledge id outcome) (site'.acknowledge id outcome) :=
  h.sendPacket .rfl id _

/-- A guard is asked at both sites. -/
theorem ask {id : Nat} {bridge bridge' : Bridge}
    (bridges : mirror.Roles id (.bridge bridge) (.bridge bridge')) (guard : Guard)
    (who : Credentials) :
    mirror.Sites held held (site.ask id bridge guard who) (site'.ask id bridge' guard who) := by
  have hasked := h.note (.same (.asked id who) rfl)
  cases bridges with
  | bridge endpoints channels =>
    unfold Site.ask
    dsimp only
    split
    · exact (hasked.withTree (h.trees.setBridge (.of_bridge endpoints channels rfl))).acknowledge id _
    · exact (hasked.withTree (h.trees.setBridge (.of_bridge endpoints channels rfl))).acknowledge id _

/-- A CONNECT is handled at both sites. -/
theorem connect {id : Nat} {bridge bridge' : Bridge}
    (bridges : mirror.Roles id (.bridge bridge) (.bridge bridge')) (frame : Frame) :
    mirror.Sites held held (site.connect id bridge frame) (site'.connect id bridge' frame) := by
  have hguard : bridge'.guard = bridge.guard := by cases bridges with | bridge => rfl
  have hrefusal : ∀ connect, bridge'.refusal? connect = bridge.refusal? connect := fun _ => by
    cases bridges with | bridge => rfl
  unfold Site.connect
  simp only [hguard, hrefusal]
  split
  · split
    · exact h.acknowledge id _
    · exact h.ask bridges _ _
  · exact h

/-- A SUBSCRIBE is handled at both sites. -/
theorem subscribe {id : Nat} {bridge bridge' : Bridge}
    (bridges : mirror.Roles id (.bridge bridge) (.bridge bridge')) (frame : Frame) :
    mirror.Sites held held (site.subscribe id bridge frame) (site'.subscribe id bridge' frame) := by
  cases bridges with
  | bridge endpoints channels =>
    unfold Site.subscribe
    dsimp only
    split
    · exact (h.withTree (h.trees.setBridge (.of_bridge endpoints channels rfl))).sendPacket .rfl id _
    · exact h

/-- A request of some client is handled at both sites. -/
theorem requestFor {id : Nat} {bridge bridge' : Bridge}
    (endpoints : mirror.Endpoints id bridge.endpoint bridge'.endpoint)
    (ready : mirror.Ready held site) (now : Nat) (target : String) (payload : Bytes) :
    mirror.Sites held held (site.requestFor id bridge now target payload)
      (site'.requestFor id bridge' now target payload) := by
  unfold Site.requestFor
  dsimp only
  split
  · exact h
  · have hagree := agree_beginClientRequest endpoints target payload (now + site.tree.timeout)
      (Kind.response.marker ++ target)
    rw [← h.trees.timeout]
    generalize Site.beginClientRequest bridge target payload _ _ = begun at hagree ⊢
    generalize Site.beginClientRequest bridge' target payload _ _ = begun' at hagree ⊢
    cases hagree with
    | error e => exact h.answerClient .rfl id _ _ _
    | @ok begun begun' hbegun =>
      obtain ⟨request, endpoint⟩ := begun
      obtain ⟨request', endpoint'⟩ := begun'
      obtain ⟨rfl, hendpoint⟩ := hbegun
      exact (h.withTree (h.trees.setEndpoint hendpoint)).route .rfl _
        (.inl (ready.congr (Tree.core_setEndpoint site.tree id endpoint)))

/-- A PUBLISH is handled at both sites. -/
theorem publish {id : Nat} {bridge bridge' : Bridge}
    (bridges : mirror.Roles id (.bridge bridge) (.bridge bridge')) (ready : mirror.Ready held site)
    (now : Nat) (frame : Frame) :
    mirror.Sites held held (site.publish id bridge now frame)
      (site'.publish id bridge' now frame) := by
  cases bridges with
  | bridge endpoints =>
    unfold Site.publish
    dsimp only
    split
    · split
      · exact h.requestFor endpoints ready now _ _
      · exact h
      · exact h.notify id _ _ _
    · exact h

/-- A frame that came in at a bridge is handled at both sites. -/
theorem receiveBridge {id : Nat} {bridge bridge' : Bridge}
    (bridges : mirror.Roles id (.bridge bridge) (.bridge bridge')) (ready : mirror.Ready held site)
    (now : Nat) (frame : Frame) :
    mirror.Sites held held (site.receiveBridge id bridge now frame)
      (site'.receiveBridge id bridge' now frame) := by
  unfold Site.receiveBridge
  split
  · exact h.connect bridges frame
  · exact h.send .rfl id _
  · exact h.subscribe bridges frame
  · exact h.publish bridges ready now frame
  · cases bridges with
    | bridge endpoints channels =>
      exact h.withTree (h.trees.setBridge (.of_bridge endpoints channels rfl))
  · exact h

/-! ## Ticks -/

/-- Requesters of overdue rows are told at both sites. -/
theorem tellExpired {id : Nat} {rows rows' : List Pending}
    (overdue : List.Forall₂ (mirror.Rows id) rows rows') (ready : mirror.Ready held site) :
    mirror.Sites held held (Site.tellExpired id rows site) (Site.tellExpired id rows' site') := by
  induction overdue generalizing site site' with
  | nil => exact h
  | @cons row _ _ _ hrow _ ih =>
    have hcore : Site.Carries (fun _ _ => True) site
        (site.tell id row.requester .timeout Params.empty) := .tell _ _ _ _ _
    exact ih (h.tell .rfl hrow (fun _ => ready) .timeout Params.empty) (ready.congr hcore.core)

/-- Overdue waits end at both sites. -/
theorem expireAt (ready : mirror.Ready held site) (now id : Nat) :
    mirror.Sites held held (Site.expireAt now site id) (Site.expireAt now site' id) := by
  have hrel := h.trees.endpoint? id
  unfold Site.expireAt
  generalize site.tree.endpoint? id = found at hrel ⊢
  generalize site'.tree.endpoint? id = found' at hrel ⊢
  cases hrel with
  | none => exact h
  | @some endpoint _ hendpoint =>
    obtain ⟨hexpired, hkept⟩ := hendpoint.takeExpired now
    exact (h.withTree (h.trees.setEndpoint hkept)).tellExpired hexpired
      (ready.congr (Tree.core_setEndpoint site.tree id _))

/-- A frame that came in is handled at both sites. It may take one of the free slots. -/
theorem receive (session : (site.tree.client? mirror.bridge).isSome) (free : 2 ≤ held.count 0)
    (now id : Nat) (frame : Frame) :
    mirror.Sites held held (site.receive now id frame) (site'.receive now id frame) := by
  have ready : mirror.Ready held site := ⟨session, List.count_pos_iff.1 (by omega)⟩
  have hlink := h.trees.link? id
  have hbridge := h.trees.bridge? id
  have hslots : site.pool.available = site'.pool.available := by
    rw [← Pool.count_holders, ← Pool.count_holders, h.slots, h.slots']
  unfold Site.receive
  rw [hslots]
  generalize site.tree.link? id = link at hlink ⊢
  generalize site'.tree.link? id = link' at hlink ⊢
  generalize site.tree.bridge? id = bridge at hbridge ⊢
  generalize site'.tree.bridge? id = bridge' at hbridge ⊢
  cases hlink with
  | some links =>
    dsimp only
    split
    · exact h
    · exact h.receiveLink links ready frame
  | none =>
    cases hbridge with
    | none => exact h
    | some bridges =>
      refine h.holding .rfl frame frame fun slot slot' pool pool' hslot hslot' hheld => ?_
      obtain rfl : slot = slot' := Option.some.inj (hslot.symm.trans hslot')
      have hcount := Pool.count_le_count_modify held slot fun _ => 1
      have hready : mirror.Ready (held.modify slot fun _ => 1) { site with pool } :=
        ⟨session, List.count_pos_iff.1 (by omega)⟩
      exact hheld.receiveBridge bridges hready now frame

/-- A channel is polled at both sites. -/
theorem pollAt (session : (site.tree.client? mirror.bridge).isSome) (free : 2 ≤ held.count 0)
    (now id : Nat) :
    mirror.Sites held held (Site.pollAt now site id) (Site.pollAt now site' id) := by
  rcases Asker.rel_cases (h.trees.channel? id) with
    ⟨hleft, hright⟩ | ⟨channel, channel', hleft, hright, hchannel⟩
  · simp only [Site.pollAt, hleft, hright]
    exact h
  · obtain ⟨hframe, hchannels, hmedia⟩ := poll_channel hchannel h.media
    have hcore : Site.Carries (fun _ _ => True) site (site.polled id channel) :=
      Site.carries_polled hleft
    have hpolled : mirror.Sites held held (site.polled id channel) (site'.polled id channel') :=
      ⟨h.trees.setChannel hchannels, hmedia, h.slots, h.slots', h.log⟩
    rw [Site.pollAt_eq hleft, Site.pollAt_eq hright, ← hframe]
    split
    · exact hpolled
    · exact hpolled.receive (Tree.client?_eq_of_core hcore.core mirror.bridge ▸ session) free now id _

omit h

/-! ## Runs -/

/-- The same step is taken at both sites. -/
theorem take (h : mirror.Sites held held site site') (wellFormed : site'.tree.WellFormed)
    {step step' : RunStep M} (alike : step.Alike mirror.alike mirror.near step')
    (others : ¬step'.hands mirror.tag) (session : (site.tree.client? mirror.bridge).isSome)
    (free : step.isTick → 2 ≤ held.count 0) :
    ∃ held', mirror.Sites held' held' (site.take step) (site'.take step') := by
  have hready : step.isTick → mirror.Ready held site := fun htick =>
    ⟨session, List.count_pos_iff.1 (by have := free htick; omega)⟩
  cases alike with
  | build near => exact ⟨held, h.build near⟩
  | execute node method path params now other =>
    exact ⟨held, h.execute wellFormed node method path params now others⟩
  | notify node name qos data => exact ⟨held, h.notify node name qos data⟩
  | expire now id => exact ⟨held, h.expireAt (hready rfl) now id⟩
  | provision now id => exact ⟨held, h.provisionAt now id⟩
  | poll now id => exact ⟨held, h.pollAt session (free rfl) now id⟩
  | around pool media => exact ⟨pool.holders, h.trees, media, rfl, rfl, h.log⟩

/-- The same steps are taken at both sites. -/
theorem follow (h : mirror.Sites held held site site') (wellFormed : site'.tree.WellFormed)
    {steps steps' : List (RunStep M)}
    (alike : List.Forall₂ (RunStep.Alike mirror.alike mirror.near) steps steps')
    (others : ∀ step ∈ steps', ¬step.hands mirror.tag)
    (attends : site.Attends mirror.bridge steps) :
    ∃ held', mirror.Sites held' held' (site.follow steps) (site'.follow steps') := by
  induction alike generalizing held site site' with
  | nil => exact ⟨held, h⟩
  | @cons step step' rest rest' halike _ ih =>
    obtain ⟨hsession, hfree, hrest⟩ := attends
    rw [List.forall_mem_cons] at others
    have hslots : site.pool.available = held.count 0 := by rw [← Pool.count_holders, h.slots]
    obtain ⟨_, htaken⟩ := h.take wellFormed halike others.1 hsession (hslots ▸ hfree)
    exact ih htaken (Site.wellFormed_take wellFormed step') others.2 hrest

end Sites
end Mirror
end TopicTree
