import Mathlib.Logic.Relation
import TopicTree.Proofs.Outcome
import TopicTree.Proofs.Tree.Update
import TopicTree.Site.Tick

/-!
# What a site does by itself

Routing and ticks are made of a few kinds of change: a frame is written, a channel polled, a method
called, a wait ended, and so on. Each change here says all that it may do and what had to hold for
it. Every operation of a site is a chain of changes, so what each change keeps every operation
keeps, and no law about all operations has to look into any of them.
-/

namespace TopicTree.Site

variable {M : Type} [Medium M]

/-- One thing that a site does by itself. -/
inductive Change : Site M → Site M → Prop
  /-- A slot of the pool is claimed or given back. -/
  | pool (site : Site M) (pool : Pool) : Change site { site with pool }
  /-- A frame is written. -/
  | write (site : Site M) (id : Nat) (frame : Frame) : Change site (site.write id frame)
  /-- A channel is polled. -/
  | poll {site : Site M} {id : Nat} {channel : Channel}
      (there : site.tree.channel? id = some channel) :
      Change site
        { site with
          tree := site.tree.setChannel id (channel.poll site.medium).2.1
          medium := (channel.poll site.medium).2.2 }
  /-- A method is called. -/
  | call {site : Site M} {id : Nat} {before after : Endpoint} {method : String} {params : Params}
      {reply : Reply} (there : site.tree.endpoint? id = some before)
      (called : before.call? method params = some (reply, after)) :
      Change site
        ((site.withTree (site.tree.setEndpoint id after)).note (.called id method params))
  /-- A wait ends with a response. -/
  | settle {site : Site M} {id : Nat} {before after : Endpoint} {key : UInt16} {row : Pending}
      {code : ReturnCode} {params : Params} (there : site.tree.endpoint? id = some before)
      (settled : before.settle? key = some (row, after)) :
      Change site
        ((site.withTree (site.tree.setEndpoint id after)).tell id row.requester code params)
  /-- The waits of an entry whose deadlines have come end. -/
  | expire (site : Site M) (now id : Nat) : Change site (expireAt now site id)
  /-- A request of a client begins. -/
  | begin {site : Site M} {id : Nat} {before after : Endpoint} {method topic : String}
      {deadline : Nat} {key : UInt16} (there : site.tree.endpoint? id = some before)
      (begun : before.beginRequest method deadline (.client topic) = .ok (key, after)) :
      Change site (site.withTree (site.tree.setEndpoint id after))
  /-- An id is given out to a notification. -/
  | number {site : Site M} {id : Nat} {endpoint : Endpoint}
      (there : site.tree.endpoint? id = some endpoint) :
      Change site (site.withTree (site.tree.setEndpoint id endpoint.allocateId.2))
  /-- A hub end takes a name that no sibling has. -/
  | adopt {site : Site M} {id parent : Nat} {link : Link} {name : Name}
      (there : site.tree.link? id = some link) (place : link.place = .hub)
      (below : site.tree.parent? id = some parent)
      (free : site.tree.childNamed parent name.text = none) :
      Change site (site.withTree (site.tree.setName id name))
  /-- A device end starts an attempt to be named. -/
  | attempt {site : Site M} {id now : Nat} {link : Link}
      (there : site.tree.link? id = some link) (due : link.isDue now) :
      Change site (site.withTree (site.tree.setLink id { link with lastAttempt := some now }))
  /-- A device end hears that it has been named. -/
  | confirm {site : Site M} {id : Nat} {link : Link} (there : site.tree.link? id = some link)
      (place : link.place = .device) :
      Change site (site.withTree (site.tree.setLink id { link with confirmed := true }))
  /-- A listener is told that its link has come up. -/
  | linkUp (site : Site M) (tag : String) : Change site (site.note (.linkUp tag))
  /-- A guard is asked about a client, and a session may begin. -/
  | ask {site : Site M} {id : Nat} {bridge : Bridge} (there : site.tree.bridge? id = some bridge)
      (who : Credentials) (session : Option Session) :
      Change site
        ((site.note (.asked id who)).withTree
          (site.tree.setBridge id { bridge with seen := who :: bridge.seen, session }))
  /-- The session of a bridge changes or ends. -/
  | session {site : Site M} {id : Nat} {bridge : Bridge}
      (there : site.tree.bridge? id = some bridge) (session : Option Session) :
      Change site (site.withTree (site.tree.setBridge id { bridge with session }))

/-- A chain of changes. -/
abbrev Changes : Site M → Site M → Prop :=
  Relation.ReflTransGen Change

variable {site : Site M}

/-! ## Writing and telling -/

/-- What a chain of changes does while a slot is held, it does with claiming and giving back. -/
theorem changes_holding {frame : Frame} {act : Site M → Site M}
    (h : ∀ pool : Pool, Changes { site with pool } (act { site with pool })) :
    Changes site (site.holding frame act) := by
  unfold holding
  split
  · exact .refl
  · next slot pool _ =>
    exact ((Relation.ReflTransGen.single (.pool site pool)).trans (h pool)).tail (.pool _ _)

/-- Sending is claiming a slot, writing, and giving the slot back. -/
theorem changes_send (site : Site M) (id : Nat) (frame : Frame) :
    Changes site (site.send id frame) :=
  changes_holding fun _ => .single (.write _ id frame)

/-- A packet is sent or dropped. -/
theorem changes_sendPacket {ε : Type} (site : Site M) (id : Nat) (frame : Except ε Frame) :
    Changes site (site.sendPacket id frame) := by
  cases frame with
  | error e => exact .refl
  | ok frame => exact changes_send site id frame

/-- A message is sent or dropped. -/
theorem changes_sendEnvelope (site : Site M) (id : Nat) (message : Envelope) :
    Changes site (site.sendEnvelope id message) :=
  changes_sendPacket site id message.toFrame

/-- A client is told, or is gone. -/
theorem changes_answerClient (site : Site M) (id : Nat) (topic : String) (code : ReturnCode)
    (params : Params) : Changes site (site.answerClient id topic code params) := by
  unfold answerClient
  split
  · exact .refl
  · exact changes_sendPacket site id _

/-- One frame is written to each of some bridges. -/
theorem changes_writeAll (site : Site M) (frame : Frame) (bridges : List Nat) :
    Changes site (site.writeAll frame bridges) := by
  induction bridges generalizing site with
  | nil => exact .refl
  | cons bridge rest ih => exact (ih (site.write bridge frame)).head (.write site bridge frame)

/-- A notification is written to its subscribers or dropped. -/
theorem changes_fanOut (site : Site M) (notification : Envelope) :
    Changes site (site.fanOut notification) := by
  simp only [fanOut]
  split
  · exact .refl
  · split
    · exact .refl
    · exact changes_holding fun _ => changes_writeAll _ _ _

/-- Listeners are told one after the other. -/
theorem changes_announce (site : Site M) (link : Link) : Changes site (site.announce link) := by
  unfold announce
  induction link.listeners generalizing site with
  | nil => exact .refl
  | cons tag rest ih => exact (ih (site.note (.linkUp tag))).head (.linkUp site tag)

/-! ## Routing -/

/-- A message is handed over a link upwards. -/
theorem changes_relayUp (site : Site M) (link : Nat) (message : Envelope) :
    Changes site (site.relayUp link message) := by
  unfold relayUp
  split <;> exact changes_sendEnvelope site link _

/-- A message is handed over a link downwards or dropped. -/
theorem changes_relayDown (site : Site M) (link : Nat) (message : Envelope) :
    Changes site (site.relayDown link message) := by
  simp only [relayDown]
  split
  · exact changes_sendEnvelope site link _
  · exact changes_sendEnvelope site link _
  · exact .refl

omit [Medium M] in
/-- A refusal of a message changes nothing. -/
@[simp]
theorem reject_snd (site : Site M) (here : Nat) (message : Envelope) (code : ReturnCode) :
    (site.reject here message code).2 = site := by
  unfold reject
  split <;> rfl

/-- A message is delivered. -/
theorem changes_deliver (site : Site M) (here : Nat) (message : Envelope) :
    Changes site (site.deliver here message).2 := by
  unfold deliver
  split
  · exact .refl
  · next endpoint hendpoint =>
    split
    · unfold handle
      split
      · rw [reject_snd]
      · next reply after hcall => exact .single (.call hendpoint hcall)
    · unfold settle
      split
      · exact .refl
      · next row after hsettle => exact .single (.settle hendpoint hsettle)
    · exact .refl

/-- A message moves one step. -/
theorem changes_step (site : Site M) (hop : Hop) : Changes site (site.step hop).2 := by
  cases hop with
  | up here message =>
    simp only [step, stepUp]
    split
    · exact .refl
    · split
      · exact changes_relayUp site here message
      · split
        · split
          · exact changes_fanOut site message
          · exact .refl
        · split
          · exact .refl
          · split
            · exact .refl
            · split
              · exact .refl
              · split <;> exact .refl
  | down here message =>
    simp only [step, stepDown, descend]
    split
    · exact .refl
    · split
      · split
        · exact changes_deliver site here message
        · split
          · rw [reject_snd]
          · split
            · rw [reject_snd]
            · exact .refl
      · split
        · exact changes_relayDown site here message
        · exact .refl

/-- A message moves any number of steps. -/
theorem changes_carry (fuel : Nat) (hop : Hop) (site : Site M) :
    Changes site (carry fuel hop site) := by
  induction fuel generalizing hop site with
  | zero => exact .refl
  | succ fuel ih =>
    have hstep := changes_step site hop
    unfold carry
    split
    · next after h => simpa [h] using hstep
    · next next after h =>
      rw [h] at hstep
      exact hstep.trans (ih next after)

/-- A message is routed. -/
theorem changes_route (site : Site M) (hop : Hop) : Changes site (site.route hop) :=
  changes_carry maxHops hop site

/-! ## Links -/

/-- An attempt to have a link named is made or not due. -/
theorem changes_provisionAt (now : Nat) (site : Site M) (id : Nat) :
    Changes site (provisionAt now site id) := by
  unfold provisionAt
  split
  · exact .refl
  · next link hlink =>
    split
    · next hdue =>
      split
      · exact .refl
      · exact (changes_sendEnvelope _ id _).head (.attempt hlink hdue)
    · exact .refl

/-- The answer to an attempt is taken note of or ignored. -/
theorem changes_confirm {id : Nat} {link : Link} (there : site.tree.link? id = some link)
    (place : link.place = .device) (response : Envelope) :
    Changes site (site.confirm id link response) := by
  unfold confirm
  split
  · exact .refl
  · split
    · exact .refl
    · exact (changes_announce _ link).head (.confirm there place)

/-- A message that came in at a device end is handled. -/
theorem changes_receiveBelow {id : Nat} {link : Link} (there : site.tree.link? id = some link)
    (place : link.place = .device) (message : Envelope) :
    Changes site (site.receiveBelow id link message) := by
  unfold receiveBelow
  split
  · exact changes_confirm there place message
  · split
    · exact .refl
    · exact changes_route site _

/-- A name is taken or refused. -/
theorem changes_adopt {id : Nat} {link : Link} (there : site.tree.link? id = some link)
    (place : link.place = .hub) (text : String) : Changes site (site.adopt id link text).2 := by
  unfold adopt
  split
  · exact .refl
  · next name hname =>
    split
    · exact .refl
    · split
      · exact .refl
      · next parent hparent =>
        split
        · exact .refl
        · next hfree =>
          have htaken : site.tree.childNamed parent name.text = none := by
            rw [Name.text_of_ofText hname]
            simpa using hfree
          have hnamed : Changes site (site.withTree (site.tree.setName id name)) :=
            .single (.adopt there place hparent htaken)
          simp only []
          split
          · exact hnamed.trans (changes_announce _ link)
          · exact hnamed

/-- A request for a name is answered. -/
theorem changes_answerNaming {id : Nat} {link : Link} (there : site.tree.link? id = some link)
    (place : link.place = .hub) (request : Envelope) :
    Changes site (site.answerNaming id link request) :=
  (changes_adopt there place _).trans (changes_sendEnvelope _ id _)

/-- A message that came in at a hub end is handled. -/
theorem changes_receiveAbove {id : Nat} {link : Link} (there : site.tree.link? id = some link)
    (place : link.place = .hub) (message : Envelope) :
    Changes site (site.receiveAbove id link message) := by
  unfold receiveAbove
  split
  · exact changes_answerNaming there place message
  · split
    · exact .refl
    · exact changes_route site _

/-- A frame that came in at a link is handled. -/
theorem changes_receiveLink {id : Nat} {link : Link} (there : site.tree.link? id = some link)
    (frame : Frame) : Changes site (site.receiveLink id link frame) := by
  unfold receiveLink
  split
  · exact .refl
  · next message _ =>
    split
    · next hplace => exact changes_receiveBelow there hplace message
    · next hplace => exact changes_receiveAbove there hplace message

/-! ## Bridges -/

/-- A CONNECT is handled. -/
theorem changes_connect {id : Nat} {bridge : Bridge} (there : site.tree.bridge? id = some bridge)
    (frame : Frame) : Changes site (site.connect id bridge frame) := by
  unfold connect
  split
  · split
    · exact changes_sendPacket site id _
    · simp only [ask]
      split
      · exact (changes_sendPacket _ id _).head (.ask there _ _)
      · exact (changes_sendPacket _ id _).head (.ask there _ bridge.session)
  · exact .refl

/-- A SUBSCRIBE is handled. -/
theorem changes_subscribe {id : Nat} {bridge : Bridge}
    (there : site.tree.bridge? id = some bridge) (frame : Frame) :
    Changes site (site.subscribe id bridge frame) := by
  unfold subscribe
  split
  · exact (changes_sendPacket _ id _).head (.session there _)
  · exact .refl

/-- A client's request that begins waits in the endpoint of its bridge. -/
theorem beginRequest_of_beginClientRequest {bridge : Bridge} {target replyTopic : String}
    {payload : Bytes} {deadline : Nat} {request : Envelope} {endpoint : Endpoint}
    (h : beginClientRequest bridge target payload deadline replyTopic = .ok (request, endpoint)) :
    ∃ key, bridge.endpoint.beginRequest request.method deadline (.client replyTopic)
      = .ok (key, endpoint) := by
  simp only [beginClientRequest, bind_eq_ok, pure_eq_ok, Prod.mk.injEq] at h
  obtain ⟨asked, _, ⟨key, begun⟩, hbegin, rfl, rfl⟩ := h
  exact ⟨key, hbegin⟩

/-- A client's request is sent, refused or dropped. -/
theorem changes_requestFor {id : Nat} {bridge : Bridge}
    (there : site.tree.bridge? id = some bridge) (now : Nat) (target : String) (payload : Bytes) :
    Changes site (site.requestFor id bridge now target payload) := by
  simp only [requestFor]
  split
  · exact .refl
  · split
    · exact changes_answerClient site id _ _ _
    · next request endpoint h =>
      obtain ⟨key, hbegin⟩ := beginRequest_of_beginClientRequest h
      exact (changes_route _ _).head (.begin (Tree.endpoint?_of_bridge? there) hbegin)

/-- The endpoint that an entry has to have is the one it has. -/
theorem endpoint?_of_needEndpoint {tree : Tree} {id : Nat} {endpoint : Endpoint}
    (h : tree.needEndpoint id = .ok endpoint) : tree.endpoint? id = some endpoint := by
  unfold Tree.needEndpoint at h
  split at h
  · next entry hentry =>
    split at h
    · next found hfound =>
      obtain rfl : found = endpoint := pure_eq_ok.1 h
      simp [Tree.endpoint?, hentry, hfound]
    · cases h
  · cases h

/-- The endpoint that an entry has is there when it is needed. -/
theorem needEndpoint_of_endpoint? {tree : Tree} {id : Nat} {endpoint : Endpoint}
    (there : tree.endpoint? id = some endpoint) : tree.needEndpoint id = .ok endpoint := by
  obtain ⟨entry, hentry, hrole⟩ := Option.bind_eq_some_iff.1 there
  simp only [Tree.needEndpoint, hentry, hrole, pure_def]

/-- A notification is sent or refused. -/
theorem changes_notify (site : Site M) (node : Nat) (name : String) (qos : Qos) (data : Bytes) :
    Changes site (site.notify node name qos data).2 := by
  unfold notify
  split
  · exact .refl
  · next params id endpoint h =>
    simp only [bind_eq_ok, pure_eq_ok, Prod.mk.injEq] at h
    obtain ⟨_, _, before, hneed, _, hnumber⟩ := h
    have hbefore := endpoint?_of_needEndpoint hneed
    obtain rfl : before.allocateId.2 = endpoint := by rw [hnumber]
    simp only []
    split
    · exact .single (.number hbefore)
    · exact (changes_route _ _).head (.number hbefore)

/-- A PUBLISH is handled. -/
theorem changes_publish {id : Nat} {bridge : Bridge} (there : site.tree.bridge? id = some bridge)
    (now : Nat) (frame : Frame) : Changes site (site.publish id bridge now frame) := by
  unfold publish
  split
  · split
    · exact changes_requestFor there now _ _
    · exact .refl
    · exact changes_notify site id _ _ _
  · exact .refl

/-- A frame that came in at a bridge is handled. -/
theorem changes_receiveBridge {id : Nat} {bridge : Bridge}
    (there : site.tree.bridge? id = some bridge) (now : Nat) (frame : Frame) :
    Changes site (site.receiveBridge id bridge now frame) := by
  unfold receiveBridge
  split
  · exact changes_connect there frame
  · exact changes_send site id _
  · exact changes_subscribe there frame
  · exact changes_publish there now frame
  · exact .single (.session there none)
  · exact .refl

/-! ## Ticks -/

/-- A frame that came in is handled. -/
theorem changes_receive (now : Nat) (site : Site M) (id : Nat) (frame : Frame) :
    Changes site (site.receive now id frame) := by
  unfold receive
  split
  · next link hlink =>
    split
    · exact .refl
    · exact changes_receiveLink hlink frame
  · next bridge hbridge _ =>
    refine changes_holding fun pool => ?_
    have there : ({ site with pool } : Site M).tree.bridge? id = some bridge := hbridge
    exact changes_receiveBridge there now frame
  · exact .refl

/-- A channel is polled, and the frame that comes in is handled. -/
theorem changes_pollAt (now : Nat) (site : Site M) (id : Nat) :
    Changes site (pollAt now site id) := by
  simp only [pollAt]
  split
  · exact .refl
  · next channel hchannel =>
    have hpoll : Changes site _ := .single (.poll hchannel)
    split
    · exact hpoll
    · exact hpoll.trans (changes_receive now _ id _)

/-- What is done at some entries is a chain of changes if what is done at each one is. -/
theorem changes_foldl {act : Site M → Nat → Site M} (h : ∀ site id, Changes site (act site id))
    (ids : List Nat) (site : Site M) : Changes site (ids.foldl act site) := by
  induction ids generalizing site with
  | nil => exact .refl
  | cons id rest ih => exact (h site id).trans (ih (act site id))

/-- What is done at every entry is a chain of changes if what is done at each one is. -/
theorem changes_forEntries {act : Site M → Nat → Site M}
    (h : ∀ site id, Changes site (act site id)) (site : Site M) :
    Changes site (site.forEntries act) :=
  changes_foldl h _ site

/-- A tick ends waits, attempts to have links named, and polls every channel. -/
theorem changes_tick (site : Site M) (now : Nat) : Changes site (site.tick now) :=
  ((changes_forEntries (fun site id => .single (.expire site now id)) site).trans
    (changes_forEntries (changes_provisionAt now) _)).trans
    (changes_forEntries (changes_pollAt now) _)

end TopicTree.Site
