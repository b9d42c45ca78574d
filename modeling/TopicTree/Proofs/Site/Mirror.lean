import TopicTree.Proofs.Packet.Publish
import TopicTree.Proofs.Routing.Homing
import TopicTree.Proofs.Site.Traffic
import TopicTree.Proofs.Slots
import TopicTree.Proofs.Tree.Asker

/-!
# Two sites side by side

One run at two sites: at the left one the client of a bridge has made a request, at the right one a
caller has made it in the client's stead. Whatever is done at both, the same happens at both, until
the asker is told; then a reply is written at the socket of the client at the left site, and the
caller is told the same at the right one. To be told, the client needs a session and a free slot.
-/

namespace TopicTree

/-- The frame in which the client is told how its request went. -/
def Asker.reply (asker : Asker) (code : ReturnCode) (params : Params) : Except WireError Frame :=
  (Publish.plain asker.topic (code.toByte :: params.bytes)).toFrame

/-- A reply on a topic of the length of a path fits a frame. -/
theorem exists_toFrame_reply {topic : String} (fits : topic.utf8ByteSize ≤ maxPath)
    (code : ReturnCode) (params : Params) :
    ∃ frame, (Publish.plain topic (code.toByte :: params.bytes)).toFrame = .ok frame := by
  have hparams := params.fits
  apply Publish.exists_toFrame_plain
  simp only [maxPath, maxParams, frameCapacity, List.length_cons] at *
  omega

namespace Site

variable {M : Type}

/-- A client with a session is told, if a slot is free and the write succeeds. -/
theorem answerClient_eq [Medium M] {site : Site M} {id : Nat} {topic : String} {code : ReturnCode}
    {params : Params} {frame : Frame} {channel : Channel} {after : M}
    (session : (site.tree.client? id).isSome) (free : 0 ∈ site.pool.holders)
    (made : (Publish.plain topic (code.toByte :: params.bytes)).toFrame = .ok frame)
    (there : site.tree.channel? id = some channel)
    (sent : Medium.transmit channel.socket frame.encode site.medium = (.ok (), after)) :
    ∃ pool, pool.holders = site.pool.holders ∧
      site.answerClient id topic code params =
        ⟨site.tree.setChannel id channel.countSent, pool, after,
          site.log ++ [.wrote channel.socket frame.encode]⟩ := by
  obtain ⟨client, hclient⟩ := Option.isSome_iff_exists.1 session
  rcases Pool.bind_cases site.pool frame with ⟨hfull, -⟩ | ⟨slot, pool, hfree, hbind, hheld⟩
  · exact absurd free hfull
  refine ⟨pool.release slot, ?_, ?_⟩
  · rw [Pool.holders_release, hheld, Pool.modify_modify_of_findIdx? hfree]
  · have hsend : channel.send frame site.medium = (.ok (), channel.countSent, after) := by
      rw [Channel.send, sent]
    simp only [answerClient, hclient, made, sendPacket, send, holding, hbind, write, there, hsend,
      note]
    rfl

end Site

/-- A relation of media that nothing tells apart which is read or written at some sockets, and in
which it makes no difference what is written at one of them in the left medium. -/
structure Veils {M : Type} [Medium M] (alike : M → M → Prop) (near : String → Prop)
    (socket : String) : Prop where
  receive : ∀ label, near label → ∀ {left right}, alike left right →
    (Medium.receive label left).1 = (Medium.receive label right).1 ∧
      alike (Medium.receive label left).2 (Medium.receive label right).2
  transmit : ∀ label, near label → ∀ bytes {left right}, alike left right →
    (Medium.transmit label bytes left).1 = (Medium.transmit label bytes right).1 ∧
      alike (Medium.transmit label bytes left).2 (Medium.transmit label bytes right).2
  written : ∀ bytes {left right}, alike left right →
    ∃ after, Medium.transmit socket bytes left = (.ok (), after) ∧ alike after right

/-- What two sites are compared by: who asks, which media count as alike, and what had happened at
each of the sites before. -/
structure Mirror (M : Type) [Medium M] extends Asker where
  alike : M → M → Prop
  veils : Veils alike near socket
  fits : topic.utf8ByteSize ≤ maxPath
  past : List Event
  past' : List Event

namespace Mirror

variable {M : Type} [Medium M]

/-- Events at the two sites: the same one, or a reply to the client and what the caller is told. -/
inductive Events (mirror : Mirror M) : Event → Event → Prop
  | same (event : Event) (other : event.telling? mirror.tag = none) : Events mirror event event
  | own {code : ReturnCode} {params : Params} {frame : Frame}
      (written : mirror.reply code params = .ok frame) :
      Events mirror (.wrote mirror.socket frame.encode) (.replied mirror.tag code params)

/-- Sites that differ in who asks. Their slots are held by so many each. -/
structure Sites (mirror : Mirror M) (held held' : List Nat) (site site' : Site M) : Prop where
  trees : mirror.Trees site.tree site'.tree
  media : mirror.alike site.medium site'.medium
  slots : site.pool.holders = held
  slots' : site'.pool.holders = held'
  log : ∃ events events', site.log = mirror.past ++ events ∧ site'.log = mirror.past' ++ events' ∧
    List.Forall₂ mirror.Events events events'

/-- Outcomes of a step at both sites: the message goes on alike. -/
structure Outcomes (mirror : Mirror M) (held held' : List Nat) (out out' : Option Hop × Site M) :
    Prop where
  hop : out.1 = out'.1
  sites : mirror.Sites held held' out.2 out'.2

/-- Whether the client can be told: it has a session, and a slot is free. -/
structure Ready (mirror : Mirror M) (held : List Nat) (site : Site M) : Prop where
  session : (site.tree.client? mirror.bridge).isSome
  free : 0 ∈ held

variable {mirror : Mirror M} {held held' : List Nat} {site site' : Site M}

/-- Whether the client can be told is not changed by what leaves the core of the tree alone. -/
theorem Ready.congr {after : Site M} (h : mirror.Ready held site)
    (same : after.tree.core = site.tree.core) : mirror.Ready held after :=
  ⟨(Tree.client?_eq_of_core same mirror.bridge) ▸ h.session, h.free⟩

/-- Frames are sent alike at channels that are alike, in media that are alike. -/
theorem send_channel {id : Nat} {left right : Channel} {medium medium' : M}
    (h : mirror.Channels id left right) (alike : mirror.alike medium medium') (frame : Frame) :
    (left.send frame medium).1 = (right.send frame medium').1 ∧
      mirror.Channels id (left.send frame medium).2.1 (right.send frame medium').2.1 ∧
      mirror.alike (left.send frame medium).2.2 (right.send frame medium').2.2 := by
  obtain ⟨hsame, hafter⟩ := mirror.veils.transmit left.socket h.near frame.encode alike
  unfold Channel.send
  rw [← h.socket]
  revert hsame hafter
  generalize Medium.transmit left.socket frame.encode medium = sent
  generalize Medium.transmit left.socket frame.encode medium' = sent'
  obtain ⟨outcome, after⟩ := sent
  obtain ⟨outcome', after'⟩ := sent'
  rintro rfl hafter
  cases outcome with
  | ok _ => exact ⟨rfl, ⟨h.socket, h.decoder, h.own, h.near⟩, hafter⟩
  | error e => exact ⟨rfl, ⟨h.socket, h.decoder, h.own, h.near⟩, hafter⟩

namespace Sites

/-! ## Noting and writing -/

/-- Something is noted at both sites. -/
theorem note (h : mirror.Sites held held' site site') {event event' : Event}
    (events : mirror.Events event event') :
    mirror.Sites held held' (site.note event) (site'.note event') := by
  obtain ⟨before, before', hlog, hlog', hall⟩ := h.log
  refine ⟨h.trees, h.media, h.slots, h.slots', before ++ [event], before' ++ [event'], ?_, ?_,
    List.rel_append hall (.cons events .nil)⟩
  · rw [Site.note, hlog, List.append_assoc]
  · rw [Site.note, hlog', List.append_assoc]

/-- Both trees change. -/
theorem withTree (h : mirror.Sites held held' site site') {tree tree' : Tree}
    (trees : mirror.Trees tree tree') :
    mirror.Sites held held' (site.withTree tree) (site'.withTree tree') :=
  ⟨trees, h.media, h.slots, h.slots', h.log⟩

/-- A frame is written at both sites. -/
theorem write (h : mirror.Sites held held' site site') (id : Nat) (frame : Frame) :
    mirror.Sites held held' (site.write id frame) (site'.write id frame) := by
  have hrel := h.trees.channel? id
  unfold Site.write
  generalize site.tree.channel? id = found at hrel ⊢
  generalize site'.tree.channel? id = found' at hrel ⊢
  cases hrel with
  | none => exact h
  | @some channel channel' hchannel =>
    obtain ⟨hsame, hchannels, hmedia⟩ := send_channel hchannel h.media frame
    simp only []
    generalize channel.send frame site.medium = sent at hsame hchannels hmedia ⊢
    generalize channel'.send frame site'.medium = sent' at hsame hchannels hmedia ⊢
    obtain ⟨outcome, left, medium⟩ := sent
    obtain ⟨outcome', right, medium'⟩ := sent'
    obtain rfl : outcome = outcome' := hsame
    have hafter : mirror.Sites held held' { site with tree := site.tree.setChannel id left, medium }
        { site' with tree := site'.tree.setChannel id right, medium := medium' } :=
      ⟨h.trees.setChannel hchannels, hmedia, h.slots, h.slots', h.log⟩
    have hsocket : left.socket = right.socket := hchannels.socket
    rw [hsocket]
    cases outcome with
    | ok _ => exact hafter.note (.same _ rfl)
    | error e => exact hafter.note (.same _ rfl)

/-- A frame occupies a slot at both sites or at none. -/
theorem holding (h : mirror.Sites held held' site site') (same : 0 ∈ held ↔ 0 ∈ held')
    (frame frame' : Frame) {act act' : Site M → Site M}
    (acts : ∀ slot slot' pool pool', held.findIdx? (· = 0) = some slot →
      held'.findIdx? (· = 0) = some slot' →
      mirror.Sites (held.modify slot fun _ => 1) (held'.modify slot' fun _ => 1)
        { site with pool } { site' with pool := pool' } →
      mirror.Sites (held.modify slot fun _ => 1) (held'.modify slot' fun _ => 1)
        (act { site with pool }) (act' { site' with pool := pool' })) :
    mirror.Sites held held' (site.holding frame act) (site'.holding frame' act') := by
  obtain ⟨htrees, hmedia, rfl, rfl, hlog⟩ := h
  unfold Site.holding
  rcases Pool.bind_cases site.pool frame with ⟨hfull, e, hbind⟩ | ⟨slot, pool, hfree, hbind, hheld⟩ <;>
  rcases Pool.bind_cases site'.pool frame' with
    ⟨hfull', e', hbind'⟩ | ⟨slot', pool', hfree', hbind', hheld'⟩
  · simp only [hbind, hbind']
    exact ⟨htrees, hmedia, rfl, rfl, hlog⟩
  · exact absurd (same.2 (Pool.zero_mem_of_findIdx? hfree')) hfull
  · exact absurd (same.1 (Pool.zero_mem_of_findIdx? hfree)) hfull'
  · simp only [hbind, hbind']
    have hacts := acts slot slot' pool pool' hfree hfree' ⟨htrees, hmedia, hheld, hheld', hlog⟩
    refine ⟨hacts.trees, hacts.media, ?_, ?_, hacts.log⟩
    · rw [Pool.holders_release, hacts.slots, Pool.modify_modify_of_findIdx? hfree]
    · rw [Pool.holders_release, hacts.slots', Pool.modify_modify_of_findIdx? hfree']

section

variable (h : mirror.Sites held held' site site') (same : 0 ∈ held ↔ 0 ∈ held')
include h same

/-- A frame is sent at both sites. -/
theorem send (id : Nat) (frame : Frame) :
    mirror.Sites held held' (site.send id frame) (site'.send id frame) :=
  h.holding same frame frame fun _ _ _ _ _ _ hheld => hheld.write id frame

/-- A packet is sent or dropped at both sites. -/
theorem sendPacket {ε : Type} (id : Nat) (packet : Except ε Frame) :
    mirror.Sites held held' (site.sendPacket id packet) (site'.sendPacket id packet) := by
  cases packet with
  | ok frame => exact h.send same id frame
  | error e => exact h

/-- A message is sent or dropped at both sites. -/
theorem sendEnvelope (id : Nat) (message : Envelope) :
    mirror.Sites held held' (site.sendEnvelope id message) (site'.sendEnvelope id message) :=
  h.sendPacket same id message.toFrame

/-- A client is told at both sites. -/
theorem answerClient (id : Nat) (topic : String) (code : ReturnCode) (params : Params) :
    mirror.Sites held held' (site.answerClient id topic code params)
      (site'.answerClient id topic code params) := by
  unfold Site.answerClient
  rw [← h.trees.client?_eq]
  split
  · exact h
  · exact h.sendPacket same id _

/-- A message is handed over a link upwards at both sites. -/
theorem relayUp (link : Nat) (message : Envelope) :
    mirror.Sites held held' (site.relayUp link message) (site'.relayUp link message) := by
  unfold Site.relayUp
  split <;> exact h.sendEnvelope same link _

/-- A message is handed over a link downwards, or dropped, at both sites. -/
theorem relayDown (link : Nat) (message : Envelope) :
    mirror.Sites held held' (site.relayDown link message) (site'.relayDown link message) := by
  simp only [Site.relayDown]
  split
  · exact h.sendEnvelope same link _
  · exact h.sendEnvelope same link _
  · exact h

omit same in
/-- One frame is written to each of some bridges at both sites. -/
theorem writeAll (frame : Frame) (bridges : List Nat) :
    mirror.Sites held held' (site.writeAll frame bridges) (site'.writeAll frame bridges) := by
  induction bridges generalizing site site' with
  | nil => exact h
  | cons bridge rest ih => exact ih (h.write bridge frame)

/-- A notification is written to its subscribers, or dropped, at both sites. -/
theorem fanOut (notification : Envelope) :
    mirror.Sites held held' (site.fanOut notification) (site'.fanOut notification) := by
  simp only [Site.fanOut, ← h.trees.subscribers_eq]
  split
  · exact h
  · split
    · exact h
    · exact h.holding same _ _ fun _ _ _ _ _ _ hheld => hheld.writeAll _ _

omit same in
/-- The client is told at the left site what the caller is told at the right one. -/
theorem tell_own (ready : mirror.Ready held site) (code : ReturnCode) (params : Params) :
    mirror.Sites held held' (site.answerClient mirror.bridge mirror.topic code params)
      (site'.note (.replied mirror.tag code params)) := by
  obtain ⟨htrees, hmedia, rfl, hslots', events, events', hlog, hlog', hevents⟩ := h
  obtain ⟨frame, hframe⟩ := exists_toFrame_reply mirror.fits code params
  obtain ⟨found, hfound⟩ := Site.exists_channel?_of_client? ready.session
  rcases Asker.rel_cases (htrees.channel? mirror.bridge) with
    ⟨hnone, -⟩ | ⟨channel, channel', hchannel, hchannel', hsocket, hdecoder, hown, hnear⟩
  · cases hnone.symm.trans hfound
  obtain ⟨after, hsent, hafter⟩ := mirror.veils.written frame.encode hmedia
  rw [← hown rfl] at hsent
  obtain ⟨pool, hpool, heq⟩ :=
    Site.answerClient_eq ready.session ready.free hframe hchannel hsent
  rw [heq]
  refine ⟨htrees.setChannel_left fun other hother => ?_, hafter, hpool, hslots', events ++ [_],
    events' ++ [_], ?_, ?_, List.rel_append hevents (.cons (.own hframe) .nil)⟩
  · obtain rfl : channel' = other := Option.some.inj (hchannel'.symm.trans hother)
    exact ⟨hsocket, hdecoder, hown, hnear⟩
  · simp only [hlog, hown rfl, List.append_assoc]
  · simp only [Site.note, hlog', List.append_assoc]

/-- Requesters of corresponding rows are told at both sites. -/
theorem tell {id : Nat} {row row' : Pending} (rows : mirror.Rows id row row')
    (ready : row'.isOwed mirror.tag → mirror.Ready held site) (code : ReturnCode)
    (params : Params) :
    mirror.Sites held held' (site.tell id row.requester code params)
      (site'.tell id row'.requester code params) := by
  cases rows with
  | same row other =>
    cases hrequester : row.requester with
    | caller tag =>
      refine h.note (.same _ (if_neg ?_))
      rintro rfl
      exact other hrequester
    | client topic => exact h.answerClient same id topic code params
  | own key deadline here =>
    subst here
    exact h.tell_own (ready (by simp [Pending.isOwed])) code params

end

/-! ## Routing -/

/-- A message is refused at both sites. -/
theorem reject (h : mirror.Sites held held' site site') (here : Nat) (message : Envelope)
    (code : ReturnCode) :
    mirror.Outcomes held held' (site.reject here message code) (site'.reject here message code) := by
  unfold Site.reject
  split <;> exact ⟨rfl, h⟩

/-- A request is handled at both sites. -/
theorem handle (h : mirror.Sites held held' site site') {here : Nat} {endpoint endpoint' : Endpoint}
    (same : mirror.Endpoints here endpoint endpoint') (message : Envelope) :
    mirror.Outcomes held held' (site.handle here endpoint message)
      (site'.handle here endpoint' message) := by
  have hrel := same.call? message.method message.params
  unfold Site.handle
  generalize endpoint.call? message.method message.params = called at hrel ⊢
  generalize endpoint'.call? message.method message.params = called' at hrel ⊢
  cases hrel with
  | none => exact h.reject here message _
  | @some called called' hcalled =>
    obtain ⟨reply, after⟩ := called
    obtain ⟨reply', after'⟩ := called'
    obtain ⟨rfl, hafter⟩ := hcalled
    exact ⟨rfl, (h.withTree (h.trees.setEndpoint hafter)).note (.same _ rfl)⟩

section

variable (h : mirror.Sites held held' site site') (same : 0 ∈ held ↔ 0 ∈ held')
include h same

/-- A wait ends at both sites. The client can be told, or else the caller is not. -/
theorem settle {here : Nat} {endpoint endpoint' : Endpoint}
    (endpoints : mirror.Endpoints here endpoint endpoint') (message : Envelope)
    (told : mirror.Ready held site ∨
      (site'.settle here endpoint' message).tellings mirror.tag = site'.tellings mirror.tag) :
    mirror.Sites held held' (site.settle here endpoint message)
      (site'.settle here endpoint' message) := by
  have hrel := endpoints.settle? message.id
  unfold Site.settle at told ⊢
  generalize endpoint.settle? message.id = settled at hrel ⊢
  generalize endpoint'.settle? message.id = settled' at hrel told ⊢
  cases hrel with
  | none => exact h
  | @some settled settled' hsettled =>
    obtain ⟨row, after⟩ := settled
    obtain ⟨row', after'⟩ := settled'
    obtain ⟨hrows, hafter⟩ := hsettled
    have hsites := h.withTree (h.trees.setEndpoint hafter)
    refine hsites.tell same hrows (fun howed => ?_) message.code message.params
    rcases told with ready | quiet
    · exact ready.congr (Tree.core_setEndpoint site.tree here after)
    · simp only [Site.tellings_tell, if_pos howed] at quiet
      exact absurd quiet (by simp [Site.tellings])

/-- A message is delivered at both sites. -/
theorem deliver (here : Nat) (message : Envelope)
    (told : mirror.Ready held site ∨
      (site'.deliver here message).2.tellings mirror.tag = site'.tellings mirror.tag) :
    mirror.Outcomes held held' (site.deliver here message) (site'.deliver here message) := by
  have hrel := h.trees.endpoint? here
  unfold Site.deliver at told ⊢
  generalize site.tree.endpoint? here = found at hrel ⊢
  generalize site'.tree.endpoint? here = found' at hrel told ⊢
  cases hrel with
  | none => exact ⟨rfl, h⟩
  | some hendpoint =>
    cases hkind : message.kind with
    | request => exact h.handle hendpoint message
    | response =>
      rw [hkind] at told
      exact ⟨rfl, h.settle same hendpoint message told⟩
    | notification => exact ⟨rfl, h⟩

/-- A message moves one step at both sites. -/
theorem stepUp (here : Nat) (message : Envelope) :
    mirror.Outcomes held held' (site.stepUp here message) (site'.stepUp here message) := by
  unfold Site.stepUp
  rcases h.trees.get?_cases here with ⟨hleft, hright⟩ | ⟨entry, entry', hleft, hright, hentry⟩
  · simp only [hleft, hright]
    exact ⟨rfl, h⟩
  · simp only [hleft, hright, ← h.trees.isDeviceEnd_eq, ← h.trees.isTurn_eq hentry,
      ← h.trees.isBelowLink_eq hentry, ← hentry.parent, ← hentry.name]
    split
    · exact ⟨rfl, h.relayUp same here message⟩
    · split
      · split
        · exact ⟨rfl, h.fanOut same message⟩
        · exact ⟨rfl, h⟩
      · split
        · exact ⟨rfl, h⟩
        · split
          · exact ⟨rfl, h⟩
          · split
            · exact ⟨rfl, h⟩
            · split <;> exact ⟨rfl, h⟩

/-- A message moves down between nodes at both sites. -/
theorem descend (here : Nat) (message : Envelope)
    (told : mirror.Ready held site ∨
      (site'.descend here message).2.tellings mirror.tag = site'.tellings mirror.tag) :
    mirror.Outcomes held held' (site.descend here message) (site'.descend here message) := by
  unfold Site.descend at told ⊢
  by_cases hempty : message.dest.isEmpty
  · rw [if_pos hempty] at told
    rw [if_pos hempty, if_pos hempty]
    exact h.deliver same here message told
  · rw [if_neg hempty, if_neg hempty]
    split
    · exact h.reject here message _
    · next level _ =>
      have hchild : site'.tree.childNamed here = site.tree.childNamed here :=
        funext fun text => (Tree.childNamed_congr h.trees.outline_eq here text).symm
      rw [hchild]
      cases level.bind (site.tree.childNamed here) with
      | none => exact h.reject here message _
      | some child => exact ⟨rfl, h⟩

/-- A message moves one step down at both sites. -/
theorem stepDown (here : Nat) (message : Envelope)
    (told : mirror.Ready held site ∨
      (site'.stepDown here message).2.tellings mirror.tag = site'.tellings mirror.tag) :
    mirror.Outcomes held held' (site.stepDown here message) (site'.stepDown here message) := by
  unfold Site.stepDown at told ⊢
  rcases h.trees.get?_cases here with ⟨hleft, hright⟩ | ⟨entry, entry', hleft, hright, hentry⟩
  · simp only [hleft, hright]
    exact ⟨rfl, h⟩
  · have hrole := hentry.role
    simp only [hleft, hright] at told ⊢
    generalize entry.role = role at hrole ⊢
    generalize entry'.role = role' at hrole told ⊢
    cases hrole with
    | node => exact h.descend same here message told
    | bridge => exact h.descend same here message told
    | @link link =>
      simp only [Role.link?]
      split
      · exact ⟨rfl, h.relayDown same here message⟩
      · exact ⟨rfl, h⟩

/-- A message moves one step at both sites. -/
theorem step (hop : Hop)
    (told : mirror.Ready held site ∨
      (site'.step hop).2.tellings mirror.tag = site'.tellings mirror.tag) :
    mirror.Outcomes held held' (site.step hop) (site'.step hop) := by
  cases hop with
  | up here message => exact h.stepUp same here message
  | down here message => exact h.stepDown same here message told

/-- A message moves any number of steps at both sites. -/
theorem carry (fuel : Nat) (hop : Hop)
    (told : mirror.Ready held site ∨
      (Site.carry fuel hop site').tellings mirror.tag = site'.tellings mirror.tag) :
    mirror.Sites held held' (Site.carry fuel hop site) (Site.carry fuel hop site') := by
  induction fuel generalizing hop site site' with
  | zero => exact h
  | succ fuel ih =>
    unfold Site.carry at told ⊢
    cases hright : site'.step hop with
    | mk next' after' =>
      rw [hright] at told
      cases next' with
      | none =>
        have hout := h.step same hop (told.imp_right fun quiet => by rwa [hright])
        rw [hright] at hout
        cases hleft : site.step hop with
        | mk next after =>
          rw [hleft] at hout
          obtain rfl : next = none := hout.hop
          exact hout.sites
      | some next' =>
        have hquiet := (Site.leg_of_step hright).works.tellings_eq mirror.tag
        have hout := h.step same hop (.inr (by rwa [hright]))
        rw [hright] at hout
        cases hleft : site.step hop with
        | mk next after =>
          rw [hleft] at hout
          obtain rfl : next = some next' := hout.hop
          refine ih hout.sites next' (told.imp (fun ready => ?_) fun quiet => quiet.trans hquiet.symm)
          exact ready.congr (Site.leg_of_step hleft).works.core

/-- A message is routed at both sites. -/
theorem route (hop : Hop)
    (told : mirror.Ready held site ∨
      (site'.route hop).tellings mirror.tag = site'.tellings mirror.tag) :
    mirror.Sites held held' (site.route hop) (site'.route hop) :=
  h.carry same maxHops hop told

end

end Sites
end Mirror
end TopicTree
