import TopicTree.Proofs.Site.Gate
import TopicTree.Proofs.Site.Slots

/-!
# How many slots are enough

Of what a site does, only sending and the frame that came in at a bridge take slots, and they are
given back at once or when the frame has been handled. So one free slot is enough for whatever is
sent, and two are enough while a bridge handles a frame: with any more the same is done, the same is
written, and the same is noted. With one free slot a bridge handles a frame and can send nothing.
-/

namespace TopicTree

/-- How many free slots are enough for a frame that comes in at an entry: at a bridge it keeps one
itself while it is handled. -/
def Tree.demand (tree : Tree) (id : Nat) : Nat :=
  if (tree.bridge? id).isSome then 2 else 1

/-- A poll changes nothing of what an entry needs. -/
theorem Tree.demand_setChannel (tree : Tree) (id : Nat) (channel : Channel) :
    (tree.setChannel id channel).demand id = tree.demand id := by
  rw [demand, bridge?_setChannel, if_pos rfl, Option.isSome_map, demand]

namespace Site

variable {M : Type}

/-- A site and the same one with another pool, both with some number of free slots. -/
inductive Twins (spare : Nat) (left : Site M) : Site M → Prop
  | intro (pool : Pool) (own : spare ≤ left.pool.available) (other : spare ≤ pool.available) :
      Twins spare left { left with pool }

namespace Twins

variable {spare : Nat} {left right : Site M}

/-- The trees are the same. -/
theorem tree (h : Twins spare left right) : right.tree = left.tree := by
  cases h
  rfl

/-- One is the other with another pool. -/
theorem exists_pool (h : Twins spare left right) : ∃ pool, right = { left with pool } := by
  cases h with
  | intro pool => exact ⟨pool, rfl⟩

/-- An event is noted at both. -/
theorem note (h : Twins spare left right) (event : Event) :
    Twins spare (left.note event) (right.note event) := by
  cases h with
  | intro pool own other => exact .intro pool own other

/-- The trees become another one. -/
theorem withTree (h : Twins spare left right) (tree : Tree) :
    Twins spare (left.withTree tree) (right.withTree tree) := by
  cases h with
  | intro pool own other => exact .intro pool own other

/-- What does the same at both with the slots that are left does the same while one is held. -/
theorem holding {act : Site M → Site M} (h : Twins (spare + 1) left right)
    (acts : ∀ {left right : Site M}, Twins spare left right → Twins spare (act left) (act right))
    (restores : ∀ site, Restores site (act site)) (frame : Frame) :
    Twins (spare + 1) (left.holding frame act) (right.holding frame act) := by
  cases h with
  | intro pool own other =>
    obtain ⟨slot, mine, hmine⟩ := Pool.exists_bind (by omega : left.pool.available ≠ 0) frame
    obtain ⟨slot', its, hits⟩ := Pool.exists_bind (by omega : pool.available ≠ 0) frame
    have hown := Pool.available_of_bind hmine
    have hother := Pool.available_of_bind hits
    have hacts : Twins spare (act { left with pool := mine }) (act { left with pool := its }) :=
      acts (.intro its (by change spare ≤ mine.available; omega) (by omega))
    have hback := Pool.Restored.release hmine (restores { left with pool := mine })
    have hback' := Pool.Restored.release hits (restores { left with pool := its })
    simp only [Site.holding, hmine, hits]
    generalize act { left with pool := mine } = after at hacts hback ⊢
    generalize act { left with pool := its } = after' at hacts hback' ⊢
    cases hacts with
    | intro later =>
      let restored : Site M := { after with pool := after.pool.release slot }
      have hown : spare + 1 ≤ restored.pool.available := hback.available_eq.symm ▸ own
      have hother : spare + 1 ≤ (later.release slot').available := hback'.available_eq.symm ▸ other
      exact .intro (later.release slot') hown hother

variable [Medium M]

/-! ## Writing and telling -/

/-- A frame is written without a slot. -/
theorem write (h : Twins spare left right) (id : Nat) (frame : Frame) :
    Twins spare (left.write id frame) (right.write id frame) := by
  cases h with
  | intro pool own other =>
    rw [write_withPool left pool id frame]
    exact .intro pool ((left.pool_write id frame).symm ▸ own) other

/-- One frame is written at several bridges without a slot. -/
theorem writeAll (h : Twins spare left right) (frame : Frame) (bridges : List Nat) :
    Twins spare (left.writeAll frame bridges) (right.writeAll frame bridges) := by
  induction bridges generalizing left right with
  | nil => exact h
  | cons bridge bridges ih => exact ih (h.write bridge frame)

/-- A packet is sent with one slot. -/
theorem sendPacket {ε : Type} (h : Twins (spare + 1) left right) (id : Nat)
    (packet : Except ε Frame) :
    Twins (spare + 1) (left.sendPacket id packet) (right.sendPacket id packet) := by
  cases packet with
  | error e => exact h
  | ok frame =>
    have hrestores : ∀ site : Site M, Restores site (site.write id frame) := fun site =>
      .of_eq (site.pool_write id frame)
    exact h.holding (fun twins => twins.write id frame) hrestores frame

/-- A client is told with one slot. -/
theorem answerClient (h : Twins (spare + 1) left right) (id : Nat) (topic : String)
    (code : ReturnCode) (params : Params) :
    Twins (spare + 1) (left.answerClient id topic code params)
      (right.answerClient id topic code params) := by
  unfold Site.answerClient
  rw [h.tree]
  split
  · exact h
  · exact h.sendPacket id _

/-- A requester is told with one slot. -/
theorem tell (h : Twins (spare + 1) left right) (id : Nat) (requester : Requester)
    (code : ReturnCode) (params : Params) :
    Twins (spare + 1) (left.tell id requester code params)
      (right.tell id requester code params) := by
  cases requester with
  | caller tag => exact h.note _
  | client topic => exact h.answerClient id topic code params

/-- A notification goes out with one slot, to however many. -/
theorem fanOut (h : Twins (spare + 1) left right) (notification : Envelope) :
    Twins (spare + 1) (left.fanOut notification) (right.fanOut notification) := by
  simp only [Site.fanOut, h.tree]
  split
  · exact h
  · split
    · exact h
    · next frame _ =>
      exact h.holding (fun twins => twins.writeAll frame _)
        (fun site => restores_writeAll site frame _) frame

/-! ## Routing -/

/-- A wait ends with one slot. -/
theorem settle (h : Twins (spare + 1) left right) (here : Nat) (endpoint : Endpoint)
    (message : Envelope) :
    Twins (spare + 1) (left.settle here endpoint message) (right.settle here endpoint message) := by
  unfold Site.settle
  rw [h.tree]
  split
  · exact h
  · exact (h.withTree _).tell here _ _ _

/-- A message is handed to the tree above with one slot. -/
theorem relayUp (h : Twins (spare + 1) left right) (link : Nat) (message : Envelope) :
    Twins (spare + 1) (left.relayUp link message) (right.relayUp link message) := by
  unfold Site.relayUp
  split
  · exact h.sendPacket link _
  · exact h.sendPacket link _

/-- A message is handed to the tree below with one slot. -/
theorem relayDown (h : Twins (spare + 1) left right) (link : Nat) (message : Envelope) :
    Twins (spare + 1) (left.relayDown link message) (right.relayDown link message) := by
  unfold Site.relayDown
  split
  · exact h.sendPacket link _
  · exact h.sendPacket link _
  · exact h

omit [Medium M] in
/-- A request that cannot be delivered takes no slot. -/
theorem reject (h : Twins spare left right) (here : Nat) (message : Envelope) (code : ReturnCode) :
    (right.reject here message code).1 = (left.reject here message code).1 ∧
      Twins spare (left.reject here message code).2 (right.reject here message code).2 := by
  unfold Site.reject
  split
  · exact ⟨rfl, h⟩
  · exact ⟨rfl, h⟩

/-- A message is delivered with one slot. -/
theorem deliver (h : Twins (spare + 1) left right) (here : Nat) (message : Envelope) :
    (right.deliver here message).1 = (left.deliver here message).1 ∧
      Twins (spare + 1) (left.deliver here message).2 (right.deliver here message).2 := by
  unfold Site.deliver
  rw [h.tree]
  split
  · exact ⟨rfl, h⟩
  · next endpoint _ =>
    split
    · unfold Site.handle
      rw [h.tree]
      split
      · exact h.reject here message _
      · exact ⟨rfl, (h.withTree _).note _⟩
    · exact ⟨rfl, h.settle here endpoint message⟩
    · exact ⟨rfl, h⟩

/-- A message moves one step with one slot. -/
theorem step (h : Twins (spare + 1) left right) (hop : Hop) :
    (right.step hop).1 = (left.step hop).1 ∧
      Twins (spare + 1) (left.step hop).2 (right.step hop).2 := by
  cases hop with
  | up here message =>
    simp only [Site.step, stepUp, h.tree]
    split
    · exact ⟨rfl, h⟩
    · split
      · exact ⟨rfl, h.relayUp here message⟩
      · split
        · split
          · exact ⟨rfl, h.fanOut message⟩
          · exact ⟨rfl, h⟩
        · split
          · exact ⟨rfl, h⟩
          · split
            · exact ⟨rfl, h⟩
            · split
              · exact ⟨rfl, h⟩
              · split <;> exact ⟨rfl, h⟩
  | down here message =>
    simp only [Site.step, stepDown, descend, h.tree]
    split
    · exact ⟨rfl, h⟩
    · split
      · split
        · exact h.deliver here message
        · split
          · exact h.reject here message _
          · next level _ =>
            cases level.bind (left.tree.childNamed here) with
            | none => exact h.reject here message _
            | some child => exact ⟨rfl, h⟩
      · split
        · exact ⟨rfl, h.relayDown here message⟩
        · exact ⟨rfl, h⟩

/-- A message moves any number of steps with one slot. -/
theorem carry (h : Twins (spare + 1) left right) (fuel : Nat) (hop : Hop) :
    Twins (spare + 1) (Site.carry fuel hop left) (Site.carry fuel hop right) := by
  induction fuel generalizing hop left right with
  | zero => exact h
  | succ fuel ih =>
    obtain ⟨hnext, hafter⟩ := h.step hop
    rcases hleft : left.step hop with ⟨next, mid⟩
    rcases hright : right.step hop with ⟨next', mid'⟩
    simp only [hleft, hright] at hnext hafter
    subst hnext
    cases next' with
    | none => simpa only [Site.carry, hleft, hright] using hafter
    | some next => simpa only [Site.carry, hleft, hright] using ih hafter next

/-- A message is routed with one slot. -/
theorem route (h : Twins (spare + 1) left right) (hop : Hop) :
    Twins (spare + 1) (left.route hop) (right.route hop) :=
  h.carry maxHops hop

/-! ## Links -/

omit [Medium M] in
/-- Listeners are told without a slot. -/
theorem announce (h : Twins spare left right) (link : Link) :
    Twins spare (left.announce link) (right.announce link) := by
  unfold Site.announce
  induction link.listeners generalizing left right with
  | nil => exact h
  | cons tag rest ih => exact ih (h.note (.linkUp tag))

/-- An attempt to have a link named is made with one slot. -/
theorem provisionAt (h : Twins (spare + 1) left right) (now id : Nat) :
    Twins (spare + 1) (Site.provisionAt now left id) (Site.provisionAt now right id) := by
  simp only [Site.provisionAt, h.tree]
  split
  · exact h
  · split
    · split
      · exact h
      · exact (h.withTree _).sendPacket id _
    · exact h

omit [Medium M] in
/-- A name is taken without a slot. -/
theorem adopt (h : Twins spare left right) (id : Nat) (link : Link) (text : String) :
    (right.adopt id link text).1 = (left.adopt id link text).1 ∧
      Twins spare (left.adopt id link text).2 (right.adopt id link text).2 := by
  simp only [Site.adopt, h.tree]
  split
  · exact ⟨rfl, h⟩
  · split
    · exact ⟨rfl, h⟩
    · split
      · exact ⟨rfl, h⟩
      · split
        · exact ⟨rfl, h⟩
        · refine ⟨rfl, ?_⟩
          dsimp only
          split
          · exact (h.withTree _).announce link
          · exact h.withTree _

/-- A message that came in at a device end is handled with one slot. -/
theorem receiveBelow (h : Twins (spare + 1) left right) (id : Nat) (link : Link)
    (message : Envelope) :
    Twins (spare + 1) (left.receiveBelow id link message) (right.receiveBelow id link message) := by
  simp only [Site.receiveBelow, confirm, h.tree]
  split
  · split
    · exact h
    · split
      · exact h
      · exact (h.withTree _).announce link
  · split
    · exact h
    · exact h.route _

/-- A message that came in at a hub end is handled with one slot. -/
theorem receiveAbove (h : Twins (spare + 1) left right) (id : Nat) (link : Link)
    (message : Envelope) :
    Twins (spare + 1) (left.receiveAbove id link message) (right.receiveAbove id link message) := by
  simp only [Site.receiveAbove, answerNaming, h.tree]
  split
  · obtain ⟨hcode, hafter⟩ := h.adopt id link ((message.params.text? 0).getD "")
    rw [hcode]
    exact hafter.sendPacket id _
  · split
    · exact h
    · exact h.route _

/-- A frame that came in at a link is handled with one slot. -/
theorem receiveLink (h : Twins (spare + 1) left right) (id : Nat) (link : Link) (frame : Frame) :
    Twins (spare + 1) (left.receiveLink id link frame) (right.receiveLink id link frame) := by
  unfold Site.receiveLink
  split
  · exact h
  · split
    · exact h.receiveBelow id link _
    · exact h.receiveAbove id link _

/-! ## Bridges -/

/-- A CONNECT is handled with one slot. -/
theorem connect (h : Twins (spare + 1) left right) (id : Nat) (bridge : Bridge) (frame : Frame) :
    Twins (spare + 1) (left.connect id bridge frame) (right.connect id bridge frame) := by
  unfold Site.connect
  split
  · split
    · exact h.sendPacket id _
    · simp only [ask, h.tree]
      split
      · exact ((h.note _).withTree _).sendPacket id _
      · exact ((h.note _).withTree _).sendPacket id _
  · exact h

/-- A SUBSCRIBE is handled with one slot. -/
theorem subscribe (h : Twins (spare + 1) left right) (id : Nat) (bridge : Bridge) (frame : Frame) :
    Twins (spare + 1) (left.subscribe id bridge frame) (right.subscribe id bridge frame) := by
  simp only [Site.subscribe, h.tree]
  split
  · exact (h.withTree _).sendPacket id _
  · exact h

/-- A request of a client is handled with one slot. -/
theorem requestFor (h : Twins (spare + 1) left right) (id : Nat) (bridge : Bridge) (now : Nat)
    (target : String) (payload : Bytes) :
    Twins (spare + 1) (left.requestFor id bridge now target payload)
      (right.requestFor id bridge now target payload) := by
  simp only [Site.requestFor, h.tree]
  split
  · exact h
  · split
    · exact h.answerClient id _ _ _
    · exact (h.withTree _).route _

/-- A notification is handled with one slot. -/
theorem notify (h : Twins (spare + 1) left right) (node : Nat) (name : String) (qos : Qos)
    (data : Bytes) :
    Twins (spare + 1) (left.notify node name qos data).2 (right.notify node name qos data).2 := by
  simp only [Site.notify, h.tree]
  split
  · exact h
  · split
    · exact h.withTree _
    · exact (h.withTree _).route _

/-- A frame that came in at a bridge is handled with one slot beside its own. -/
theorem receiveBridge (h : Twins (spare + 1) left right) (id : Nat) (bridge : Bridge) (now : Nat)
    (frame : Frame) :
    Twins (spare + 1) (left.receiveBridge id bridge now frame)
      (right.receiveBridge id bridge now frame) := by
  simp only [Site.receiveBridge, publish, disconnect, h.tree]
  split
  · exact h.connect id bridge frame
  · exact h.sendPacket id (.ok Bare.pingResp.toFrame : Except WireError Frame)
  · exact h.subscribe id bridge frame
  · split
    · split
      · exact h.requestFor id bridge now _ _
      · exact h
      · exact h.notify id _ _ _
    · exact h
  · exact h.withTree _
  · exact h

/-! ## Ticks -/

/-- The overdue waits of an entry end with one slot. -/
theorem expireAt (h : Twins (spare + 1) left right) (now id : Nat) :
    Twins (spare + 1) (Site.expireAt now left id) (Site.expireAt now right id) := by
  simp only [Site.expireAt, h.tree]
  split
  · exact h
  · next endpoint _ =>
    have hstart := h.withTree (left.tree.setEndpoint id (endpoint.takeExpired now).2)
    generalize left.withTree _ = before, right.withTree _ = before' at hstart ⊢
    induction (endpoint.takeExpired now).1 generalizing before before' with
    | nil => exact hstart
    | cons row rest ih => exact ih _ _ (hstart.tell id row.requester .timeout Params.empty)

/-- A frame that came in is handled with one slot at a link, and with two at a bridge. -/
theorem receive (h : Twins spare left right) {id : Nat} (enough : left.tree.demand id ≤ spare)
    (now : Nat) (frame : Frame) :
    Twins spare (left.receive now id frame) (right.receive now id frame) := by
  obtain ⟨more, rfl⟩ : ∃ more, spare = more + 1 := by
    refine Nat.exists_eq_add_of_le' (Nat.le_trans ?_ enough)
    unfold Tree.demand
    split <;> omega
  have hfree : left.pool.available ≠ 0 ∧ right.pool.available ≠ 0 := by
    cases h with
    | intro pool own other => exact ⟨by omega, by change pool.available ≠ 0; omega⟩
  simp only [Site.receive, h.tree, if_neg hfree.1, if_neg hfree.2]
  split
  · exact h.receiveLink id _ frame
  · next bridge hbridge _ =>
    obtain ⟨further, rfl⟩ : ∃ further, more = further + 1 := by
      rw [Tree.demand, hbridge, Option.isSome_some, if_pos rfl] at enough
      exact Nat.exists_eq_add_of_le' (by omega)
    exact h.holding (fun twins => twins.receiveBridge id bridge now frame)
      (fun site => restores_receiveBridge site id bridge now frame) frame
  · exact h

/-- A poll is done with one slot at a link, and with two at a bridge. -/
theorem pollAt (h : Twins spare left right) {id : Nat} (enough : left.tree.demand id ≤ spare)
    (now : Nat) : Twins spare (Site.pollAt now left id) (Site.pollAt now right id) := by
  cases hchannel : left.tree.channel? id with
  | none => simpa only [Site.pollAt, h.tree, hchannel] using h
  | some channel =>
    have hpolled : Twins spare (left.polled id channel) (right.polled id channel) := by
      cases h with
      | intro pool own other => exact .intro pool own other
    have hframe : (channel.poll right.medium).1 = (channel.poll left.medium).1 := by
      cases h
      rfl
    rw [pollAt_eq hchannel, pollAt_eq (h.tree ▸ hchannel), hframe]
    split
    · exact hpolled
    · exact hpolled.receive ((left.tree.demand_setChannel id _).symm ▸ enough) now _

omit [Medium M] in
/-- What does the same at each of some entries does the same at all of them. -/
theorem forEntries {act : Site M → Nat → Site M} (h : Twins spare left right)
    (acts : ∀ {left right : Site M} id, Twins spare left right →
      Twins spare (act left id) (act right id)) :
    Twins spare (left.forEntries act) (right.forEntries act) := by
  unfold Site.forEntries
  rw [h.tree]
  induction List.range left.tree.size generalizing left right with
  | nil => exact h
  | cons id rest ih => exact ih (acts id h)

/-- A tick is done with two slots. -/
theorem tick (h : Twins (spare + 2) left right) (now : Nat) :
    Twins (spare + 2) (left.tick now) (right.tick now) :=
  ((h.forEntries fun id twins => twins.expireAt now id).forEntries fun id twins =>
    twins.provisionAt now id).forEntries fun id twins => twins.pollAt (by
      unfold Tree.demand
      split <;> omega) now

end Twins

/-! ## Without a free slot -/

/-- Nothing has been written at a site. -/
structure Mute (before after : Site M) : Prop where
  medium : after.medium = before.medium
  log : ∃ events, after.log = before.log ++ events ∧
    ∀ event ∈ events, ∀ socket, event.writing? socket = none

namespace Mute

variable {site before mid after : Site M}

/-- Nothing has happened. -/
@[refl]
protected theorem refl (site : Site M) : Mute site site :=
  ⟨rfl, [], by simp, by simp⟩

protected theorem trans (h : Mute before mid) (h' : Mute mid after) : Mute before after := by
  obtain ⟨events, hevents, hall⟩ := h.log
  obtain ⟨later, hlater, hall'⟩ := h'.log
  refine ⟨h'.medium.trans h.medium, events ++ later, ?_, fun event hevent => ?_⟩
  · rw [hlater, hevents, List.append_assoc]
  · exact (List.mem_append.1 hevent).elim (hall event) (hall' event)

/-- A site that is as it was. -/
theorem of_eq (h : after = before) : Mute before after :=
  h ▸ .refl after

/-- The tree has changed, and what happened since wrote nothing. -/
theorem withTree {tree : Tree} (h : Mute (site.withTree tree) after) : Mute site after :=
  ⟨h.medium, h.log⟩

/-- An event that writes nothing has been noted. -/
theorem note (site : Site M) {event : Event} (silent : ∀ socket, event.writing? socket = none) :
    Mute site (site.note event) :=
  ⟨rfl, [event], rfl, by simpa using silent⟩

/-- Methods have been called. -/
theorem of_works (h : Works before after) : Mute before after := by
  obtain ⟨calls, hcalls, hall⟩ := h.log
  refine ⟨h.medium, calls, hcalls, fun event hevent socket => ?_⟩
  obtain ⟨node, method, params, rfl⟩ := hall event hevent
  rfl

variable [Medium M] (full : site.pool.available = 0)
include full

/-- Without a free slot no packet is sent. -/
theorem sendPacket_eq {ε : Type} (id : Nat) (packet : Except ε Frame) :
    site.sendPacket id packet = site := by
  cases packet with
  | error e => rfl
  | ok frame => exact send_of_full full frame

/-- Without a free slot no client is told. -/
theorem answerClient_eq (id : Nat) (topic : String) (code : ReturnCode) (params : Params) :
    site.answerClient id topic code params = site := by
  unfold Site.answerClient
  split
  · rfl
  · exact sendPacket_eq full id _

/-- Without a free slot a requester is told nothing that would be written. -/
theorem tell (id : Nat) (requester : Requester) (code : ReturnCode) (params : Params) :
    Mute site (site.tell id requester code params) := by
  cases requester with
  | caller tag => exact .note site fun _ => rfl
  | client topic =>
    rw [Site.tell, answerClient_eq full]

/-- Without a free slot no notification goes out. -/
theorem fanOut_eq (notification : Envelope) : site.fanOut notification = site := by
  simp only [Site.fanOut]
  split
  · rfl
  · split
    · rfl
    · exact holding_of_full full _ _

/-- Without a free slot nothing is written where a message gets. -/
theorem route (hop : Hop) : Mute site (site.route hop) := by
  obtain ⟨last, mid, hgoes, hstop⟩ := route_cases site hop
  have hfull : mid.pool.available = 0 := hgoes.works.pool ▸ full
  refine (of_works hgoes.works).trans ?_
  generalize site.route hop = after at hstop
  cases hstop with
  | drop => exact .refl mid
  | arrive =>
    unfold settle
    split
    · exact .refl mid
    · exact .withTree (tell (by exact hfull) _ _ _ _)
  | leaveUp message =>
    unfold relayUp
    split <;> exact .of_eq (sendPacket_eq hfull _ _)
  | leaveDown message =>
    simp only [relayDown]
    split
    · exact .of_eq (sendPacket_eq hfull _ _)
    · exact .of_eq (sendPacket_eq hfull _ _)
    · exact .refl mid
  | spread => exact .of_eq (fanOut_eq hfull _)

/-- Without a free slot a CONNECT is not answered. -/
theorem connect (id : Nat) (bridge : Bridge) (frame : Frame) :
    Mute site (site.connect id bridge frame) := by
  unfold Site.connect
  split
  · next guard connect _ _ =>
    split
    · exact .of_eq (sendPacket_eq full _ _)
    · have hasked : Mute site (site.note (.asked id connect.credentials)) := .note site fun _ => rfl
      simp only [ask, acknowledge]
      split
      · rw [sendPacket_eq (by exact full)]
        exact ⟨hasked.medium, hasked.log⟩
      · rw [sendPacket_eq (by exact full)]
        exact ⟨hasked.medium, hasked.log⟩
  · exact .refl site

/-- Without a free slot a SUBSCRIBE is not answered. -/
theorem subscribe (id : Nat) (bridge : Bridge) (frame : Frame) :
    Mute site (site.subscribe id bridge frame) := by
  simp only [Site.subscribe]
  split
  · rw [sendPacket_eq (by exact full)]
    exact .withTree (.refl _)
  · exact .refl site

/-- Without a free slot nothing is written for a PUBLISH. -/
theorem publish (id : Nat) (bridge : Bridge) (now : Nat) (frame : Frame) :
    Mute site (site.publish id bridge now frame) := by
  simp only [Site.publish, requestFor, notify]
  split
  · split
    · split
      · exact .refl site
      · split
        · rw [answerClient_eq full]
        · exact .withTree (route (by exact full) _)
    · exact .refl site
    · split
      · exact .refl site
      · split
        · exact .withTree (.refl _)
        · exact .withTree (route (by exact full) _)
  · exact .refl site

/-- Without a free slot nothing is written for a frame that came in at a bridge. -/
theorem receiveBridge (id : Nat) (bridge : Bridge) (now : Nat) (frame : Frame) :
    Mute site (site.receiveBridge id bridge now frame) := by
  unfold Site.receiveBridge
  split
  · exact connect full id bridge frame
  · exact .of_eq (send_of_full full _)
  · exact subscribe full id bridge frame
  · exact publish full id bridge now frame
  · exact .withTree (.refl _)
  · exact .refl site

omit full in
/-- With one free slot a bridge that is polled writes nothing. -/
theorem pollAt {id : Nat} {bridge : Bridge} (there : site.tree.bridge? id = some bridge)
    (last : site.pool.available = 1) (now : Nat) :
    Mute (site.polled id bridge.channel) (Site.pollAt now site id) := by
  rw [pollAt_eq (Tree.channel?_of_bridge? there)]
  split
  · exact .refl _
  · next frame _ =>
    rw [receive_of_bridge? (bridge?_polled there)]
    unfold Site.holding
    split
    · exact .refl _
    · next slot pool claimed =>
      have hfull : pool.available = 0 := by
        have hone : pool.available + 1 = 1 := (Pool.available_of_bind claimed).trans last
        omega
      let held : Site M := { site.polled id bridge.channel with pool }
      let heard : Bridge := { bridge with channel := (bridge.channel.poll site.medium).2.1 }
      have hmute : Mute held (held.receiveBridge id heard now frame) :=
        receiveBridge hfull id heard now frame
      exact ⟨hmute.medium, hmute.log⟩

end Mute

end Site
end TopicTree
