import TopicTree.Network.Basic
import TopicTree.Network.Cabling
import TopicTree.Proofs.Pool.Restored
import TopicTree.Proofs.Routing.Journey
import TopicTree.Proofs.Site.Reachable

/-!
# No slot leaks

Slots are claimed for frames that come in, for frames that go out and for a frame that goes out many
times, and while one is held others may be claimed. Whatever is asked of a tree, and however it ends,
every slot that was claimed is given back: the pool is what it was, whoever else holds slots of it.

Two shortcuts are taken in passing. A frame that came in at a link occupies a slot only while its
message is read, so that a free slot has to be there; and a frame that goes out many times is held
once, and not once more for each time. Taken slot by slot they come to the same.
-/

namespace TopicTree.Site

variable {M : Type}

/-- Whether a site has its pool as another site had it, but for free slots that were cleared. -/
def Restores (before after : Site M) : Prop :=
  before.pool.Restored after.pool

namespace Restores

variable {before mid after : Site M}

/-- A site at which nothing was done has its pool as it was. -/
theorem refl (site : Site M) : Restores site site :=
  Pool.Restored.refl site.pool

/-- A pool that is not touched is as it was. -/
theorem of_eq (h : after.pool = before.pool) : Restores before after := by
  rw [Restores, h]
  exact Pool.Restored.refl before.pool

/-- What restores the pool twice restores it. -/
theorem trans (first : Restores before mid) (second : Restores mid after) :
    Restores before after :=
  Pool.Restored.trans first second

/-- What restores the pool behind a change of the tree restores it. -/
theorem withTree {site : Site M} {tree : Tree} (h : Restores (site.withTree tree) after) :
    Restores site after :=
  h

/-- What restores the pool behind an event restores it. -/
theorem note {site : Site M} {event : Event} (h : Restores (site.note event) after) :
    Restores site after :=
  h

/-- What restores the pool while a slot is held restores it with the slot given back. -/
theorem holding {site : Site M} {frame : Frame} {act : Site M → Site M}
    (h : ∀ pool : Pool, Restores { site with pool } (act { site with pool })) :
    Restores site (site.holding frame act) := by
  unfold Site.holding
  split
  · exact refl site
  · next slot pool claimed => exact Pool.Restored.release claimed (h pool)

/-- What restores the pool for each item of a row restores it for the row. -/
theorem foldl {α : Type} {act : Site M → α → Site M} (h : ∀ site item, Restores site (act site item))
    (items : List α) (site : Site M) : Restores site (items.foldl act site) := by
  induction items generalizing site with
  | nil => exact refl site
  | cons item items ih => exact (h site item).trans (ih (act site item))

end Restores

variable [Medium M]

/-! ## Writing and telling -/

/-- Frames are written without a slot of their own. -/
theorem restores_writeAll (site : Site M) (frame : Frame) (bridges : List Nat) :
    Restores site (site.writeAll frame bridges) :=
  .foldl (fun site bridge => .of_eq (site.pool_write bridge frame)) bridges site

/-- A packet is sent through a slot that is given back. -/
theorem restores_sendPacket {ε : Type} (site : Site M) (id : Nat) (packet : Except ε Frame) :
    Restores site (site.sendPacket id packet) := by
  cases packet with
  | error e => exact .refl site
  | ok frame => exact .holding fun pool => .of_eq (pool_write _ id frame)

/-- A requester is told through a slot that is given back. -/
theorem restores_tell (site : Site M) (id : Nat) (requester : Requester) (code : ReturnCode)
    (params : Params) : Restores site (site.tell id requester code params) := by
  cases requester with
  | caller tag => exact .refl site
  | client topic =>
    simp only [tell, answerClient]
    split
    · exact .refl site
    · exact restores_sendPacket site id _

/-- A notification goes out through one slot that is given back. -/
theorem restores_fanOut (site : Site M) (notification : Envelope) :
    Restores site (site.fanOut notification) := by
  simp only [fanOut]
  split
  · exact .refl site
  · split
    · exact .refl site
    · exact .holding fun pool => restores_writeAll _ _ _

/-! ## Routing -/

/-- A wait ends with the pool restored. -/
theorem restores_settle (site : Site M) (here : Nat) (endpoint : Endpoint) (message : Envelope) :
    Restores site (site.settle here endpoint message) := by
  unfold settle
  split
  · exact .refl site
  · exact .withTree (restores_tell _ here _ _ _)

/-- A message is handed to the tree above with the pool restored. -/
theorem restores_relayUp (site : Site M) (link : Nat) (message : Envelope) :
    Restores site (site.relayUp link message) := by
  unfold relayUp
  split
  · exact restores_sendPacket site link _
  · exact restores_sendPacket site link _

/-- A message is handed to the tree below with the pool restored. -/
theorem restores_relayDown (site : Site M) (link : Nat) (message : Envelope) :
    Restores site (site.relayDown link message) := by
  simp only [relayDown]
  split
  · exact restores_sendPacket site link _
  · exact restores_sendPacket site link _
  · exact .refl site

/-- A route restores the pool: on the way no slot is claimed, and every end of it gives back what it
claims. -/
theorem restores_route (site : Site M) (hop : Hop) : Restores site (site.route hop) := by
  obtain ⟨last, mid, hgoes, hstop⟩ := route_cases site hop
  have hway : Restores site mid := .of_eq hgoes.works.pool
  generalize site.route hop = after at hstop
  refine hway.trans ?_
  cases hstop with
  | drop => exact .refl mid
  | arrive => exact restores_settle mid _ _ _
  | leaveUp message => exact restores_relayUp mid _ message
  | leaveDown message => exact restores_relayDown mid _ message
  | spread => exact restores_fanOut mid _

/-! ## Links -/

omit [Medium M] in
/-- Listeners are told without a slot. -/
@[simp]
theorem pool_announce (site : Site M) (link : Link) : (site.announce link).pool = site.pool := by
  unfold announce
  induction link.listeners generalizing site with
  | nil => rfl
  | cons tag rest ih => exact ih (site.note (.linkUp tag))

omit [Medium M] in
/-- A name is taken without a slot. -/
theorem pool_adopt (site : Site M) (id : Nat) (link : Link) (text : String) :
    (site.adopt id link text).2.pool = site.pool := by
  unfold adopt
  split
  · rfl
  · split
    · rfl
    · split
      · rfl
      · split
        · rfl
        · simp only []
          split
          · exact pool_announce _ link
          · rfl

/-- An attempt to have a link named restores the pool. -/
theorem restores_provisionAt (now : Nat) (site : Site M) (id : Nat) :
    Restores site (provisionAt now site id) := by
  unfold provisionAt
  split
  · exact .refl site
  · split
    · split
      · exact .refl site
      · exact .withTree (restores_sendPacket _ id _)
    · exact .refl site

omit [Medium M] in
/-- An answer to such an attempt is taken note of with the pool restored. -/
theorem restores_confirm (site : Site M) (id : Nat) (link : Link) (response : Envelope) :
    Restores site (site.confirm id link response) := by
  unfold confirm
  split
  · exact .refl site
  · split
    · exact .refl site
    · exact .of_eq (pool_announce _ link)

/-- A message that came in at a device end is handled with the pool restored. -/
theorem restores_receiveBelow (site : Site M) (id : Nat) (link : Link) (message : Envelope) :
    Restores site (site.receiveBelow id link message) := by
  unfold receiveBelow
  split
  · exact restores_confirm site id link message
  · split
    · exact .refl site
    · exact restores_route site _

/-- A request for a name is answered with the pool restored. -/
theorem restores_answerNaming (site : Site M) (id : Nat) (link : Link) (request : Envelope) :
    Restores site (site.answerNaming id link request) :=
  .trans (.of_eq (site.pool_adopt id link _)) (restores_sendPacket _ id _)

/-- A message that came in at a hub end is handled with the pool restored. -/
theorem restores_receiveAbove (site : Site M) (id : Nat) (link : Link) (message : Envelope) :
    Restores site (site.receiveAbove id link message) := by
  unfold receiveAbove
  split
  · exact restores_answerNaming site id link message
  · split
    · exact .refl site
    · exact restores_route site _

/-- A frame that came in at a link is handled with the pool restored. -/
theorem restores_receiveLink (site : Site M) (id : Nat) (link : Link) (frame : Frame) :
    Restores site (site.receiveLink id link frame) := by
  unfold receiveLink
  split
  · exact .refl site
  · split
    · exact restores_receiveBelow site id link _
    · exact restores_receiveAbove site id link _

/-! ## Bridges -/

/-- A guard is asked and a client told what came of it with the pool restored. -/
theorem restores_ask (site : Site M) (id : Nat) (bridge : Bridge) (guard : Guard)
    (who : Credentials) : Restores site (site.ask id bridge guard who) := by
  simp only [ask]
  split
  · exact .note (.withTree (restores_sendPacket _ id _))
  · exact .note (.withTree (restores_sendPacket _ id _))

/-- A CONNECT is handled with the pool restored. -/
theorem restores_connect (site : Site M) (id : Nat) (bridge : Bridge) (frame : Frame) :
    Restores site (site.connect id bridge frame) := by
  unfold connect
  split
  · split
    · exact restores_sendPacket site id _
    · exact restores_ask site id bridge _ _
  · exact .refl site

/-- A SUBSCRIBE is handled with the pool restored. -/
theorem restores_subscribe (site : Site M) (id : Nat) (bridge : Bridge) (frame : Frame) :
    Restores site (site.subscribe id bridge frame) := by
  unfold subscribe
  split
  · exact .withTree (restores_sendPacket _ id _)
  · exact .refl site

/-- A notification restores the pool, however it ends. -/
theorem restores_notify (site : Site M) (node : Nat) (name : String) (qos : Qos) (data : Bytes) :
    Restores site (site.notify node name qos data).2 := by
  unfold notify
  split
  · exact .refl site
  · simp only []
    split
    · exact .refl site
    · exact .withTree (restores_route _ _)

/-- A request of a client restores the pool, however it ends. -/
theorem restores_requestFor (site : Site M) (id : Nat) (bridge : Bridge) (now : Nat)
    (target : String) (payload : Bytes) :
    Restores site (site.requestFor id bridge now target payload) := by
  simp only [requestFor]
  split
  · exact .refl site
  · split
    · exact restores_tell site id (.client _) _ _
    · exact .withTree (restores_route _ _)

/-- A PUBLISH is handled with the pool restored. -/
theorem restores_publish (site : Site M) (id : Nat) (bridge : Bridge) (now : Nat) (frame : Frame) :
    Restores site (site.publish id bridge now frame) := by
  unfold publish
  split
  · split
    · exact restores_requestFor site id bridge now _ _
    · exact .refl site
    · exact restores_notify site id _ _ _
  · exact .refl site

/-- A frame that came in at a bridge is handled with the pool restored. -/
theorem restores_receiveBridge (site : Site M) (id : Nat) (bridge : Bridge) (now : Nat)
    (frame : Frame) : Restores site (site.receiveBridge id bridge now frame) := by
  unfold receiveBridge
  split
  · exact restores_connect site id bridge frame
  · exact restores_sendPacket site id (.ok Bare.pingResp.toFrame : Except WireError Frame)
  · exact restores_subscribe site id bridge frame
  · exact restores_publish site id bridge now frame
  · exact .refl site
  · exact .refl site

/-! ## Ticks -/

/-- A frame that came in is handled with the pool restored. -/
theorem restores_receive (now : Nat) (site : Site M) (id : Nat) (frame : Frame) :
    Restores site (site.receive now id frame) := by
  unfold receive
  split
  · split
    · exact .refl site
    · exact restores_receiveLink site id _ frame
  · exact .holding fun pool => restores_receiveBridge _ id _ now frame
  · exact .refl site

/-- A poll restores the pool, whatever comes in. -/
theorem restores_pollAt (now : Nat) (site : Site M) (id : Nat) :
    Restores site (pollAt now site id) := by
  unfold pollAt
  split
  · exact .refl site
  · next channel _ =>
    have hpoll : Restores site { site with
        tree := site.tree.setChannel id (channel.poll site.medium).2.1
        medium := (channel.poll site.medium).2.2 } := .of_eq rfl
    simp only []
    split
    · exact hpoll
    · exact hpoll.trans (restores_receive now _ id _)

/-- Waits that end in failure restore the pool. -/
theorem restores_expireAt (now : Nat) (site : Site M) (id : Nat) :
    Restores site (expireAt now site id) := by
  unfold expireAt
  split
  · exact .refl site
  · refine .withTree (.foldl (fun site row => ?_) _ _)
    exact restores_tell site id row.requester .timeout Params.empty

/-- A tick restores the pool. -/
theorem restores_tick (site : Site M) (now : Nat) : Restores site (site.tick now) :=
  .trans (.trans (.foldl (restores_expireAt now) _ site) (.foldl (restores_provisionAt now) _ _))
    (.foldl (restores_pollAt now) _ _)

/-- Whatever is asked of a tree, and however it ends, restores the pool. -/
theorem restores_perform (site : Site M) (call : Call) : Restores site (site.perform call).2 := by
  cases call with
  | build construction =>
    simp only [perform]
    split <;> exact .refl site
  | execute node method path params now tag =>
    simp only [perform]
    split
    · exact .refl site
    · next after h =>
      simp only [execute, bind_eq_ok, pure_eq_ok, Prod.mk.injEq] at h
      obtain ⟨_, -, _, -, _, -, _, -, -, rfl⟩ := h
      exact .withTree (restores_route _ _)
  | notify node name qos data => exact restores_notify site node name qos data
  | tick now => exact restores_tick site now

/-! ## Slot by slot -/

/-- Handles a frame that came in at a link: it is put into a slot, which is given back when the
message is read. -/
def receiveLinkClaiming (site : Site M) (id : Nat) (link : Link) (frame : Frame) : Site M :=
  match site.pool.bind frame with
  | .error _ => site
  | .ok (slot, pool) => ({ site with pool := pool.release slot } : Site M).receiveLink id link frame

/-- To ask for a free slot is to claim one and give it back. -/
theorem receive_eq_claiming {site : Site M} {id : Nat} {link : Link}
    (there : site.tree.link? id = some link) (tidy : site.pool.Tidy) (now : Nat) (frame : Frame) :
    receive now site id frame = site.receiveLinkClaiming id link frame := by
  simp only [receive, receiveLinkClaiming, there]
  split
  · next hfull =>
    cases hbind : site.pool.bind frame with
    | error e => rfl
    | ok claim => exact absurd hfull (Pool.available_ne_zero hbind)
  · next hfree =>
    obtain ⟨slot, pool, hbind⟩ := Pool.exists_bind hfree frame
    have hback : pool.release slot = site.pool :=
      (Pool.Restored.release hbind (.refl pool)).eq_of_tidy tidy
    simp only [hbind, hback]

/-- Writes a frame to each of some bridges, with one holder more of its slot for each. -/
def shareAll (site : Site M) (slot : Nat) (frame : Frame) (bridges : List Nat) : Site M :=
  bridges.foldl (fun site bridge =>
    let written := ({ site with pool := site.pool.retain slot } : Site M).write bridge frame
    { written with pool := written.pool.release slot }) site

/-- Writing does the same with any pool. -/
theorem write_withPool (site : Site M) (pool : Pool) (id : Nat) (frame : Frame) :
    ({ site with pool } : Site M).write id frame = { site.write id frame with pool } := by
  unfold write
  simp only []
  split
  · rfl
  · split <;> rfl

/-- To write a frame many times is to share its slot as often. -/
theorem shareAll_eq {site : Site M} {slot : Nat} (held : (site.pool.slotAt slot).holders ≠ 0)
    (frame : Frame) (bridges : List Nat) :
    site.shareAll slot frame bridges = site.writeAll frame bridges := by
  induction bridges generalizing site with
  | nil => rfl
  | cons bridge bridges ih =>
    have hpool := site.pool_write bridge frame
    have hfirst : site.shareAll slot frame (bridge :: bridges)
        = (site.write bridge frame).shareAll slot frame bridges := by
      change shareAll { ({ site with pool := site.pool.retain slot } : Site M).write bridge frame with
        pool := (({ site with pool := site.pool.retain slot } : Site M).write bridge
          frame).pool.release slot } slot frame bridges = _
      rw [write_withPool, Pool.release_retain held, ← hpool]
    rw [hfirst, ih (hpool.symm ▸ held)]
    rfl

/-- Sends one frame from many bridges. They share its slot: each one holds it until the frame is
written there, and it is given back after the last. -/
def sendShared (site : Site M) (frame : Frame) (bridges : List Nat) : Site M :=
  match site.pool.bind frame with
  | .error _ => site
  | .ok (slot, pool) =>
    let after := ({ site with pool } : Site M).shareAll slot frame bridges
    { after with pool := after.pool.release slot }

/-- To hold a frame once while it goes out is to share it among those who send it. -/
theorem holding_writeAll_eq (site : Site M) (frame : Frame) (bridges : List Nat) :
    site.holding frame (·.writeAll frame bridges) = site.sendShared frame bridges := by
  cases hbind : site.pool.bind frame with
  | error e => simp only [holding, sendShared, hbind]
  | ok claim =>
    obtain ⟨slot, pool⟩ := claim
    have held : (pool.slotAt slot).holders ≠ 0 := by
      rw [(Pool.slotAt_of_bind hbind).2.2.2, if_pos rfl]
      exact Nat.one_ne_zero
    have hshare : ({ site with pool } : Site M).shareAll slot frame bridges = _ :=
      shareAll_eq held frame bridges
    simp only [holding, sendShared, hbind, hshare]

/-! ## Networks -/

/-- What a tree of a network is asked restores every pool of the network. -/
theorem restored_putBack (network : Network M) (index : Nat) (station : Station) (call : Call)
    (number : Nat) :
    (network.pools.getD number (Pool.ofSize 0)).Restored
      ((network.putBack index station ((network.siteOf station).perform call).2).pools.getD number
        (Pool.ofSize 0)) := by
  have hperform := restores_perform (network.siteOf station) call
  simp only [Network.putBack, List.getD_eq_getElem?_getD, List.getElem?_set]
  split
  · next hown =>
    subst hown
    split
    · exact hperform
    · next hnone =>
      rw [List.getElem?_eq_none (Nat.le_of_not_lt hnone)]
      exact .refl _
  · exact .refl _

/-- No slot leaks. Whatever is asked of a tree, whatever comes in and whatever fails meanwhile, as
many slots are free afterwards as before, and every slot that is held from outside has the holders
and the frame it had; where free slots are cleared, the pool is the same. So it is with each pool of
a network, whichever trees share it, and the slots that are held for a tree stay held. A frame that
came in at a link is put into a slot of its own, and those to whom a frame goes share its slot. -/
theorem no_slot_leaks (site : Site M) (call : Call) :
    let pool := (site.perform call).2.pool
    (pool.capacity = site.pool.capacity ∧ pool.available = site.pool.available ∧
      (∀ slot, (site.pool.slotAt slot).holders ≠ 0 → pool.slotAt slot = site.pool.slotAt slot) ∧
      (site.pool.Tidy → pool = site.pool)) ∧
    (∀ (network : Network M) (index : Nat) (station : Station),
      network.station? index = some station → network.siteOf station = site →
      let after := network.putBack index station (site.perform call).2
      (∀ number, (network.pools.getD number (Pool.ofSize 0)).Restored
        (after.pools.getD number (Pool.ofSize 0))) ∧
      after.pools.length = network.pools.length ∧
      after.stations.map Station.held = network.stations.map Station.held) ∧
    (∀ now id link frame, site.tree.link? id = some link → site.pool.Tidy →
      receive now site id frame = site.receiveLinkClaiming id link frame) ∧
    ∀ frame bridges,
      site.holding frame (·.writeAll frame bridges) = site.sendShared frame bridges := by
  intro pool
  have h := restores_perform site call
  refine ⟨⟨h.capacity, h.available_eq, fun slot => h.slotAt_of_held, h.eq_of_tidy⟩, ?_,
    fun now id link frame there tidy => receive_eq_claiming there tidy now frame,
    site.holding_writeAll_eq⟩
  rintro network index station there rfl after
  refine ⟨restored_putBack network index station call, List.length_set, ?_⟩
  have hstation : network.stations[index]? = some station := there
  simp only [after, Network.putBack, List.map_set]
  apply List.ext_getElem?
  intro other
  rw [List.getElem?_set]
  split
  · next hindex =>
    subst hindex
    obtain ⟨hlt, -⟩ := List.getElem?_eq_some_iff.1 hstation
    rw [List.length_map, if_pos hlt, List.getElem?_map, hstation]
    rfl
  · rfl

/-- A bridge gets a PINGREQ and has no slot for the answer, because two others share the only other
one. They still do afterwards. -/
theorem shared_slot_stays_shared :
    let shared : Slot := ⟨2, Frame.empty 0x30⟩
    let pool : Pool := ⟨[shared, Slot.free]⟩
    let built := (start 5 pool Cabling.empty).run
      [.call (.build (.addRoot "home")), .call (.build (.addBridge 0 "door" "wire" 23))]
    let site : Site Cabling := ⟨built.tree, pool, Cabling.empty.feed "wire" [0xc0, 0], []⟩
    let station : Station := ⟨built.tree, 0, [0]⟩
    let network : Network Cabling := ⟨site.medium, [pool], [station]⟩
    (site.perform (.tick 1)).2.pool = pool ∧
      ((network.putBack 0 station (site.perform (.tick 1)).2).pools.getD 0 (Pool.ofSize 0)).slotAt 0
        = shared := by
  intro shared pool built site station network
  have tidy : pool.Tidy := by
    intro slot hzero
    match slot with
    | 0 => cases hzero
    | 1 => rfl
    | _ + 2 => rfl
  obtain ⟨⟨-, -, -, hsame⟩, hnetwork, -⟩ := no_slot_leaks site (.tick 1)
  obtain ⟨hpools, -⟩ := hnetwork network 0 station rfl rfl
  exact ⟨hsame tidy, (hpools 0).slotAt_of_held (show shared.holders ≠ 0 by decide)⟩

end TopicTree.Site
