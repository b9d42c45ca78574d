import TopicTree.Proofs.Network.Sockets
import TopicTree.Proofs.Pool.Restored
import TopicTree.Proofs.Site.Ledger

/-!
# What happens on the side

While a message is under way other things happen at a site: waits end, clients are told about it,
and channels without traffic are polled. None of that calls a method, changes an outline or a
method, moves a decoder, takes a slot for good, or reaches a socket that is kept apart.
-/

namespace TopicTree

/-- Whether an event is the call of a method. -/
def Event.isCall : Event → Bool
  | called .. => true
  | _ => false

/-- The calls of methods so far, in order. -/
def Site.calls {M : Type} (site : Site M) : List Event :=
  site.log.filter Event.isCall

namespace Tree

/-- The socket of a channel, and what its decoder waits for. -/
def wire? (tree : Tree) (id : Nat) : Option (String × Stage) :=
  (tree.channel? id).map fun channel => (channel.socket, channel.decoder.stage)

/-- Which end of a link an entry is, and whether its name is confirmed. -/
def linkState? (tree : Tree) (id : Nat) : Option (LinkEnd × Bool) :=
  (tree.link? id).map fun link => (link.place, link.confirmed)

/-- An entry that is an end of a link has the form of that end. -/
theorem form?_of_linkState? {tree : Tree} {id : Nat} {place : LinkEnd} {confirmed : Bool}
    (h : tree.linkState? id = some (place, confirmed)) : tree.form? id = some place.form := by
  obtain ⟨link, hlink, hstate⟩ := Option.map_eq_some_iff.1 h
  rw [form?_of_link? hlink, (Prod.mk.inj hstate).1]

/-- An entry with a channel is there. -/
theorem lt_size_of_wire? {tree : Tree} {id : Nat} {wire : String × Stage}
    (h : tree.wire? id = some wire) : id < tree.size := by
  obtain ⟨channel, hchannel, _⟩ := Option.map_eq_some_iff.1 h
  obtain ⟨entry, hentry, _⟩ := Option.bind_eq_some_iff.1 hchannel
  exact (List.getElem?_eq_some_iff.1 hentry).1

@[simp]
theorem wire?_setEndpoint (tree : Tree) (id : Nat) (endpoint : Endpoint) (other : Nat) :
    (tree.setEndpoint id endpoint).wire? other = tree.wire? other := by
  rw [wire?, channel?_setEndpoint, wire?]

@[simp]
theorem linkState?_setEndpoint (tree : Tree) (id : Nat) (endpoint : Endpoint) (other : Nat) :
    (tree.setEndpoint id endpoint).linkState? other = tree.linkState? other := by
  rw [linkState?, link?_setEndpoint, linkState?]

@[simp]
theorem linkState?_setChannel (tree : Tree) (id : Nat) (channel : Channel) (other : Nat) :
    (tree.setChannel id channel).linkState? other = tree.linkState? other := by
  rw [linkState?, link?_setChannel, linkState?]
  split
  · rw [Option.map_map]
    rfl
  · rfl

/-- A channel that stays at its socket and in its stage is the same wire. -/
theorem wire?_setChannel {tree : Tree} {id : Nat} {old channel : Channel}
    (there : tree.channel? id = some old) (socket : channel.socket = old.socket)
    (stage : channel.decoder.stage = old.decoder.stage) (other : Nat) :
    (tree.setChannel id channel).wire? other = tree.wire? other := by
  rw [wire?, channel?_setChannel, wire?]
  split
  · next hid =>
    subst hid
    simp [there, socket, stage]
  · rfl

end Tree

namespace Site

/-! ## On the side -/

/-- A site at which something has happened on the side, out of reach of the sockets that are
kept. -/
structure Aside (kept : String → Prop) (before after : Site Cabling) : Prop where
  outline : after.tree.outline = before.tree.outline
  methods : ∀ id, (after.tree.endpoint? id).map (·.methods)
    = (before.tree.endpoint? id).map (·.methods)
  wire? : ∀ id, after.tree.wire? id = before.tree.wire? id
  linkState? : ∀ id, after.tree.linkState? id = before.tree.linkState? id
  log : ∃ more, after.log = before.log ++ more ∧ ∀ event ∈ more, event.isCall = false
  available : after.pool.available = before.pool.available
  socket : ∀ label, kept label → after.medium.socket label = before.medium.socket label

/-- Whether what an entry writes at its socket, which is kept, leads to no socket that is kept. -/
def FacesOut (kept : String → Prop) (site : Site Cabling) (id : Nat) : Prop :=
  ∀ label stage, site.tree.wire? id = some (label, stage) →
    kept label ∧ ∀ peer, (site.medium.socket label).peer = some peer → ¬kept peer

namespace Aside

variable {kept : String → Prop}

@[refl]
protected theorem refl (site : Site Cabling) : Aside kept site site :=
  ⟨rfl, fun _ => rfl, fun _ => rfl, fun _ => rfl, ⟨[], by simp, by simp⟩, rfl, fun _ _ => rfl⟩

protected theorem trans {first second third : Site Cabling} (h : Aside kept first second)
    (h' : Aside kept second third) : Aside kept first third where
  outline := h'.outline.trans h.outline
  methods id := (h'.methods id).trans (h.methods id)
  wire? id := (h'.wire? id).trans (h.wire? id)
  linkState? id := (h'.linkState? id).trans (h.linkState? id)
  log := by
    obtain ⟨more, hlog, hcalls⟩ := h.log
    obtain ⟨more', hlog', hcalls'⟩ := h'.log
    refine ⟨more ++ more', by rw [hlog', hlog, List.append_assoc], ?_⟩
    intro event hevent
    exact (List.mem_append.1 hevent).elim (hcalls event) (hcalls' event)
  available := h'.available.trans h.available
  socket label hlabel := (h'.socket label hlabel).trans (h.socket label hlabel)

/-- Fewer sockets may be kept. -/
theorem mono {fewer : String → Prop} {before after : Site Cabling} (h : Aside kept before after)
    (less : ∀ label, fewer label → kept label) : Aside fewer before after :=
  { h with socket := fun label hlabel => h.socket label (less label hlabel) }

/-- The same methods have been called. -/
theorem calls_eq {before after : Site Cabling} (h : Aside kept before after) :
    after.calls = before.calls := by
  obtain ⟨more, hlog, hcalls⟩ := h.log
  have hnone : more.filter Event.isCall = [] := by
    rw [List.filter_eq_nil_iff]
    intro event hevent
    simp [hcalls event hevent]
  rw [calls, hlog, List.filter_append, hnone, List.append_nil, calls]

/-- An entry that faces out goes on to do so. -/
theorem facesOut {before after : Site Cabling} (h : Aside kept before after) {id : Nat}
    (outward : before.FacesOut kept id) : after.FacesOut kept id := by
  intro label stage hwire
  rw [h.wire?] at hwire
  obtain ⟨hkept, hpeer⟩ := outward label stage hwire
  rw [h.socket label hkept]
  exact ⟨hkept, hpeer⟩

/-- An event that is no call happens on the side. -/
theorem note (site : Site Cabling) {event : Event} (h : event.isCall = false) :
    Aside kept site (site.note event) :=
  { Aside.refl site with log := ⟨[event], rfl, by simpa using h⟩ }

/-- An endpoint that keeps its methods changes on the side. -/
theorem setEndpoint {site : Site Cabling} {id : Nat} {old new : Endpoint}
    (there : site.tree.endpoint? id = some old) (same : new.methods = old.methods) :
    Aside kept site (site.withTree (site.tree.setEndpoint id new)) where
  outline := Tree.outline_setEndpoint site.tree id new
  methods := Tree.map_endpoint?_setEndpoint there same
  wire? := Tree.wire?_setEndpoint site.tree id new
  linkState? := Tree.linkState?_setEndpoint site.tree id new
  log := ⟨[], by simp, by simp⟩
  available := rfl
  socket _ _ := rfl

/-- A channel that stays at its socket and in its stage changes on the side. -/
theorem setChannel {site : Site Cabling} {id : Nat} {old channel : Channel} {medium : Cabling}
    (there : site.tree.channel? id = some old) (socket : channel.socket = old.socket)
    (stage : channel.decoder.stage = old.decoder.stage)
    (apart : ∀ label, kept label → medium.socket label = site.medium.socket label) :
    Aside kept site { site with tree := site.tree.setChannel id channel, medium } where
  outline := Tree.outline_setChannel site.tree id channel
  methods other := by rw [Tree.endpoint?_setChannel]
  wire? := Tree.wire?_setChannel there socket stage
  linkState? := Tree.linkState?_setChannel site.tree id channel
  log := ⟨[], by simp, by simp⟩
  available := rfl
  socket := apart

/-- What an entry that faces out writes happens on the side. -/
theorem write {site : Site Cabling} {id : Nat} (outward : site.FacesOut kept id) (frame : Frame) :
    Aside kept site (site.write id frame) := by
  unfold Site.write
  split
  · exact .refl site
  · next channel hchannel =>
    have hwire : site.tree.wire? id = some (channel.socket, channel.decoder.stage) := by
      rw [Tree.wire?, hchannel, Option.map_some]
    have hapart : ∀ label, kept label → (Medium.transmit channel.socket frame.encode
        site.medium).2.socket label = site.medium.socket label := by
      intro label hlabel
      apply Cabling.socket_transmit
      exact fun hpeer => (outward _ _ hwire).2 label hpeer hlabel
    unfold Channel.send
    cases htransmit : Medium.transmit channel.socket frame.encode site.medium with
    | mk outcome medium =>
      rw [htransmit] at hapart
      cases outcome with
      | ok done =>
        cases done
        have hsent : Aside kept site
            { site with tree := site.tree.setChannel id channel.countSent, medium } :=
          setChannel hchannel rfl rfl hapart
        exact hsent.trans (note _ rfl)
      | error fault =>
        have hfailed : Aside kept site
            { site with tree := site.tree.setChannel id channel.countTransportError, medium } :=
          setChannel hchannel rfl rfl hapart
        exact hfailed.trans (note _ rfl)

/-- What happens on the side while a slot is held happens on the side. -/
theorem holding {site : Site Cabling} {act : Site Cabling → Site Cabling} (frame : Frame)
    (h : ∀ pool : Pool, Aside kept { site with pool } (act { site with pool }))
    (same : ∀ pool : Pool, (act { site with pool }).pool = pool) :
    Aside kept site (site.holding frame act) := by
  unfold Site.holding
  split
  · exact .refl site
  · next slot pool hbind =>
    have hact := h pool
    refine { hact with available := ?_ }
    change ((act { site with pool }).pool.release slot).available = site.pool.available
    rw [same pool]
    exact (Pool.Restored.release hbind (.refl pool)).available_eq

/-- What an entry that faces out sends is sent on the side. -/
theorem sendPacket {ε : Type} {site : Site Cabling} {id : Nat} (outward : site.FacesOut kept id)
    (packet : Except ε Frame) : Aside kept site (site.sendPacket id packet) := by
  cases packet with
  | error e => exact .refl site
  | ok frame =>
    change Aside kept site (site.holding frame (·.write id frame))
    refine holding frame (fun pool => ?_) fun pool => Site.pool_write _ id frame
    have houtward : FacesOut kept { site with pool } id := outward
    exact write houtward frame

/-- What an entry that faces out tells a requester is told on the side. -/
theorem tell {site : Site Cabling} {id : Nat} (outward : site.FacesOut kept id)
    (requester : Requester) (code : ReturnCode) (params : Params) :
    Aside kept site (site.tell id requester code params) := by
  cases requester with
  | caller tag => exact note site rfl
  | client topic =>
    simp only [Site.tell, answerClient]
    split
    · exact .refl site
    · exact sendPacket outward _

/-- The requesters of an entry that faces out are told on the side that their time is up. -/
theorem tellExpired {site : Site Cabling} {id : Nat} (outward : site.FacesOut kept id)
    (rows : List Pending) : Aside kept site (Site.tellExpired id rows site) := by
  induction rows generalizing site with
  | nil => exact .refl site
  | cons row rest ih =>
    have hfirst := tell outward row.requester .timeout Params.empty
    exact hfirst.trans (ih (hfirst.facesOut outward))

/-- The waits of an entry that faces out end on the side. -/
theorem expireAt {site : Site Cabling} {id : Nat} (outward : site.FacesOut kept id) (now : Nat) :
    Aside kept site (Site.expireAt now site id) := by
  cases hendpoint : site.tree.endpoint? id with
  | none => rw [expireAt_eq_self hendpoint]
  | some endpoint =>
    rw [expireAt_eq hendpoint]
    have hset : Aside kept site
        (site.withTree (site.tree.setEndpoint id (endpoint.takeExpired now).2)) :=
      setEndpoint hendpoint rfl
    exact hset.trans (tellExpired (hset.facesOut outward) _)

end Aside

end Site
end TopicTree
