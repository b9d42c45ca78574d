import TopicTree.Proofs.Message.RoundTrip
import TopicTree.Proofs.Network.Docking
import TopicTree.Proofs.Routing.Crossing

/-!
# Hubs and devices

A hub and a device stand at the ends of one cable, and the link between them has its name. Each of
them sends a request that is to go to the other one across the cable, answers one that comes across
as the reference says, and tells the caller when a response comes across. What a message says on the
cable is the same in both directions.
-/

namespace TopicTree

/-! ## Trees that can be joined -/

/-- A tree in which no entry has a name that means something else in a path. -/
def Tree.PlainlyNamed (tree : Tree) : Prop :=
  ∀ id name, tree.name? id = some name →
    name.text ≠ "~" ∧ name.text ≠ ".." ∧ name.text ≠ linkManager

instance (tree : Tree) : Decidable tree.PlainlyNamed :=
  decidable_of_iff (∀ id < tree.size, ∀ name ∈ tree.name? id,
      name.text ≠ "~" ∧ name.text ≠ ".." ∧ name.text ≠ linkManager)
    ⟨fun h id name hname => h id (Tree.lt_size_of_name? hname) name hname,
      fun h id _ name hname => h id name hname⟩

/-- Whether a channel of a tree is at a socket. -/
def Tree.Uses (tree : Tree) (label : String) : Prop :=
  ∃ id stage, tree.wire? id = some (label, stage)

/-- No walk starts with a name that means something else in a path. -/
theorem Tree.PlainlyNamed.of_walk {tree : Tree} (h : tree.PlainlyNamed)
    (wellFormed : tree.WellFormed) {here id : Nat} {names : List Name}
    (walk : tree.walk here names = some id) :
    ∀ name ∈ names.head?, name.text ≠ "~" ∧ name.text ≠ ".." ∧ name.text ≠ linkManager := by
  intro name hname
  cases names with
  | nil => simp at hname
  | cons first names =>
    obtain rfl : first = name := by simpa using hname
    obtain ⟨child, hchild, _⟩ := Option.bind_eq_some_iff.1 walk
    obtain ⟨_, own, hown, htext⟩ := wellFormed.of_childNamed hchild
    rw [← htext]
    exact h child own hown

namespace Site

/-- A channel that has nothing to receive, at a socket of its own, and writes to neither of two
trees. -/
def IsAside (hub device : Tree) (near far : String) (medium : Cabling) (label : String) : Prop :=
  label ≠ near ∧ label ≠ far ∧ (medium.socket label).inbox = [] ∧
    ∀ peer, (medium.socket label).peer = some peer → ¬hub.Uses peer ∧ ¬device.Uses peer

/-- A hub whose top is a node and a device, joined by a link that has its name: its two ends are the
ends of a cable that works and on which nothing is under way, the device knows that the name is
confirmed, and no other channel of the two has any traffic to come. Each has a free slot. -/
structure Joined (hub device : Site Cabling) (link : Nat) (near far : String) : Prop where
  top : hub.tree.form? 0 = some .node
  hubEnd : hub.tree.form? link = some .hubEnd
  hubWire : hub.tree.wire? link = some (near, .idle)
  deviceEnd : device.tree.linkState? 0 = some (.device, true)
  deviceWire : device.tree.wire? 0 = some (far, .idle)
  named : hub.tree.name? link = device.tree.name? device.tree.localRoot
  apart : near ≠ far
  medium : device.medium = hub.medium
  nearCable : hub.medium.socket near = ⟨[], some far, none, none⟩
  farCable : hub.medium.socket far = ⟨[], some near, none, none⟩
  hubOthers : ∀ id label stage, id ≠ link → hub.tree.wire? id = some (label, stage) →
    IsAside hub.tree device.tree near far hub.medium label
  deviceOthers : ∀ id label stage, id ≠ 0 → device.tree.wire? id = some (label, stage) →
    IsAside hub.tree device.tree near far hub.medium label
  hubFree : hub.pool.available ≠ 0
  deviceFree : device.pool.available ≠ 0
  hubNames : hub.tree.PlainlyNamed
  deviceNames : device.tree.PlainlyNamed

namespace Joined

variable {hub device : Site Cabling} {link : Nat} {near far : String}
  (h : Joined hub device link near far)
include h

/-- The top of the device is the device end. -/
theorem outer : device.tree.form? 0 = some .deviceEnd :=
  Tree.form?_of_linkState? h.deviceEnd

/-- The hub is docked at the link. -/
theorem hubDocked (wellFormed : hub.tree.WellFormed) :
    Docked (fun label => hub.tree.Uses label ∨ device.tree.Uses label) hub link near far where
  wire := h.hubWire
  isLink := by
    have hform := h.hubEnd
    rw [Tree.linkState?, Option.isSome_map, Option.isSome_iff_ne_none]
    intro hnone
    have hother := Tree.form?_of_link?_eq_none (Tree.lt_size_of_form? hform) hnone
    simp [hform] at hother
  settled := by
    intro other hstate
    have hform := Tree.form?_of_linkState? hstate
    have htop := h.top
    rw [← wellFormed.deviceEnd_eq hform, hform] at htop
    exact absurd htop (by decide)
  apart := h.apart
  keepsOwn := .inl ⟨link, _, h.hubWire⟩
  keepsPartner := .inr ⟨0, _, h.deviceWire⟩
  facesOut := by
    intro other hne label stage hwire
    obtain ⟨_, _, _, hpeer⟩ := h.hubOthers other label stage hne hwire
    refine ⟨.inl ⟨other, stage, hwire⟩, ?_⟩
    intro peer hlabel hkept
    exact hkept.elim (hpeer peer hlabel).1 (hpeer peer hlabel).2
  quiet := by
    intro other label stage hne hwire
    obtain ⟨hnear, hfar, hempty, _⟩ := h.hubOthers other label stage hne hwire
    exact ⟨hnear, hfar, hempty⟩

/-- The device is docked at its device end. -/
theorem deviceDocked (wellFormed : device.tree.WellFormed) :
    Docked (fun label => hub.tree.Uses label ∨ device.tree.Uses label) device 0 far near where
  wire := h.deviceWire
  isLink := by rw [h.deviceEnd]; rfl
  settled := by
    intro other hstate
    rw [wellFormed.deviceEnd_eq (Tree.form?_of_linkState? hstate), h.deviceEnd] at hstate
    exact absurd hstate (by decide)
  apart := h.apart.symm
  keepsOwn := .inr ⟨0, _, h.deviceWire⟩
  keepsPartner := .inl ⟨link, _, h.hubWire⟩
  facesOut := by
    intro other hne label stage hwire
    obtain ⟨_, _, _, hpeer⟩ := h.deviceOthers other label stage hne hwire
    rw [h.medium]
    refine ⟨.inr ⟨other, stage, hwire⟩, ?_⟩
    intro peer hlabel hkept
    exact hkept.elim (hpeer peer hlabel).1 (hpeer peer hlabel).2
  quiet := by
    intro other label stage hne hwire
    obtain ⟨hnear, hfar, hempty, _⟩ := h.deviceOthers other label stage hne hwire
    rw [h.medium]
    exact ⟨hfar, hnear, hempty⟩

end Joined

/-! ## Messages on the cable -/

/-- A request on a cable: a frame can carry it, it leads along names behind the link, and back to
where it came from in the tree before it. -/
structure Asks (id : UInt16) (method : String) (params : Params) (own names : List Name)
    (request : Envelope) : Prop where
  carried : request.Carried
  kind : request.kind = .request
  id : request.id = id
  method : request.method = method
  params : request.params = params
  dest : request.dest.Spells names
  anchor : request.dest.anchor ≠ .far
  source : request.source.Spells own
  back : request.source.anchor = .top

/-- A response on a cable: a frame can carry it, it tells of a reply, and it leads back to where the
request came from, with a part of the names of the request as its source. -/
structure Returns (id : UInt16) (reply : Reply) (own names : List Name) (response : Envelope) :
    Prop where
  carried : response.Carried
  kind : response.kind = .response
  id : response.id = id
  code : response.code = reply.code
  params : response.params = reply.params
  dest : response.dest.Spells own
  anchor : response.dest.anchor ≠ .far
  source : ∃ front, front <+: names ∧ response.source.Spells front

/-- What a site says when it answers a request goes back with what the reference says. -/
theorem Asks.returns {tree : Tree} {here : Nat} {id : UInt16} {method : String} {params : Params}
    {own names front : List Name} {request : Envelope}
    (asks : Asks id method params own names request) {calls : List Event} {reply : Reply}
    (consults : tree.consult here names method params = (calls, reply)) {dest source : Path}
    (destReads : dest.Reads) (back : dest.Spells own) (anchor : dest.anchor ≠ .far)
    (sourceReads : source.Reads) (inside : front <+: names) (spells : source.Spells front) :
    Returns id reply own names
      { request.response reply.code reply.params with dest, source } where
  carried := ⟨asks.carried.short, destReads, sourceReads, fun hkind => absurd rfl hkind⟩
  kind := rfl
  id := asks.id
  code := rfl
  params := by
    have houtput := delivered_consult tree here names method params
    rw [consults] at houtput
    exact params_response request houtput
  dest := back
  anchor := anchor
  source := ⟨front, inside, spells⟩

/-! ## At the hub -/

namespace Joined

section

variable {hub device ready : Site Cabling} {link node : Nat} {near far : String}
  (joined : Joined hub device link near far) (wellFormed : hub.tree.WellFormed)
  (same : hub.tree.outline = ready.tree.outline) {inner : Link}
  (there : ready.tree.link? link = some inner) {way own names : List Name}
  (toLink : hub.tree.walk 0 way = some link) {id : UInt16} {method : String} {params : Params}
  {frame : Frame}
include joined same

/-- The top of a hub stays a node and the local root. -/
theorem top_of_same : ready.tree.form? 0 = some .node ∧ ready.tree.localRoot = 0 := by
  have htop : ready.tree.form? 0 = some .node := by rw [← Tree.form?_congr same, joined.top]
  exact ⟨htop, Tree.WellFormed.localRoot_eq_zero (by simp [htop])⟩

omit same in
/-- The link has a name at the hub. -/
theorem exists_name (deviceWellFormed : device.tree.WellFormed) :
    ∃ name, hub.tree.name? link = some name := by
  have hform := (deviceWellFormed.children_zero joined.outer).2
  rw [joined.named]
  exact Option.isSome_iff_exists.1 (deviceWellFormed.isSome_name? (.inl hform))

include there

/-- The link of a hub stays its hub end. -/
theorem place_eq_hub : inner.place = .hub := by
  have hform := Tree.form?_of_link? there
  rw [← Tree.form?_congr same, joined.hubEnd] at hform
  cases hplace : inner.place with
  | hub => rfl
  | device => simp [hplace, LinkEnd.form] at hform

include wellFormed toLink

/-- A request from a node of the hub to behind the link leaves the hub there. -/
theorem hub_sends (walk : hub.tree.walk 0 own = some node)
    (room : (Name.join own).utf8ByteSize ≤ maxPath) {path : Path} {request : Envelope}
    (issued : Issued path method params id request) (short : method.utf8ByteSize ≤ maxMethodName)
    (anchored : path.anchor = .top) (spelled : path.Spells (way ++ names))
    (other : ∀ name ∈ names.head?, name.text ≠ "..") :
    ∃ message, Asks id method params own names message ∧
      ready.route (.up node request) = ready.sendEnvelope link message := by
  obtain ⟨asked, rfl, fresh, rfl, rfl, rfl, plain⟩ := issued
  obtain ⟨htop, hroot⟩ := joined.top_of_same same
  have hnames := joined.hubNames.of_walk wellFormed walk
  rw [Tree.walk_congr same, ← hroot] at walk toLink
  obtain ⟨dest, source, hnear, hdest, hback, hsource, hout⟩ := goesOut_down request
    (wellFormed.congr same) htop walk (by rw [fresh]; exact Path.spells_empty .top) room
    (by simp [asked]) (by simp [anchored]) toLink there (joined.place_eq_hub same there) spelled
  rw [anchored] at hback
  refine ⟨{ request with dest, source }, ?_, hout.route_eq (wellFormed.congr same)⟩
  exact {
    carried := ⟨short, hdest.reads_near hnear other,
      hsource.reads_top hback fun name hname => (hnames name hname).1, fun _ => plain⟩
    kind := asked
    id := rfl
    method := rfl
    params := rfl
    dest := hdest
    anchor := by simp [hnear]
    source := hsource
    back := hback }

/-- A request that comes to the hub across the link is answered there as the reference says. -/
theorem hub_returns (deviceWellFormed : device.tree.WellFormed)
    (methods : ∀ entry, (ready.tree.endpoint? entry).map (·.methods)
      = (hub.tree.endpoint? entry).map (·.methods))
    (walk : device.tree.walk device.tree.localRoot own = some node)
    (room : (Name.join (way ++ own)).utf8ByteSize ≤ maxPath)
    (other : ∀ name ∈ names.head?, name.text ≠ linkManager)
    (inside : hub.tree.StaysInside 0 names) {message : Envelope}
    (asks : Asks id method params own names message)
    (read : Envelope.ofFrame frame = .ok message) {calls : List Event} {reply : Reply}
    (consults : hub.tree.consult 0 names method params = (calls, reply)) :
    ∃ after response, Returns id reply own names response ∧ Serves calls ready after ∧
      ready.receiveLink link inner frame = after.sendEnvelope link response := by
  obtain ⟨htop, hroot⟩ := joined.top_of_same same
  obtain ⟨name, hname⟩ := joined.exists_name deviceWellFormed
  have hnames := joined.deviceNames.of_walk deviceWellFormed walk
  have hinside := inside.congr same
  have hconsults := consults
  rw [← consult_congr same.symm methods, ← asks.method, ← asks.params] at hconsults
  rw [Tree.name?_congr same] at hname
  rw [Tree.walk_congr same, ← hroot] at toLink
  rw [← hroot] at hinside hconsults
  obtain ⟨after, front, stop, dest, source, hserves, hprefix, hfront, hnear, hdest, hback, hsource,
    hreceive⟩ := hub_answers (wellFormed.congr same) htop (joined.place_eq_hub same there) hname
      toLink room there read asks.kind (asks.dest.isManager_eq_false other) asks.anchor asks.source
      hinside asks.dest hconsults
  rw [hroot, ← Tree.walk_congr same] at hfront
  have hplain := joined.hubNames.of_walk wellFormed hfront
  have hreads : source.Reads := by
    cases hanchor : message.dest.anchor with
    | top =>
      rw [hanchor] at hback
      exact hsource.reads_top hback fun name hname => (hplain name hname).1
    | near =>
      rw [hanchor] at hback
      exact Path.reads_far hback
    | far => exact absurd hanchor asks.anchor
  refine ⟨after, _, ?_, hserves, hreceive⟩
  exact asks.returns consults
    (hdest.reads_near hnear fun name hname => (hnames name hname).2.1) hdest (by simp [hnear])
    hreads hprefix hsource

/-- A response that comes to the hub across the link ends the wait of the node that asked. -/
theorem hub_told {endpoint : Endpoint} {reply : Reply}
    (room : (Name.join (way ++ names)).utf8ByteSize ≤ maxPath)
    (deviceWellFormed : device.tree.WellFormed) (walk : hub.tree.walk 0 own = some node)
    {response : Envelope} (returns : Returns id reply own names response)
    (read : Envelope.ofFrame frame = .ok response)
    (awaits : ready.tree.endpoint? node = some endpoint) :
    ∃ last : Envelope, last.id = id ∧ last.code = reply.code ∧ last.params = reply.params ∧
      ready.receiveLink link inner frame = ready.settle node endpoint last := by
  obtain ⟨htop, hroot⟩ := joined.top_of_same same
  obtain ⟨name, hname⟩ := joined.exists_name deviceWellFormed
  obtain ⟨front, ⟨back, hback⟩, hsource⟩ := returns.source
  have hroom : (Name.join (way ++ front)).utf8ByteSize ≤ maxPath := by
    rw [← hback, ← List.append_assoc] at room
    exact Nat.le_trans (Name.size_join_append_le _ back) room
  rw [Tree.name?_congr same] at hname
  rw [Tree.walk_congr same, ← hroot] at walk toLink
  obtain ⟨last, hid, hcode, hparams, hreceive⟩ := hub_settles (wellFormed.congr same) htop
    (joined.place_eq_hub same there) hname toLink hroom read returns.kind returns.anchor hsource
    walk returns.dest awaits
  exact ⟨last, hid.trans returns.id, hcode.trans returns.code, hparams.trans returns.params,
    hreceive⟩

end

/-! ## At the device -/

section

variable {hub device ready : Site Cabling} {link node : Nat} {near far : String}
  (joined : Joined hub device link near far) (wellFormed : device.tree.WellFormed)
  (same : device.tree.outline = ready.tree.outline) {inner : Link}
  (there : ready.tree.link? 0 = some inner) {own names : List Name} {id : UInt16}
  {method : String} {params : Params} {frame : Frame}
include joined same

/-- The top of a device stays its device end. -/
theorem outer_of_same : ready.tree.form? 0 = some .deviceEnd := by
  rw [← Tree.form?_congr same, joined.outer]

include there in
/-- The link of a device stays its device end. -/
theorem place_eq_device : inner.place = .device := by
  have hform := Tree.form?_of_link? there
  rw [joined.outer_of_same same] at hform
  cases hplace : inner.place with
  | hub => simp [hplace, LinkEnd.form] at hform
  | device => rfl

include wellFormed

/-- A request from a node of the device to outside leaves the device at its top. -/
theorem device_sends (walk : device.tree.walk device.tree.localRoot own = some node)
    (room : (Name.join own).utf8ByteSize ≤ maxPath) {path : Path} {request : Envelope}
    (issued : Issued path method params id request) (short : method.utf8ByteSize ≤ maxMethodName)
    (outside : path.anchor ≠ .near) (reads : path.Reads) (spelled : path.Spells names)
    (other : ∀ name ∈ names.head?, name.text ≠ "..") :
    ∃ message, Asks id method params own names message ∧
      ready.route (.up node request) = ready.sendEnvelope 0 message := by
  obtain ⟨asked, rfl, fresh, rfl, rfl, rfl, plain⟩ := issued
  have hnames := joined.deviceNames.of_walk wellFormed walk
  rw [Tree.walk_congr same, Tree.localRoot_congr same] at walk
  obtain ⟨source, hback, hsource, hout⟩ := goesOut_up request (wellFormed.congr same)
    (joined.outer_of_same same) walk (by rw [fresh]; exact Path.spells_empty .top) room
    (by simp [asked]) outside
  rw [fresh] at hback
  obtain ⟨dest, hdest⟩ : ∃ dest, request.dest.withAnchor request.dest.anchor.above = dest :=
    ⟨_, rfl⟩
  have hreads : dest.Reads ∧ dest.anchor ≠ .far := by
    subst hdest
    cases hanchor : request.dest.anchor with
    | top =>
      have hsame : request.dest.withAnchor Anchor.top.above = request.dest :=
        Path.withAnchor_eq_self hanchor
      rw [hsame, hanchor]
      exact ⟨reads, by decide⟩
    | near => exact absurd hanchor outside
    | far =>
      have hspells : (request.dest.withAnchor .near).Spells names := spelled
      exact ⟨hspells.reads_near rfl other, fun hfar => by cases hfar⟩
  rw [hdest] at hout
  refine ⟨{ request with dest, source }, ?_, hout.route_eq (wellFormed.congr same)⟩
  exact {
    carried := ⟨short, hreads.1,
      hsource.reads_top hback fun name hname => (hnames name hname).1, fun _ => plain⟩
    kind := asked
    id := rfl
    method := rfl
    params := rfl
    dest := hdest ▸ spelled
    anchor := hreads.2
    source := hsource
    back := hback }

include there

/-- A request that comes to the device across the link is answered there as the reference says. -/
theorem device_returns
    (methods : ∀ entry, (ready.tree.endpoint? entry).map (·.methods)
      = (device.tree.endpoint? entry).map (·.methods))
    (inside : device.tree.StaysInside device.tree.localRoot names) {message : Envelope}
    (asks : Asks id method params own names message)
    (read : Envelope.ofFrame frame = .ok message) {calls : List Event} {reply : Reply}
    (consults : device.tree.consult device.tree.localRoot names method params = (calls, reply)) :
    ∃ after response, Returns id reply own names response ∧ Serves calls ready after ∧
      ready.receiveLink 0 inner frame = after.sendEnvelope 0 response := by
  have hroot := Tree.localRoot_congr same
  have hinside := inside.congr same
  have hconsults := consults
  rw [← consult_congr same.symm methods, ← asks.method, ← asks.params] at hconsults
  rw [hroot] at hinside hconsults
  obtain ⟨after, front, stop, source, hserves, hprefix, hfront, htop, hsource, hreceive⟩ :=
    device_answers (wellFormed.congr same) there (joined.place_eq_device same there) read asks.kind
      asks.back hinside asks.dest hconsults
  rw [← hroot, ← Tree.walk_congr same] at hfront
  have hplain := joined.deviceNames.of_walk wellFormed hfront
  have hback : message.source.anchor ≠ .far := by
    rw [asks.back]
    decide
  refine ⟨after, _, ?_, hserves, hreceive⟩
  exact asks.returns consults asks.carried.source asks.source hback
    (hsource.reads_top htop fun name hname => (hplain name hname).1) hprefix hsource

/-- A response that comes to the device across the link ends the wait of the node that asked. -/
theorem device_told {endpoint : Endpoint} {reply : Reply}
    (walk : device.tree.walk device.tree.localRoot own = some node)
    {response : Envelope} (returns : Returns id reply own names response)
    (read : Envelope.ofFrame frame = .ok response)
    (awaits : ready.tree.endpoint? node = some endpoint) :
    ∃ last : Envelope, last.id = id ∧ last.code = reply.code ∧ last.params = reply.params ∧
      ready.receiveLink 0 inner frame = ready.settle node endpoint last := by
  have hnames := joined.deviceNames.of_walk wellFormed walk
  have hother := returns.dest.isManager_eq_false fun name hname => (hnames name hname).2.2
  rw [Tree.walk_congr same, Tree.localRoot_congr same] at walk
  obtain ⟨last, hid, hcode, hparams, hreceive⟩ := device_settles (wellFormed.congr same) there
    (joined.place_eq_device same there) read returns.kind hother walk returns.dest awaits
  exact ⟨last, hid.trans returns.id, hcode.trans returns.code, hparams.trans returns.params,
    hreceive⟩

end

end Joined

end Site
end TopicTree
