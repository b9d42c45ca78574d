import TopicTree.Proofs.Network.Exchange
import TopicTree.Proofs.Network.Joining
import TopicTree.Proofs.Routing.Graft

/-!
# Links are transparent

A request from a hub or a device to somewhere in the other one is answered as if the two were one
tree, with the local root of the device in the place of the hub end: two ticks later the caller has
been told what the reference says of that tree, and exactly the methods have been called that it
says.
-/

namespace TopicTree.Site

/-- What the reference calls are calls. -/
theorem isCall_of_consult {tree : Tree} {here : Nat} {names : List Name} {method : String}
    {params : Params} {calls : List Event} {reply : Reply}
    (consults : tree.consult here names method params = (calls, reply)) :
    ∀ event ∈ calls, event.isCall := by
  obtain rfl : (tree.consult here names method params).1 = calls := by rw [consults]
  intro event hevent
  unfold Tree.consult at hevent
  split at hevent
  · simp at hevent
  · split at hevent
    · simp at hevent
    · obtain rfl := List.mem_singleton.1 hevent
      rfl

/-- The caller has been told what the reference says, and what the reference says has been called at
the other site, where entries have other places. Nothing was called at the site that asked. -/
structure AnsweredAs (reference : List Event × Reply) (place : Nat → Nat)
    (asker other : Site Cabling) (tag : String) (after : Site Cabling × Site Cabling) : Prop where
  told : after.1.tellings tag
    = asker.tellings tag ++ [(reference.2.code, reference.2.params)]
  quiet : after.1.calls = asker.calls
  called : ∃ calls, after.2.calls = other.calls ++ calls ∧
    calls.map (Event.moved place) = reference.1

namespace Joined

section

variable {hub device : Site Cabling} {link : Nat} {near far : String}
  (joined : Joined hub device link near far) (hubWellFormed : hub.tree.WellFormed)
  (deviceWellFormed : device.tree.WellFormed)
include joined hubWellFormed deviceWellFormed

/-- The cable from the hub to the device. -/
theorem cabled_down : Cabled (fun label => hub.tree.Uses label ∨ device.tree.Uses label) hub device
    link 0 near far where
  askerDocked := joined.hubDocked hubWellFormed
  otherDocked := by
    rw [← joined.medium]
    exact joined.deviceDocked deviceWellFormed
  nearCable := joined.nearCable
  farCable := joined.farCable
  askerFree := joined.hubFree
  otherFree := joined.deviceFree

/-- The cable from the device to the hub. -/
theorem cabled_up : Cabled (fun label => hub.tree.Uses label ∨ device.tree.Uses label) device hub
    0 link far near where
  askerDocked := joined.deviceDocked deviceWellFormed
  otherDocked := by
    rw [joined.medium]
    exact joined.hubDocked hubWellFormed
  nearCable := joined.medium ▸ joined.farCable
  farCable := joined.medium ▸ joined.nearCable
  askerFree := joined.deviceFree
  otherFree := joined.hubFree

end

section

variable {hub device asked : Site Cabling} {link node : Nat} {near far : String}
  (joined : Joined hub device link near far) (hubWellFormed : hub.tree.WellFormed)
  (deviceWellFormed : device.tree.WellFormed) {way own names : List Name}
  (toLink : hub.tree.walk 0 way = some link)
  (other : ∀ name ∈ names, name.text ≠ ".." ∧ name.text ≠ linkManager)
  {method path tag : String} {input : Params} {now : Nat} {id : UInt16} {dest : Path}
  (parsed : Path.ofText path = .ok dest) (first : Nat) {second : Nat}
include joined hubWellFormed deviceWellFormed toLink other parsed

/-- What a node of the hub asks behind the link is answered as in the single tree: the request leaves
the hub, is answered at the device, and the hub tells the caller. -/
theorem hub_asks (accepted : hub.execute node method path input now tag = .ok (id, asked))
    (fresh : hub.tree.owed tag = 0) (anchored : dest.anchor = .top)
    (spelled : dest.Spells (way ++ names))
    (inside : device.tree.StaysInside device.tree.localRoot names)
    (walk : hub.tree.walk 0 own = some node) (room : (Name.join own).utf8ByteSize ≤ maxPath)
    (early : second < now + hub.tree.timeout) :
    AnsweredAs ((hub.tree.graft link device.tree).consult 0 (way ++ names) method input)
      (hub.tree.graftPlace link) hub device tag (exchange asked device first second) := by
  obtain ⟨request, old, new, hissued, there, begun, hroute⟩ := issued_of_execute accepted parsed
  obtain ⟨inner, hlink, _⟩ := (joined.hubDocked hubWellFormed).exists_link
  have hhead : ∀ name ∈ names.head?, name.text ≠ ".." :=
    fun name hname => (other name (List.mem_of_mem_head? hname)).1
  have hwaiting : hub.tree.outline = (hub.withTree (hub.tree.setEndpoint node new)).tree.outline :=
    (Tree.outline_setEndpoint hub.tree node new).symm
  have hwaits : (hub.withTree (hub.tree.setEndpoint node new)).tree.link? link = some inner :=
    (Tree.link?_setEndpoint hub.tree node new link).trans hlink
  obtain ⟨message, hasks, hleaves⟩ := joined.hub_sends hubWellFormed hwaiting hwaits toLink walk
    room hissued (Endpoint.size_le_of_beginRequest begun) anchored spelled hhead
  cases hreference : device.tree.consult device.tree.localRoot names method input with
  | mk calls reply =>
  obtain ⟨htold, hquiet, hcalled⟩ := exchange_tells
    (joined.cabled_down hubWellFormed deviceWellFormed) there hasks.carried (hroute.trans hleaves)
    (isCall_of_consult hreference)
    (fun ready link frame same methods hready read => by
      obtain ⟨after, response, hreturns, hserves, hreceive⟩ := joined.device_returns
        deviceWellFormed same.symm hready methods inside hasks read hreference
      exact ⟨after, response, hreturns.carried, hreturns, hserves, hreceive⟩)
    accepted fresh begun
    (fun ready link frame response endpoint same hready hreturns read awaits =>
      joined.hub_told hubWellFormed same.symm hready toLink spelled.size_le deviceWellFormed walk
        hreturns read awaits)
    first early
  have hgraft := Tree.consult_graft_beyond deviceWellFormed joined.outer
    (Tree.lt_size_of_form? joined.hubEnd) hubWellFormed joined.hubEnd joined.named toLink names
    method input
  rw [hreference] at hgraft
  rw [hgraft]
  exact ⟨htold, hquiet, calls, hcalled, rfl⟩

/-- What a node of the device asks outside is answered as in the single tree: the request leaves the
device, is answered at the hub, and the device tells the caller. -/
theorem device_asks (accepted : device.execute node method path input now tag = .ok (id, asked))
    (fresh : device.tree.owed tag = 0) (outside : dest.anchor ≠ .near) (spelled : dest.Spells names)
    (inside : hub.tree.StaysInside 0 names)
    (walk : device.tree.walk device.tree.localRoot own = some node)
    (room : (Name.join (way ++ own)).utf8ByteSize ≤ maxPath)
    (early : second < now + device.tree.timeout) :
    AnsweredAs ((hub.tree.graft link device.tree).consult 0 names method input)
      (fun entry => entry) device hub tag (exchange asked hub first second) := by
  obtain ⟨request, old, new, hissued, there, begun, hroute⟩ := issued_of_execute accepted parsed
  have hroom : (Name.join own).utf8ByteSize ≤ maxPath :=
    Nat.le_trans (Name.size_join_le_append way own) room
  have hhead : ∀ name ∈ names.head?, name.text ≠ ".." ∧ name.text ≠ linkManager :=
    fun name hname => other name (List.mem_of_mem_head? hname)
  have hwaiting : device.tree.outline
      = (device.withTree (device.tree.setEndpoint node new)).tree.outline :=
    (Tree.outline_setEndpoint device.tree node new).symm
  obtain ⟨message, hasks, hleaves⟩ := joined.device_sends deviceWellFormed hwaiting walk hroom
    hissued (Endpoint.size_le_of_beginRequest begun) outside (Path.reads_of_ofText parsed) spelled
    fun name hname => (hhead name hname).1
  cases hreference : hub.tree.consult 0 names method input with
  | mk calls reply =>
  obtain ⟨htold, hquiet, hcalled⟩ := exchange_tells
    (joined.cabled_up hubWellFormed deviceWellFormed) there hasks.carried (hroute.trans hleaves)
    (isCall_of_consult hreference)
    (fun ready link frame same methods hready read => by
      obtain ⟨after, response, hreturns, hserves, hreceive⟩ := joined.hub_returns hubWellFormed
        same.symm hready toLink deviceWellFormed methods walk room
        (fun name hname => (hhead name hname).2) inside hasks read hreference
      exact ⟨after, response, hreturns.carried, hreturns, hserves, hreceive⟩)
    accepted fresh begun
    (fun ready link frame response endpoint same hready hreturns read awaits =>
      joined.device_told deviceWellFormed same.symm hready walk hreturns read awaits)
    first early
  have hgraft := Tree.consult_graft_inside deviceWellFormed joined.outer
    (Tree.lt_size_of_form? joined.hubEnd) hubWellFormed joined.hubEnd joined.named inside
    method input
  rw [hreference] at hgraft
  rw [hgraft]
  refine ⟨htold, hquiet, calls, hcalled, ?_⟩
  rw [funext Event.moved_self, List.map_id']

end

end Joined

/-- In reachable trees, joined by a link, let a request be accepted for a caller who waits for
nothing else, and let its path lead along names other than `..` and that of the manager of a link.
From the hub it starts at the top and goes along the way of the link; from the device it starts at
the top or across the link. On the other side it meets no further link, and the ways back fit a
path. Then a tick of the other site and, within the waiting time, a tick of the one that asked tell
the caller, once, what the reference says of the single tree in which the local root of the device
stands in place of the hub end; and the methods called are those that it says. -/
theorem link_is_transparent {hub device : Site Cabling} {link : Nat} {near far : String}
    (hubReachable : hub.Reachable) (deviceReachable : device.Reachable)
    (joined : Joined hub device link near far) {way names : List Name}
    (toLink : hub.tree.walk 0 way = some link)
    (other : ∀ name ∈ names, name.text ≠ ".." ∧ name.text ≠ linkManager)
    {node : Nat} {method path tag : String} {input : Params} {now : Nat} {id : UInt16}
    {asked : Site Cabling} {dest : Path} (parsed : Path.ofText path = .ok dest)
    (first second : Nat) :
    (hub.execute node method path input now tag = .ok (id, asked) → hub.tree.owed tag = 0 →
      dest.anchor = .top → dest.Spells (way ++ names) →
      device.tree.StaysInside device.tree.localRoot names → second < now + hub.tree.timeout →
      (∃ own, hub.tree.walk 0 own = some node) ∧
        ∀ own, hub.tree.walk 0 own = some node → (Name.join own).utf8ByteSize ≤ maxPath →
          AnsweredAs ((hub.tree.graft link device.tree).consult 0 (way ++ names) method input)
            (hub.tree.graftPlace link) hub device tag (exchange asked device first second)) ∧
    (device.execute node method path input now tag = .ok (id, asked) → device.tree.owed tag = 0 →
      dest.anchor ≠ .near → dest.Spells names →
      hub.tree.StaysInside 0 names → second < now + device.tree.timeout →
      (∃ own, device.tree.walk device.tree.localRoot own = some node) ∧
        ∀ own, device.tree.walk device.tree.localRoot own = some node →
          (Name.join (way ++ own)).utf8ByteSize ≤ maxPath →
          AnsweredAs ((hub.tree.graft link device.tree).consult 0 names method input)
            (fun entry => entry) device hub tag (exchange asked hub first second)) := by
  refine ⟨?_, ?_⟩
  · intro accepted fresh anchored spelled inside early
    obtain ⟨own, hwalk⟩ := exists_walk_of_execute hubReachable.wellFormed accepted
    rw [Tree.WellFormed.localRoot_eq_zero (by simp [joined.top])] at hwalk
    refine ⟨⟨own, hwalk⟩, fun own walk room => ?_⟩
    exact joined.hub_asks hubReachable.wellFormed deviceReachable.wellFormed toLink other parsed
      first accepted fresh anchored spelled inside walk room early
  · intro accepted fresh outside spelled inside early
    refine ⟨exists_walk_of_execute deviceReachable.wellFormed accepted, fun own walk room => ?_⟩
    exact joined.device_asks hubReachable.wellFormed deviceReachable.wellFormed toLink other parsed
      first accepted fresh outside spelled inside walk room early

/-- Two sockets that are the ends of one cable. -/
def cable : Cabling :=
  Cabling.empty.connect "near" "far"

/-- The moves that build a hub with a node that repeats what it is told. -/
def buildHouse : List (Move Cabling) :=
  [.call (.build (.addRoot "house")), .call (.build (.addNode 0 "bell")),
    .call (.build (.addUplink 0 "near" 5)), .call (.build (.addMethod 1 "say" Handler.echo))]

/-- The moves that build a device with a node that repeats what it is told. -/
def buildShed : List (Move Cabling) :=
  [.call (.build (.addDownlink "far" "shed" 5)), .call (.build (.addNode 1 "lamp")),
    .call (.build (.addMethod 2 "say" Handler.echo))]

/-- A device that has proposed a name. -/
def proposing : Site Cabling :=
  (start 5 (Pool.ofSize 1) cable).run (buildShed ++ [.call (.tick 0)])

/-- A hub that has taken on the name. -/
def adopting : Site Cabling :=
  (start 5 (Pool.ofSize 1) proposing.medium).run (buildHouse ++ [.call (.tick 0)])

/-- A device whose name is confirmed. -/
def shed : Site Cabling :=
  proposing.run [.around (Pool.ofSize 1) adopting.medium, .call (.tick 1)]

/-- The hub above it. -/
def house : Site Cabling :=
  adopting.run [.around (Pool.ofSize 1) shed.medium]

/-- The name that the link has. -/
def shedName : Name :=
  ⟨"shed", by decide, by decide, by decide⟩

/-- The name of the node behind the link. -/
def lamp : Name :=
  ⟨"lamp", by decide, by decide, by decide⟩

/-- The house and the shed are joined. -/
theorem house_joined_shed : Joined house shed 2 "near" "far" where
  top := by decide +kernel
  hubEnd := by decide +kernel
  hubWire := by decide +kernel
  deviceEnd := by decide +kernel
  deviceWire := by decide +kernel
  named := by decide +kernel
  apart := by decide
  medium := by decide +kernel
  nearCable := by decide +kernel
  farCable := by decide +kernel
  hubOthers := by
    intro id label stage hne hwire
    have hnone : ∀ id < house.tree.size, id ≠ 2 → house.tree.wire? id = none := by decide +kernel
    rw [hnone id (Tree.lt_size_of_wire? hwire) hne] at hwire
    cases hwire
  deviceOthers := by
    intro id label stage hne hwire
    have hnone : ∀ id < shed.tree.size, id ≠ 0 → shed.tree.wire? id = none := by decide +kernel
    rw [hnone id (Tree.lt_size_of_wire? hwire) hne] at hwire
    cases hwire
  hubFree := by decide +kernel
  deviceFree := by decide +kernel
  hubNames := by decide +kernel
  deviceNames := by decide +kernel

/-- What a node of the house asks of one in the shed, and the other way round, is answered across
the link: the one method is called at the other side, and its reply is told. -/
theorem house_and_shed_answer : ∃ id asked id' asked',
    house.execute 1 "say" "shed/lamp" Params.empty 3 "visitor" = .ok (id, asked) ∧
      AnsweredAs ([.called 3 "say" Params.empty], ⟨.success, Params.empty⟩)
        (house.tree.graftPlace 2) house shed "visitor" (exchange asked shed 4 5) ∧
    shed.execute 2 "say" "~/../bell" Params.empty 3 "gardener" = .ok (id', asked') ∧
      AnsweredAs ([.called 1 "say" Params.empty], ⟨.success, Params.empty⟩)
        (fun entry => entry) shed house "gardener" (exchange asked' house 4 5) := by
  have hubReachable : house.Reachable := ⟨5, Pool.ofSize 1, proposing.medium,
    buildHouse ++ [.call (.tick 0)] ++ [.around (Pool.ofSize 1) shed.medium], run_append _ _ _⟩
  have deviceReachable : shed.Reachable := ⟨5, Pool.ofSize 1, cable,
    buildShed ++ [.call (.tick 0)] ++ [.around (Pool.ofSize 1) adopting.medium, .call (.tick 1)],
    run_append _ _ _⟩
  have toLink : house.tree.walk 0 [shedName] = some 2 := by decide +kernel
  have toLamp : shed.tree.walk shed.tree.localRoot [lamp] = some 2 := by decide +kernel
  have toBell : house.tree.walk 0 [bell] = some 1 := by decide +kernel
  have hokay : (house.execute 1 "say" "shed/lamp" Params.empty 3 "visitor").isOk := by
    decide +kernel
  have hokay' : (shed.execute 2 "say" "~/../bell" Params.empty 3 "gardener").isOk := by
    decide +kernel
  obtain ⟨⟨id, asked⟩, accepted⟩ := exists_eq_ok hokay
  obtain ⟨⟨id', asked'⟩, accepted'⟩ := exists_eq_ok hokay'
  have parsed : Path.ofText "shed/lamp" = .ok ⟨.top, "shed/lamp", by decide⟩ := rfl
  have parsed' : Path.ofText "~/../bell" = .ok ⟨.far, "bell", by decide⟩ := rfl
  have inShed := deviceReachable.wellFormed.staysInside (by decide +kernel) toLamp
    (Tree.link?_eq_none (.inl (by decide +kernel)))
  have inHouse := hubReachable.wellFormed.staysInside (by decide +kernel) toBell
    (Tree.link?_eq_none (.inl (by decide +kernel)))
  have hplain : ∀ name ∈ [lamp], name.text ≠ ".." ∧ name.text ≠ linkManager := by decide
  have hplain' : ∀ name ∈ [bell], name.text ≠ ".." ∧ name.text ≠ linkManager := by decide
  obtain ⟨hdown, _⟩ := link_is_transparent hubReachable deviceReachable house_joined_shed toLink
    hplain parsed 4 5
  obtain ⟨_, hup⟩ := link_is_transparent hubReachable deviceReachable house_joined_shed toLink
    hplain' parsed' 4 5
  obtain ⟨_, hvisitor⟩ :=
    hdown accepted (by decide +kernel) (by rfl) (by rfl) inShed (by decide +kernel)
  obtain ⟨_, hgardener⟩ :=
    hup accepted' (by decide +kernel) (by decide) (by rfl) inHouse (by decide +kernel)
  have hlamp : (house.tree.graft 2 shed.tree).consult 0 [shedName, lamp] "say" Params.empty
      = ([.called 3 "say" Params.empty], ⟨.success, Params.empty⟩) := by decide +kernel
  have hbell : (house.tree.graft 2 shed.tree).consult 0 [bell] "say" Params.empty
      = ([.called 1 "say" Params.empty], ⟨.success, Params.empty⟩) := by decide +kernel
  have hdown' := hvisitor [bell] toBell (by decide)
  have hup' := hgardener [lamp] toLamp (by decide)
  rw [List.singleton_append, hlamp] at hdown'
  rw [hbell] at hup'
  exact ⟨id, asked, id', asked', accepted, hdown', accepted', hup'⟩

end TopicTree.Site
