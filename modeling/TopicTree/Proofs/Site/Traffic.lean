import TopicTree.Proofs.Routing.Journey
import TopicTree.Proofs.Tree.Waiting

/-!
# Traffic

Whatever carries messages through a site leaves the core of its tree as it is: it calls methods,
tells requesters and writes frames. A frame is written at a bridge only while its client has a
session, and at a link only when a message is handed over there. So the log of a site tells apart
what passes through it from what is done about its links and sessions.
-/

namespace TopicTree

/-- The message that crosses a link upwards in the place of another one. -/
def Envelope.relayedUp (message : Envelope) : Envelope :=
  if message.dest.anchor = .far then { message with dest := message.dest.withAnchor .near }
  else message

/-- The message that crosses a link downwards in the place of another one, if one does. -/
def Envelope.relayedDown? (message : Envelope) : Option Envelope :=
  let arriving := { message with dest := message.dest.withAnchor .near }
  match message.source.anchor with
  | .top => some arriving
  | .near => some { arriving with source := message.source.withAnchor .far }
  | .far => none

/-- An event that goes with carrying messages through a tree. What may be written at links is told
by a rule. -/
inductive Event.Passes (rule : Nat → Frame → Prop) (tree : Tree) : Event → Prop
  | called (node : Nat) (method : String) (params : Params) :
      Passes rule tree (.called node method params)
  | replied (tag : String) (code : ReturnCode) (params : Params) :
      Passes rule tree (.replied tag code params)
  | wrote {id : Nat} {channel : Channel} {frame : Frame} (there : tree.channel? id = some channel)
      (may : (tree.client? id).isSome ∨ (tree.link? id).isSome ∧ rule id frame) :
      Passes rule tree (.wrote channel.socket frame.encode)
  | writeFailed {id : Nat} {channel : Channel} {frame : Frame}
      (there : tree.channel? id = some channel)
      (may : (tree.client? id).isSome ∨ (tree.link? id).isSome ∧ rule id frame) :
      Passes rule tree (.writeFailed channel.socket frame.encode)

/-- What may be noted is told by the core. -/
theorem Event.Passes.congr {rule : Nat → Frame → Prop} {left right : Tree} {event : Event}
    (same : left.core = right.core) (h : event.Passes rule left) : event.Passes rule right := by
  have hmay : ∀ {id frame}, (left.client? id).isSome ∨ (left.link? id).isSome ∧ rule id frame →
      (right.client? id).isSome ∨ (right.link? id).isSome ∧ rule id frame := by
    intro id frame may
    rw [Tree.client?_eq_of_core same] at may
    refine may.imp_right fun ⟨hlink, hrule⟩ => ⟨?_, hrule⟩
    have hmap := congrArg Option.isSome (Tree.map_link?_of_core same id)
    rwa [Option.isSome_map, Option.isSome_map, hlink, eq_comm] at hmap
  cases h with
  | called node method params => exact .called node method params
  | replied tag code params => exact .replied tag code params
  | wrote there may =>
    obtain ⟨other, hother, hsocket⟩ := Tree.exists_channel?_of_core same there
    exact hsocket ▸ .wrote hother (hmay may)
  | writeFailed there may =>
    obtain ⟨other, hother, hsocket⟩ := Tree.exists_channel?_of_core same there
    exact hsocket ▸ .writeFailed hother (hmay may)

namespace Site

variable {M : Type}

/-- A client with a session is one at a channel. -/
theorem exists_channel?_of_client? {site : Site M} {id : Nat}
    (session : (site.tree.client? id).isSome) : ∃ channel, site.tree.channel? id = some channel := by
  rw [Tree.client?, Option.isSome_map, Option.isSome_bind, Option.any_eq_true] at session
  obtain ⟨bridge, hbridge, -⟩ := session
  exact ⟨bridge.channel, Tree.channel?_of_bridge? hbridge⟩

/-- Writing a frame at a channel leaves the core alone, and is noted. -/
theorem write_cases [Medium M] (site : Site M) (id : Nat) (frame : Frame) :
    site.write id frame = site ∨ ∃ channel event, site.tree.channel? id = some channel ∧
      (event = .wrote channel.socket frame.encode ∨
        event = .writeFailed channel.socket frame.encode) ∧
      (site.write id frame).tree.core = site.tree.core ∧
      (site.write id frame).log = site.log ++ [event] := by
  unfold Site.write
  split
  · exact .inl rfl
  · next channel there =>
    have hsocket := channel.socket_send frame site.medium
    have hcore := Tree.core_setChannel there hsocket
    simp only []
    split
    · exact .inr ⟨channel, _, there, .inl (congrArg (Event.wrote · frame.encode) hsocket), hcore,
        rfl⟩
    · exact .inr ⟨channel, _, there, .inr (congrArg (Event.writeFailed · frame.encode) hsocket),
        hcore, rfl⟩

/-- Sending a packet leaves the core alone, and is noted if it is not dropped. -/
theorem sendPacket_cases [Medium M] {ε : Type} (site : Site M) (id : Nat)
    (packet : Except ε Frame) :
    (site.sendPacket id packet).tree.core = site.tree.core ∧
      ((site.sendPacket id packet).log = site.log ∨ ∃ frame channel event, packet = .ok frame ∧
        site.tree.channel? id = some channel ∧
        (event = .wrote channel.socket frame.encode ∨
          event = .writeFailed channel.socket frame.encode) ∧
        (site.sendPacket id packet).log = site.log ++ [event]) := by
  cases packet with
  | error e => exact ⟨rfl, .inl rfl⟩
  | ok frame =>
    simp only [sendPacket, send, holding]
    split
    · exact ⟨rfl, .inl rfl⟩
    · next slot pool _ =>
      rcases write_cases { site with pool } id frame with
        heq | ⟨channel, event, there, hevent, hcore, hlog⟩
      · rw [heq]
        exact ⟨rfl, .inl rfl⟩
      · exact ⟨hcore, .inr ⟨frame, channel, event, rfl, there, hevent, hlog⟩⟩

/-- A site through which messages have been carried. -/
structure Carries (rule : Nat → Frame → Prop) (before after : Site M) : Prop where
  core : after.tree.core = before.tree.core
  log : ∃ events, after.log = before.log ++ events ∧
    ∀ event ∈ events, event.Passes rule before.tree

namespace Carries

variable {rule : Nat → Frame → Prop}

/-- Nothing has been carried. -/
@[refl]
protected theorem refl (site : Site M) : Carries rule site site :=
  ⟨rfl, [], by simp, by simp⟩

protected theorem trans {first second third : Site M} (h : Carries rule first second)
    (h' : Carries rule second third) : Carries rule first third := by
  obtain ⟨events, hevents, hall⟩ := h.log
  obtain ⟨later, hlater, hall'⟩ := h'.log
  refine ⟨h'.core.trans h.core, events ++ later, ?_, ?_⟩
  · rw [hlater, hevents, List.append_assoc]
  · intro event hevent
    rcases List.mem_append.1 hevent with hfirst | hsecond
    · exact hall event hfirst
    · exact (hall' event hsecond).congr h.core

/-- An endpoint has changed. -/
theorem endpoint (site : Site M) (id : Nat) (endpoint : Endpoint) :
    Carries rule site (site.withTree (site.tree.setEndpoint id endpoint)) :=
  ⟨Tree.core_setEndpoint site.tree id endpoint, [], by simp, by simp⟩

/-- A caller has been told. -/
theorem replied (site : Site M) (tag : String) (code : ReturnCode) (params : Params) :
    Carries rule site (site.note (.replied tag code params)) :=
  ⟨rfl, [_], rfl, by simpa using .replied tag code params⟩

/-- Methods have been called. -/
theorem of_works {before after : Site M} (h : Works before after) : Carries rule before after := by
  obtain ⟨calls, hcalls, hall⟩ := h.log
  refine ⟨h.core, calls, hcalls, fun event hevent => ?_⟩
  obtain ⟨node, method, params, rfl⟩ := hall event hevent
  exact .called node method params

/-- What is done while a slot is held is done to the site. -/
theorem holding {site : Site M} {frame : Frame} {act : Site M → Site M}
    (h : ∀ pool : Pool, Carries rule { site with pool } (act { site with pool })) :
    Carries rule site (site.holding frame act) := by
  unfold Site.holding
  split
  · exact .refl _
  · next slot pool _ => exact ⟨(h pool).core, (h pool).log⟩

variable [Medium M] {site : Site M}

/-- A frame is written where it may be. -/
theorem write {id : Nat} {frame : Frame}
    (may : (site.tree.client? id).isSome ∨ (site.tree.link? id).isSome ∧ rule id frame) :
    Carries rule site (site.write id frame) := by
  rcases write_cases site id frame with heq | ⟨channel, event, there, hevent, hcore, hlog⟩
  · rw [heq]
  · refine ⟨hcore, [event], hlog, ?_⟩
    rw [List.forall_mem_singleton]
    rcases hevent with rfl | rfl
    · exact .wrote there may
    · exact .writeFailed there may

/-- A frame is sent where it may be. -/
theorem send {id : Nat} {frame : Frame}
    (may : (site.tree.client? id).isSome ∨ (site.tree.link? id).isSome ∧ rule id frame) :
    Carries rule site (site.send id frame) :=
  .holding fun _ => .write may

/-- A packet is sent where it may be, or dropped. -/
theorem sendPacket {ε : Type} {id : Nat} {packet : Except ε Frame}
    (may : ∀ frame, packet = .ok frame →
      (site.tree.client? id).isSome ∨ (site.tree.link? id).isSome ∧ rule id frame) :
    Carries rule site (site.sendPacket id packet) := by
  cases packet with
  | error e => exact .refl _
  | ok frame => exact .send (may frame rfl)

/-- A client is told, or is gone. -/
theorem answerClient (site : Site M) (id : Nat) (topic : String) (code : ReturnCode)
    (params : Params) : Carries rule site (site.answerClient id topic code params) := by
  unfold Site.answerClient
  split
  · exact .refl _
  · next client hclient => exact .sendPacket fun _ _ => .inl (by simp [hclient])

/-- A requester is told. -/
theorem tell (site : Site M) (id : Nat) (requester : Requester) (code : ReturnCode)
    (params : Params) : Carries rule site (site.tell id requester code params) := by
  cases requester with
  | caller tag => exact .replied site tag code params
  | client topic => exact .answerClient site id topic code params

/-- One frame is written to each of some clients. -/
theorem writeAll {frame : Frame} {bridges : List Nat}
    (may : ∀ id ∈ bridges, (site.tree.client? id).isSome) :
    Carries rule site (site.writeAll frame bridges) := by
  induction bridges generalizing site with
  | nil => exact .refl _
  | cons bridge rest ih =>
    have hwrite : Carries rule site (site.write bridge frame) :=
      .write (.inl (may bridge List.mem_cons_self))
    refine hwrite.trans (ih fun id hid => ?_)
    rw [Tree.client?_eq_of_core hwrite.core]
    exact may id (List.mem_cons_of_mem bridge hid)

omit [Medium M] in
/-- A subscriber is a client with a session. -/
theorem isSome_client?_of_mem_subscribers {topic : String} {id : Nat}
    (h : id ∈ site.tree.subscribers topic) : (site.tree.client? id).isSome := by
  have hwants := (List.mem_filter.1 h).2
  rw [Option.any_eq_true] at hwants
  obtain ⟨entry, hentry, hwants⟩ := hwants
  rw [Entry.wants, Option.any_eq_true] at hwants
  obtain ⟨session, hsession, _⟩ := hwants
  obtain ⟨bridge, hbridge, hopen⟩ := Option.bind_eq_some_iff.1 hsession
  simp [Tree.client?, Tree.bridge?, hentry, hbridge, hopen]

/-- A notification is written to its subscribers or dropped. -/
theorem fanOut (site : Site M) (notification : Envelope) :
    Carries rule site (site.fanOut notification) := by
  simp only [Site.fanOut]
  split
  · exact .refl _
  · split
    · exact .refl _
    · exact .holding fun _ => .writeAll fun id hid => isSome_client?_of_mem_subscribers hid

/-- The requester of a response that has arrived is told. -/
theorem settle (site : Site M) (here : Nat) (endpoint : Endpoint) (message : Envelope) :
    Carries rule site (site.settle here endpoint message) := by
  unfold Site.settle
  split
  · exact .refl _
  · next row after _ => exact (Carries.endpoint site here after).trans (.tell _ _ _ _ _)

/-- A message is handed over a link upwards. -/
theorem relayUp {link : Nat} {message : Envelope} (there : (site.tree.link? link).isSome)
    (may : ∀ frame, message.relayedUp.toFrame = .ok frame → rule link frame) :
    Carries rule site (site.relayUp link message) := by
  unfold Envelope.relayedUp at may
  unfold Site.relayUp sendEnvelope
  split
  · next hfar =>
    rw [if_pos hfar] at may
    exact .sendPacket fun frame hframe => .inr ⟨there, may frame hframe⟩
  · next hfar =>
    rw [if_neg hfar] at may
    exact .sendPacket fun frame hframe => .inr ⟨there, may frame hframe⟩

/-- A message is handed over a link downwards or dropped. -/
theorem relayDown {link : Nat} {message : Envelope} (there : (site.tree.link? link).isSome)
    (may : ∀ arriving frame, message.relayedDown? = some arriving → arriving.toFrame = .ok frame →
      rule link frame) : Carries rule site (site.relayDown link message) := by
  simp only [Envelope.relayedDown?] at may
  simp only [Site.relayDown, sendEnvelope]
  split
  · next hanchor =>
    rw [hanchor] at may
    exact .sendPacket fun frame hframe => .inr ⟨there, may _ frame rfl hframe⟩
  · next hanchor =>
    rw [hanchor] at may
    exact .sendPacket fun frame hframe => .inr ⟨there, may _ frame rfl hframe⟩
  · exact .refl _

/-- A message is routed, by a rule that allows what is handed over at links on its way. -/
theorem route {hop : Hop}
    (up : ∀ {link message mid}, Goes hop site (.up link message) mid → mid.tree.isDeviceEnd link →
      ∀ frame, message.relayedUp.toFrame = .ok frame → rule link frame)
    (down : ∀ {link message mid}, Goes hop site (.down link message) mid →
      mid.tree.form? link = some .hubEnd → ∀ arriving frame,
        message.relayedDown? = some arriving → arriving.toFrame = .ok frame → rule link frame) :
    Carries rule site (site.route hop) := by
  obtain ⟨last, mid, hgoes, hstop⟩ := route_cases site hop
  have hworks : Carries rule site mid := of_works hgoes.works
  generalize site.route hop = after at hstop
  cases hstop with
  | drop => exact hworks
  | arrive => exact hworks.trans (.settle _ _ _ _)
  | leaveUp message outer =>
    refine hworks.trans (.relayUp ?_ (up hgoes outer))
    rw [Tree.isDeviceEnd, Option.any_eq_true] at outer
    obtain ⟨link, hlink, _⟩ := outer
    simp [hlink]
  | leaveDown message there place =>
    have hform := Tree.form?_hubEnd there place
    exact hworks.trans (.relayDown (by simp [there]) (down hgoes hform))
  | spread => exact hworks.trans (.fanOut _ _)

/-- The requesters of overdue rows are told. -/
theorem tellExpired (id : Nat) (rows : List Pending) (site : Site M) :
    Carries rule site (Site.tellExpired id rows site) := by
  induction rows generalizing site with
  | nil => exact .refl _
  | cons row rest ih => exact (Carries.tell site id row.requester .timeout Params.empty).trans (ih _)

/-- The overdue waits of an entry end. -/
theorem expireAt (now : Nat) (site : Site M) (id : Nat) :
    Carries rule site (Site.expireAt now site id) := by
  cases hendpoint : site.tree.endpoint? id with
  | none =>
    rw [expireAt_eq_self hendpoint]
  | some endpoint =>
    rw [expireAt_eq hendpoint]
    exact (Carries.endpoint site id _).trans (.tellExpired id _ _)

end Carries

/-! ## What sets out -/

/-- A message that sets out at a tree on its way: a request or notification of a node or bridge, or
a message that came in at a link. Requests are for the destination that a path spells, if one does. -/
inductive Departs (tree : Tree) (path? : Option String) : Hop → Prop
  | request {node : Nat} {path : String} {message : Envelope}
      (there : (tree.endpoint? node).isSome) (asked : path? = some path)
      (kind : message.kind = .request) (dest : Path.ofText path = .ok message.dest) :
      Departs tree path? (.up node message)
  | notification {node : Nat} {message : Envelope} (there : (tree.endpoint? node).isSome)
      (kind : message.kind = .notification) : Departs tree path? (.up node message)
  | fromBelow {id : Nat} {link : Link} (message : Envelope) (there : tree.link? id = some link)
      (place : link.place = .hub) (named : (tree.name? id).isSome) :
      Departs tree path? (.up id message)
  | fromAbove {id root : Nat} {link : Link} (message : Envelope)
      (there : tree.link? id = some link) (place : link.place = .device)
      (below : (tree.children id).head? = some root) : Departs tree path? (.down root message)

/-- Whatever sets out at a tree is carried by a rule, over a kind of media. -/
def Routes (M : Type) [Medium M] (rule : Nat → Frame → Prop) (tree : Tree)
    (path? : Option String) : Prop :=
  ∀ (site : Site M) (hop : Hop), site.tree.core = tree.core → Departs site.tree path? hop →
    Carries rule site (site.route hop)

variable [Medium M] {site : Site M} {rule : Nat → Frame → Prop}

/-- What is carried is told by the core. -/
theorem Routes.congr {left right : Tree} {path? : Option String} (same : left.core = right.core)
    (h : Routes M rule left path?) : Routes M rule right path? :=
  fun site hop heq => h site hop (heq.trans same.symm)

/-- A rule that allows everything carries everything. -/
theorem routes_of_forall (free : ∀ id frame, rule id frame) (tree : Tree) (path? : Option String) :
    Routes M rule tree path? :=
  fun _ _ _ _ => .route (fun _ _ _ _ => free _ _) fun _ _ _ _ _ _ => free _ _

namespace Carries

omit [Medium M] in
/-- A node or bridge is there in every tree of the same core. -/
theorem isSome_endpoint? {left right : Tree} (same : left.core = right.core) {node : Nat}
    (there : (right.endpoint? node).isSome) : (left.endpoint? node).isSome := by
  rw [Tree.isSome_endpoint?_iff] at there ⊢
  rwa [Tree.form?_congr (Tree.outline_eq_of_core same)]

/-- A notification is carried. -/
theorem notify {path? : Option String} (routes : Routes M rule site.tree path?) (node : Nat)
    (name : String) (qos : Qos) (data : Bytes) :
    Carries rule site (site.notify node name qos data).2 := by
  unfold Site.notify
  split
  · exact .refl _
  · next params id endpoint hnumber =>
    simp only [bind_eq_ok, pure_eq_ok] at hnumber
    obtain ⟨_, _, before, hneed, -⟩ := hnumber
    have hstart : Carries rule site (site.withTree (site.tree.setEndpoint node endpoint)) :=
      .endpoint site node endpoint
    simp only []
    split
    · exact hstart
    · next notification hmade =>
      refine hstart.trans (routes _ _ hstart.core (.notification ?_ ?_))
      · refine isSome_endpoint? hstart.core ?_
        rw [endpoint?_of_needEndpoint hneed]
        rfl
      · unfold Envelope.notification Envelope.outgoing at hmade
        split at hmade
        · cases hmade
          rfl
        · cases hmade

omit [Medium M] in
/-- A request that was made is one for the destination that it was made for. -/
theorem kind_dest_of_request {dest : Path} {method : String} {number : UInt16} {params : Params}
    {message : Envelope} (made : Envelope.request dest method number params = .ok message) :
    message.kind = .request ∧ message.dest = dest := by
  unfold Envelope.request Envelope.outgoing at made
  split at made
  · cases made
    exact ⟨rfl, rfl⟩
  · cases made

/-- A request of a caller is carried. -/
theorem execute {path : String} (routes : Routes M rule site.tree (some path)) (node : Nat)
    (method : String) (params : Params) (now : Nat) (tag : String) :
    Carries rule site (site.move (.call (.execute node method path params now tag))) := by
  simp only [Site.move, perform]
  cases hexecute : site.execute node method path params now tag with
  | error e => exact .refl _
  | ok result =>
    obtain ⟨id, after⟩ := result
    obtain ⟨dest, request, old, new, hdest, hrequest, hthere, _, rfl⟩ := execute_eq_ok hexecute
    obtain ⟨hkind, rfl⟩ := kind_dest_of_request hrequest
    have hstart : Carries rule site (site.withTree (site.tree.setEndpoint node new)) :=
      .endpoint site node new
    refine hstart.trans (routes _ _ hstart.core (.request ?_ rfl hkind hdest))
    exact isSome_endpoint? hstart.core (by simp [hthere])

/-- A request of a client is carried. -/
theorem requestFor {id : Nat} {bridge : Bridge} {target : String}
    (routes : Routes M rule site.tree
      (some (String.ofList (Level.beforeLast target.toList))))
    (there : site.tree.bridge? id = some bridge) (now : Nat) (payload : Bytes) :
    Carries rule site (site.requestFor id bridge now target payload) := by
  simp only [Site.requestFor]
  split
  · exact .refl _
  · split
    · exact .answerClient site id _ _ _
    · next request begun hbegun =>
      simp only [beginClientRequest, clientRequest, bind_eq_ok, pure_eq_ok, Prod.mk.injEq]
        at hbegun
      obtain ⟨asked, ⟨dest, hdest, _, _, hasked⟩, ⟨key, new⟩, _, rfl, rfl⟩ := hbegun
      obtain ⟨hkind, rfl⟩ := kind_dest_of_request hasked
      have hstart : Carries rule site (site.withTree (site.tree.setEndpoint id new)) :=
        .endpoint site id new
      refine hstart.trans (routes _ _ hstart.core (.request ?_ rfl hkind hdest))
      exact isSome_endpoint? hstart.core (by simp [Tree.endpoint?_of_bridge? there])

end Carries

/-! ## The log -/

/-- A change only adds to the log. -/
theorem Change.exists_log {before after : Site M} (h : Change before after) :
    ∃ events, after.log = before.log ++ events := by
  have hcarries : ∀ {before after : Site M}, Carries (fun _ _ => True) before after →
      ∃ events, after.log = before.log ++ events := fun carries =>
    carries.log.imp fun _ => And.left
  cases h with
  | write id frame =>
    rcases write_cases before id frame with heq | ⟨channel, event, -, -, -, hlog⟩
    · exact ⟨[], by simp [heq]⟩
    · exact ⟨[event], hlog⟩
  | settle there settled => exact hcarries ((Carries.endpoint _ _ _).trans (.tell _ _ _ _ _))
  | expire now id => exact hcarries (.expireAt now before id)
  | call | linkUp | ask => exact ⟨[_], rfl⟩
  | pool | poll | begin | number | adopt | attempt | confirm | session => exact ⟨[], by simp⟩

/-- A chain of changes only adds to the log. -/
theorem Changes.exists_log {before after : Site M} (h : Changes before after) :
    ∃ events, after.log = before.log ++ events := by
  refine h.induction (P := fun site => ∃ events, site.log = before.log ++ events) ?_ ⟨[], by simp⟩
  rintro mid after change ⟨early, hearly⟩
  obtain ⟨events, hevents⟩ := change.exists_log
  exact ⟨early ++ events, by rw [hevents, hearly, List.append_assoc]⟩

end Site
end TopicTree
