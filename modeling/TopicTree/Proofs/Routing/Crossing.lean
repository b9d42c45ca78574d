import TopicTree.Proofs.Routing.Answer
import TopicTree.Proofs.Site.Reachable
import TopicTree.Site.Provision

/-!
# Messages at the ends of a link

What each end of a link does to a message that crosses it. On the way out a message gets to the link
with the way it came by as its source, and is sent with the anchors that the other tree reads. On
the way in it is routed on from there: a request comes back to the link as its response, and a
response ends the wait of the node that asked.
-/

namespace TopicTree

/-- What a destination that goes up across a link starts from on the other side. -/
def Anchor.above : Anchor → Anchor
  | far => near
  | anchor => anchor

/-- What a source that goes down across a link starts from on the other side. -/
def Anchor.below : Anchor → Anchor
  | near => far
  | anchor => anchor

/-- A path starts where it starts. -/
theorem Path.withAnchor_eq_self {path : Path} {anchor : Anchor} (h : path.anchor = anchor) :
    path.withAnchor anchor = path := by
  rw [← h]
  rfl

/-- Whether a path leads to the manager of a link is told by its first name. -/
theorem Path.Spells.isManager_eq {path : Path} {names : List Name} (h : path.Spells names) :
    path.isManager = names.head?.any (·.text = linkManager) := by
  cases names with
  | nil =>
    rw [isManager, h.first_nil]
    rfl
  | cons name names =>
    rw [isManager, h.first_cons]
    simp

/-- A path whose first name is another one does not lead to the manager of a link. -/
theorem Path.Spells.isManager_eq_false {path : Path} {names : List Name} (h : path.Spells names)
    (other : ∀ name ∈ names.head?, name.text ≠ linkManager) : path.isManager = false := by
  rw [h.isManager_eq]
  cases names with
  | nil => rfl
  | cons name names => simpa using other name rfl

namespace Site

variable {M : Type} [Medium M] {site : Site M} {link here : Nat} {message : Envelope}

/-! ## Single steps -/

/-- A message that goes up across a link starts, on the other side, where it is meant to. -/
theorem relayUp_eq (site : Site M) (link : Nat) (message : Envelope) :
    site.relayUp link message = site.sendEnvelope link
      { message with dest := message.dest.withAnchor message.dest.anchor.above } := by
  unfold relayUp
  split
  · next hfar => rw [hfar, Anchor.above]
  · next hfar =>
    have hsame : message.dest.anchor.above = message.dest.anchor := by
      cases hanchor : message.dest.anchor with
      | far => exact absurd hanchor hfar
      | top => rfl
      | near => rfl
    rw [Path.withAnchor_eq_self hsame.symm]

/-- A message that goes down across a link starts at the local root there, and its way back starts,
on the other side, where it is meant to. -/
theorem relayDown_eq (site : Site M) (link : Nat) {message : Envelope}
    (h : message.source.anchor ≠ .far) :
    site.relayDown link message = site.sendEnvelope link { message with
      dest := message.dest.withAnchor .near
      source := message.source.withAnchor message.source.anchor.below } := by
  unfold relayDown
  cases hanchor : message.source.anchor with
  | top =>
    have hsame : message.source.withAnchor Anchor.top.below = message.source :=
      Path.withAnchor_eq_self hanchor
    rw [hsame]
  | near => rfl
  | far => exact absurd hanchor h

/-- At a hub end a message on its way down leaves the tree. -/
theorem stepDown_hubEnd {inner : Link} (there : site.tree.link? link = some inner)
    (place : inner.place = .hub) :
    site.step (.down link message) = (none, site.relayDown link message) := by
  obtain ⟨entry, hentry, hlink⟩ := Option.bind_eq_some_iff.1 there
  simp only [step, stepDown, hentry, hlink, place]

/-- A device end routes what it does not take as the answer about its name. -/
theorem receiveBelow_eq {inner : Link} {root : Nat}
    (below : site.tree.children link = [root])
    (other : message.kind ≠ .response ∨ message.dest.isManager = false) :
    site.receiveBelow link inner message = site.route (.down root message) := by
  have hother : ¬(message.kind = .response ∧ message.dest.isManager) := by
    rcases other with h | h
    · exact fun both => h both.1
    · simp [h]
  rw [receiveBelow, if_neg hother, below]
  rfl

/-- A hub end that has a name routes what it does not take as a request for one. -/
theorem receiveAbove_eq {inner : Link} {name : Name} (named : site.tree.name? link = some name)
    (other : message.kind ≠ .request ∨ message.dest.isManager = false) :
    site.receiveAbove link inner message = site.route (.up link message) := by
  have hother : ¬(message.kind = .request ∧ message.dest.isManager ∧
      message.method = nameMethod) := by
    rcases other with h | h
    · exact fun all => h all.1
    · simp [h]
  rw [receiveAbove, if_neg hother, named]

/-! ## The way out -/

/-- A message gets to a link and is sent there. -/
def GoesOut (hop : Hop) (before : Site M) (link : Nat) (sent : Envelope) (after : Site M) : Prop :=
  ∃ last, Goes hop before last after ∧ after.step last = (none, after.sendEnvelope link sent)

/-- What goes out after it has gone somewhere goes out. -/
theorem Goes.goesOut {hop next : Hop} {before mid after : Site M} {sent : Envelope}
    (h : Goes hop before next mid) (h' : GoesOut next mid link sent after) :
    GoesOut hop before link sent after := by
  obtain ⟨last, hgoes, hends⟩ := h'
  exact ⟨last, h.trans hgoes, hends⟩

/-- In a well-formed tree a message that goes out is routed out. -/
theorem GoesOut.route_eq {hop : Hop} {after : Site M} {sent : Envelope}
    (h : GoesOut hop site link sent after) (wellFormed : site.tree.WellFormed) :
    site.route hop = after.sendEnvelope link sent := by
  obtain ⟨last, hgoes, hends⟩ := h
  exact hgoes.route_eq wellFormed hends

omit [Medium M] in
/-- At a node that is the top every message turns that does not have to go further. -/
theorem turns_of_ne_far (top : site.tree.form? 0 = some .node)
    (anchored : message.dest.anchor ≠ .far) : message.dest.anchor = .near ∨
      message.dest.anchor = .top ∧ site.tree.form? 0 ≠ some .deviceEnd := by
  cases hanchor : message.dest.anchor with
  | top => exact .inr ⟨rfl, by simp [top]⟩
  | near => exact .inl rfl
  | far => exact absurd hanchor anchored

/-- From an entry of a tree without a device end, a message to behind a hub end goes up to the top,
down to the hub end and out, with the names of its way as its source. -/
theorem goesOut_down (message : Envelope) (wellFormed : site.tree.WellFormed)
    (top : site.tree.form? 0 = some .node) {own way names : List Name}
    (walk : site.tree.walk site.tree.localRoot own = some here)
    (fresh : message.source.Spells []) (room : (Name.join own).utf8ByteSize ≤ maxPath)
    (asks : message.kind ≠ .notification) (anchored : message.dest.anchor ≠ .far)
    (toLink : site.tree.walk site.tree.localRoot way = some link) {inner : Link}
    (there : site.tree.link? link = some inner) (place : inner.place = .hub)
    (spells : message.dest.Spells (way ++ names)) :
    ∃ dest source, dest.anchor = .near ∧ dest.Spells names ∧
      source.anchor = message.dest.anchor.below ∧ source.Spells own ∧
      GoesOut (.up here message) site link { message with dest, source } site := by
  have hroot : site.tree.localRoot = 0 :=
    Tree.WellFormed.localRoot_eq_zero (by simp [top])
  obtain ⟨source, hanchor, hsource, hround⟩ := goes_round message wellFormed
    (.inl (hroot ▸ top)) walk fresh (by rw [List.append_nil]; exact room) asks
    (turns_of_ne_far top anchored)
  rw [List.append_nil] at hsource
  obtain ⟨dest, _, hdest, hdown⟩ := goes_down { message with source } wellFormed
    wellFormed.not_deviceEnd_localRoot toLink spells
  refine ⟨dest.withAnchor .near, source.withAnchor source.anchor.below, rfl, hdest,
    congrArg Anchor.below hanchor, hsource, _, hround.trans hdown, ?_⟩
  rw [stepDown_hubEnd there place, relayDown_eq]
  exact hanchor ▸ anchored

/-- From an entry of a tree below a device end, a message to outside goes up to the device end and
out, with the names of its way as its source. -/
theorem goesOut_up (message : Envelope) (wellFormed : site.tree.WellFormed)
    (outer : site.tree.form? 0 = some .deviceEnd) {own : List Name}
    (walk : site.tree.walk site.tree.localRoot own = some here)
    (fresh : message.source.Spells []) (room : (Name.join own).utf8ByteSize ≤ maxPath)
    (asks : message.kind ≠ .notification) (outside : message.dest.anchor ≠ .near) :
    ∃ source, source.anchor = message.source.anchor ∧ source.Spells own ∧
      GoesOut (.up here message) site 0
        { message with
          dest := message.dest.withAnchor message.dest.anchor.above
          source } site := by
  obtain ⟨source, hanchor, hsource, hup⟩ := goes_up message wellFormed
    wellFormed.not_deviceEnd_localRoot walk fresh (by rw [List.append_nil]; exact room)
  rw [List.append_nil] at hsource
  have hleave : site.step (.up site.tree.localRoot { message with source })
      = (some (.up 0 { message with source }), site) :=
    stepUp_leave wellFormed (wellFormed.parent?_localRoot outer) outer asks outside
  refine ⟨source, hanchor, hsource, _, hup.trans (.single hleave), ?_⟩
  rw [stepUp_deviceEnd outer, relayUp_eq]

/-! ## The way in -/

variable {inner : Link} {frame : Frame} {calls : List Event} {reply : Reply} {endpoint : Endpoint}

/-- A request that comes in at a device end is answered as the reference says, and its response goes
out where it came in, with a part of the names as its source. -/
theorem device_answers (wellFormed : site.tree.WellFormed)
    (there : site.tree.link? 0 = some inner) (place : inner.place = .device)
    (read : Envelope.ofFrame frame = .ok message) (asked : message.kind = .request)
    (back : message.source.anchor = .top) {names : List Name}
    (inside : site.tree.StaysInside site.tree.localRoot names)
    (spells : message.dest.Spells names)
    (consults : site.tree.consult site.tree.localRoot names message.method message.params
      = (calls, reply)) :
    ∃ after front stop source, Serves calls site after ∧ front <+: names ∧
      site.tree.walk site.tree.localRoot front = some stop ∧ source.anchor = .top ∧
      source.Spells front ∧ site.receiveLink 0 inner frame
        = after.sendEnvelope 0 { message.response reply.code reply.params with source } := by
  have houter : site.tree.form? 0 = some .deviceEnd :=
    Tree.form?_deviceEnd there place
  obtain ⟨hbelow, hroot⟩ := wellFormed.children_zero houter
  obtain ⟨front, stop, after, hprefix, hfront, hserves, hdown⟩ :=
    goes_answer wellFormed (.inl hroot) inside asked spells consults
  have hsame := hserves.outline.symm
  have hwalk := hfront
  rw [Tree.walk_congr hsame, Tree.localRoot_congr hsame] at hwalk
  rw [Tree.form?_congr hsame] at houter
  have hroom : (Name.join front).utf8ByteSize ≤ maxPath := by
    obtain ⟨rest, rfl⟩ := hprefix
    exact Nat.le_trans (Name.size_join_append_le front rest) spells.size_le
  have hoff : (message.response reply.code reply.params).dest.anchor ≠ .near := by
    change message.source.anchor ≠ .near
    simp [back]
  obtain ⟨source, hanchor, hsource, hout⟩ := goesOut_up
    (message.response reply.code reply.params) (wellFormed.congr hsame) houter hwalk
    (Path.spells_empty .top) hroom (by simp [Envelope.response]) hoff
  refine ⟨after, front, stop, source, hserves, hprefix, hfront, hanchor, hsource, ?_⟩
  have hkeep : (message.response reply.code reply.params).dest.withAnchor
      (message.response reply.code reply.params).dest.anchor.above = message.source := by
    apply Path.withAnchor_eq_self
    change message.source.anchor = message.source.anchor.above
    rw [back]
    rfl
  have hroute := (hdown.goesOut hout).route_eq wellFormed
  rw [hkeep] at hroute
  simp only [receiveLink, read, place]
  rw [receiveBelow_eq hbelow (.inl (by simp [asked])), hroute]
  rfl

/-- A response that a device end does not take as the answer about its name ends the wait of the node
at the end of its way. -/
theorem receiveBelow_settles (wellFormed : site.tree.WellFormed)
    (outer : site.tree.form? 0 = some .deviceEnd) (answers : message.kind = .response)
    (unmanaged : message.dest.isManager = false) {own : List Name}
    (walk : site.tree.walk site.tree.localRoot own = some here)
    (spells : message.dest.Spells own) (awaits : site.tree.endpoint? here = some endpoint) :
    ∃ last, last.id = message.id ∧ last.code = message.code ∧ last.params = message.params ∧
      site.receiveBelow 0 inner message = site.settle here endpoint last := by
  obtain ⟨hbelow, _⟩ := wellFormed.children_zero outer
  rw [← List.append_nil own] at spells
  obtain ⟨dest, _, hdest, hdown⟩ :=
    goes_down message wellFormed wellFormed.not_deviceEnd_localRoot walk spells
  refine ⟨{ message with dest }, rfl, rfl, rfl, ?_⟩
  rw [receiveBelow_eq hbelow (.inr unmanaged)]
  exact hdown.route_eq wellFormed (stepDown_settle awaits answers hdest)

/-- A response that comes in at a device end ends the wait of the node at the end of its way. -/
theorem device_settles (wellFormed : site.tree.WellFormed)
    (there : site.tree.link? 0 = some inner) (place : inner.place = .device)
    (read : Envelope.ofFrame frame = .ok message) (answers : message.kind = .response)
    (unmanaged : message.dest.isManager = false) {own : List Name}
    (walk : site.tree.walk site.tree.localRoot own = some here)
    (spells : message.dest.Spells own) (awaits : site.tree.endpoint? here = some endpoint) :
    ∃ last, last.id = message.id ∧ last.code = message.code ∧ last.params = message.params ∧
      site.receiveLink 0 inner frame = site.settle here endpoint last := by
  have houter : site.tree.form? 0 = some .deviceEnd :=
    Tree.form?_deviceEnd there place
  simp only [receiveLink, read, place]
  exact receiveBelow_settles wellFormed houter answers unmanaged walk spells awaits

section

variable (wellFormed : site.tree.WellFormed) (top : site.tree.form? 0 = some .node)
  (place : inner.place = .hub) {name : Name}
  (named : site.tree.name? link = some name) {way tail : List Name}
  (toLink : site.tree.walk site.tree.localRoot way = some link)
  (room : (Name.join (way ++ tail)).utf8ByteSize ≤ maxPath)
include wellFormed top place named toLink room

/-- A request that comes in at a hub end is answered as the reference says, and its response goes
out where it came in, along the way that the request has come by, with a part of the names as its
source. -/
theorem hub_answers (there : site.tree.link? link = some inner)
    (read : Envelope.ofFrame frame = .ok message) (asked : message.kind = .request)
    (unmanaged : message.dest.isManager = false) (anchored : message.dest.anchor ≠ .far)
    (source : message.source.Spells tail) {names : List Name}
    (inside : site.tree.StaysInside site.tree.localRoot names)
    (spells : message.dest.Spells names)
    (consults : site.tree.consult site.tree.localRoot names message.method message.params
      = (calls, reply)) :
    ∃ after front stop dest source, Serves calls site after ∧ front <+: names ∧
      site.tree.walk site.tree.localRoot front = some stop ∧ dest.anchor = .near ∧
      dest.Spells tail ∧ source.anchor = message.dest.anchor.below ∧ source.Spells front ∧
      site.receiveLink link inner frame = after.sendEnvelope link
        { message.response reply.code reply.params with dest, source } := by
  have hroot : site.tree.localRoot = 0 := Tree.WellFormed.localRoot_eq_zero (by simp [top])
  have hstart : site.tree.form? site.tree.localRoot = some .node := by rw [hroot, top]
  obtain ⟨path, hanchor, hpath, hround⟩ := goes_round message wellFormed (.inl hstart) toLink source
    room (by simp [asked]) (turns_of_ne_far top anchored)
  have hasked : ({ message with source := path } : Envelope).kind = .request := asked
  obtain ⟨front, stop, after, hprefix, hfront, hserves, hdown⟩ :=
    goes_answer wellFormed (.inl hstart) inside hasked spells consults
  have hsame := hserves.outline.symm
  have hwalk := hfront
  rw [Tree.walk_congr hsame, Tree.localRoot_congr hsame] at hwalk toLink
  rw [Tree.form?_congr hsame] at top
  have hroom : (Name.join front).utf8ByteSize ≤ maxPath := by
    obtain ⟨rest, rfl⟩ := hprefix
    exact Nat.le_trans (Name.size_join_append_le front rest) spells.size_le
  obtain ⟨dest, source', hdest, htail, hsource, hspells, hout⟩ := goesOut_down
    ({ message with source := path }.response reply.code reply.params) (wellFormed.congr hsame)
    top hwalk (Path.spells_empty .top) hroom (by simp [Envelope.response])
    (fun hfar => anchored (hanchor ▸ hfar)) toLink ((hserves.link? link).trans there) place hpath
  refine ⟨after, front, stop, dest, source', hserves, hprefix, hfront, hdest, htail, ?_, hspells,
    ?_⟩
  · rw [hsource, ← hanchor]
    rfl
  · simp only [receiveLink, read, place]
    rw [receiveAbove_eq named (.inr unmanaged)]
    exact (hround.trans hdown |>.goesOut hout).route_eq wellFormed

/-- A response that comes in at a hub end ends the wait of the node at the end of its way. -/
theorem hub_settles (read : Envelope.ofFrame frame = .ok message)
    (answers : message.kind = .response) (anchored : message.dest.anchor ≠ .far)
    (source : message.source.Spells tail) {own : List Name}
    (walk : site.tree.walk site.tree.localRoot own = some here)
    (spells : message.dest.Spells own) (awaits : site.tree.endpoint? here = some endpoint) :
    ∃ last, last.id = message.id ∧ last.code = message.code ∧ last.params = message.params ∧
      site.receiveLink link inner frame = site.settle here endpoint last := by
  have hroot : site.tree.localRoot = 0 := Tree.WellFormed.localRoot_eq_zero (by simp [top])
  obtain ⟨path, _, _, hround⟩ := goes_round message wellFormed (.inl (by rw [hroot, top])) toLink
    source room (by simp [answers]) (turns_of_ne_far top anchored)
  rw [← List.append_nil own] at spells
  obtain ⟨dest, _, hdest, hdown⟩ := goes_down { message with source := path } wellFormed
    wellFormed.not_deviceEnd_localRoot walk spells
  refine ⟨{ message with source := path, dest }, rfl, rfl, rfl, ?_⟩
  simp only [receiveLink, read, place]
  rw [receiveAbove_eq named (.inl (by simp [answers]))]
  exact (hround.trans hdown).route_eq wellFormed (stepDown_settle awaits answers hdest)

end

end Site
end TopicTree
