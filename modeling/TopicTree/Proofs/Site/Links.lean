import TopicTree.Proofs.Site.Beside
import TopicTree.Proofs.Site.Naming

/-!
# What comes in at a link

A hub end that is polled stays as it is or takes the name that a request proposes; a device end stays
as it is or learns from an answer that it has its name. A link that comes up like that tells its
listeners, and does not come up again. Of what a hub end writes nothing tells of success while it has
no name, and what a device end writes proposes no name but that of the local root.
-/

namespace TopicTree

/-- Where a message is. -/
def Hop.here : Hop → Nat
  | .up here _ | .down here _ => here

namespace Tree

/-- Whether a link has come up: a hub end when it has a name, a device end when it has heard so. -/
def isUp (tree : Tree) (id : Nat) : Bool :=
  (tree.link? id).any fun link =>
    match link.place with
    | .hub => (tree.name? id).isSome
    | .device => link.confirmed

/-- A frame that may be written at a hub end: while it has no name, none that tells of success. -/
def Grants (tree : Tree) (id : Nat) (frame : Frame) : Prop :=
  (tree.name? id).isSome ∨ ∀ message, Envelope.ofFrame frame = .ok message →
    message.code ≠ .success

/-- The answer to a request that was read may be written if it is a refusal or there is a name. -/
theorem grants_response {tree : Tree} {id : Nat} {asked answer : Frame} {request : Envelope}
    {code : ReturnCode} {params : Params} (read : Envelope.ofFrame asked = .ok request)
    (made : (request.response code params).toFrame = .ok answer)
    (named : code = .success → (tree.name? id).isSome) : tree.Grants id answer := by
  by_cases hcode : code = .success
  · exact .inl (named hcode)
  · refine .inr fun message hmessage => ?_
    rw [Envelope.ofFrame_response read made] at hmessage
    cases hmessage
    exact hcode

variable {left right : Tree}

/-- The standing and the name of a link tell whether it is up. -/
theorem isUp_congr {id : Nat}
    (standing : (left.link? id).map Link.standing = (right.link? id).map Link.standing)
    (name : left.name? id = right.name? id) : left.isUp id = right.isUp id := by
  unfold isUp
  rw [name]
  cases hleft : left.link? id with
  | none =>
    rw [hleft, Option.map_none, eq_comm, Option.map_eq_none_iff] at standing
    rw [standing]
  | some link =>
    rw [hleft] at standing
    obtain ⟨other, hother, heq⟩ := Option.map_eq_some_iff.1 standing.symm
    rw [hother]
    simp only [Link.standing, Prod.mk.injEq] at heq
    obtain ⟨hplace, -, -, hconfirmed⟩ := heq
    rw [Option.any_some, Option.any_some, hplace, hconfirmed]

/-- Whether a link is up is told by the core. -/
theorem isUp_of_core (same : left.core = right.core) (id : Nat) : left.isUp id = right.isUp id := by
  have hmap := congrArg (Option.map Link.standing) (map_link?_of_core same id)
  rw [Option.map_map, Option.map_map] at hmap
  exact isUp_congr hmap (name?_congr (outline_eq_of_core same) id)

end Tree

namespace Site

variable {M : Type} [Medium M] {site : Site M} {id : Nat}

/-! ## What sets out is handed over by the rules -/

omit [Medium M] in
/-- A message that sets out is at a hub end only if that has a name. -/
theorem Departs.isSome_name? {tree : Tree} {path? : Option String} {hop : Hop}
    (h : Departs tree path? hop) (wellFormed : tree.WellFormed)
    (hubEnd : tree.form? hop.here = some .hubEnd) : (tree.name? hop.here).isSome := by
  cases h with
  | request there _ _ _ =>
    rw [Tree.isSome_endpoint?_iff] at there
    exact absurd there (by simp_all [Hop.here])
  | notification there _ =>
    rw [Tree.isSome_endpoint?_iff] at there
    exact absurd there (by simp_all [Hop.here])
  | fromBelow message there place named => exact named
  | @fromAbove link root _ message there place below =>
    have hdevice := Tree.form?_deviceEnd there place
    obtain rfl := wellFormed.deviceEnd_eq hdevice
    obtain ⟨only, honly, hnode⟩ := wellFormed.localRoot hdevice
    obtain rfl : only = root := by simpa [honly] using below
    exact absurd hubEnd (by simp [Hop.here, hnode])

omit [Medium M] in
/-- A message on its way is at a hub end only if that has a name. -/
theorem Leg.isSome_name? {after : Site M} {hop next : Hop} (h : site.Leg hop next after)
    (wellFormed : site.tree.WellFormed) (hubEnd : site.tree.form? next.here = some .hubEnd)
    (named : hop.here = next.here → (site.tree.name? next.here).isSome) :
    (site.tree.name? next.here).isSome := by
  have hclimbs : ∀ {here above : Nat} {entry : Entry}, site.tree.get? here = some entry →
      entry.parent = some above → site.tree.form? above ≠ some .hubEnd := by
    intro here above entry there below hform
    have habove : site.tree.parent? here = some above := by
      rw [Tree.parent?, there, Option.bind_some, below]
    rcases wellFormed.above_form habove with hnode | hdevice <;> simp_all
  cases h with
  | turn => exact named rfl
  | leave there _ _ below _ => exact absurd hubEnd (hclimbs there below)
  | climb there _ _ below _ _ _ => exact absurd hubEnd (hclimbs there below)
  | enter _ _ _ found =>
    have hnamed := List.find?_some found
    rw [Tree.isNamed, Option.any_eq_true] at hnamed
    obtain ⟨name, hname, _⟩ := hnamed
    simp [Hop.here, hname]
  | refuse => exact named rfl
  | serve => exact named rfl

/-- What is handed over at a hub end is handed over by any rule that holds once it has a name; so
nothing is handed over at one that has none. -/
theorem routes_named {rule : Frame → Prop} {tree : Tree} (wellFormed : tree.WellFormed)
    (hubEnd : tree.form? id = some .hubEnd) (may : ∀ frame, (tree.name? id).isSome → rule frame)
    (path? : Option String) : Routes M (fun other frame => other = id → rule frame) tree path? := by
  intro site hop core departs
  have outline : site.tree.outline = tree.outline := Tree.outline_eq_of_core core
  have hkeeps : ∀ {last mid}, Goes hop site last mid →
      mid.tree.outline = tree.outline ∧ (last.here = id → (tree.name? id).isSome) := by
    intro last mid hgoes
    let Placed (now : Tree) (hop : Hop) : Prop :=
      now.outline = tree.outline ∧ (hop.here = id → (tree.name? id).isSome)
    have hstart : Placed site.tree hop := by
      refine ⟨outline, ?_⟩
      rintro rfl
      rw [← Tree.name?_congr outline]
      exact departs.isSome_name? (wellFormed.congr outline.symm)
        ((Tree.form?_congr outline _).trans hubEnd)
    refine hgoes.keeps (P := Placed) (fun {before after hop next} leg placed => ?_) hstart
    obtain ⟨hbefore, hplaced⟩ := placed
    refine ⟨(Tree.outline_eq_of_core leg.works.core).trans hbefore, ?_⟩
    rintro rfl
    rw [← Tree.name?_congr hbefore]
    refine leg.isSome_name? (wellFormed.congr hbefore.symm)
      ((Tree.form?_congr hbefore _).trans hubEnd) fun heq => ?_
    rw [Tree.name?_congr hbefore]
    exact hplaced heq
  refine .route (fun hgoes outer _ _ heq => ?_) fun hgoes _ _ _ _ _ heq => ?_
  · have hform := (Tree.isDeviceEnd_iff _ _).1 outer
    rw [heq, Tree.form?_congr (hkeeps hgoes).1, hubEnd] at hform
    cases hform
  · exact may _ ((hkeeps hgoes).2 heq)

/-- What is handed over at a hub end grants a name only if there is one. -/
theorem routes_hubEnd {tree : Tree} (wellFormed : tree.WellFormed)
    (hubEnd : tree.form? id = some .hubEnd) (path? : Option String) :
    Routes M (fun other frame => other = id → tree.Grants id frame) tree path? :=
  routes_named wellFormed hubEnd (fun _ => .inl) path?

/-- A request on its way up is for the destination for which it set out. -/
theorem Goes.shuns {hop last : Hop} {mid : Site M} (h : Goes hop site last mid)
    (start : ∀ here message, hop = .up here message → message.kind = .request →
      ¬MentionsManager message.dest.segments) {here : Nat} {message : Envelope}
    (arrived : last = .up here message) (asks : message.kind = .request) :
    ¬MentionsManager message.dest.segments := by
  let Shuns (_ : Tree) (hop : Hop) : Prop := ∀ here message, hop = .up here message →
    message.kind = .request → ¬MentionsManager message.dest.segments
  refine h.keeps (P := Shuns) (fun {before after hop next} leg shuns => ?_) start here message
    arrived asks
  rintro here message rfl asks
  cases leg with
  | leave => exact shuns _ _ rfl asks
  | climb =>
    have hbefore := shuns _ _ rfl asks
    exact hbefore
  | refuse => cases asks
  | serve => cases asks

/-- The only link of a tree, a device end, hands over nothing that proposes another name. -/
theorem routes_deviceEnd {tree : Tree} {path? : Option String} (name : Name)
    (only : ∀ other link, tree.link? other = some link → link.place = .device)
    (modest : ∀ path ∈ path?, ¬MentionsManager path) :
    Routes M (fun other frame => other = id → frame.Proposes name) tree path? := by
  intro site hop core departs
  have honly : ∀ other link, site.tree.link? other = some link → link.place = .device := by
    intro other link there
    have hmap := Tree.map_link?_of_core core other
    rw [there] at hmap
    obtain ⟨found, hfound, heq⟩ := Option.map_eq_some_iff.1 hmap.symm
    have hplace : found.core.place = link.core.place := congrArg Link.place heq
    exact hplace ▸ only other found hfound
  refine .route (fun hgoes outer frame made _ => ?_) fun {link message mid} hgoes hub _ _ _ _ _ => ?_
  · refine Envelope.proposes_relayedUp (hgoes.shuns (fun here message heq asks => ?_) rfl) made
    subst heq
    cases departs with
    | request there asked kind dest =>
      rw [← Path.mentionsManager_of_ofText dest]
      exact modest _ asked
    | notification there kind =>
      rw [kind] at asks
      cases asks
    | fromBelow message there place named =>
      rw [honly _ _ there] at place
      cases place
  · have hsame := Tree.form?_congr (Tree.outline_eq_of_core hgoes.works.core) link
    rw [hub] at hsame
    obtain ⟨found, there, place⟩ := Tree.exists_hubEnd hsame.symm
    rw [honly _ _ there] at place
    cases place

/-! ## Polls of a link -/

/-- The frame that the next poll of an entry's channel completes, if it completes one. -/
def arriving? (site : Site M) (id : Nat) : Option Frame :=
  (site.tree.channel? id).bind fun channel => (channel.poll site.medium).1

/-- The message that a link handles when it is polled, if it handles one. Without a free slot a frame is
dropped. -/
def message? (site : Site M) (id : Nat) : Option Envelope :=
  if site.pool.available = 0 then none
  else (site.arriving? id).bind fun frame => (Envelope.ofFrame frame).toOption

/-- A message that is handled has come in, and there is a slot for it. -/
theorem message?_eq_some {message : Envelope} (h : site.message? id = some message) :
    site.pool.available ≠ 0 ∧
      ∃ frame, site.arriving? id = some frame ∧ Envelope.ofFrame frame = .ok message := by
  unfold message? at h
  split at h
  · cases h
  · next hfree =>
    obtain ⟨frame, hframe, hread⟩ := Option.bind_eq_some_iff.1 h
    exact ⟨hfree, frame, hframe, toOption_eq_some.1 hread⟩

/-- A link that is polled handles the message that comes in, if one does and there is a slot. -/
theorem pollAt_of_link? {link : Link} (there : site.tree.link? id = some link) (now : Nat) :
    site.message? id = none ∧ pollAt now site id = site.polled id link.channel ∨
      ∃ message, site.message? id = some message ∧
        (link.place = .device → pollAt now site id = (site.polled id link.channel).receiveBelow id
          { link with channel := (link.channel.poll site.medium).2.1 } message) ∧
        (link.place = .hub → pollAt now site id = (site.polled id link.channel).receiveAbove id
          { link with channel := (link.channel.poll site.medium).2.1 } message) := by
  have hchannel := Tree.channel?_of_link? there
  have hpool : (site.polled id link.channel).pool = site.pool := rfl
  rw [pollAt_eq hchannel, message?, arriving?, hchannel, Option.bind_some]
  cases (link.channel.poll site.medium).1 with
  | none => simp
  | some frame =>
    simp only [receive, link?_polled there, hpool, Option.bind_some]
    split
    · exact .inl ⟨rfl, rfl⟩
    · rw [receiveLink]
      cases Envelope.ofFrame frame with
      | error e => exact .inl ⟨rfl, rfl⟩
      | ok message =>
        refine .inr ⟨message, rfl, fun place => ?_, fun place => ?_⟩
        · simp only [place]
        · simp only [place]

/-- A link that has come up, unless it was up, and has been given the name that it has. -/
structure ComesUp (id : Nat) (link : Link) (before after : Site M) : Prop where
  standing : ∃ later, after.tree.link? id = some later ∧ later.place = link.place ∧
    later.channel.socket = link.channel.socket ∧ later.listeners = link.listeners
  client? : after.tree.client? id = before.tree.client? id
  up : after.tree.isUp id
  /-- Its listeners are told if it was not up, and then it may answer. -/
  log : ∃ events,
    after.log = before.log
      ++ (if before.tree.isUp id then [] else link.listeners.map .linkUp) ++ events ∧
    ∀ event ∈ events, ∃ socket bytes,
      event = .wrote socket bytes ∨ event = .writeFailed socket bytes

omit [Medium M] in
/-- Telling the listeners of a link is noted and does nothing else. -/
theorem announce_eq (site : Site M) (link : Link) :
    site.announce link = { site with log := site.log ++ link.listeners.map .linkUp } := by
  unfold Site.announce
  induction link.listeners generalizing site with
  | nil => simp
  | cons tag rest ih =>
    rw [List.foldl_cons, ih]
    simp [Site.note]

/-- A link that has come up may answer. -/
theorem ComesUp.sendPacket {ε : Type} {link : Link} {before after : Site M}
    (h : ComesUp id link before after) (packet : Except ε Frame) :
    ComesUp id link before (after.sendPacket id packet) := by
  obtain ⟨hcore, hlog⟩ := sendPacket_cases after id packet
  obtain ⟨later, hlater, hplace, hsocket, hlisteners⟩ := h.standing
  have hmap := Tree.map_link?_of_core hcore id
  rw [hlater] at hmap
  obtain ⟨last, hlast, heq⟩ := Option.map_eq_some_iff.1 hmap
  have hcores : last.core.standing = later.core.standing := congrArg Link.standing heq
  have hstanding : last.standing = later.standing := hcores
  obtain ⟨events, hevents, hall⟩ := h.log
  refine ⟨⟨last, hlast, ?_, ?_, ?_⟩, ?_, ?_, ?_⟩
  · exact (congrArg Prod.fst hstanding).trans hplace
  · exact (congrArg (·.2.1) hstanding).trans hsocket
  · exact (congrArg (·.2.2.1) hstanding).trans hlisteners
  · exact (Tree.client?_eq_of_core hcore id).trans h.client?
  · have hsame : (after.sendPacket id packet).tree.isUp id = after.tree.isUp id :=
      Tree.isUp_congr (by simp [hlast, hlater, hstanding])
        (Tree.name?_congr (Tree.outline_eq_of_core hcore) id)
    exact hsame.trans h.up
  · rcases hlog with hlog | ⟨frame, channel, event, -, -, hevent, hlog⟩
    · exact ⟨events, hlog.trans hevents, hall⟩
    · refine ⟨events ++ [event], by rw [hlog, hevents, List.append_assoc], ?_⟩
      intro other hother
      rcases List.mem_append.1 hother with hmem | hmem
      · exact hall other hmem
      · rw [List.mem_singleton.1 hmem]
        exact ⟨_, _, hevent⟩

/-- A device end that is polled comes up, by an answer that tells of success with the name of the
local root, or stays as it is. -/
theorem pollAt_deviceEnd {link : Link} {rule : Frame → Prop} {path? : Option String}
    (routes : Routes M (fun other frame => other = id → rule frame) site.tree path?)
    (there : site.tree.link? id = some link) (place : link.place = .device) (now : Nat) :
    Spares rule id site (pollAt now site id) ∨
      ComesUp id link site (pollAt now site id) ∧
      (pollAt now site id).log = site.log ++ link.listeners.map .linkUp ∧
      ∃ frame message, site.arriving? id = some frame ∧ Envelope.ofFrame frame = .ok message ∧
        message.code = .success := by
  have hcarries : Carries (fun other frame => other = id → rule frame) site
      (site.polled id link.channel) := carries_polled (Tree.channel?_of_link? there)
  have hspares := Spares.of_carries hcarries
  have hlink := link?_polled there
  rcases pollAt_of_link? there now with ⟨-, heq⟩ | ⟨message, handles, heq, -⟩
  · exact .inl (heq ▸ hspares)
  obtain ⟨-, frame, harriving, hmessage⟩ := message?_eq_some handles
  rw [heq place, receiveBelow]
  split
  · unfold Site.confirm
    split
    · exact .inl hspares
    · split
      · exact .inl hspares
      · next hconfirms =>
        simp only [not_or, ne_eq, Classical.not_not, Bool.not_eq_true] at hconfirms
        obtain ⟨hsuccess, -, hwaits⟩ := hconfirms
        right
        have hdown : site.tree.isUp id = false := by
          simp [Tree.isUp, there, place, hwaits]
        rw [announce_eq]
        refine ⟨?_, rfl, frame, message, harriving, hmessage, hsuccess⟩
        have hafter : ((site.polled id link.channel).tree.setLink id { link with
            channel := (link.channel.poll site.medium).2.1, confirmed := true }).link? id
            = some { link with
                channel := (link.channel.poll site.medium).2.1, confirmed := true } := by
          rw [Tree.link?_setLink hlink, if_pos rfl]
        refine ⟨⟨_, hafter, rfl, Channel.socket_poll _ _, rfl⟩, ?_, ?_, [], ?_, by simp⟩
        · exact (Tree.client?_setLink hlink id).trans hspares.client?
        · exact (congrArg _ hafter).trans (by simp [place])
        · simp [hdown, polled, Site.withTree]
  · split
    · exact .inl hspares
    · next root hroot =>
      refine .inl (hspares.trans (.of_carries (routes _ _ hcarries.core ?_)))
      exact .fromAbove message hlink place hroot

omit [Medium M] in
/-- A hub end stays as it is, and then grants a name only if it has one, or takes the name. -/
theorem adopt_cases (site : Site M) (id : Nat) (link : Link) (text : String) :
    ((site.adopt id link text).2 = site ∧
      ((site.adopt id link text).1 = .success → (site.tree.name? id).isSome)) ∨
    ∃ name, Name.ofText text = .ok name ∧ (site.adopt id link text).2
      = { site with
          tree := site.tree.setName id name
          log := site.log
            ++ if (site.tree.name? id).isSome then [] else link.listeners.map .linkUp } := by
  unfold Site.adopt
  split
  · exact .inl ⟨rfl, fun h => (by cases h)⟩
  · next name hname =>
    split
    · next hnamed =>
      refine .inl ⟨rfl, fun _ => ?_⟩
      rw [Tree.isNamed, Option.any_eq_true] at hnamed
      obtain ⟨found, hfound, _⟩ := hnamed
      simp [hfound]
    · split
      · exact .inl ⟨rfl, fun h => (by cases h)⟩
      · split
        · exact .inl ⟨rfl, fun h => (by cases h)⟩
        · refine .inr ⟨name, hname, ?_⟩
          cases hold : site.tree.name? id with
          | none => simp [announce_eq, Site.withTree]
          | some old => simp [Site.withTree]

/-- A hub end that is polled and takes a name comes up. -/
theorem ComesUp.setName {link : Link} {rule : Frame → Prop}
    (spares : Spares rule id site (site.polled id link.channel))
    (there : site.tree.link? id = some link) (place : link.place = .hub) (name : Name) :
    ComesUp id link site { site.polled id link.channel with
      tree := (site.polled id link.channel).tree.setName id name
      log := (site.polled id link.channel).log
        ++ if ((site.polled id link.channel).tree.name? id).isSome then []
          else link.listeners.map .linkUp } := by
  have hlink := link?_polled there
  have hlater := (Tree.link?_setName (site.polled id link.channel).tree id name id).trans hlink
  have htaken := Tree.name?_setName_self (Tree.lt_size_of_form? (Tree.form?_of_link? hlink)) name
  have hup : site.tree.isUp id = (site.tree.name? id).isSome := by
    simp [Tree.isUp, there, place]
  refine ⟨⟨_, hlater, rfl, Channel.socket_poll _ _, rfl⟩, ?_, ?_, [], ?_, by simp⟩
  · rw [← spares.client?, Tree.client?, Tree.bridge?_setName, Tree.client?]
  · simp [Tree.isUp, hlater, place, htaken]
  · rw [hup, spares.name?, List.append_nil]
    rfl

/-- A hub end that is polled takes the name that a request proposes, or stays as it is. -/
theorem pollAt_hubEnd {link : Link} (wellFormed : site.tree.WellFormed)
    (there : site.tree.link? id = some link) (place : link.place = .hub) (now : Nat) :
    Spares (site.tree.Grants id) id site (pollAt now site id) ∨
      ComesUp id link site (pollAt now site id) ∧
      ∃ frame message name, site.arriving? id = some frame ∧
        Envelope.ofFrame frame = .ok message ∧ message.kind = .request ∧ message.dest.isManager ∧
        Name.ofText ((message.params.text? 0).getD "") = .ok name ∧
        (pollAt now site id).tree.name? id = some name := by
  have hform := Tree.form?_hubEnd there place
  have routes : Routes M (fun other frame => other = id → site.tree.Grants id frame) site.tree none :=
    routes_hubEnd wellFormed hform none
  have hcarries : Carries (fun other frame => other = id → site.tree.Grants id frame) site
      (site.polled id link.channel) := carries_polled (Tree.channel?_of_link? there)
  have hspares := Spares.of_carries hcarries
  have hlink := link?_polled there
  rcases pollAt_of_link? there now with ⟨-, heq⟩ | ⟨message, handles, -, heq⟩
  · exact .inl (heq ▸ hspares)
  obtain ⟨-, frame, harriving, hmessage⟩ := message?_eq_some handles
  rw [heq place, receiveAbove]
  split
  · next hasks =>
    simp only [answerNaming]
    rcases adopt_cases (site.polled id link.channel) id
        { link with channel := (link.channel.poll site.medium).2.1 }
        ((message.params.text? 0).getD "") with ⟨hsame, hgrants⟩ | ⟨name, hparsed, hnamed⟩
    · left
      rw [hsame]
      refine hspares.trans (.sendPacket fun _ answer hanswer => .inr ⟨by simp [hlink], ?_⟩)
      exact Tree.grants_response hmessage hanswer fun hcode => hspares.name? ▸ hgrants hcode
    · right
      rw [hnamed]
      refine ⟨(ComesUp.setName hspares there place name).sendPacket _, frame, message, name,
        harriving, hmessage, hasks.1, hasks.2.1, hparsed, ?_⟩
      rw [sendEnvelope, Tree.name?_congr (Tree.outline_eq_of_core (sendPacket_cases _ id _).1)]
      exact Tree.name?_setName_self (Tree.lt_size_of_form? (Tree.form?_of_link? hlink)) name
  · split
    · exact .inl hspares
    · next name hnamed =>
      refine .inl (hspares.trans (.of_carries (routes _ _ hcarries.core ?_)))
      exact .fromBelow message hlink place (by simp [hnamed])

/-- A link that is polled comes up or stays as it is. -/
theorem pollAt_link_cases {link : Link} (wellFormed : site.tree.WellFormed)
    (there : site.tree.link? id = some link) (now : Nat) :
    (∃ rule, Spares rule id site (pollAt now site id)) ∨
      ComesUp id link site (pollAt now site id) := by
  cases place : link.place with
  | hub =>
    exact (pollAt_hubEnd wellFormed there place now).imp (fun spares => ⟨_, spares⟩) And.left
  | device =>
    have routes : Routes M (fun other _ => other = id → True) site.tree none :=
      routes_of_forall (fun _ _ _ => trivial) _ _
    exact (pollAt_deviceEnd routes there place now).imp (fun spares => ⟨_, spares⟩) And.left

end Site
end TopicTree
