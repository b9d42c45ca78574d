import TopicTree.Proofs.Routing.Answer
import TopicTree.Proofs.Routing.Journey
import TopicTree.Proofs.Site.Ledger

/-!
# Who hears of a request

A request that does not leave its tree comes back, as its response, to the entry that made it: the
names that it collects going up are those of the way down to that entry. So no caller is told
anything while a request of somebody else is on its way, nor on account of a notification.
-/

namespace TopicTree.Site

variable {M : Type}

/-- Where a request of a node has got to, or the response to it: it is leaving the tree, or it holds
the names of the way to the node. -/
inductive Homing (node : Nat) (key : UInt16) (tree : Tree) : Hop → Prop
  | leaving {here : Nat} {message : Envelope} (outer : tree.isDeviceEnd here) :
      Homing node key tree (.up here message)
  | rising {here : Nat} {message : Envelope} {names : List Name} (asked : message.kind = .request)
      (own : message.id = key) (spells : message.source.Spells names)
      (walk : tree.walk here names = some node) : Homing node key tree (.up here message)
  | seeking {here : Nat} {message : Envelope} {names : List Name} (asked : message.kind = .request)
      (own : message.id = key) (spells : message.source.Spells names)
      (walk : tree.walk tree.localRoot names = some node) : Homing node key tree (.down here message)
  | returning {here : Nat} {message : Envelope} {names : List Name}
      (answers : message.kind = .response) (own : message.id = key)
      (spells : message.dest.Spells names) (walk : tree.walk tree.localRoot names = some node) :
      Homing node key tree (.up here message)
  | landing {here : Nat} {message : Envelope} {names : List Name}
      (answers : message.kind = .response) (own : message.id = key)
      (spells : message.dest.Spells names) (walk : tree.walk here names = some node) :
      Homing node key tree (.down here message)

variable {site after : Site M} {node : Nat} {key : UInt16}

/-- A message that is no notification turns at the local root. -/
theorem eq_localRoot_of_isTurn {here : Nat} {entry : Entry} {message : Envelope}
    (wellFormed : site.tree.WellFormed) (there : site.tree.get? here = some entry)
    (inner : ¬site.tree.isDeviceEnd here) (turns : site.tree.isTurn entry message)
    (asks : message.kind ≠ .notification) : here = site.tree.localRoot := by
  have hparent : site.tree.parent? here = entry.parent := by
    rw [Tree.parent?, there, Option.bind_some]
  have hturns : entry.parent = none ∨ site.tree.isBelowLink entry := by
    rw [Tree.isTurn, if_neg asks] at turns
    cases hanchor : message.dest.anchor with
    | top => exact .inl (by simpa [hanchor] using turns)
    | near => simpa [hanchor] using turns
    | far => simp [hanchor] at turns
  rcases hturns with hnone | hbelow
  · have hzero := wellFormed.eq_zero (List.getElem?_eq_some_iff.1 there).1 (hparent.trans hnone)
    subst hzero
    rw [Tree.WellFormed.localRoot_eq_zero fun hend => inner ((Tree.isDeviceEnd_iff _ _).2 hend)]
  · obtain ⟨above, habove, hend⟩ := isBelowLink_iff.1 hbelow
    obtain rfl := wellFormed.deviceEnd_eq hend
    have hmem := wellFormed.mem_children.2 (hparent.trans habove)
    rwa [(wellFormed.children_zero hend).1, List.mem_singleton] at hmem

/-- On every step the names of the way home stay in the message. -/
theorem Leg.homing {hop next : Hop} (leg : site.Leg hop next after)
    (wellFormed : site.tree.WellFormed) (h : Homing node key site.tree hop) :
    Homing node key after.tree next := by
  cases leg with
  | turn there inner turns asks =>
    have hroot := eq_localRoot_of_isTurn wellFormed there inner turns asks
    cases h with
    | leaving outer => exact absurd outer inner
    | rising asked own spells walk => exact .seeking asked own spells (hroot ▸ walk)
    | returning answers own spells walk => exact .landing answers own spells (hroot ▸ walk)
  | leave _ _ _ below outer =>
    refine .leaving ?_
    rwa [Tree.isBelowLink, below, Option.any_some] at outer
  | @climb here above entry message name source there inner _ below inside named collects =>
    cases h with
    | leaving outer => exact absurd outer inner
    | rising asked own spells walk =>
      have hparent : site.tree.parent? here = some above := by
        rw [Tree.parent?, there, Option.bind_some, below]
      have hname : site.tree.name? here = some name := by
        rw [Tree.name?, there, Option.bind_some, named]
      have hchild : site.tree.childNamed above name.text = some here :=
        wellFormed.childNamed_eq hparent (by simp [Tree.isNamed, hname])
      refine .rising asked own (spells.of_prepend collects) ?_
      rw [Tree.walk, hchild, Option.bind_some, walk]
    | returning answers own spells walk => exact .returning answers own spells walk
  | enter _ _ first found =>
    cases h with
    | seeking asked own spells walk => exact .seeking asked own spells walk
    | @landing _ _ names answers own spells walk =>
      cases names with
      | nil =>
        rw [spells.first_nil] at first
        cases first
      | cons name names =>
        rw [spells.first_cons] at first
        cases first
        rw [Tree.walk, found, Option.bind_some] at walk
        exact .landing answers own spells.dropFirst walk
  | refuse code _ _ asked =>
    cases h with
    | seeking _ own spells walk => exact .returning rfl own spells walk
    | landing answers => cases asked.symm.trans answers
  | @serve here message _ endpoint _ _ asked _ _ =>
    cases h with
    | seeking _ own spells walk =>
      have hsame := (Tree.outline_setEndpoint site.tree here endpoint).symm
      rw [Tree.walk_congr hsame, Tree.localRoot_congr hsame] at walk
      exact .returning rfl own spells walk
    | landing answers => cases asked.symm.trans answers

/-- Nobody is told anything by methods that are called. -/
theorem Works.tellings_eq (h : Works site after) (tag : String) :
    after.tellings tag = site.tellings tag := by
  obtain ⟨calls, hcalls, hall⟩ := h.log
  have hnone : calls.filterMap (Event.telling? tag) = [] := by
    rw [List.filterMap_eq_nil_iff]
    intro event hevent
    obtain ⟨node, method, params, rfl⟩ := hall event hevent
    rfl
  rw [tellings, hcalls, List.filterMap_append, hnone, List.append_nil, tellings]

variable [Medium M] {tag : String}

/-- Sending tells callers nothing. -/
theorem Quiet.sendPacket {ε : Type} (site : Site M) (id : Nat) (packet : Except ε Frame) :
    Quiet tag site (site.sendPacket id packet) := by
  cases packet with
  | error e => exact .refl _
  | ok frame =>
    unfold Site.sendPacket
    exact .holding fun pool => .write { site with pool } id frame

/-- Spreading a notification tells callers nothing. -/
theorem Quiet.fanOut (site : Site M) (notification : Envelope) :
    Quiet tag site (site.fanOut notification) := by
  have hall : ∀ (frame : Frame) (bridges : List Nat) (site : Site M),
      Quiet tag site (site.writeAll frame bridges) := by
    intro frame bridges
    induction bridges with
    | nil => exact fun _ => .refl _
    | cons bridge rest ih => exact fun site => (Quiet.write site bridge frame).trans (ih _)
  simp only [Site.fanOut]
  split
  · exact .refl _
  · split
    · exact .refl _
    · exact .holding fun pool => hall _ _ _

/-- Only a response that has arrived tells a caller anything. -/
theorem Stop.tellings_eq {hop : Hop} (h : site.Stop hop after)
    (arrives : ∀ {here endpoint message}, hop = .down here message →
      site.tree.endpoint? here = some endpoint → message.kind = .response → message.dest.isEmpty →
      (site.settle here endpoint message).tellings tag = site.tellings tag) :
    after.tellings tag = site.tellings tag := by
  cases h with
  | drop => rfl
  | arrive there answers arrived => exact arrives rfl there answers arrived
  | @leaveUp here message =>
    unfold relayUp
    split <;> exact (Quiet.sendPacket site here _).tellings_eq
  | @leaveDown here _ message =>
    simp only [relayDown]
    split
    · exact (Quiet.sendPacket site here _).tellings_eq
    · exact (Quiet.sendPacket site here _).tellings_eq
    · rfl
  | @spread _ message => exact (Quiet.fanOut site message).tellings_eq

/-- However far a message gets, the names of the way home stay in it. -/
theorem Goes.homing {hop last : Hop} {mid : Site M} (goes : Goes hop site last mid)
    (wellFormed : site.tree.WellFormed) (h : Homing node key site.tree hop) :
    Homing node key mid.tree last := by
  let Homes (now : Tree) (hop : Hop) : Prop := now.WellFormed ∧ Homing node key now hop
  have hhomes : Homes mid.tree last := by
    refine goes.keeps (P := Homes) (fun {_ _ _ _} leg homes => ?_) ⟨wellFormed, h⟩
    have hsame := Tree.outline_eq_of_core leg.works.core
    exact ⟨homes.1.congr hsame.symm, leg.homing homes.1 homes.2⟩
  exact hhomes.2

/-- A request of one caller tells no other one anything before it is over. -/
theorem tellings_execute {method path other : String} {params : Params} {now : Nat} {id : UInt16}
    (wellFormed : site.tree.WellFormed)
    (accepted : site.execute node method path params now other = .ok (id, after))
    (differ : other ≠ tag) : after.tellings tag = site.tellings tag := by
  obtain ⟨dest, _, _, _, parsed, _⟩ := execute_eq_ok accepted
  obtain ⟨request, old, new, issued, there, begun, rfl⟩ := issued_of_execute accepted parsed
  obtain ⟨_, hfresh, hnew⟩ := Endpoint.beginRequest_eq_ok begun
  obtain ⟨last, mid, hgoes, hstop⟩ :=
    route_cases (site.withTree (site.tree.setEndpoint node new)) (.up node request)
  refine (hstop.tellings_eq ?_).trans (hgoes.works.tellings_eq tag)
  rintro here endpoint message rfl hendpoint answers arrived
  obtain ⟨rfl, hid⟩ : here = node ∧ message.id = id := by
    have hhoming := hgoes.homing (wellFormed.congr (Tree.outline_setEndpoint _ _ _).symm)
      (.rising issued.kind issued.id (by rw [issued.source]; exact Path.spells_empty .top) rfl)
    cases hhoming with
    | seeking asked => cases asked.symm.trans answers
    | landing _ own spells walk =>
      obtain rfl := spells.isEmpty_iff.1 arrived
      exact ⟨Option.some.inj walk, own⟩
  have hpending := hgoes.works.pending here
  rw [tree_withTree, Tree.endpoint?_setEndpoint_self there, hendpoint] at hpending
  have hlast : endpoint.pending = old.pending ++ [⟨id, now + site.tree.timeout, .caller other⟩] := by
    exact (Option.some.inj hpending).trans (congrArg Endpoint.pending hnew)
  rw [settle_last hlast hfresh hid]
  simp [tell, note, tellings, Event.telling?, differ]

/-- A notification tells callers nothing. -/
theorem tellings_notify (site : Site M) (node : Nat) (name : String) (qos : Qos) (data : Bytes) :
    (site.notify node name qos data).2.tellings tag = site.tellings tag := by
  unfold notify
  split
  · rfl
  · next params id endpoint _ =>
    simp only []
    split
    · rfl
    · next notification hmade =>
      have hkind : notification.kind = .notification := by
        unfold Envelope.notification Envelope.outgoing at hmade
        split at hmade
        · cases hmade
          rfl
        · cases hmade
      obtain ⟨last, mid, hgoes, hstop⟩ :=
        route_cases (site.withTree (site.tree.setEndpoint node endpoint)) (.up node notification)
      refine (hstop.tellings_eq ?_).trans (hgoes.works.tellings_eq tag)
      rintro here _ message rfl _ answers _
      let Climbs (_ : Tree) (hop : Hop) : Prop :=
        ∃ here message, hop = .up here message ∧ message.kind = .notification
      have hclimbs : Climbs mid.tree (.down here message) := by
        refine hgoes.keeps (P := Climbs) (fun {_ _ _ _} leg climbs => ?_) ⟨_, _, rfl, hkind⟩
        obtain ⟨_, message, rfl, hkind⟩ := climbs
        cases leg with
        | turn _ _ _ asks => exact absurd hkind asks
        | leave => exact ⟨_, _, rfl, hkind⟩
        | climb => exact ⟨_, _, rfl, hkind⟩
      obtain ⟨_, _, heq, _⟩ := hclimbs
      cases heq

end TopicTree.Site
