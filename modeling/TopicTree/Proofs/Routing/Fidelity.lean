import TopicTree.Proofs.Address.Leads
import TopicTree.Proofs.Message.RoundTrip
import TopicTree.Proofs.Routing.Crossing
import TopicTree.Proofs.Site.Traffic

/-!
# Fidelity of relays

A message that is handed over a link is read on the other side as it was handed over, unless one of
its paths begins with a level that makes another lead of its own. On the way levels come off the
front of a destination and names are put in front of a source, so such a level may come to stand
first although the path was in order when the message set out. Where no name and no level is `~` or
`..` this cannot happen.
-/

namespace TopicTree

/-- Whether a frame keeps the return code of a message: it tells of success unless it is a
response. -/
def Envelope.KeepsCode (message : Envelope) : Prop :=
  message.kind ≠ .response → message.code = .success

/-- Whether no entry has a name that makes a lead. -/
def Tree.PlainNames (tree : Tree) : Prop :=
  ∀ id name, tree.name? id = some name → name.Plain

/-- Whether a message at a tree is on plain paths among plain names. -/
structure Hop.Plain (tree : Tree) (hop : Hop) : Prop where
  names : tree.PlainNames
  dest : hop.message.dest.Plain
  source : hop.message.source.Plain

namespace Site

variable {M : Type} {site mid after : Site M} {hop next last : Hop}

/-! ## On the way -/

/-- A message whose code a frame keeps goes on as such a message. -/
theorem Leg.keepsCode (h : site.Leg hop next after) (keeps : hop.message.KeepsCode) :
    next.message.KeepsCode := by
  cases h with
  | turn => exact keeps
  | leave => exact keeps
  | climb => exact keeps
  | enter => exact keeps
  | refuse => exact fun hkind => absurd rfl hkind
  | serve => exact fun hkind => absurd rfl hkind

/-- On plain paths among plain names a message stays on plain paths. -/
theorem Leg.plain (h : site.Leg hop next after) (plain : hop.Plain site.tree) :
    next.Plain after.tree := by
  cases h with
  | turn => exact ⟨plain.names, plain.dest, plain.source.withAnchor _⟩
  | leave => exact ⟨plain.names, plain.dest, plain.source⟩
  | climb there _ _ _ _ named collects =>
    have hname := (congrArg (Option.bind · Entry.name) there).trans named
    exact ⟨plain.names, plain.dest, plain.source.prepend (plain.names _ _ hname) collects⟩
  | enter => exact ⟨plain.names, plain.dest.dropFirst, plain.source⟩
  | refuse => exact ⟨plain.names, plain.source, Path.plain_empty .top⟩
  | serve =>
    refine ⟨fun id name named => plain.names id name ?_, plain.source, Path.plain_empty .top⟩
    rwa [tree_note, tree_withTree, Tree.name?_congr (Tree.outline_setEndpoint _ _ _)] at named

/-- A frame keeps the code of every message that sets out from a maker or from a frame. -/
theorem keepsCode_of_origin {message : Envelope}
    (origin : Envelope.Made message ∨ ∃ frame, Envelope.ofFrame frame = .ok message) :
    message.KeepsCode := by
  rcases origin with made | ⟨frame, read⟩
  · exact made.reads.2.2
  · obtain ⟨-, -, _, code, _, _, hcode, htold, -⟩ := Envelope.ofFrame_eq_ok.1 read
    intro hkind
    have hnone : code = none := by simpa [hkind] using hcode
    rw [htold, hnone]
    rfl

/-! ## At the link -/

/-- A message that is handed over a link where it stands, and what is handed over in its place. -/
inductive Relays (tree : Tree) : Hop → Nat → Envelope → Prop
  | up {link : Nat} {message : Envelope} (outer : tree.isDeviceEnd link) :
      Relays tree (.up link message) link message.relayedUp
  | down {link : Nat} {inner : Link} {message arriving : Envelope}
      (there : tree.link? link = some inner) (place : inner.place = .hub)
      (crosses : message.relayedDown? = some arriving) :
      Relays tree (.down link message) link arriving

variable {link : Nat} {relayed : Envelope}

/-- What is handed over is of the kind of the message and has its code. -/
theorem Relays.keepsCode (h : Relays site.tree hop link relayed) (keeps : hop.message.KeepsCode) :
    relayed.KeepsCode := by
  cases h with
  | up =>
    unfold Envelope.relayedUp
    split <;> exact keeps
  | @down _ _ message _ _ _ crosses =>
    have hsame : relayed.kind = message.kind ∧ relayed.code = message.code := by
      unfold Envelope.relayedDown? at crosses
      cases hanchor : message.source.anchor <;> simp only [hanchor] at crosses <;> cases crosses <;>
        exact ⟨rfl, rfl⟩
    rw [Envelope.KeepsCode, hsame.1, hsame.2]
    exact keeps

/-- What is handed over is on plain paths if the message is. -/
theorem Relays.plain (h : Relays site.tree hop link relayed) (plain : hop.Plain site.tree) :
    relayed.dest.Plain ∧ relayed.source.Plain := by
  cases h with
  | up =>
    unfold Envelope.relayedUp
    split
    · exact ⟨plain.dest.withAnchor _, plain.source⟩
    · exact ⟨plain.dest, plain.source⟩
  | @down _ _ message _ _ _ crosses =>
    unfold Envelope.relayedDown? at crosses
    cases hanchor : message.source.anchor <;> simp only [hanchor] at crosses <;> cases crosses
    · exact ⟨plain.dest.withAnchor _, plain.source⟩
    · exact ⟨plain.dest.withAnchor _, plain.source.withAnchor _⟩

variable [Medium M]

/-- A frame keeps the code of a message wherever it has got if it did where it set out. -/
theorem Goes.keepsCode (h : Goes hop site last mid) (keeps : hop.message.KeepsCode) :
    last.message.KeepsCode := by
  induction h with
  | here => exact keeps
  | step first _ ih => exact ih ((leg_of_step first).keepsCode keeps)

/-- On plain paths among plain names a message has stayed on plain paths wherever it has got. -/
theorem Goes.plain (h : Goes hop site last mid) (plain : hop.Plain site.tree) :
    last.Plain mid.tree := by
  induction h with
  | here => exact plain
  | step first _ ih => exact ih ((leg_of_step first).plain plain)

/-- To hand a message over is to send what is handed over. -/
theorem Relays.step (h : Relays site.tree hop link relayed) :
    site.step hop = (none, site.sendEnvelope link relayed) := by
  cases h with
  | @up _ message outer =>
    rw [stepUp_deviceEnd ((Tree.isDeviceEnd_iff _ _).1 outer), relayUp, Envelope.relayedUp]
    split <;> rfl
  | @down _ _ message _ there place crosses =>
    rw [stepDown_hubEnd there place, relayDown]
    unfold Envelope.relayedDown? at crosses
    cases hanchor : message.source.anchor <;> simp only [hanchor] at crosses ⊢ <;> cases crosses <;>
      rfl

/-- At any moment a message that sets out from a maker or from a frame, and that is handed over a
link wherever it gets, is read from the frame that is written exactly if its paths do not mislead;
and it is read so whenever it set out on plain paths among plain names. -/
theorem relays_are_read (occurs : site.Occurs)
    (origin : Envelope.Made hop.message ∨ ∃ frame, Envelope.ofFrame frame = .ok hop.message)
    (reaches : Goes hop site last mid) (relays : Relays mid.tree last link relayed)
    {socket : String} {bytes : Bytes}
    (wrote : (site.route hop).log = mid.log ++ [.wrote socket bytes]) :
    ∃ frame, relayed.toFrame = .ok frame ∧ bytes = frame.encode ∧
      (Envelope.ofFrame frame = .ok relayed ↔
        relayed.dest.misleads = false ∧ relayed.source.misleads = false) ∧
      (hop.Plain site.tree → Envelope.ofFrame frame = .ok relayed) := by
  have hcode := relays.keepsCode (reaches.keepsCode (keepsCode_of_origin origin))
  obtain ⟨frame, hframe, hbytes⟩ : ∃ frame, relayed.toFrame = .ok frame ∧ bytes = frame.encode := by
    rw [reaches.route_eq occurs.wellFormed relays.step, sendEnvelope] at wrote
    rcases (sendPacket_cases mid link relayed.toFrame).2 with
      hlog | ⟨frame, channel, event, hframe, -, hevent, hlog⟩
    · exact absurd (hlog.symm.trans wrote) (by simp)
    · obtain rfl : event = .wrote socket bytes := by
        simpa using hlog.symm.trans wrote
      refine ⟨frame, hframe, ?_⟩
      rcases hevent with hevent | hevent
      · exact (Event.wrote.inj hevent).2
      · cases hevent
  have hread : Envelope.ofFrame frame = .ok relayed ↔
      relayed.dest.misleads = false ∧ relayed.source.misleads = false := by
    rw [Envelope.ofFrame_written hframe, Path.reads_iff, Path.reads_iff]
    exact ⟨fun h => ⟨h.1, h.2.1⟩, fun h => ⟨h.1, h.2, hcode⟩⟩
  refine ⟨frame, hframe, hbytes, hread, fun plain => hread.2 ?_⟩
  obtain ⟨hdest, hsource⟩ := relays.plain (reaches.plain plain)
  exact ⟨hdest.misleads, hsource.misleads⟩

/-! ## A house and its shed -/

/-- A request across a link for the name `shed`. -/
def shedIsAsked : Bytes :=
  [0x30, 0x25, 0, 0x0a, 0x2d, 0x3e, 0x5f, 0x6c, 0x69, 0x6e, 0x6b, 0x4d, 0x61, 0x6e, 0x04, 0xd2, 8,
    0x5f, 0x67, 0x65, 0x74, 0x4e, 0x61, 0x6d, 0x65, 8, 0x5f, 0x6c, 0x69, 0x6e, 0x6b, 0x4d, 0x61,
    0x6e, 4, 0x73, 0x68, 0x65, 0x64]

/-- The moves that lead to a house with a link below it that has been named `shed`. -/
def annex : List (Move Cabling) :=
  [.call (.build (.addRoot "house")), .call (.build (.addUplink 0 "above" 1000)),
    .around (Pool.ofSize 2) (Cabling.empty.feed "above" shedIsAsked), .call (.tick 1)]

/-- The house with its shed. -/
def annexed : Site Cabling :=
  (start 5 (Pool.ofSize 2) Cabling.empty).run annex

/-- The house with its shed occurs. -/
theorem reachable_annexed : annexed.Reachable :=
  ⟨5, Pool.ofSize 2, Cabling.empty, annex, rfl⟩

/-- The name of a method `on` is short. -/
theorem errand_fits : "on".utf8ByteSize ≤ maxTitle := by
  decide

/-- A request of the house for a method `on`. -/
def errand (dest : Path) : Envelope :=
  ⟨.request, dest, Path.empty .top, 1, "on", .success, .atMostOnce, Params.empty, errand_fits⟩

/-- A request of the house for something in the shed gets to the link. -/
theorem errand_goes {segments : String} {fits : segments.utf8ByteSize ≤ maxPath} {shed : Name}
    {names : List Name} (named : shed.text = "shed")
    (spells : (⟨.top, segments, fits⟩ : Path).Spells (shed :: names)) :
    Goes (.up 0 (errand ⟨.top, segments, fits⟩)) annexed
      (.down 1 (errand (Path.dropFirst ⟨.top, segments, fits⟩))) annexed := by
  have hform : annexed.tree.form? 0 = some .node := by decide +kernel
  have htop : annexed.tree.parent? 0 = none := by decide +kernel
  have hchild : annexed.tree.childNamed 0 shed.text = some 1 := by
    rw [named]
    decide +kernel
  refine .step (stepUp_turn hform (by decide) (fun h => by cases h)
    (.inl ⟨htop, fun h => by cases h⟩)) (.single ?_)
  exact (stepDown_descend (.inl hform)).trans (descend_enter spells.first_cons hchild)

/-- What gets to the link from the house is handed to the shed. -/
theorem annexed_relays {message arriving : Envelope}
    (crosses : message.relayedDown? = some arriving) :
    Relays annexed.tree (.down 1 message) 1 arriving := by
  have hlink : (annexed.tree.link? 1).map (·.place) = some .hub := by decide +kernel
  obtain ⟨inner, hinner, hplace⟩ := Option.map_eq_some_iff.1 hlink
  exact .down hinner hplace crosses

/-- The path of a lamp below a node `..` in the shed. -/
def strayPath : Path :=
  ⟨.top, "shed/../lamp", by decide⟩

/-- The frame in which a request for that lamp goes to the shed. -/
def strayFrame : Frame :=
  ⟨0x30, [0, 11, 0x2d, 0x3e, 0x7e, 0x2f, 0x2e, 0x2e, 0x2f, 0x6c, 0x61, 0x6d, 0x70, 0, 1, 2, 0x6f,
    0x6e, 0], by decide⟩

/-- A request for the lamp below the node `..` in the shed is not read there as it was handed over,
but as one for a lamp across yet another link. -/
theorem stray_request_is_misread :
    let relayed := { errand strayPath with dest := ⟨.near, "../lamp", by decide⟩ }
    annexed.Reachable ∧ Path.ofText "shed/../lamp" = .ok strayPath ∧
      Goes (.up 0 (errand strayPath)) annexed (.down 1 (errand strayPath.dropFirst)) annexed ∧
      Relays annexed.tree (.down 1 (errand strayPath.dropFirst)) 1 relayed ∧
      relayed.toFrame = .ok strayFrame ∧
      (annexed.route (.up 0 (errand strayPath))).log
        = annexed.log ++ [.wrote "above" strayFrame.encode] ∧
      Envelope.ofFrame strayFrame ≠ .ok relayed := by
  intro relayed
  have hspells : strayPath.Spells [⟨"shed", by decide, by decide, by decide⟩,
      ⟨"..", by decide, by decide, by decide⟩, ⟨"lamp", by decide, by decide, by decide⟩] := rfl
  have hframe : relayed.toFrame.toOption = some strayFrame := by decide +kernel
  have hread : (Envelope.ofFrame strayFrame).toOption.map (·.dest.anchor) = some .far := by
    decide +kernel
  refine ⟨reachable_annexed, rfl, errand_goes rfl hspells, annexed_relays (by decide +kernel),
    toOption_eq_some.1 hframe, by decide +kernel, fun hsame => ?_⟩
  rw [hsame] at hread
  cases hread

/-- A request for a lamp right in the shed is read there as it was handed over. -/
theorem lamp_request_is_read :
    let path : Path := ⟨.top, "shed/lamp", by decide⟩
    let relayed := { errand path with dest := ⟨.near, "lamp", by decide⟩ }
    ∃ frame, relayed.toFrame = .ok frame ∧ Envelope.ofFrame frame = .ok relayed ∧
      (annexed.route (.up 0 (errand path))).log = annexed.log ++ [.wrote "above" frame.encode] := by
  intro path relayed
  have hspells : path.Spells [⟨"shed", by decide, by decide, by decide⟩,
      ⟨"lamp", by decide, by decide, by decide⟩] := rfl
  have hrelays : Relays annexed.tree (.down 1 (errand path.dropFirst)) 1 relayed :=
    annexed_relays (by decide +kernel)
  have hwrote : (annexed.route (.up 0 (errand path))).log = annexed.log ++ [.wrote "above"
      [0x30, 16, 0, 8, 0x2d, 0x3e, 0x7e, 0x2f, 0x6c, 0x61, 0x6d, 0x70, 0, 1, 2, 0x6f, 0x6e,
        0]] := by
    decide +kernel
  have hmade : Envelope.Made (Hop.up 0 (errand path)).message :=
    @Envelope.Made.request "shed/lamp" "on" path 1 Params.empty (errand path) rfl rfl
  have hnames : annexed.tree.PlainNames := by
    have hall : ∀ id < annexed.tree.size, (annexed.tree.name? id).all
        fun name => name.text ≠ "~" ∧ name.text ≠ ".." := by decide +kernel
    intro id name named
    by_cases hlt : id < annexed.tree.size
    · simpa [named, Name.Plain] using hall id hlt
    · have hnone : annexed.tree.get? id = none := List.getElem?_eq_none (Nat.le_of_not_lt hlt)
      rw [Tree.name?, hnone] at named
      cases named
  obtain ⟨frame, hframe, hbytes, -, hread⟩ := relays_are_read (.between reachable_annexed)
    (.inl hmade) (errand_goes rfl hspells) hrelays hwrote
  exact ⟨frame, hframe, hread ⟨hnames, by decide +kernel, by decide +kernel⟩, hbytes ▸ hwrote⟩

end Site
end TopicTree
