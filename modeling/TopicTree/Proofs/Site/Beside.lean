import TopicTree.Proofs.Site.Steps
import TopicTree.Proofs.Site.Traffic
import TopicTree.Proofs.Slots

/-!
# What goes on beside an entry

Most of what happens at a site concerns no one bridge or link: messages are carried, other links
come up, other bridges hear their clients. None of it opens or closes the session of the bridge, asks
its guard, names or confirms the link or tells its listeners. What is written at the channel of the
entry all the same is written to a client with a session, or handed over at a link by a rule.
-/

namespace TopicTree

/-- What lasts of a link while messages pass through it. -/
def Link.standing (link : Link) : LinkEnd × String × List String × Bool :=
  (link.place, link.channel.socket, link.listeners, link.confirmed)

/-- Where the core of a link is the same, so is its standing. -/
theorem Link.standing_core (link : Link) : link.core.standing = link.standing :=
  rfl

/-- An event that concerns an entry in no other way than that something is written to its client
while there is a session, or at its link by a rule. -/
def Event.Spares (rule : Frame → Prop) (tree : Tree) (id : Nat) : Event → Prop
  | .asked bridge _ => bridge ≠ id
  | .linkUp tag => ∃ other link, tree.link? other = some link ∧ other ≠ id ∧ tag ∈ link.listeners
  | .wrote socket bytes | .writeFailed socket bytes => ∃ other channel,
      tree.channel? other = some channel ∧ channel.socket = socket ∧
      (other = id → (tree.client? id).isSome ∨
        (tree.link? id).isSome ∧ ∃ frame : Frame, bytes = frame.encode ∧ rule frame)
  | _ => True

/-- The path of the request that a client makes in a PUBLISH, if it makes one: what comes before the
last slash of the target. -/
def Frame.path? (frame : Frame) : Option String :=
  match Publish.ofFrame frame with
  | .ok publish =>
    match Kind.splitMarker publish.topic with
    | some (.request, target) => some (String.ofList (Level.beforeLast target.toList))
    | _ => none
  | .error _ => none

namespace Site

variable {M : Type}

/-- A site at which something has happened beside an entry. -/
structure Spares (rule : Frame → Prop) (id : Nat) (before after : Site M) : Prop where
  client? : after.tree.client? id = before.tree.client? id
  name? : after.tree.name? id = before.tree.name? id
  standing : (after.tree.link? id).map Link.standing = (before.tree.link? id).map Link.standing
  listeners : ∀ other, (after.tree.link? other).map (·.listeners)
    = (before.tree.link? other).map (·.listeners)
  sockets : ∀ other, (after.tree.channel? other).map (·.socket)
    = (before.tree.channel? other).map (·.socket)
  log : ∃ events, after.log = before.log ++ events ∧
    ∀ event ∈ events, event.Spares rule before.tree id

namespace Spares

variable {rule : Frame → Prop} {id : Nat}

/-- Nothing has happened. -/
@[refl]
protected theorem refl (site : Site M) : Spares rule id site site :=
  ⟨rfl, rfl, rfl, fun _ => rfl, fun _ => rfl, [], by simp, by simp⟩

/-- What is a link stays one. -/
theorem isSome_link? {before after : Site M} (h : Spares rule id before after) (other : Nat) :
    (after.tree.link? other).isSome = (before.tree.link? other).isSome := by
  simpa using congrArg Option.isSome (h.listeners other)

/-- What is beside an entry afterwards was beside it before. -/
theorem pull {before after : Site M} (h : Spares rule id before after) {event : Event}
    (spares : event.Spares rule after.tree id) : event.Spares rule before.tree id := by
  have hwrite : ∀ {socket : String} {bytes : Bytes}, (∃ other channel,
      after.tree.channel? other = some channel ∧ channel.socket = socket ∧
        (other = id → (after.tree.client? id).isSome ∨
          (after.tree.link? id).isSome ∧ ∃ frame : Frame, bytes = frame.encode ∧ rule frame)) →
      ∃ other channel, before.tree.channel? other = some channel ∧ channel.socket = socket ∧
        (other = id → (before.tree.client? id).isSome ∨
          (before.tree.link? id).isSome ∧ ∃ frame : Frame, bytes = frame.encode ∧ rule frame) := by
    rintro socket bytes ⟨other, channel, there, rfl, may⟩
    have hmap := h.sockets other
    rw [there] at hmap
    obtain ⟨found, hfound, hsocket⟩ := Option.map_eq_some_iff.1 hmap.symm
    rw [h.client?, h.isSome_link?] at may
    exact ⟨other, found, hfound, hsocket, may⟩
  cases event with
  | wrote socket bytes => exact hwrite spares
  | writeFailed socket bytes => exact hwrite spares
  | asked bridge who => exact spares
  | linkUp tag =>
    obtain ⟨other, link, there, hne, htag⟩ := spares
    have hmap := h.listeners other
    rw [there] at hmap
    obtain ⟨found, hfound, hlisteners⟩ := Option.map_eq_some_iff.1 hmap.symm
    exact ⟨other, found, hfound, hne, hlisteners ▸ htag⟩
  | called node method params => trivial
  | replied tag code params => trivial

protected theorem trans {first second third : Site M} (h : Spares rule id first second)
    (h' : Spares rule id second third) : Spares rule id first third := by
  obtain ⟨events, hevents, hall⟩ := h.log
  obtain ⟨later, hlater, hall'⟩ := h'.log
  refine ⟨h'.client?.trans h.client?, h'.name?.trans h.name?, h'.standing.trans h.standing,
    fun other => (h'.listeners other).trans (h.listeners other),
    fun other => (h'.sockets other).trans (h.sockets other), events ++ later, ?_, ?_⟩
  · rw [hlater, hevents, List.append_assoc]
  · intro event hevent
    exact (List.mem_append.1 hevent).elim (hall event) fun hlate => h.pull (hall' event hlate)

/-- The tree has changed beside the entry. -/
theorem tree {site : Site M} {tree : Tree} (client : tree.client? id = site.tree.client? id)
    (name : tree.name? id = site.tree.name? id)
    (standing : (tree.link? id).map Link.standing = (site.tree.link? id).map Link.standing)
    (listeners : ∀ other, (tree.link? other).map (·.listeners)
      = (site.tree.link? other).map (·.listeners))
    (sockets : ∀ other, (tree.channel? other).map (·.socket)
      = (site.tree.channel? other).map (·.socket)) :
    Spares rule id site (site.withTree tree) :=
  ⟨client, name, standing, listeners, sockets, [], by simp, by simp⟩

/-- Something has been noted. -/
theorem note (site : Site M) {event : Event} (h : event.Spares rule site.tree id) :
    Spares rule id site (site.note event) :=
  ⟨rfl, rfl, rfl, fun _ => rfl, fun _ => rfl, [event], rfl, by simpa using h⟩

/-- The core of the tree has stayed the same. -/
theorem of_core {before after : Site M} (core : after.tree.core = before.tree.core)
    (log : ∃ events, after.log = before.log ++ events ∧
      ∀ event ∈ events, event.Spares rule before.tree id) : Spares rule id before after where
  client? := Tree.client?_eq_of_core core id
  name? := Tree.name?_congr (Tree.outline_eq_of_core core) id
  standing := by
    have hmap := congrArg (Option.map Link.standing) (Tree.map_link?_of_core core id)
    simpa [Function.comp_def, Link.standing_core] using hmap
  listeners other := by
    have hmap := congrArg (Option.map Link.listeners) (Tree.map_link?_of_core core other)
    simpa [Function.comp_def, Link.core] using hmap
  sockets other := by
    have hmap := congrArg (Option.map Channel.socket) (Tree.map_channel?_of_core core other)
    simpa [Function.comp_def, Channel.core, Channel.ofSocket] using hmap
  log := log

/-- Messages have been carried, and handed over at the link by the rule. -/
theorem of_carries {before after : Site M}
    (h : Carries (fun other frame => other = id → rule frame) before after) :
    Spares rule id before after := by
  obtain ⟨events, hevents, hall⟩ := h.log
  refine .of_core h.core ⟨events, hevents, fun event hevent => ?_⟩
  have hmay : ∀ {other : Nat} {frame : Frame}, (before.tree.client? other).isSome ∨
      (before.tree.link? other).isSome ∧ (other = id → rule frame) → other = id →
      (before.tree.client? id).isSome ∨ (before.tree.link? id).isSome ∧
        ∃ written : Frame, frame.encode = written.encode ∧ rule written := by
    rintro other frame may rfl
    exact may.imp_right fun ⟨hlink, hrule⟩ => ⟨hlink, frame, rfl, hrule rfl⟩
  cases hall event hevent with
  | called node method params => trivial
  | replied tag code params => trivial
  | wrote there may => exact ⟨_, _, there, rfl, hmay may⟩
  | writeFailed there may => exact ⟨_, _, there, rfl, hmay may⟩

/-- What is done while a slot is held is done to the site. -/
theorem holding {site : Site M} {frame : Frame} {act : Site M → Site M}
    (h : ∀ slot pool, site.pool.bind frame = .ok (slot, pool) →
      Spares rule id { site with pool } (act { site with pool })) :
    Spares rule id site (site.holding frame act) := by
  unfold Site.holding
  split
  · exact .refl _
  · next slot pool claimed =>
    have hact := h slot pool claimed
    exact ⟨hact.client?, hact.name?, hact.standing, hact.listeners, hact.sockets, hact.log⟩

variable [Medium M] {site : Site M} {other : Nat}

/-- A packet is sent from an entry, by the rule if it is this one. -/
theorem sendPacket {ε : Type} {packet : Except ε Frame}
    (may : other = id → ∀ frame, packet = .ok frame → (site.tree.client? id).isSome ∨
      (site.tree.link? id).isSome ∧ rule frame) :
    Spares rule id site (site.sendPacket other packet) := by
  obtain ⟨hcore, hlog⟩ := sendPacket_cases site other packet
  refine .of_core hcore ?_
  rcases hlog with hlog | ⟨frame, channel, event, hframe, there, hevent, hlog⟩
  · exact ⟨[], by simp [hlog], by simp⟩
  · refine ⟨[event], hlog, ?_⟩
    rw [List.forall_mem_singleton]
    have hmay : other = id → (site.tree.client? id).isSome ∨ (site.tree.link? id).isSome ∧
        ∃ written : Frame, frame.encode = written.encode ∧ rule written :=
      fun heq => (may heq frame hframe).imp_right fun ⟨hlink, hrule⟩ => ⟨hlink, frame, rfl, hrule⟩
    rcases hevent with rfl | rfl
    · exact ⟨other, channel, there, rfl, hmay⟩
    · exact ⟨other, channel, there, rfl, hmay⟩

/-! ### Links -/

omit [Medium M] in
/-- A link changes, but neither its socket nor its listeners do. -/
theorem setLink {old link : Link} (there : site.tree.link? other = some old)
    (channel : link.channel = old.channel) (place : link.place = old.place)
    (listeners : link.listeners = old.listeners)
    (confirmed : other = id → link.confirmed = old.confirmed) :
    Spares rule id site (site.withTree (site.tree.setLink other link)) := by
  refine .tree ?_ ?_ ?_ (fun entry => ?_) fun entry => ?_
  · rw [Tree.client?, Tree.bridge?_setLink there, Tree.client?]
  · exact Tree.name?_congr (Tree.outline_setLink there place) id
  · rw [Tree.link?_setLink there]
    split
    · next heq => simp [← heq, there, Link.standing, channel, place, listeners, confirmed heq]
    · rfl
  · rw [Tree.link?_setLink there]
    split
    · next heq => simp [← heq, there, listeners]
    · rfl
  · rw [Tree.channel?_setLink there channel]

omit [Medium M] in
/-- The listeners of another link are told. -/
theorem announce {found link : Link} (there : site.tree.link? other = some found)
    (same : link.listeners = found.listeners) (beside : other ≠ id) :
    Spares rule id site (site.announce link) := by
  unfold Site.announce
  suffices h : ∀ (tags : List String) (mid : Site M), (∀ tag ∈ tags, tag ∈ link.listeners) →
      mid.tree = site.tree →
      Spares rule id mid (tags.foldl (fun site tag => site.note (.linkUp tag)) mid) from
    h link.listeners site (fun _ htag => htag) rfl
  intro tags
  induction tags with
  | nil => exact fun mid _ _ => .refl mid
  | cons tag rest ih =>
    intro mid hall htree
    have htag : Event.Spares rule mid.tree id (.linkUp tag) :=
      ⟨other, found, htree ▸ there, beside, same ▸ hall tag List.mem_cons_self⟩
    exact (Spares.note mid htag).trans
      (ih _ (fun late hlate => hall late (List.mem_cons_of_mem tag hlate)) htree)

/-- A link is seen to, by the rule if it is this one. -/
theorem provisionAt (now : Nat) (site : Site M) (other : Nat)
    (attempts : other = id → ∀ request frame, site.tree.namingRequest? id = some request →
      request.toFrame = .ok frame → rule frame) :
    Spares rule id site (Site.provisionAt now site other) := by
  unfold Site.provisionAt
  split
  · exact .refl _
  · next link there =>
    split
    · split
      · exact .refl _
      · next request hrequest =>
        have hset : Spares rule id site
            (site.withTree (site.tree.setLink other { link with lastAttempt := some now })) :=
          .setLink there rfl rfl rfl fun _ => rfl
        refine hset.trans (.sendPacket fun heq frame hframe => .inr ⟨?_, ?_⟩)
        · rw [hset.isSome_link?, ← heq, there]
          rfl
        · exact attempts heq request frame (heq ▸ hrequest) hframe
    · exact .refl _

omit [Medium M] in
/-- Another hub end takes a name or refuses it. -/
theorem adopt {link : Link} (there : site.tree.link? other = some link) (beside : other ≠ id)
    (text : String) : Spares rule id site (site.adopt other link text).2 := by
  unfold Site.adopt
  split
  · exact .refl _
  · next name _ =>
    split
    · exact .refl _
    · split
      · exact .refl _
      · split
        · exact .refl _
        · have hname : Spares rule id site (site.withTree (site.tree.setName other name)) := by
            refine .tree ?_ ?_ ?_ (fun entry => ?_) fun entry => ?_
            · rw [Tree.client?, Tree.bridge?_setName, Tree.client?]
            · rw [Tree.name?_setName, if_neg beside]
            · rw [Tree.link?_setName]
            · rw [Tree.link?_setName]
            · rw [Tree.channel?_setName]
          simp only []
          split
          · have hthere := (Tree.link?_setName site.tree other name other).trans there
            exact hname.trans (.announce hthere rfl beside)
          · exact hname

/-- A frame that came in at another link is handled. -/
theorem receiveLink {path? : Option String} {link : Link}
    (routes : Routes M (fun entry frame => entry = id → rule frame) site.tree path?)
    (beside : other ≠ id) (there : site.tree.link? other = some link) (frame : Frame) :
    Spares rule id site (site.receiveLink other link frame) := by
  unfold Site.receiveLink
  split
  · exact .refl _
  · next message _ =>
    split
    · next place =>
      unfold receiveBelow
      split
      · unfold Site.confirm
        split
        · exact .refl _
        · split
          · exact .refl _
          · have hset : Spares rule id site
                (site.withTree (site.tree.setLink other { link with confirmed := true })) :=
              .setLink there rfl rfl rfl fun heq => absurd heq beside
            have hthere : (site.tree.setLink other { link with confirmed := true }).link? other
                = some { link with confirmed := true } := by
              rw [Tree.link?_setLink there, if_pos rfl]
            exact hset.trans (.announce hthere rfl beside)
      · split
        · exact .refl _
        · next root hroot =>
          exact .of_carries (routes site _ rfl (.fromAbove message there place hroot))
    · next place =>
      unfold receiveAbove
      split
      · have hadopt : Spares rule id site
            (site.adopt other link ((message.params.text? 0).getD "")).2 :=
          .adopt there beside _
        exact hadopt.trans (.sendPacket fun heq => absurd heq beside)
      · split
        · exact .refl _
        · next name hname =>
          exact .of_carries (routes site _ rfl (.fromBelow message there place (by simp [hname])))

/-! ### Bridges -/

omit [Medium M] in
/-- A bridge changes, but neither its socket does nor its session if it is this one. -/
theorem setBridge {old bridge : Bridge} (there : site.tree.bridge? other = some old)
    (same : bridge.channel = old.channel)
    (session : other = id → bridge.session.map (·.clientId) = old.session.map (·.clientId)) :
    Spares rule id site (site.withTree (site.tree.setBridge other bridge)) := by
  refine .tree ?_ ?_ ?_ (fun entry => ?_) fun entry => ?_
  · rw [Tree.client?, Tree.bridge?_setBridge there, Tree.client?]
    split
    · next heq => simp [← heq, there, session heq]
    · rfl
  · exact Tree.name?_congr (Tree.outline_setBridge there) id
  · rw [Tree.link?_setBridge there]
  · rw [Tree.link?_setBridge there]
  · rw [Tree.channel?_setBridge there same]
/-- A client publishes. -/
theorem publish {bridge : Bridge} {frame : Frame}
    (routes : Routes M (fun entry frame => entry = id → rule frame) site.tree frame.path?)
    (there : site.tree.bridge? other = some bridge) (now : Nat) :
    Spares rule id site (site.publish other bridge now frame) := by
  unfold Site.publish
  split
  · next publish session hpublish _ =>
    split
    · next target hmarker =>
      have hpath : frame.path? = some (String.ofList (Level.beforeLast target.toList)) := by
        simp only [Frame.path?, hpublish, hmarker]
      rw [hpath] at routes
      exact .of_carries (.requestFor routes there now publish.payload)
    · exact .refl _
    · exact .of_carries (.notify routes other _ _ _)
  · exact .refl _

/-- A frame that came in at another bridge is handled. -/
theorem receiveBridge {bridge : Bridge} {frame : Frame}
    (routes : Routes M (fun entry frame => entry = id → rule frame) site.tree frame.path?)
    (beside : other ≠ id) (there : site.tree.bridge? other = some bridge) (now : Nat) :
    Spares rule id site (site.receiveBridge other bridge now frame) := by
  have hsend : ∀ {ε : Type} (site : Site M) (packet : Except ε Frame),
      Spares rule id site (site.sendPacket other packet) :=
    fun site packet => .sendPacket fun heq => absurd heq beside
  unfold Site.receiveBridge
  split
  · unfold Site.connect
    split
    · next guard connect _ _ =>
      split
      · exact hsend site _
      · simp only [ask]
        have hasked : Spares rule id site (site.note (.asked other connect.credentials)) :=
          .note site beside
        split
        · refine Spares.trans ?_ (hsend _ _)
          exact hasked.trans (.setBridge there rfl fun heq => absurd heq beside)
        · refine Spares.trans ?_ (hsend _ _)
          exact hasked.trans (.setBridge there rfl fun heq => absurd heq beside)
    · exact .refl _
  · exact hsend site (.ok _ : Except Error Frame)
  · unfold Site.subscribe
    split
    · refine Spares.trans ?_ (hsend _ _)
      exact .setBridge there rfl fun heq => absurd heq beside
    · exact .refl _
  · exact .publish routes there now
  · exact .setBridge there rfl fun heq => absurd heq beside
  · exact .refl _

end Spares

/-! ## Polls -/

variable [Medium M] {site : Site M} {id : Nat}

/-- The site after a channel was polled, before the frame that came in is handled. -/
def polled (site : Site M) (id : Nat) (channel : Channel) : Site M :=
  { site with
    tree := site.tree.setChannel id (channel.poll site.medium).2.1
    medium := (channel.poll site.medium).2.2 }

/-- A poll handles the frame that comes in, if one does. -/
theorem pollAt_eq {channel : Channel} (there : site.tree.channel? id = some channel) (now : Nat) :
    pollAt now site id
      = match (channel.poll site.medium).1 with
        | none => site.polled id channel
        | some frame => (site.polled id channel).receive now id frame := by
  rcases hpoll : channel.poll site.medium with ⟨_ | frame, after, medium⟩ <;>
    simp only [pollAt, there, polled, hpoll]

/-- Polling a channel carries nothing and is not noted. -/
theorem carries_polled {rule : Nat → Frame → Prop} {channel : Channel}
    (there : site.tree.channel? id = some channel) : Carries rule site (site.polled id channel) :=
  ⟨Tree.core_setChannel there (Channel.socket_poll channel site.medium), [], by simp [polled],
    by simp⟩

/-- Polling a channel leaves the outline alone. -/
theorem outline_polled (site : Site M) (id : Nat) (channel : Channel) :
    (site.polled id channel).tree.outline = site.tree.outline :=
  Tree.outline_setChannel site.tree id _

/-- A bridge after a poll of its channel is the same but for the channel. -/
theorem bridge?_polled {bridge : Bridge} (there : site.tree.bridge? id = some bridge) :
    (site.polled id bridge.channel).tree.bridge? id
      = some { bridge with channel := (bridge.channel.poll site.medium).2.1 } := by
  rw [polled, Tree.bridge?_setChannel, if_pos rfl, there, Option.map_some]

/-- A link after a poll of its channel is the same but for the channel. -/
theorem link?_polled {link : Link} (there : site.tree.link? id = some link) :
    (site.polled id link.channel).tree.link? id
      = some { link with channel := (link.channel.poll site.medium).2.1 } := by
  rw [polled, Tree.link?_setChannel, if_pos rfl, there, Option.map_some]

/-- A bridge that is there after a poll of its channel was there before. -/
theorem exists_bridge?_of_polled {bridge : Bridge} {channel : Channel}
    (polls : site.tree.channel? id = some channel)
    (there : (site.polled id channel).tree.bridge? id = some bridge) :
    ∃ old, site.tree.bridge? id = some old ∧ old.channel = channel ∧
      bridge = { old with channel := (channel.poll site.medium).2.1 } := by
  rw [polled, Tree.bridge?_setChannel, if_pos rfl] at there
  obtain ⟨old, hold, heq⟩ := Option.map_eq_some_iff.1 there
  exact ⟨old, hold, Option.some.inj ((Tree.channel?_of_bridge? hold).symm.trans polls), heq.symm⟩

/-- A frame that comes in at a bridge is handled while it has a slot. -/
theorem receive_of_bridge? {bridge : Bridge} (there : site.tree.bridge? id = some bridge)
    (now : Nat) (frame : Frame) :
    site.receive now id frame = site.holding frame (·.receiveBridge id bridge now frame) := by
  simp only [receive, Tree.link?_eq_none_of_bridge? there, there]

/-- The frame of its client that a bridge handles when it is polled, if it handles one, with the
bridge as it is then. Without a free slot a frame is dropped. -/
def heard? (site : Site M) (id : Nat) : Option (Bridge × Frame) :=
  (site.tree.bridge? id).bind fun bridge =>
    if site.pool.available = 0 then none
    else (bridge.channel.poll site.medium).1.map fun frame => (bridge, frame)

/-- A frame that is handled has come in at a bridge, and there is a slot for it. -/
theorem heard?_eq_some {bridge : Bridge} {frame : Frame}
    (h : site.heard? id = some (bridge, frame)) :
    site.tree.bridge? id = some bridge ∧ site.pool.available ≠ 0 ∧
      (bridge.channel.poll site.medium).1 = some frame := by
  obtain ⟨found, hbridge, hheard⟩ := Option.bind_eq_some_iff.1 h
  split at hheard
  · cases hheard
  · next hfree =>
    obtain ⟨found', hframe, heq⟩ := Option.map_eq_some_iff.1 hheard
    cases heq
    exact ⟨hbridge, hfree, hframe⟩

omit [Medium M] in
/-- Without a free slot nothing is done that needs one. -/
theorem holding_of_full (full : site.pool.available = 0) (frame : Frame) (act : Site M → Site M) :
    site.holding frame act = site := by
  unfold Site.holding
  split
  · rfl
  · next slot pool claimed => exact absurd full (Pool.available_ne_zero claimed)

/-- A poll hands no frame on, or it hands one to a link or to the bridge that it came in at. -/
theorem pollAt_cases {channel : Channel} (there : site.tree.channel? id = some channel)
    (now : Nat) :
    pollAt now site id = site.polled id channel ∨
      (∃ link frame, (channel.poll site.medium).1 = some frame ∧
        (site.polled id channel).tree.link? id = some link ∧
        pollAt now site id = (site.polled id channel).receiveLink id link frame) ∨
      ∃ bridge frame, site.heard? id = some (bridge, frame) ∧ bridge.channel = channel ∧
        (site.polled id channel).tree.bridge? id
          = some { bridge with channel := (channel.poll site.medium).2.1 } ∧
        pollAt now site id = (site.polled id channel).holding frame
          (·.receiveBridge id { bridge with channel := (channel.poll site.medium).2.1 } now
            frame) := by
  rw [pollAt_eq there]
  cases hframe : (channel.poll site.medium).1 with
  | none => exact .inl rfl
  | some frame =>
    dsimp only
    unfold receive
    split
    · next link hlink =>
      split
      · exact .inl rfl
      · exact .inr (.inl ⟨link, frame, rfl, hlink, rfl⟩)
    · next bridge hbridge _ =>
      obtain ⟨old, hold, rfl, rfl⟩ := exists_bridge?_of_polled there hbridge
      by_cases hfull : site.pool.available = 0
      · exact .inl (holding_of_full (by exact hfull) frame _)
      · exact .inr (.inr ⟨old, frame, by simp [heard?, hold, hframe, hfull], rfl, hbridge, rfl⟩)
    · exact .inl rfl

/-- The path of the request that a step makes, if it makes one. -/
def path? (site : Site M) : RunStep M → Option String
  | .execute _ _ path _ _ _ => some path
  | .poll _ id => (site.heard? id).bind fun heard => heard.2.path?
  | _ => none

/-- Another channel is polled. -/
theorem Spares.pollAt {rule : Frame → Prop} {now other : Nat}
    (routes : Routes M (fun entry frame => entry = id → rule frame) site.tree
      (site.path? (.poll now other))) (beside : other ≠ id) :
    Spares rule id site (Site.pollAt now site other) := by
  cases hchannel : site.tree.channel? other with
  | none =>
    simp only [Site.pollAt, hchannel]
    exact .refl _
  | some channel =>
    have hcarries : Carries (fun entry frame => entry = id → rule frame) site
        (site.polled other channel) := carries_polled hchannel
    have hpolled := Spares.of_carries hcarries
    replace routes := routes.congr hcarries.core.symm
    rcases pollAt_cases hchannel now with heq | ⟨link, frame, -, hthere, heq⟩ |
      ⟨bridge, frame, hheard, rfl, hthere, heq⟩ <;> rw [heq]
    · exact hpolled
    · exact hpolled.trans (.receiveLink routes beside hthere frame)
    · rw [Site.path?, hheard, Option.bind_some] at routes
      refine hpolled.trans (.holding fun slot pool claimed => ?_)
      have hheld : ({ site.polled other bridge.channel with pool } : Site M).tree.bridge? other
          = some _ := hthere
      refine .receiveBridge ?_ beside hheld now
      exact routes

/-! ## Steps -/

/-- A step that does not poll the entry goes on beside it, unless it builds. -/
theorem spares_take {rule : Frame → Prop} {step : RunStep M}
    (routes : Routes M (fun other frame => other = id → rule frame) site.tree (site.path? step))
    (attempts : ∀ request frame, site.tree.namingRequest? id = some request →
      request.toFrame = .ok frame → rule frame)
    (beside : ∀ now, step ≠ .poll now id) :
    Spares rule id site (site.take step) ∨ ∃ construction after, step = .build construction ∧
      site.tree.construct construction = .ok after ∧ site.take step = site.withTree after := by
  cases step with
  | build construction =>
    cases hbuilt : site.tree.construct construction with
    | error e =>
      left
      simp only [take, move, perform, hbuilt]
      exact .refl _
    | ok after =>
      right
      exact ⟨construction, after, rfl, hbuilt, by simp only [take, move, perform, hbuilt]⟩
  | execute node method path params now tag =>
    exact .inl (.of_carries (.execute routes node method params now tag))
  | notify node name qos data => exact .inl (.of_carries (.notify routes node name qos data))
  | expire now other => exact .inl (.of_carries (.expireAt now site other))
  | provision now other =>
    exact .inl (.provisionAt now site other fun _ request frame => attempts request frame)
  | poll now other =>
    exact .inl (.pollAt routes fun heq => beside now (heq ▸ rfl))
  | around pool medium =>
    exact .inl ⟨rfl, rfl, rfl, fun _ => rfl, fun _ => rfl, [], by simp [take, move], by simp⟩

/-- Whatever it hands over, a step that does not poll the entry goes on beside it, unless it builds. -/
theorem spares_take_beside (site : Site M) {step : RunStep M} (beside : ∀ now, step ≠ .poll now id) :
    Spares (fun _ => True) id site (site.take step) ∨
      ∃ construction after, step = .build construction ∧
        site.tree.construct construction = .ok after ∧ site.take step = site.withTree after :=
  spares_take (routes_of_forall (fun _ _ _ => trivial) _ _) (fun _ _ _ _ => trivial) beside

end Site
end TopicTree
