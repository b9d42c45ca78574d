import TopicTree.Proofs.Routing.Crossing
import TopicTree.Proofs.Site.Spread

/-!
# Publication

A notification climbs to the top and collects the names of the entries it leaves, whatever its
source was when it set out. Below a plain node it is spread there, so that the clients who listen
know it by the way it came. A node publishes under its path from the top, and what comes in over a
link that has been named appears below the name of the link.
-/

namespace TopicTree.Site

variable {M : Type} [Medium M] {site : Site M}

/-! ## The way to the top -/

omit [Medium M] in
/-- A notification that goes on is the notification that it was, and nothing else has happened. -/
theorem Leg.of_notifies {hop next : Hop} {after : Site M} (h : site.Leg hop next after)
    (notifies : next.message.kind = .notification) :
    hop.message.kind = .notification ∧ after = site := by
  cases h with
  | turn there inner turns asks => exact absurd notifies asks
  | leave => exact ⟨notifies, rfl⟩
  | climb => exact ⟨notifies, rfl⟩
  | enter => exact ⟨notifies, rfl⟩
  | refuse => cases notifies
  | serve => cases notifies

/-- On the way of a notification nothing else happens. -/
theorem Goes.of_notifies {hop last : Hop} {mid : Site M} (h : Goes hop site last mid)
    (notifies : last.message.kind = .notification) :
    hop.message.kind = .notification ∧ mid = site := by
  induction h with
  | here => exact ⟨notifies, rfl⟩
  | step first _ ih =>
    obtain ⟨hnext, rfl⟩ := ih notifies
    exact (leg_of_step first).of_notifies hnext

/-- At a plain node that is the top a notification is spread. -/
theorem stepUp_fanOut {message : Envelope} (wellFormed : site.tree.WellFormed)
    (top : site.tree.form? 0 = some .node) (notifies : message.kind = .notification) :
    site.step (.up 0 message) = (none, site.fanOut message) := by
  obtain ⟨entry, hentry, -, hparent, -⟩ := exists_entry top
  have hinner := Tree.not_isDeviceEnd_of_node top
  have hturn : site.tree.isTurn entry message := by
    rw [Tree.isTurn, if_pos notifies, ← hparent, wellFormed.parent?_zero]
    rfl
  simp only [step, stepUp, hentry, if_neg hinner, if_pos hturn, if_pos notifies]

/-- A notification that reaches a plain node at the top is spread there. -/
theorem route_spread {hop : Hop} {message : Envelope} {mid : Site M}
    (wellFormed : site.tree.WellFormed) (top : site.tree.form? 0 = some .node)
    (free : site.pool.available ≠ 0) (reaches : Goes hop site (.up 0 message) mid)
    (notifies : message.kind = .notification) :
    ∃ frame, Spread (clientTopic message.source.segments message.method) message.params.bytes frame
      site (site.route hop) := by
  obtain ⟨-, rfl⟩ := reaches.of_notifies notifies
  rw [reaches.route_eq wellFormed (stepUp_fanOut wellFormed top notifies)]
  exact fanOut_spread free message

/-- A notification that sets out below a plain node at the top is spread under the names of the way
and what its source was. -/
theorem route_spread_of_walk {message : Envelope} {names : List Name} {here : Nat}
    (wellFormed : site.tree.WellFormed) (top : site.tree.form? 0 = some .node)
    (free : site.pool.available ≠ 0) (notifies : message.kind = .notification)
    (walk : site.tree.walk 0 names = some here)
    (room : (Path.behind names message.source.segments).utf8ByteSize ≤ maxPath) :
    ∃ frame, Spread (clientTopic (Path.behind names message.source.segments) message.method)
      message.params.bytes frame site (site.route (.up here message)) := by
  have hinner : site.tree.form? 0 ≠ some .deviceEnd := by
    rw [top]
    exact fun h => by cases h
  obtain ⟨source, hcollects⟩ := (Path.exists_prependAll_iff names message.source).2 room
  have hgoes := goes_up_of_prependAll message wellFormed hinner walk hcollects
  rw [← (Path.prependAll_eq_ok_iff.1 hcollects).2]
  exact route_spread wellFormed top free hgoes notifies

/-! ## Where notifications set out -/

/-- A notification that is not refused sets out with an id of its own, without a source. -/
theorem notify_eq_ok {node : Nat} {name : String} {qos : Qos} {data : Bytes} {after : Site M}
    (h : site.notify node name qos data = (.ok (), after)) :
    ∃ endpoint notification, site.tree.endpoint? node = some endpoint ∧
      notification.kind = .notification ∧ notification.source = Path.empty .top ∧
      notification.method = name ∧ notification.params.bytes = data ∧
      after = (site.withTree (site.tree.setEndpoint node endpoint.allocateId.2)).route
        (.up node notification) := by
  unfold notify at h
  split at h
  · cases h
  · next params id endpoint hready =>
    simp only [bind_eq_ok, pure_eq_ok, Prod.mk.injEq] at hready
    obtain ⟨_, hparams, before, hneed, rfl, hnumber⟩ := hready
    obtain rfl : before.allocateId.2 = endpoint := by rw [hnumber]
    simp only [] at h
    split at h
    · cases h
    · next notification hmade =>
      cases h
      refine ⟨before, notification, endpoint?_of_needEndpoint hneed, ?_⟩
      unfold Envelope.notification Envelope.outgoing at hmade
      unfold Params.ofBytes at hparams
      split at hmade
      · split at hparams
        · cases hmade
          cases hparams
          exact ⟨rfl, rfl, rfl, rfl, rfl⟩
        · cases hparams
      · cases hmade

omit [Medium M] in
/-- A hub end that has been named below a plain node at the top is reached by a walk. -/
theorem exists_walk_hubEnd (wellFormed : site.tree.WellFormed)
    (top : site.tree.form? 0 = some .node) {id : Nat} {link : Link} {name : Name}
    (there : site.tree.link? id = some link) (named : site.tree.name? id = some name) :
    ∃ names, site.tree.walk 0 names = some id := by
  have hid : id ≠ 0 := by
    rintro rfl
    rw [Tree.link?_eq_none (.inl top)] at there
    cases there
  cases hparent : site.tree.parent? id with
  | none =>
    have hlt := Tree.lt_size_of_form? (Tree.form?_of_link? there)
    exact absurd (wellFormed.eq_zero hlt hparent) hid
  | some above =>
    have habove : site.tree.form? above = some .node := by
      refine (wellFormed.above_form hparent).resolve_right fun hend => ?_
      rw [wellFormed.deviceEnd_eq hend, top] at hend
      cases hend
    obtain ⟨names, hnames⟩ := wellFormed.exists_walk (.inl habove)
    rw [Tree.WellFormed.localRoot_eq_zero (by simp [top])] at hnames
    refine ⟨names ++ [name], Tree.walk_concat_eq_some.2 ⟨above, hnames, ?_⟩⟩
    exact wellFormed.childNamed_eq hparent (by simp [Tree.isNamed, named])

/-- A spread is told by the core, the channels and the slots from which it began, and by the log. -/
theorem Spread.congr {earlier before after : Site M} {topic : String} {data : Bytes} {frame : Frame}
    (h : Spread topic data frame before after) (core : before.tree.core = earlier.tree.core)
    (channel? : ∀ id, before.tree.channel? id = earlier.tree.channel? id)
    (pool : before.pool = earlier.pool) (log : before.log = earlier.log) :
    Spread topic data frame earlier after where
  size := h.size
  made := h.made
  reads := h.reads
  core := h.core.trans core
  holders := h.holders.trans (congrArg Pool.holders pool)
  others id hid := (h.others id (mt (Tree.listens_congr core).1 hid)).trans (channel? id)
  once := by
    obtain ⟨bridges, events, hnodup, hlisten, hlog, hattempts⟩ := h.once
    refine ⟨bridges, events, hnodup, fun id => (hlisten id).trans (Tree.listens_congr core),
      log ▸ hlog, ?_⟩
    exact Attempt.forall_congr hattempts (fun id _ => (channel? id).symm) fun _ _ => rfl

/-- At any moment at which the top is a plain node and a slot is free, every notification that
reaches the top is written once to each bridge whose client listens to its topic, and nowhere else.
So is what comes in at a link that has been named, below the names of the way from the link to the
top, and what a node or bridge publishes, below its path from the top, as long as these names fit a
path. -/
theorem notifications_spread (occurs : site.Occurs) (top : site.tree.form? 0 = some .node)
    (free : site.pool.available ≠ 0) :
    (∀ {hop : Hop} {message : Envelope} {mid : Site M}, Goes hop site (.up 0 message) mid →
      message.kind = .notification →
        ∃ frame, Spread (clientTopic message.source.segments message.method) message.params.bytes
          frame site (site.route hop)) ∧
    (∀ {id : Nat} {link : Link} {name : Name} {frame : Frame} {message : Envelope},
      site.tree.link? id = some link → link.place = .hub → site.tree.name? id = some name →
      Envelope.ofFrame frame = .ok message → message.kind = .notification →
        (∃ names, site.tree.walk 0 names = some id) ∧
          ∀ names, site.tree.walk 0 names = some id →
            (Path.behind names message.source.segments).utf8ByteSize ≤ maxPath →
              ∃ shared, Spread
                (clientTopic (Path.behind names message.source.segments) message.method)
                message.params.bytes shared site (site.receiveLink id link frame)) ∧
    (∀ {node : Nat} {name : String} {qos : Qos} {data : Bytes} {after : Site M},
      site.notify node name qos data = (.ok (), after) →
        (∃ names, site.tree.walk 0 names = some node) ∧
          ∀ names, site.tree.walk 0 names = some node → (Name.join names).utf8ByteSize ≤ maxPath →
            ∃ frame, Spread (clientTopic (Name.join names) name) data frame site after) := by
  have hwell := occurs.wellFormed
  refine ⟨fun reaches notifies => route_spread hwell top free reaches notifies, ?_, ?_⟩
  · intro id link name frame message there place named read notifies
    refine ⟨exists_walk_hubEnd hwell top there named, fun names hwalk room => ?_⟩
    have hroute : site.receiveLink id link frame = site.route (.up id message) := by
      simp only [receiveLink, read, place]
      exact receiveAbove_eq named (.inl (by simp [notifies]))
    rw [hroute]
    exact route_spread_of_walk hwell top free notifies hwalk room
  · intro node name qos data after notified
    obtain ⟨endpoint, notification, hthere, hkind, hsource, hname, hdata, rfl⟩ :=
      notify_eq_ok notified
    have hform := (Tree.isSome_endpoint?_iff _ _).1 (Option.isSome_iff_exists.2 ⟨_, hthere⟩)
    have hsame := Tree.outline_setEndpoint site.tree node endpoint.allocateId.2
    have hroot : site.tree.localRoot = 0 := Tree.WellFormed.localRoot_eq_zero (by simp [top])
    refine ⟨hroot ▸ hwell.exists_walk hform, fun names hwalk room => ?_⟩
    have hsegments : Path.behind names notification.source.segments = Name.join names := by
      rw [hsource, Path.empty, Path.behind_empty]
    obtain ⟨frame, hframe⟩ : ∃ frame, Spread (clientTopic (Name.join names) name) data frame
        (site.withTree (site.tree.setEndpoint node endpoint.allocateId.2)) _ := by
      rw [← hsegments, ← hname, ← hdata]
      exact route_spread_of_walk (hwell.congr hsame.symm) ((Tree.form?_congr hsame 0).trans top)
        free hkind ((Tree.walk_congr hsame 0 names).trans hwalk) (hsegments ▸ room)
    refine ⟨frame, hframe.congr ?_ (Tree.channel?_setEndpoint _ _ _) rfl rfl⟩
    exact Tree.core_setEndpoint _ _ _

/-- A CONNECT of protocol level 4 from client `c`, and a SUBSCRIBE to `lamp/#` and `+/lit`. -/
def subscription : Bytes :=
  [0x10, 0x0d, 0, 4, 0x4d, 0x51, 0x54, 0x54, 4, 2, 0, 60, 0, 1, 0x63,
    0x82, 0x13, 0, 1, 0, 6, 0x6c, 0x61, 0x6d, 0x70, 0x2f, 0x23, 0, 0, 5, 0x2b, 0x2f, 0x6c, 0x69,
    0x74, 0]

/-- The moves that lead to a lamp between two bridges whose clients have both subscribed to it,
twice each, and of which one can no longer be written to. -/
def household : List (Move Cabling) :=
  [.call (.build (.addRoot "home")), .call (.build (.addNode 0 "lamp")),
    .call (.build (.addBridge 0 "door" "wire" 23)), .call (.build (.addBridge 0 "gate" "cord" 23)),
    .call (.build (.setGuard 2 fun _ _ => true)), .call (.build (.setGuard 3 fun _ _ => true)),
    .around (Pool.ofSize 2) ((Cabling.empty.feed "wire" subscription).feed "cord" subscription),
    .call (.tick 1), .call (.tick 2),
    .around (Pool.ofSize 1) (Cabling.empty.setFaults "wire" none (some .closed))]

/-- What the lamp publishes is written once to each client, although the first write fails. -/
theorem lamp_is_heard :
    let site := (start 5 (Pool.ofSize 2) Cabling.empty).run household
    let after := (site.notify 1 "lit" .atMostOnce [1]).2
    let bytes : Bytes := [0x30, 0x0b, 0, 8, 0x6c, 0x61, 0x6d, 0x70, 0x2f, 0x6c, 0x69, 0x74, 1]
    site.tree.form? 0 = some .node ∧ site.pool.available ≠ 0 ∧
      (∃ frame, Spread "lamp/lit" [1] frame site after) ∧
      after.log = site.log ++ [.writeFailed "wire" bytes, .wrote "cord" bytes] := by
  intro site after bytes
  have hoccurs : site.Occurs := .between ⟨5, Pool.ofSize 2, Cabling.empty, household, rfl⟩
  have htop : site.tree.form? 0 = some .node := by decide +kernel
  have hfree : site.pool.available ≠ 0 := by decide +kernel
  have hnotified : (site.notify 1 "lit" .atMostOnce [1]).1.isOk := by decide +kernel
  obtain ⟨_, hok⟩ := exists_eq_ok hnotified
  let lamp : Name := ⟨"lamp", by decide, by decide, by decide⟩
  have hwalk : site.tree.walk 0 [lamp] = some 1 := by decide +kernel
  obtain ⟨-, -, hnotify⟩ := notifications_spread hoccurs htop hfree
  obtain ⟨frame, hframe⟩ := (hnotify (Prod.ext hok rfl)).2 [lamp] hwalk (by decide)
  exact ⟨htop, hfree, ⟨frame, hframe⟩, by decide +kernel⟩

end TopicTree.Site
