import TopicTree.Proofs.Network.Aside

/-!
# A tick at the end of a cable

A site that is docked has one link at the end of a cable and no other traffic. When a frame waits
there, a tick does what it does anyway on the side, has the link receive that frame, and polls the
other channels without consequence.
-/

namespace TopicTree.Site

/-! ## Channels without traffic -/

/-- A site at which channels have been polled without consequence. -/
structure Idles (before after : Site Cabling) : Prop where
  alike : after.tree.Alike before.tree
  wire? : ∀ id, after.tree.wire? id = before.tree.wire? id
  linkState? : ∀ id, after.tree.linkState? id = before.tree.linkState? id
  log : after.log = before.log
  pool : after.pool = before.pool

namespace Idles

protected theorem refl (site : Site Cabling) : Idles site site :=
  ⟨.refl _, fun _ => rfl, fun _ => rfl, rfl, rfl⟩

protected theorem trans {first second third : Site Cabling} (h : Idles first second)
    (h' : Idles second third) : Idles first third :=
  ⟨h'.alike.trans h.alike, fun id => (h'.wire? id).trans (h.wire? id),
    fun id => (h'.linkState? id).trans (h.linkState? id), h'.log.trans h.log,
    h'.pool.trans h.pool⟩

/-- A channel that stays at its socket and in its stage is idle. -/
theorem setChannel {site : Site Cabling} {id : Nat} {old channel : Channel}
    (there : site.tree.channel? id = some old) (socket : channel.socket = old.socket)
    (stage : channel.decoder.stage = old.decoder.stage) (medium : Cabling) :
    Idles site { site with tree := site.tree.setChannel id channel, medium } :=
  ⟨Tree.alike_setChannel site.tree id channel, Tree.wire?_setChannel there socket stage,
    Tree.linkState?_setChannel site.tree id channel, rfl, rfl⟩

/-- Idle polls happen on the side. -/
theorem aside {kept : String → Prop} {before after : Site Cabling} (h : Idles before after)
    (socket : ∀ label, kept label → after.medium.socket label = before.medium.socket label) :
    Aside kept before after where
  outline := h.alike.outline
  methods id := congrArg (Option.map (·.methods)) (h.alike.endpoint? id)
  wire? := h.wire?
  linkState? := h.linkState?
  log := ⟨[], by rw [h.log, List.append_nil], by simp⟩
  available := by rw [h.pool]
  socket := socket

end Idles

/-! ## Docked sites -/

/-- A site with a link at the end of a cable, waiting for a header there, whose other channels have
nothing to receive and lead nowhere that is kept. No device end has its name to be confirmed. -/
structure Docked (kept : String → Prop) (site : Site Cabling) (id : Nat) (own partner : String) :
    Prop where
  wire : site.tree.wire? id = some (own, .idle)
  isLink : (site.tree.linkState? id).isSome
  settled : ∀ other, site.tree.linkState? other ≠ some (.device, false)
  apart : own ≠ partner
  keepsOwn : kept own
  keepsPartner : kept partner
  facesOut : ∀ other, other ≠ id → site.FacesOut kept other
  quiet : ∀ other label stage, other ≠ id → site.tree.wire? other = some (label, stage) →
    label ≠ own ∧ label ≠ partner ∧ (site.medium.socket label).inbox = []

namespace Docked

variable {kept : String → Prop} {site : Site Cabling} {id : Nat} {own partner : String}

/-- A site stays docked while its wires and links are the same and no other socket is touched. -/
theorem congr {after : Site Cabling} (h : Docked kept site id own partner)
    (wire? : ∀ id, after.tree.wire? id = site.tree.wire? id)
    (linkState? : ∀ id, after.tree.linkState? id = site.tree.linkState? id)
    (socket : ∀ label, kept label → label ≠ own → label ≠ partner →
      after.medium.socket label = site.medium.socket label) :
    Docked kept after id own partner := by
  have hother : ∀ other label stage, other ≠ id → after.tree.wire? other = some (label, stage) →
      site.tree.wire? other = some (label, stage) ∧ label ≠ own ∧ label ≠ partner ∧
        after.medium.socket label = site.medium.socket label := by
    intro other label stage hne hwire
    rw [wire?] at hwire
    obtain ⟨hown, hpartner, _⟩ := h.quiet other label stage hne hwire
    have hkept := (h.facesOut other hne label stage hwire).1
    exact ⟨hwire, hown, hpartner, socket label hkept hown hpartner⟩
  refine ⟨by rw [wire?, h.wire], by rw [linkState?]; exact h.isLink, ?_, h.apart, h.keepsOwn,
    h.keepsPartner, ?_, ?_⟩
  · intro other
    rw [linkState?]
    exact h.settled other
  · intro other hne label stage hwire
    obtain ⟨hwire, _, _, hsocket⟩ := hother other label stage hne hwire
    rw [hsocket]
    exact h.facesOut other hne label stage hwire
  · intro other label stage hne hwire
    obtain ⟨hwire, hown, hpartner, hsocket⟩ := hother other label stage hne hwire
    rw [hsocket]
    exact ⟨hown, hpartner, (h.quiet other label stage hne hwire).2.2⟩

/-- What happens on the side leaves a site docked. -/
theorem of_aside {after : Site Cabling} (h : Docked kept site id own partner)
    (aside : Aside (fun label => kept label ∧ label ≠ own ∧ label ≠ partner) site after) :
    Docked kept after id own partner :=
  h.congr aside.wire? aside.linkState? fun label hkept hown hpartner =>
    aside.socket label ⟨hkept, hown, hpartner⟩

/-- The link of a docked site. -/
theorem exists_link (h : Docked kept site id own partner) :
    ∃ link, site.tree.link? id = some link ∧ link.channel.socket = own ∧
      link.channel.decoder.stage = .idle := by
  obtain ⟨link, hlink⟩ : ∃ link, site.tree.link? id = some link := by
    have hsome := h.isLink
    rw [Tree.linkState?, Option.isSome_map] at hsome
    exact Option.isSome_iff_exists.1 hsome
  have hwire := h.wire
  rw [Tree.wire?, Tree.channel?_of_link? hlink, Option.map_some, Option.some.injEq,
    Prod.mk.injEq] at hwire
  exact ⟨link, hlink, hwire.1, hwire.2⟩

/-! ## The phases of a tick -/

/-- The waits of a docked site end on the side. -/
theorem aside_expire (h : Docked kept site id own partner) (now : Nat) (ids : List Nat) :
    Aside kept site (ids.foldl (expireAt now) site) := by
  induction ids generalizing site with
  | nil => exact .refl site
  | cons first rest ih =>
    have hfirst : Aside kept site (expireAt now site first) := by
      by_cases hid : first = id
      · obtain ⟨link, hlink, _⟩ := h.exists_link
        have hnone : site.tree.endpoint? first = none := by
          obtain ⟨entry, hentry, hrole⟩ := Option.bind_eq_some_iff.1 (hid ▸ hlink)
          rw [Tree.endpoint?, hentry]
          exact Role.endpoint?_of_link? hrole
        rw [expireAt_eq_self hnone]
      · exact Aside.expireAt (h.facesOut first hid) now
    exact hfirst.trans (ih (h.of_aside (hfirst.mono fun _ hlabel => hlabel.1)))

/-- At a docked site no link has to be named. -/
theorem forEntries_provisionAt (h : Docked kept site id own partner) (now : Nat) :
    site.forEntries (provisionAt now) = site := by
  have hsame : ∀ other, provisionAt now site other = site := by
    intro other
    cases hlink : site.tree.link? other with
    | none => simp only [provisionAt, hlink]
    | some link =>
      have hsettled := h.settled other
      rw [Tree.linkState?, hlink, Option.map_some, ne_eq, Option.some.injEq,
        Prod.mk.injEq] at hsettled
      have hdue : ¬link.isDue now := by
        unfold Link.isDue
        cases hplace : link.place <;> cases hconfirmed : link.confirmed <;> simp_all
      simp only [provisionAt, hlink, if_neg hdue]
  have hfold : ∀ ids : List Nat, ids.foldl (provisionAt now) site = site := by
    intro ids
    induction ids with
    | nil => rfl
    | cons first rest ih => rw [List.foldl_cons, hsame, ih]
  exact hfold _

/-- The other channels of a docked site are polled without consequence. -/
theorem idles_polls (h : Docked kept site id own partner) (now : Nat) {ids : List Nat}
    (others : id ∉ ids) : Idles site (ids.foldl (pollAt now) site) ∧
      (ids.foldl (pollAt now) site).medium = site.medium := by
  induction ids generalizing site with
  | nil => exact ⟨.refl site, rfl⟩
  | cons first rest ih =>
    have hne : first ≠ id := fun heq => others (heq ▸ List.mem_cons_self)
    have hrest : id ∉ rest := fun hmem => others (List.mem_cons_of_mem first hmem)
    obtain ⟨hidles, hmedium⟩ : Idles site (pollAt now site first) ∧
        (pollAt now site first).medium = site.medium := by
      cases hchannel : site.tree.channel? first with
      | none =>
        simp only [pollAt, hchannel]
        exact ⟨.refl site, trivial⟩
      | some channel =>
        have hwire : site.tree.wire? first = some (channel.socket, channel.decoder.stage) := by
          rw [Tree.wire?, hchannel, Option.map_some]
        obtain ⟨counters, hpoll⟩ :=
          Channel.poll_quiet (h.quiet first _ _ hne hwire).2.2
        simp only [pollAt, hchannel, hpoll]
        exact ⟨.setChannel hchannel (by rfl) (by rfl) site.medium, trivial⟩
    have hdocked := h.of_aside (hidles.aside fun label _ => by rw [hmedium])
    obtain ⟨hidles', hmedium'⟩ := ih hdocked hrest
    exact ⟨hidles.trans hidles', hmedium'.trans hmedium⟩

/-- A frame that waits at the link of a docked site is received by one poll of it. -/
theorem pollAt_eq (h : Docked kept site id own partner) {frame : Frame}
    (waits : site.medium.socket own = ⟨frame.encode, some partner, none, none⟩)
    (free : site.pool.available ≠ 0) (now : Nat) :
    ∃ ready link, Idles site ready ∧ ready.tree.link? id = some link ∧
      ready.medium.socket own = ⟨[], some partner, none, none⟩ ∧
      (∀ label, label ≠ own → ready.medium.socket label = site.medium.socket label) ∧
      pollAt now site id = ready.receiveLink id link frame := by
  obtain ⟨link, hlink, hsocket, hstage⟩ := h.exists_link
  have hchannel := Tree.channel?_of_link? hlink
  subst hsocket
  have hwaits : site.medium.socket link.channel.socket
      = { (⟨[], some partner, none, none⟩ : Socket) with inbox := frame.encode ++ [] } := by
    rw [waits, List.append_nil]
  obtain ⟨medium, hpoll, hsockets⟩ :=
    Channel.poll_frame (Decoder.yields_encode hstage frame) rfl hwaits
  obtain ⟨ready, hready⟩ : ∃ ready : Site Cabling, ready = { site with
      tree := site.tree.setChannel id (link.channel.countReceived Decoder.start), medium } :=
    ⟨_, rfl⟩
  have hidles : Idles site ready := by
    rw [hready]
    exact .setChannel hchannel (by rfl) (by rw [hstage]; rfl) medium
  have hlink' : ready.tree.link? id
      = some { link with channel := link.channel.countReceived Decoder.start } := by
    rw [hready]
    simp only [Tree.link?_setChannel, if_true, hlink, Option.map_some]
  have hfree : ¬ready.pool.available = 0 := by rwa [hidles.pool]
  refine ⟨ready, _, hidles, hlink', ?_, ?_, ?_⟩
  · rw [hready]
    simp only [hsockets, if_true]
  · intro label hne
    rw [hready]
    simp only [hsockets, if_neg hne]
  · have hreceive : pollAt now site id = ready.receive now id frame := by
      simp only [pollAt, hchannel, hpoll, hready]
    rw [hreceive]
    simp only [receive, hlink', if_neg hfree]

/-! ## Across the cable -/

/-- A message that the link of a docked site sends waits at the other end of the cable. Nothing else
happens but on the side. -/
theorem sendEnvelope (h : Docked kept site id own partner) {inbox : Bytes}
    (cable : site.medium.socket own = ⟨inbox, some partner, none, none⟩)
    (free : site.pool.available ≠ 0) {message : Envelope} {frame : Frame}
    (written : message.toFrame = .ok frame) :
    Aside (fun label => kept label ∧ label ≠ partner) site (site.sendEnvelope id message) ∧
      (site.sendEnvelope id message).medium = site.medium.feed partner frame.encode := by
  obtain ⟨link, hlink, hsocket, _⟩ := h.exists_link
  have hchannel := Tree.channel?_of_link? hlink
  have houtward : site.FacesOut (fun label => kept label ∧ label ≠ partner) id := by
    intro label stage hwire
    rw [h.wire, Option.some.injEq, Prod.mk.injEq] at hwire
    obtain ⟨rfl, _⟩ := hwire
    refine ⟨⟨h.keepsOwn, h.apart⟩, ?_⟩
    intro peer hpeer hkept
    rw [cable] at hpeer
    exact hkept.2 (Option.some.inj hpeer).symm
  refine ⟨Aside.sendPacket houtward _, ?_⟩
  obtain ⟨slot, pool, hbind⟩ := Pool.exists_bind free frame
  have htransmit : Medium.transmit link.channel.socket frame.encode site.medium
      = (.ok (), site.medium.feed partner frame.encode) := by
    subst hsocket
    exact Cabling.transmit_eq_ok cable _
  simp only [Site.sendEnvelope, sendPacket, written, send, holding, hbind, write, hchannel,
    Channel.send, htransmit]
  rfl

/-! ## A tick -/

/-- A tick of a docked site at whose link a frame waits: on the side waits end, then the link
receives the frame, and what that leaves behind stays as it is. -/
theorem tick_eq (h : Docked kept site id own partner) {frame : Frame}
    (waits : site.medium.socket own = ⟨frame.encode, some partner, none, none⟩)
    (free : site.pool.available ≠ 0) (now : Nat) :
    ∃ ready link, Aside (fun label => kept label ∧ label ≠ own) site ready ∧
      (∀ other, ready.tree.awaited other
        = (site.forEntries (expireAt now)).tree.awaited other) ∧
      ready.tree.link? id = some link ∧
      ready.medium.socket own = ⟨[], some partner, none, none⟩ ∧
      Docked kept ready id own partner ∧
      ∀ after, ready.receiveLink id link frame = after → Docked kept after id own partner →
        (site.tick now).log = after.log ∧ (site.tick now).medium = after.medium := by
  have hexpire : Aside kept site (site.forEntries (expireAt now)) := h.aside_expire now _
  obtain ⟨expired, hexpired⟩ : ∃ expired, site.forEntries (expireAt now) = expired := ⟨_, rfl⟩
  have htick : site.tick now = expired.forEntries (pollAt now) := by
    have hdocked := h.of_aside (hexpire.mono fun _ hlabel => hlabel.1)
    rw [tick, hdocked.forEntries_provisionAt, hexpired]
  rw [hexpired] at hexpire
  have hdocked := h.of_aside (hexpire.mono fun _ hlabel => hlabel.1)
  have hlt : id < expired.tree.size := by
    obtain ⟨link, hlink, _⟩ := hdocked.exists_link
    exact Tree.lt_size_of_form? (Tree.form?_of_link? hlink)
  obtain ⟨first, rest, hrange⟩ := List.append_of_mem (List.mem_range.2 hlt)
  have hnodup := List.nodup_range (n := expired.tree.size)
  rw [hrange, List.nodup_append, List.nodup_cons] at hnodup
  obtain ⟨_, ⟨hrest, _⟩, hdisjoint⟩ := hnodup
  have hfirst : id ∉ first := fun hmem => hdisjoint id hmem id List.mem_cons_self rfl
  obtain ⟨hidles, hmedium⟩ := hdocked.idles_polls now hfirst
  obtain ⟨polled, hpolled⟩ : ∃ polled, first.foldl (pollAt now) expired = polled := ⟨_, rfl⟩
  rw [hpolled] at hidles hmedium
  have hside : Aside kept expired polled := hidles.aside fun label _ => by rw [hmedium]
  have hdocked' := hdocked.of_aside (hside.mono fun _ hlabel => hlabel.1)
  have hwaits : polled.medium.socket own = ⟨frame.encode, some partner, none, none⟩ := by
    rw [hmedium, hexpire.socket own h.keepsOwn, waits]
  have hfree : polled.pool.available ≠ 0 := by rwa [hside.available, hexpire.available]
  obtain ⟨ready, link, hready, hlink, hempty, hothers, hpoll⟩ := hdocked'.pollAt_eq hwaits hfree now
  have hside' : Aside (fun label => kept label ∧ label ≠ own) polled ready :=
    hready.aside fun label hlabel => hothers label hlabel.2
  have hdocked'' := hdocked'.of_aside (hside'.mono fun _ hlabel => ⟨hlabel.1, hlabel.2.1⟩)
  refine ⟨ready, link, ?_, ?_, hlink, hempty, hdocked'', ?_⟩
  · exact ((hexpire.trans hside).mono fun _ hlabel => hlabel.1).trans hside'
  · intro other
    rw [hexpired, Tree.awaited, hready.alike.endpoint?, hidles.alike.endpoint?, Tree.awaited]
  · intro after hafter hlast
    obtain ⟨hidles', hmedium'⟩ := hlast.idles_polls now hrest
    have hall : site.tick now = rest.foldl (pollAt now) after := by
      rw [htick, forEntries, hrange, List.foldl_append, hpolled, List.foldl_cons, hpoll, hafter]
    rw [hall]
    exact ⟨hidles'.log, hmedium'⟩

end Docked
end TopicTree.Site
