import TopicTree.Proofs.Message.RoundTrip
import TopicTree.Proofs.Network.Docking
import TopicTree.Proofs.Routing.Answer

/-!
# A request and its response across a cable

Two sites stand at the ends of a cable. One has sent a request and waits; a tick of the other one
answers it, and a tick of the first one tells the caller. What the two trees do in between, and what
a message says, is left open here: all that counts is that the request is answered and the response
settles the wait.
-/

namespace TopicTree.Site

namespace Docked

variable {kept : String → Prop} {site : Site Cabling} {id : Nat} {own partner : String}

/-- A site at which methods have been called stays docked. -/
theorem of_serves {after : Site Cabling} {calls : List Event}
    (h : Docked kept site id own partner) (serves : Serves calls site after) :
    Docked kept after id own partner := by
  refine h.congr (fun other => ?_) (fun other => ?_) fun label _ _ _ => by rw [serves.medium]
  · rw [Tree.wire?, serves.channel?, Tree.wire?]
  · rw [Tree.linkState?, serves.link?, Tree.linkState?]

/-- A request that begins at a docked site and is sent across the cable waits at the other end, and
its response is awaited. Nothing else happens but on the side. -/
theorem asks (h : Docked kept site id own partner)
    (cable : site.medium.socket own = ⟨[], some partner, none, none⟩)
    (free : site.pool.available ≠ 0) {node : Nat} {old new : Endpoint}
    (there : site.tree.endpoint? node = some old) (same : new.methods = old.methods)
    {message : Envelope} {frame : Frame} (written : message.toFrame = .ok frame)
    {asked : Site Cabling}
    (leaves : asked = (site.withTree (site.tree.setEndpoint node new)).sendEnvelope id message) :
    Docked kept asked id own partner ∧ asked.medium = site.medium.feed partner frame.encode ∧
      asked.tree.awaited node = new.pending ∧
      Aside (fun label => kept label ∧ label ≠ partner) site asked := by
  have hbegin : Aside kept site (site.withTree (site.tree.setEndpoint node new)) :=
    Aside.setEndpoint there same
  have hdocked := h.of_aside (hbegin.mono fun _ hlabel => hlabel.1)
  obtain ⟨hsent, hmedium⟩ := hdocked.sendEnvelope cable (by rwa [hbegin.available]) written
  rw [← leaves] at hsent hmedium
  have halike : asked.tree.Alike (site.tree.setEndpoint node new) :=
    leaves ▸ alike_sendPacket _ id message.toFrame
  refine ⟨hdocked.of_aside (hsent.mono fun _ hlabel => ⟨hlabel.1, hlabel.2.2⟩), hmedium, ?_,
    (hbegin.mono fun _ hlabel => hlabel.1).trans hsent⟩
  rw [Tree.awaited, halike.endpoint?, Tree.endpoint?_setEndpoint_self there]
  rfl

/-- A tick of a docked site at whose link a request waits calls the methods that the request asks
for, and the response waits at the other end of the cable then. -/
theorem tick_answers (h : Docked kept site id own partner) {frame : Frame}
    (waits : site.medium.socket own = ⟨frame.encode, some partner, none, none⟩)
    (empty : site.medium.socket partner = ⟨[], some own, none, none⟩)
    (free : site.pool.available ≠ 0) (now : Nat) {calls : List Event}
    (proper : ∀ event ∈ calls, event.isCall) {P : Envelope → Prop}
    (answers : ∀ (ready : Site Cabling) link, ready.tree.outline = site.tree.outline →
      (∀ other, (ready.tree.endpoint? other).map (·.methods)
        = (site.tree.endpoint? other).map (·.methods)) →
      ready.tree.link? id = some link →
      ∃ after response, Envelope.Carried response ∧ P response ∧ Serves calls ready after ∧
        ready.receiveLink id link frame = after.sendEnvelope id response) :
    ∃ response frame', P response ∧ Envelope.ofFrame frame' = .ok response ∧
      (site.tick now).calls = site.calls ++ calls ∧
      (site.tick now).medium.socket partner = ⟨frame'.encode, some own, none, none⟩ ∧
      ∀ label, kept label → label ≠ own → label ≠ partner →
        (site.tick now).medium.socket label = site.medium.socket label := by
  obtain ⟨ready, link, hside, _, hlink, hempty, hdocked, htick⟩ := h.tick_eq waits free now
  obtain ⟨after, response, hcarried, hresponse, hserves, hreceive⟩ :=
    answers ready link hside.outline hside.methods hlink
  obtain ⟨frame', hwritten, hread⟩ := hcarried.exists_toFrame
  have hdocked' := hdocked.of_serves hserves
  have hcable : after.medium.socket own = ⟨[], some partner, none, none⟩ := by
    rw [hserves.medium, hempty]
  have hfree : after.pool.available ≠ 0 := by rwa [hserves.pool, hside.available]
  obtain ⟨hsent, hmedium⟩ := hdocked'.sendEnvelope hcable hfree hwritten
  obtain ⟨hlog, hmedium'⟩ := htick _ hreceive
    (hdocked'.of_aside (hsent.mono fun _ hlabel => ⟨hlabel.1, hlabel.2.2⟩))
  have hcalls : (after.sendEnvelope id response).calls = site.calls ++ calls := by
    rw [hsent.calls_eq, Site.calls, hserves.log, List.filter_append,
      List.filter_eq_self.2 proper, ← Site.calls, hside.calls_eq]
  have hpartner : after.medium.socket partner = ⟨[], some own, none, none⟩ := by
    rw [hserves.medium, hside.socket partner ⟨h.keepsPartner, h.apart.symm⟩, empty]
  refine ⟨response, frame', hresponse, hread, ?_, ?_, ?_⟩
  · rw [Site.calls, hlog]
    exact hcalls
  · rw [hmedium', hmedium, Cabling.socket_feed, if_pos rfl, hpartner]
    rfl
  · intro label hkept hown hne
    rw [hmedium', hmedium, Cabling.socket_feed, if_neg hne, hserves.medium,
      hside.socket label ⟨hkept, hown⟩]

/-- A tick of a docked site at whose link a response waits tells the caller who waits for it, if the
waiting time is not over. -/
theorem tick_settles (h : Docked kept site id own partner) {frame : Frame}
    (waits : site.medium.socket own = ⟨frame.encode, some partner, none, none⟩)
    (free : site.pool.available ≠ 0) {now node : Nat} {row : Pending} {tag : String}
    (caller : row.requester = .caller tag) (awaits : row ∈ site.tree.awaited node)
    (unique : ∀ other ∈ site.tree.awaited node, other.id = row.id → other = row)
    (early : now < row.deadline) {code : ReturnCode} {params : Params}
    (settles : ∀ (ready : Site Cabling) link endpoint, ready.tree.outline = site.tree.outline →
      ready.tree.link? id = some link → ready.tree.endpoint? node = some endpoint →
      ∃ last : Envelope, last.id = row.id ∧ last.code = code ∧ last.params = params ∧
        ready.receiveLink id link frame = ready.settle node endpoint last) :
    ∃ more, (site.tick now).log = site.log ++ more ++ [.replied tag code params] ∧
      ∀ event ∈ more, event.isCall = false := by
  obtain ⟨ready, link, hside, hawaited, hlink, hempty, hdocked, htick⟩ := h.tick_eq waits free now
  have hrow : row ∈ ready.tree.awaited node := by
    rw [hawaited]
    exact mem_awaited_expire.2 ⟨awaits, early⟩
  have hunique : ∀ other ∈ ready.tree.awaited node, other.id = row.id → other = row := by
    intro other hother
    rw [hawaited] at hother
    exact unique other (mem_awaited_expire.1 hother).1
  obtain ⟨endpoint, hendpoint, hrow⟩ := Tree.exists_endpoint?_of_mem_awaited hrow
  rw [Tree.awaited_of_endpoint? hendpoint] at hunique
  obtain ⟨last, hid, hcode, hparams, hreceive⟩ :=
    settles ready link endpoint hside.outline hlink hendpoint
  obtain ⟨after, hsettle⟩ := Endpoint.exists_settle? hrow hunique
  rw [← hid] at hsettle
  have htold : ready.settle node endpoint last
      = (ready.withTree (ready.tree.setEndpoint node after)).note (.replied tag code params) := by
    simp only [settle, hsettle, tell, caller, hcode, hparams]
  have hlast : Docked kept (ready.settle node endpoint last) id own partner := by
    rw [htold]
    exact hdocked.congr (Tree.wire?_setEndpoint ready.tree node after)
      (Tree.linkState?_setEndpoint ready.tree node after) fun _ _ _ _ => rfl
  obtain ⟨hlog, _⟩ := htick _ hreceive hlast
  obtain ⟨more, hmore, hcalls⟩ := hside.log
  refine ⟨more, ?_, hcalls⟩
  rw [hlog, htold]
  simp only [note, withTree, hmore]

end Docked

/-! ## There and back -/

/-- A caller that is owed one telling more than it had got, and gets one, gets that one only. -/
theorem tellings_eq_concat {M : Type} {before after : Site M} {tag : String} {code : ReturnCode}
    {params : Params} {more : List Event}
    (total : after.tree.owed tag + (after.tellings tag).length = (before.tellings tag).length + 1)
    (log : after.log = before.log ++ more ++ [.replied tag code params]) :
    after.tellings tag = before.tellings tag ++ [(code, params)] := by
  have htold : [Event.replied tag code params].filterMap (Event.telling? tag)
      = [(code, params)] := by
    simp [Event.telling?]
  have hall : after.tellings tag
      = before.tellings tag ++ more.filterMap (Event.telling? tag) ++ [(code, params)] := by
    rw [tellings, log, List.filterMap_append, List.filterMap_append, htold, tellings]
  have hnone : more.filterMap (Event.telling? tag) = [] := by
    rw [hall] at total
    simp only [List.length_append, List.length_singleton] at total
    exact List.eq_nil_of_length_eq_zero (by omega)
  rw [hall, hnone, List.append_nil]

/-- Telling a caller calls no method. -/
theorem calls_eq_of_log {M : Type} {before after : Site M} {tag : String} {code : ReturnCode}
    {params : Params} {more : List Event} (quiet : ∀ event ∈ more, event.isCall = false)
    (log : after.log = before.log ++ more ++ [.replied tag code params]) :
    after.calls = before.calls := by
  have hmore : more.filter Event.isCall = [] := by
    rw [List.filter_eq_nil_iff]
    intro event hevent
    simp [quiet event hevent]
  have htold : [Event.replied tag code params].filter Event.isCall = [] := rfl
  rw [Site.calls, log, List.filter_append, List.filter_append, hmore, htold, List.append_nil,
    List.append_nil, Site.calls]

/-- Two sites docked at the ends of one cable on which nothing is under way. Each has a free
slot. -/
structure Cabled (kept : String → Prop) (asker other : Site Cabling) (askerLink otherLink : Nat)
    (near far : String) : Prop where
  askerDocked : Docked kept asker askerLink near far
  otherDocked : Docked kept { other with medium := asker.medium } otherLink far near
  nearCable : asker.medium.socket near = ⟨[], some far, none, none⟩
  farCable : asker.medium.socket far = ⟨[], some near, none, none⟩
  askerFree : asker.pool.available ≠ 0
  otherFree : other.pool.available ≠ 0

/-- What becomes of two sites on one medium when one of them has sent a request: the other one lives
through a tick, and then the one that waits does. The site that waits comes first. -/
def exchange (asked other : Site Cabling) (first second : Nat) : Site Cabling × Site Cabling :=
  let served := { other with medium := asked.medium }.tick first
  ({ asked with medium := served.medium }.tick second, served)

section

variable {kept : String → Prop} {asker asked other : Site Cabling} {askerLink otherLink : Nat}
  {near far : String} (cabled : Cabled kept asker other askerLink otherLink near far)
  {node : Nat} {old new : Endpoint} (there : asker.tree.endpoint? node = some old)
  {message : Envelope} (carried : message.Carried)
  (leaves : asked
    = (asker.withTree (asker.tree.setEndpoint node new)).sendEnvelope askerLink message)
  {calls : List Event} (proper : ∀ event ∈ calls, event.isCall) {P : Envelope → Prop}
  (answers : ∀ (ready : Site Cabling) link frame, ready.tree.outline = other.tree.outline →
    (∀ entry, (ready.tree.endpoint? entry).map (·.methods)
      = (other.tree.endpoint? entry).map (·.methods)) →
    ready.tree.link? otherLink = some link → Envelope.ofFrame frame = .ok message →
    ∃ after response, Envelope.Carried response ∧ P response ∧ Serves calls ready after ∧
      ready.receiveLink otherLink link frame = after.sendEnvelope otherLink response)
include cabled there carried leaves proper answers

/-- A request that leaves its site across a cable is answered by a tick of the other one, and the
response waits where the request has left. -/
theorem Cabled.served (same : new.methods = old.methods) (first : Nat) {served : Site Cabling}
    (serves : { other with medium := asked.medium }.tick first = served) :
    ∃ response frame, P response ∧ Envelope.ofFrame frame = .ok response ∧
      served.calls = other.calls ++ calls ∧
      served.medium.socket near = ⟨frame.encode, some far, none, none⟩ ∧
      Docked kept { asked with medium := served.medium } askerLink near far := by
  obtain ⟨frame, hwritten, hread⟩ := carried.exists_toFrame
  obtain ⟨hdocked, hfed, _, _⟩ :=
    cabled.askerDocked.asks cabled.nearCable cabled.askerFree there same hwritten leaves
  obtain ⟨reached, hreached⟩ : ∃ reached, { other with medium := asked.medium } = reached :=
    ⟨_, rfl⟩
  have hmedium : reached.medium = asker.medium.feed far frame.encode := by rw [← hreached, hfed]
  have hdockedOther : Docked kept reached otherLink far near := by
    rw [← hreached]
    refine cabled.otherDocked.congr (fun _ => rfl) (fun _ => rfl) fun label _ hfar _ => ?_
    change asked.medium.socket label = asker.medium.socket label
    rw [hfed, Cabling.socket_feed, if_neg hfar]
  have hwaits : reached.medium.socket far = ⟨frame.encode, some near, none, none⟩ := by
    rw [hmedium, Cabling.socket_feed, if_pos rfl, cabled.farCable]
    rfl
  have hempty : reached.medium.socket near = ⟨[], some far, none, none⟩ := by
    rw [hmedium, Cabling.socket_feed, if_neg cabled.askerDocked.apart, cabled.nearCable]
  obtain ⟨response, frame', hresponse, hread', hcalls, hback, hothers⟩ :=
    hdockedOther.tick_answers hwaits hempty (hreached ▸ cabled.otherFree) first proper
      fun ready link houtline hsame hlink => answers ready link frame (by rw [houtline, ← hreached])
        (fun entry => by rw [hsame, ← hreached]) hlink hread
  rw [← hreached] at hcalls hback hothers
  rw [serves] at hcalls hback hothers
  refine ⟨response, frame', hresponse, hread', hcalls, hback, ?_⟩
  refine hdocked.congr (fun _ => rfl) (fun _ => rfl) fun label hkept hnear hfar => ?_
  exact hothers label hkept hfar hnear

/-- If a request that was accepted leaves its site across a cable, is answered at the other end and
settles the wait when its response comes back, then two ticks tell the caller of that response and
nothing else, and call the methods that it took and no others. -/
theorem exchange_tells {method path tag : String} {input : Params} {now : Nat} {id : UInt16}
    (accepted : asker.execute node method path input now tag = .ok (id, asked))
    (fresh : asker.tree.owed tag = 0)
    (begun : old.beginRequest method (now + asker.tree.timeout) (.caller tag) = .ok (id, new))
    {code : ReturnCode} {params : Params}
    (settles : ∀ (ready : Site Cabling) link frame response endpoint,
      ready.tree.outline = asker.tree.outline → ready.tree.link? askerLink = some link →
      P response → Envelope.ofFrame frame = .ok response →
      ready.tree.endpoint? node = some endpoint →
      ∃ last : Envelope, last.id = id ∧ last.code = code ∧ last.params = params ∧
        ready.receiveLink askerLink link frame = ready.settle node endpoint last)
    (first : Nat) {second : Nat} (early : second < now + asker.tree.timeout) :
    (exchange asked other first second).1.tellings tag = asker.tellings tag ++ [(code, params)] ∧
      (exchange asked other first second).1.calls = asker.calls ∧
      (exchange asked other first second).2.calls = other.calls ++ calls := by
  obtain ⟨_, hunused, hnew⟩ := Endpoint.beginRequest_eq_ok begun
  have hsame : new.methods = old.methods := by rw [hnew]
  obtain ⟨served, hserved⟩ : ∃ served, { other with medium := asked.medium }.tick first = served :=
    ⟨_, rfl⟩
  obtain ⟨told, htold⟩ : ∃ told, { asked with medium := served.medium } = told := ⟨_, rfl⟩
  have hexchange : exchange asked other first second = (told.tick second, served) := by
    rw [exchange, hserved, htold]
  obtain ⟨frame, hwritten, _⟩ := carried.exists_toFrame
  obtain ⟨_, _, hpending, hasked⟩ :=
    cabled.askerDocked.asks cabled.nearCable cabled.askerFree there hsame hwritten leaves
  obtain ⟨response, frame', hresponse, hread, hcalls, hback, hdocked⟩ :=
    cabled.served there carried leaves proper answers hsame first hserved
  rw [htold] at hdocked
  have hrows : told.tree.awaited node
      = old.pending ++ [⟨id, now + asker.tree.timeout, .caller tag⟩] := by
    rw [← htold, hpending, hnew]
  have hunique : ∀ row ∈ told.tree.awaited node, row.id = id →
      row = ⟨id, now + asker.tree.timeout, .caller tag⟩ := by
    intro row hrow hid
    rw [hrows, List.mem_append, List.mem_singleton] at hrow
    exact hrow.resolve_left fun hold => hunused row hold hid
  have hfree : told.pool.available ≠ 0 := by
    rw [← htold, hasked.available]
    exact cabled.askerFree
  obtain ⟨more, hlog, hnone⟩ := hdocked.tick_settles (by rw [← htold]; exact hback) hfree rfl
    (by rw [hrows]; exact List.mem_append_right _ (List.mem_singleton_self _)) hunique early
    fun ready link endpoint houtline hlink hendpoint =>
      settles ready link frame' response endpoint (by rw [houtline, ← htold, hasked.outline]) hlink
        hresponse hread hendpoint
  obtain ⟨before, hbefore, hnone'⟩ := hasked.log
  have hlog' : (told.tick second).log
      = asker.log ++ (before ++ more) ++ [.replied tag code params] := by
    rw [hlog, ← htold, hbefore, List.append_assoc asker.log]
  have hquiet : ∀ event ∈ before ++ more, event.isCall = false := fun event hevent =>
    (List.mem_append.1 hevent).elim (hnone' event) (hnone event)
  have htotal : (told.tick second).tree.owed tag + ((told.tick second).tellings tag).length
      = (asker.tellings tag).length + 1 := by
    rw [(Keeps.of_changes (changes_tick told second)).total, ← htold]
    exact (owed_execute fresh accepted).1
  rw [hexchange]
  exact ⟨tellings_eq_concat htotal hlog', calls_eq_of_log hquiet hlog', hcalls⟩

end

end TopicTree.Site
