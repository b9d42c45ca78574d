import TopicTree.Proofs.Site.Reply
import TopicTree.Proofs.Site.Session

/-!
# Waits

An entry begins to wait only with a request of a caller, or, if it is a bridge, with one that its
client publishes. It waits until the requester is told, in a step that opens and closes no session.
So what a requester is told goes to the session that there is before and after that step.
-/

namespace TopicTree.Site

variable {M : Type} [Medium M] {site : Site M} {id : Nat}

/-! ## What leaves the waits alone -/

/-- Writing to clients leaves the waits alone. -/
theorem alike_writeAll (site : Site M) (frame : Frame) (bridges : List Nat) :
    (site.writeAll frame bridges).tree.Alike site.tree := by
  induction bridges generalizing site with
  | nil => exact .refl _
  | cons bridge rest ih =>
    exact (ih (site.write bridge frame)).trans (alike_write site bridge frame)

/-- Delivering a notification to clients leaves the waits alone. -/
theorem alike_fanOut (site : Site M) (notification : Envelope) :
    (site.fanOut notification).tree.Alike site.tree := by
  simp only [fanOut]
  split
  · exact .refl _
  · split
    · exact .refl _
    · exact alike_holding fun pool => alike_writeAll { site with pool } _ _

/-- Handing a message over a link upwards leaves the waits alone. -/
theorem alike_relayUp (site : Site M) (link : Nat) (message : Envelope) :
    (site.relayUp link message).tree.Alike site.tree := by
  unfold relayUp
  split <;> exact alike_sendPacket site link _

/-- Handing a message over a link downwards leaves the waits alone. -/
theorem alike_relayDown (site : Site M) (link : Nat) (message : Envelope) :
    (site.relayDown link message).tree.Alike site.tree := by
  simp only [relayDown]
  split
  · exact alike_sendPacket site link _
  · exact alike_sendPacket site link _
  · exact .refl _

omit [Medium M] in
/-- Trees that are alike await the same at every entry. -/
theorem awaited_of_alike {left right : Tree} (h : left.Alike right) (id : Nat) :
    left.awaited id = right.awaited id := by
  rw [Tree.awaited, h.endpoint?, Tree.awaited]

/-- Seeing to a link leaves the waits alone. -/
theorem alike_provisionAt (now : Nat) (site : Site M) (other : Nat) :
    (provisionAt now site other).tree.Alike site.tree := by
  unfold provisionAt
  split
  · exact .refl _
  · next link there =>
    split
    · split
      · exact .refl _
      · exact (alike_sendPacket _ other _).trans (Tree.alike_setLink there rfl)
    · exact .refl _

omit [Medium M] in
/-- The answer to an attempt to have a link named leaves the waits alone. -/
theorem awaited_confirm {other : Nat} {link : Link} (there : site.tree.link? other = some link)
    (response : Envelope) (id : Nat) :
    (site.confirm other link response).tree.awaited id = site.tree.awaited id := by
  unfold confirm
  split
  · rfl
  · split
    · rfl
    · rw [announce_eq, tree_withTree]
      refine awaited_of_alike ?_ id
      exact Tree.alike_setLink there rfl

/-- An attempt to have a link named leaves the waits alone. -/
theorem awaited_answerNaming (site : Site M) (other : Nat) (link : Link) (request : Envelope)
    (id : Nat) :
    (site.answerNaming other link request).tree.awaited id = site.tree.awaited id := by
  let text := (request.params.text? 0).getD ""
  have hsent : (site.answerNaming other link request).tree.Alike
      (site.adopt other link text).2.tree := alike_sendPacket _ other _
  refine (awaited_of_alike hsent id).trans ?_
  rcases adopt_cases site other link text with ⟨hsame, -⟩ | ⟨name, -, hnamed⟩
  · rw [hsame]
  · rw [hnamed, Tree.awaited, Tree.endpoint?_setName, Tree.awaited]

/-- A frame of its client that is no PUBLISH leaves the waits of a bridge alone. -/
theorem alike_receiveBridge {other : Nat} {bridge : Bridge} {frame : Frame}
    (there : site.tree.bridge? other = some bridge) (now : Nat)
    (type : frame.packetType ≠ .ok .publish) :
    (site.receiveBridge other bridge now frame).tree.Alike site.tree := by
  unfold receiveBridge
  split
  · unfold Site.connect
    split
    · split
      · exact alike_sendPacket site other _
      · simp only [ask]
        split <;>
          exact (alike_sendPacket _ other _).trans (Tree.alike_setBridge there rfl)
    · exact .refl _
  · exact alike_sendPacket site other (.ok _ : Except Error Frame)
  · unfold Site.subscribe
    split
    · exact (alike_sendPacket _ other _).trans (Tree.alike_setBridge there rfl)
    · exact .refl _
  · next h => exact absurd h type
  · exact Tree.alike_setBridge there rfl
  · exact .refl _

/-! ## Who begins to wait and who has been told -/

omit [Medium M] in
/-- In the course of something a requester of an entry is told, at a moment when the session is what
it was before. -/
def Informs (id : Nat) (requester : Requester) (before after : Site M) : Prop :=
  ∃ (mid : Site M) (code : ReturnCode) (params : Params),
    mid.tree.client? id = before.tree.client? id ∧ before.log <+: mid.log ∧
      (mid.tell id requester code params).log <+: after.log

/-- What becomes of those who wait at an entry while the session stays what it is: only such
requesters begin to wait as are told here, and who waits no more has been told. -/
structure Minds (id : Nat) (asks : Requester → Prop) (before after : Site M) : Prop where
  client? : after.tree.client? id = before.tree.client? id
  log : before.log <+: after.log
  asked : ∀ row ∈ after.tree.awaited id, row ∈ before.tree.awaited id ∨ asks row.requester
  told : ∀ row ∈ before.tree.awaited id,
    row ∈ after.tree.awaited id ∨ Informs id row.requester before after

namespace Minds

variable {asks : Requester → Prop}

@[refl]
protected theorem refl (site : Site M) : Minds id asks site site :=
  ⟨rfl, List.prefix_rfl, fun _ hrow => .inl hrow, fun _ hrow => .inl hrow⟩

protected theorem trans {first second third : Site M} (h : Minds id asks first second)
    (h' : Minds id asks second third) : Minds id asks first third where
  client? := h'.client?.trans h.client?
  log := h.log.trans h'.log
  asked row hrow := (h'.asked row hrow).elim (h.asked row) .inr
  told row hrow := by
    rcases h.told row hrow with hkept | ⟨mid, code, params, hclient, hpast, hlog⟩
    · refine (h'.told row hkept).imp_right ?_
      rintro ⟨mid, code, params, hclient, hpast, hlog⟩
      exact ⟨mid, code, params, hclient.trans h.client?, h.log.trans hpast, hlog⟩
    · exact .inr ⟨mid, code, params, hclient, hpast, hlog.trans h'.log⟩

/-- What leaves the waits alone. -/
theorem of_awaited {before after : Site M}
    (client? : after.tree.client? id = before.tree.client? id) (log : before.log <+: after.log)
    (same : after.tree.awaited id = before.tree.awaited id) : Minds id asks before after :=
  ⟨client?, log, fun _ hrow => .inl (same ▸ hrow), fun _ hrow => .inl (same.symm ▸ hrow)⟩

/-- What is carried leaves the waits alone if it leaves the endpoints alone. -/
theorem of_carries {before after : Site M} (h : Carries (fun _ _ => True) before after)
    (alike : after.tree.Alike before.tree) :
    Minds id asks before after := by
  obtain ⟨events, hlog, -⟩ := h.log
  exact of_awaited (Tree.client?_eq_of_core h.core id) ⟨events, hlog.symm⟩
    (awaited_of_alike alike id)

/-- A request begins. -/
theorem begin {other : Nat} {old new : Endpoint} {method : String} {deadline : Nat}
    {requester : Requester} {key : UInt16} (there : site.tree.endpoint? other = some old)
    (begun : old.beginRequest method deadline requester = .ok (key, new))
    (may : other = id → asks requester) :
    Minds id asks site (site.withTree (site.tree.setEndpoint other new)) := by
  obtain ⟨-, -, rfl⟩ := Endpoint.beginRequest_eq_ok begun
  refine ⟨Tree.client?_eq_of_core (Tree.core_setEndpoint site.tree other _) id, List.prefix_rfl,
    fun row hrow => ?_, fun row hrow => ?_⟩
  all_goals by_cases hid : other = id
  · subst hid
    rw [tree_withTree, Tree.awaited_of_endpoint? (Tree.endpoint?_setEndpoint_self there _),
      List.mem_append, List.mem_singleton] at hrow
    rw [Tree.awaited_of_endpoint? there]
    refine hrow.imp_right fun heq => ?_
    rw [heq]
    exact may rfl
  · left
    rwa [tree_withTree, Tree.awaited, Tree.endpoint?_setEndpoint_of_ne hid] at hrow
  · subst hid
    rw [Tree.awaited_of_endpoint? there] at hrow
    rw [tree_withTree, Tree.awaited_of_endpoint? (Tree.endpoint?_setEndpoint_self there _)]
    exact .inl (List.mem_append_left _ hrow)
  · left
    rwa [tree_withTree, Tree.awaited, Tree.endpoint?_setEndpoint_of_ne hid]

/-- Rows are taken out of a table, and their requesters are told. -/
theorem of_taken {other : Nat} {old new : Endpoint} {taken : List Pending} {after : Site M}
    (there : site.tree.endpoint? other = some old)
    (rows : old.pending.Perm (taken ++ new.pending))
    (h : Minds id asks (site.withTree (site.tree.setEndpoint other new)) after)
    (tells : ∀ row ∈ taken, Informs other row.requester
      (site.withTree (site.tree.setEndpoint other new)) after) : Minds id asks site after := by
  have hclient : (site.tree.setEndpoint other new).client? id = site.tree.client? id :=
    Tree.client?_eq_of_core (Tree.core_setEndpoint site.tree other new) id
  by_cases hid : other = id
  · subst hid
    have hold := Tree.awaited_of_endpoint? there
    have hnew : (site.tree.setEndpoint other new).awaited other = new.pending :=
      Tree.awaited_of_endpoint? (Tree.endpoint?_setEndpoint_self there new)
    have htold : ∀ row : Pending, Informs other row.requester
        (site.withTree (site.tree.setEndpoint other new)) after →
        Informs other row.requester site after := by
      rintro row ⟨mid, code, params, hmid, hpast, hlog⟩
      exact ⟨mid, code, params, hmid.trans hclient, hpast, hlog⟩
    refine ⟨h.client?.trans hclient, h.log, fun row hrow => ?_, fun row hrow => ?_⟩
    · refine (h.asked row hrow).imp_left fun hkept => ?_
      rw [tree_withTree, hnew] at hkept
      rw [hold]
      exact rows.mem_iff.2 (List.mem_append_right _ hkept)
    · rw [hold, rows.mem_iff, List.mem_append] at hrow
      rcases hrow with htaken | hkept
      · exact .inr (htold row (tells row htaken))
      · refine (h.told row ?_).imp_right (htold row)
        rwa [tree_withTree, hnew]
  · refine Minds.trans ?_ h
    refine of_awaited hclient List.prefix_rfl ?_
    rw [tree_withTree, Tree.awaited, Tree.endpoint?_setEndpoint_of_ne hid, Tree.awaited]

/-- A requester is told, at whatever entry. -/
theorem tell (site : Site M) (other : Nat) (requester : Requester) (code : ReturnCode)
    (params : Params) : Minds id asks site (site.tell other requester code params) :=
  of_carries (.tell site other requester code params)
    (alike_tell site other requester code params)

/-- The wait for a response ends. -/
theorem settle {here : Nat} {endpoint : Endpoint} (there : site.tree.endpoint? here = some endpoint)
    (message : Envelope) : Minds id asks site (site.settle here endpoint message) := by
  unfold Site.settle
  split
  · exact .refl _
  · next row after hsettle =>
    have hrows : endpoint.pending.Perm ([row] ++ after.pending) :=
      (Endpoint.settle?_eq_some hsettle).2
    refine of_taken there hrows (.tell _ here row.requester _ _) ?_
    rw [List.forall_mem_singleton]
    exact ⟨_, message.code, message.params, rfl, List.prefix_rfl, List.prefix_rfl⟩

/-- A message is routed. -/
theorem route (site : Site M) (hop : Hop) : Minds id asks site (site.route hop) := by
  obtain ⟨last, mid, hgoes, hstop⟩ := route_cases site hop
  have hworks : Minds id asks site mid := by
    obtain ⟨calls, hlog, -⟩ := hgoes.works.log
    refine of_awaited (Tree.client?_eq_of_core hgoes.works.core id) ⟨calls, hlog.symm⟩ ?_
    rw [Tree.awaited, hgoes.works.pending, Tree.awaited]
  generalize site.route hop = after at hstop
  refine hworks.trans ?_
  cases hstop with
  | drop => exact .refl _
  | arrive there => exact .settle there _
  | leaveUp message outer =>
    refine of_carries (.relayUp ?_ fun _ _ => trivial)
      (alike_relayUp mid _ message)
    rw [Tree.isDeviceEnd, Option.any_eq_true] at outer
    obtain ⟨link, hlink, -⟩ := outer
    simp [hlink]
  | leaveDown message there =>
    exact of_carries (.relayDown (by simp [there]) fun _ _ _ _ => trivial)
      (alike_relayDown mid _ message)
  | spread => exact of_carries (.fanOut _ _) (alike_fanOut mid _)

/-- Overdue rows are told about one after the other. -/
theorem tellExpired (other : Nat) (rows : List Pending) (site : Site M) :
    Minds id asks site (Site.tellExpired other rows site) :=
  of_carries (.tellExpired other rows site)
    (alike_tellExpired other rows site)

/-- The overdue waits of an entry end. -/
theorem expireAt (now : Nat) (site : Site M) (other : Nat) :
    Minds id asks site (Site.expireAt now site other) := by
  cases hendpoint : site.tree.endpoint? other with
  | none =>
    rw [expireAt_eq_self hendpoint]
  | some endpoint =>
    rw [expireAt_eq hendpoint]
    refine of_taken hendpoint (Endpoint.expireIn_perm now endpoint.pending) (.tellExpired _ _ _)
      fun row hrow => ?_
    obtain ⟨front, back, hrows⟩ := List.append_of_mem hrow
    generalize site.withTree _ = taken
    have hsplit : Site.tellExpired other (front ++ row :: back) taken
        = Site.tellExpired other back ((Site.tellExpired other front taken).tell other row.requester
            .timeout Params.empty) := by
      simp only [Site.tellExpired, List.foldl_append, List.foldl_cons]
    have hbefore : Minds other (fun _ => False) taken (Site.tellExpired other front taken) :=
      .tellExpired other front taken
    refine ⟨Site.tellExpired other front taken, .timeout, Params.empty, hbefore.client?,
      hbefore.log, ?_⟩
    change _ <+: (Site.tellExpired other (Endpoint.expireIn now endpoint.pending).1 taken).log
    rw [hrows, hsplit]
    exact log_tellExpired other back _

/-- A notification is sent from an entry. -/
theorem notify (site : Site M) (node : Nat) (name : String) (qos : Qos) (data : Bytes) :
    Minds id asks site (site.notify node name qos data).2 := by
  unfold Site.notify
  split
  · exact .refl _
  · next params key endpoint hnumber =>
    simp only [bind_eq_ok, pure_eq_ok, Prod.mk.injEq] at hnumber
    obtain ⟨_, -, before, hneed, -, hallocate⟩ := hnumber
    have hpending : endpoint.pending = before.pending := by
      have heq : before.allocateId.2 = endpoint := by rw [hallocate]
      rw [← heq]
      rfl
    have hnumbered : Minds id asks site (site.withTree (site.tree.setEndpoint node endpoint)) :=
      of_awaited (Tree.client?_eq_of_core (Tree.core_setEndpoint site.tree node endpoint) id)
        List.prefix_rfl
        (Tree.awaited_setEndpoint (endpoint?_of_needEndpoint hneed) hpending id)
    simp only []
    split
    · exact hnumbered
    · exact hnumbered.trans (.route _ _)

/-- A caller makes a request. -/
theorem execute (site : Site M) (node : Nat) (method path : String) (params : Params) (now : Nat)
    (tag : String) (may : node = id → asks (.caller tag)) :
    Minds id asks site (site.move (.call (.execute node method path params now tag))) := by
  simp only [Site.move, perform]
  cases hexecute : site.execute node method path params now tag with
  | error e => exact .refl _
  | ok result =>
    obtain ⟨key, after⟩ := result
    obtain ⟨_, _, old, new, -, -, hthere, hbegun, rfl⟩ := execute_eq_ok hexecute
    exact (Minds.begin hthere hbegun may).trans (.route _ _)

/-- A client makes a request. -/
theorem requestFor {other : Nat} {bridge : Bridge} (there : site.tree.bridge? other = some bridge)
    (now : Nat) (target : String) (payload : Bytes)
    (may : other = id → asks (.client ("<-" ++ target))) :
    Minds id asks site (site.requestFor other bridge now target payload) := by
  simp only [Site.requestFor]
  split
  · exact .refl _
  · split
    · exact .tell site other (.client _) _ _
    · next request endpoint hbegin =>
      obtain ⟨key, hbegun⟩ := beginRequest_of_beginClientRequest hbegin
      exact (Minds.begin (Tree.endpoint?_of_bridge? there) hbegun may).trans (.route _ _)

/-- A client publishes. -/
theorem publish {other : Nat} {bridge : Bridge} {frame : Frame}
    (there : site.tree.bridge? other = some bridge) (now : Nat)
    (may : ∀ publish target, Publish.ofFrame frame = .ok publish → publish.topic = "->" ++ target →
      bridge.session.isSome → other = id → asks (.client ("<-" ++ target))) :
    Minds id asks site (site.publish other bridge now frame) := by
  unfold Site.publish
  split
  · next publish session hpublish hsession =>
    split
    · next target hmarker =>
      refine .requestFor there now target publish.payload (may publish target hpublish ?_ ?_)
      · exact Kind.splitMarker_eq_some.1 hmarker
      · rw [hsession]
        rfl
    · exact .refl _
    · exact .notify _ _ _ _ _
  · exact .refl _

end Minds

/-! ## Steps -/

/-- Who may begin to wait at an entry in a step: a caller, and the client of a bridge that publishes
a request. -/
inductive Begins (site : Site M) (id : Nat) : RunStep M → Requester → Prop
  | caller (step : RunStep M) (tag : String) : Begins site id step (.caller tag)
  | client {bridge : Bridge} {target : String} {payload : Bytes} (now : Nat)
      (asks : site.Receives id bridge target payload) :
      Begins site id (.poll now id) (.client ("<-" ++ target))

/-- A frame that comes in at a link leaves the waits alone, or a message is routed. -/
theorem minds_receiveLink {other : Nat} {link : Link} {asks : Requester → Prop}
    (there : site.tree.link? other = some link) (frame : Frame) :
    (site.receiveLink other link frame).tree.awaited id = site.tree.awaited id ∨
      Minds id asks site (site.receiveLink other link frame) := by
  unfold receiveLink
  split
  · exact .inr (.refl _)
  · split
    · unfold receiveBelow
      split
      · exact .inl (awaited_confirm there _ id)
      · split
        · exact .inr (.refl _)
        · exact .inr (.route _ _)
    · unfold receiveAbove
      split
      · exact .inl (awaited_answerNaming site other link _ id)
      · split
        · exact .inr (.refl _)
        · exact .inr (.route _ _)

/-- A frame of the client of a bridge leaves the waits alone, or those who wait are minded. -/
theorem minds_receiveBridge {other : Nat} {bridge : Bridge} {frame : Frame}
    {asks : Requester → Prop} (there : site.tree.bridge? other = some bridge) (now : Nat)
    (may : ∀ publish target, Publish.ofFrame frame = .ok publish → publish.topic = "->" ++ target →
      bridge.session.isSome → other = id → asks (.client ("<-" ++ target))) :
    (site.receiveBridge other bridge now frame).tree.awaited id = site.tree.awaited id ∨
      Minds id asks site (site.receiveBridge other bridge now frame) := by
  by_cases type : frame.packetType = .ok .publish
  · simp only [receiveBridge, type]
    exact .inr (.publish there now may)
  · exact .inl (awaited_of_alike (alike_receiveBridge there now type) id)

/-- Holding a slot for a frame changes nothing of how those who wait are minded. -/
theorem minds_holding {frame : Frame} {act : Site M → Site M} {asks : Requester → Prop}
    (h : ∀ pool, (act { site with pool }).tree.awaited id = site.tree.awaited id ∨
      Minds id asks { site with pool } (act { site with pool })) :
    (site.holding frame act).tree.awaited id = site.tree.awaited id ∨
      Minds id asks site (site.holding frame act) := by
  unfold Site.holding
  split
  · exact .inl rfl
  · next slot pool claimed =>
    exact (h pool).imp (fun same => same) fun minds =>
      ⟨minds.client?, minds.log, minds.asked, minds.told⟩

/-- A poll leaves the waits alone, or those who wait are minded, if the client of a bridge may begin
to wait. -/
theorem minds_pollAt {asks : Requester → Prop} (now : Nat) (site : Site M) (other : Nat)
    (may : ∀ bridge target payload, site.Receives other bridge target payload → other = id →
      asks (.client ("<-" ++ target))) :
    (pollAt now site other).tree.awaited id = site.tree.awaited id ∨
      Minds id asks site (pollAt now site other) := by
  cases hchannel : site.tree.channel? other with
  | none =>
    left
    simp only [pollAt, hchannel]
  | some channel =>
    have halike : (site.polled other channel).tree.Alike site.tree := Tree.alike_setChannel _ _ _
    have hawaited := awaited_of_alike halike id
    have hpolled : Minds id asks site (site.polled other channel) :=
      .of_carries (carries_polled hchannel) halike
    rcases pollAt_cases hchannel now with heq | ⟨link, frame, -, hthere, heq⟩ |
      ⟨bridge, frame, hheard, rfl, hthere, heq⟩ <;> rw [heq]
    · exact .inl hawaited
    · exact (minds_receiveLink hthere frame).imp (·.trans hawaited) hpolled.trans
    · refine (minds_holding fun pool => ?_).imp (·.trans hawaited) hpolled.trans
      have hheld : ({ site.polled other bridge.channel with pool } : Site M).tree.bridge? other
          = some _ := hthere
      refine minds_receiveBridge hheld now fun publish target read topic session here => ?_
      exact may bridge target publish.payload ⟨session, frame, publish, hheard, read, topic, rfl⟩ here

/-- A step leaves the waits alone, or those who wait are minded, if those may begin to wait who make
a request there. -/
theorem minds_take {asks : Requester → Prop} (site : Site M) (step : RunStep M)
    (callers : ∀ node method path params now tag,
      step = .execute node method path params now tag → node = id → asks (.caller tag))
    (clients : ∀ now bridge target payload, step = .poll now id →
      site.Receives id bridge target payload → asks (.client ("<-" ++ target))) :
    (site.take step).tree.awaited id = site.tree.awaited id ∨
      Minds id asks site (site.take step) := by
  cases step with
  | build construction =>
    left
    simp only [take, move, perform]
    split
    · rfl
    · next after hbuilt => exact Tree.awaited_construct hbuilt id
  | execute node method path params now tag =>
    exact .inr (.execute site node method path params now tag (callers _ _ _ _ _ _ rfl))
  | notify node name qos data => exact .inr (.notify site node name qos data)
  | expire now other => exact .inr (.expireAt now site other)
  | provision now other => exact .inl (awaited_of_alike (alike_provisionAt now site other) id)
  | poll now other =>
    refine minds_pollAt now site other fun bridge target payload receives here => ?_
    subst here
    exact clients now bridge target payload rfl receives
  | around pool medium => exact .inl rfl

/-- Those who wait are minded in a step. -/
theorem minds_begins (site : Site M) (step : RunStep M) (id : Nat) :
    (site.take step).tree.awaited id = site.tree.awaited id ∨
      Minds id (site.Begins id step) site (site.take step) :=
  minds_take site step (fun _ _ _ _ _ tag _ _ => .caller step tag)
    fun now _ _ _ heq asks => heq ▸ .client now asks

/-- Who waits after a step has waited before, or begins to in that step. -/
theorem begins_of_take {step : RunStep M} {row : Pending}
    (waits : row ∈ (site.take step).tree.awaited id) :
    row ∈ site.tree.awaited id ∨ site.Begins id step row.requester := by
  rcases minds_begins site step id with same | minds
  · exact .inl (same ▸ waits)
  · exact minds.asked row waits

/-- Who waits no more after a step has been told in it, and the session is what it was. -/
theorem informs_of_take {step : RunStep M} {row : Pending} (waits : row ∈ site.tree.awaited id)
    (ends : row ∉ (site.take step).tree.awaited id) :
    (site.take step).tree.client? id = site.tree.client? id ∧
      Informs id row.requester site (site.take step) := by
  rcases minds_begins site step id with same | minds
  · exact absurd (same ▸ waits) ends
  · exact ⟨minds.client?, (minds.told row waits).resolve_left ends⟩

end TopicTree.Site
