import TopicTree.Proofs.Site.Subscriptions

/-!
# Notifications that are refused

A notification is refused for its data, for the entry that is to send it, or for its name, in this
order. The name is looked at when an id has been taken already: the refusal does not put it back, so
that the next request of the entry gets another id than it would have got. This is all that any
refusal leaves behind. A PUBLISH of a client that is not passed on leaves no more than that either,
beside what the bridge's channel has received.
-/

namespace TopicTree

/-- Polling sends nothing. -/
theorem Channel.framesSent_poll {M : Type} [Medium M] (channel : Channel) (medium : M) :
    (channel.poll medium).2.1.counters.framesSent = channel.counters.framesSent := by
  fun_induction Channel.poll channel medium with
  | case1 | case2 | case3 => rfl
  | case4 _ _ _ _ _ _ _ ih => exact ih
  | case5 _ _ _ _ _ _ _ _ ih => exact ih

/-- Whether a bridge does something about a PUBLISH: a session is open, and the topic is that of a
request, or it is one without a marker and all fits a notification. -/
def Bridge.Minds (bridge : Bridge) (publish : Publish) : Prop :=
  bridge.session ≠ none ∧ ((∃ target, Kind.splitMarker publish.topic = some (.request, target)) ∨
    (Kind.splitMarker publish.topic = none ∧ publish.payload.length ≤ maxParams ∧
      publish.topic.utf8ByteSize ≤ maxTitle))

namespace Site

variable {M : Type} [Medium M] {site : Site M}

/-! ## What refusals leave behind -/

/-- Why a notification is refused, and what the refusal leaves behind. -/
inductive Refused (site : Site M) (node : Nat) (name : String) (data : Bytes) :
    Error → Site M → Prop
  /-- Its data is too long. -/
  | data (long : maxParams < data.length) :
    Refused site node name data (.paramsTooLong data.length maxParams) site
  /-- There is no endpoint that could send it. -/
  | entry {e : Error} (fits : data.length ≤ maxParams)
    (lacks : site.tree.needEndpoint node = .error e) : Refused site node name data e site
  /-- Its name is too long. The id that it got stays used. -/
  | name {endpoint : Endpoint} (fits : data.length ≤ maxParams)
    (there : site.tree.endpoint? node = some endpoint) (long : maxTitle < name.utf8ByteSize) :
    Refused site node name data (.pathTooLong name.utf8ByteSize maxTitle)
      (site.withTree (site.tree.setEndpoint node
        { endpoint with lastId := endpoint.allocateId.1 }))

/-- A notification whose data fits is sent by an endpoint if its name fits, and refused otherwise. -/
theorem notify_of_endpoint? {node : Nat} {endpoint : Endpoint}
    (there : site.tree.endpoint? node = some endpoint) (name : String) (qos : Qos) {data : Bytes}
    (fits : data.length ≤ maxParams) :
    site.notify node name qos data
      = let numbered := site.withTree (site.tree.setEndpoint node
          { endpoint with lastId := endpoint.allocateId.1 })
        match Envelope.notification name endpoint.allocateId.1 qos ⟨data, fits⟩ with
        | .error e => (.error e, numbered)
        | .ok notification => (.ok (), numbered.route (.up node notification)) := by
  simp only [notify, Params.ofBytes, dif_pos fits, needEndpoint_of_endpoint? there, pure_def,
    ok_bind]
  rfl

/-- A refusal is for one of these reasons, and leaves this behind. -/
theorem refused_of_notify {node : Nat} {name : String} {qos : Qos} {data : Bytes} {e : Error}
    {after : Site M} (refusal : site.notify node name qos data = (.error e, after)) :
    site.Refused node name data e after := by
  by_cases hfits : data.length ≤ maxParams
  · cases hneed : site.tree.needEndpoint node with
    | error reason =>
      simp only [notify, Params.ofBytes, dif_pos hfits, hneed, ok_bind, error_bind] at refusal
      cases refusal
      exact .entry hfits hneed
    | ok endpoint =>
      have hthere := endpoint?_of_needEndpoint hneed
      rw [notify_of_endpoint? hthere name qos hfits] at refusal
      unfold Envelope.notification Envelope.outgoing at refusal
      by_cases hname : name.utf8ByteSize ≤ maxTitle
      · rw [dif_pos hname] at refusal
        cases refusal
      · rw [dif_neg hname] at refusal
        cases refusal
        exact .name hfits hthere (Nat.lt_of_not_le hname)
  · simp only [notify, Params.ofBytes, dif_neg hfits, error_bind] at refusal
    cases refusal
    exact .data (Nat.lt_of_not_le hfits)

/-- For each of these reasons a notification is refused. -/
theorem Refused.notify_eq {node : Nat} {name : String} {data : Bytes} {e : Error} {after : Site M}
    (h : site.Refused node name data e after) (qos : Qos) :
    site.notify node name qos data = (.error e, after) := by
  cases h with
  | data long =>
    simp only [notify, Params.ofBytes, dif_neg (Nat.not_le_of_lt long), error_bind]
  | entry fits lacks => simp only [notify, Params.ofBytes, dif_pos fits, lacks, ok_bind, error_bind]
  | name fits there long =>
    rw [notify_of_endpoint? there name qos fits, Envelope.notification, Envelope.outgoing,
      dif_neg (Nat.not_le_of_lt long)]

/-! ## What clients publish in vain -/

omit [Medium M] in
/-- With another pool the same refusal leaves the same behind. -/
theorem Refused.with_pool {node : Nat} {name : String} {data : Bytes} {e : Error} {after : Site M}
    (h : site.Refused node name data e after) (pool : Pool) :
    Refused { site with pool } node name data e { after with pool } := by
  cases h with
  | data long => exact .data long
  | entry fits lacks => exact .entry fits lacks
  | name fits there long =>
    have hthere : Tree.endpoint? { site with pool }.tree node = some _ := there
    exact .name fits hthere long

/-- Why a PUBLISH of a client is dropped at a site where it has come in, and what is left behind. -/
inductive Dropped (site : Site M) (id : Nat) (session : Option Session) (frame : Frame) :
    Site M → Prop
  /-- No slot is free for it. -/
  | crowded (full : site.pool.available = 0) : Dropped site id session frame site
  /-- It cannot be read. -/
  | unread (unread : ∀ publish, Publish.ofFrame frame ≠ .ok publish) :
    Dropped site id session frame site
  /-- No session is open. -/
  | closed (closed : session = none) : Dropped site id session frame site
  /-- Its topic is that of a response or a notification between nodes. -/
  | reserved {publish : Publish} {kind : Kind} {rest : String}
    (reads : Publish.ofFrame frame = .ok publish)
    (marked : Kind.splitMarker publish.topic = some (kind, rest)) (other : kind ≠ .request) :
    Dropped site id session frame site
  /-- It would be a notification, which is refused. -/
  | refused {publish : Publish} {e : Error} {after : Site M}
    (free : site.pool.available ≠ 0) (reads : Publish.ofFrame frame = .ok publish)
    (opened : session ≠ none) (plain : Kind.splitMarker publish.topic = none)
    (refusal : site.Refused id publish.topic publish.payload e after) :
    Dropped site id session frame after

/-- A PUBLISH about which a bridge does nothing is dropped, whatever slots its handling takes. -/
theorem exists_dropped {id : Nat} {bridge : Bridge} {frame : Frame} {endpoint : Endpoint}
    (there : site.tree.endpoint? id = some endpoint) (free : site.pool.available ≠ 0)
    (idle : ∀ publish, Publish.ofFrame frame = .ok publish → ¬bridge.Minds publish) (now : Nat)
    (pool : Pool) :
    ∃ after, Dropped site id bridge.session frame after ∧
      publish { site with pool } id bridge now frame = { after with pool } := by
  unfold Site.publish
  cases hreads : Publish.ofFrame frame with
  | error e => exact ⟨site, .unread (by simp [hreads]), rfl⟩
  | ok publish =>
    cases hsession : bridge.session with
    | none => exact ⟨site, .closed rfl, rfl⟩
    | some session =>
      have hopened : bridge.session ≠ none := by simp [hsession]
      dsimp only
      split
      · next target hmarked => exact absurd ⟨hopened, .inl ⟨target, hmarked⟩⟩ (idle publish hreads)
      · next marked hother hmarked =>
        obtain ⟨kind, rest⟩ := marked
        exact ⟨site, .reserved hreads hmarked fun h => hother _ (by rw [h]), rfl⟩
      · next hplain =>
        have hlong : publish.payload.length ≤ maxParams → maxTitle < publish.topic.utf8ByteSize :=
          fun hfits => Nat.lt_of_not_le fun hname =>
            idle publish hreads ⟨hopened, .inr ⟨hplain, hfits, hname⟩⟩
        obtain ⟨e, after, hrefused⟩ :
            ∃ e after, site.Refused id publish.topic publish.payload e after := by
          by_cases hfits : publish.payload.length ≤ maxParams
          · exact ⟨_, _, .name hfits there (hlong hfits)⟩
          · exact ⟨_, _, .data (Nat.lt_of_not_le hfits)⟩
        refine ⟨after, .refused free hreads (by simp) hplain hrefused, ?_⟩
        rw [(hrefused.with_pool pool).notify_eq]

/-- What a bridge drops is read off its socket and changes nothing else but what its being dropped
leaves behind. -/
theorem exists_pollAt_dropped {id : Nat} {bridge : Bridge} {frame : Frame} (now : Nat)
    (there : site.tree.bridge? id = some bridge)
    (comes : (bridge.channel.poll site.medium).1 = some frame)
    (type : frame.packetType = .ok .publish)
    (idle : site.pool.available ≠ 0 →
      ∀ publish, Publish.ofFrame frame = .ok publish → ¬bridge.Minds publish) :
    ∃ after pool, Dropped (site.polled id bridge.channel) id bridge.session frame after ∧
      site.pool.Restored pool ∧ pollAt now site id = { after with pool } := by
  have hthere := bridge?_polled there
  by_cases hfull : site.pool.available = 0
  · refine ⟨_, site.pool, .crowded hfull, .refl _, ?_⟩
    have hpolled : (site.polled id bridge.channel).pool.available = 0 := hfull
    rw [pollAt_eq (Tree.channel?_of_bridge? there), comes]
    dsimp only
    rw [receive_of_bridge? hthere, holding_of_full hpolled]
    rfl
  · have hheard : site.heard? id = some (bridge, frame) := by
      rw [heard?, there, Option.bind_some, if_neg hfull, comes, Option.map_some]
    obtain ⟨slot, claimed, hbind, -, hpoll⟩ := pollAt_of_heard? now hheard
    have hidle : ∀ publish, Publish.ofFrame frame = .ok publish →
        ¬Bridge.Minds { bridge with channel := (bridge.channel.poll site.medium).2.1 } publish :=
      idle hfull
    obtain ⟨after, hdropped, hpublish⟩ :=
      exists_dropped (Tree.endpoint?_of_bridge? hthere) hfull hidle now claimed
    refine ⟨after, claimed.release slot, hdropped, .release hbind (.refl claimed), ?_⟩
    rw [hpoll]
    simp only [receiveBridge, type]
    rw [hpublish]

/-- A notification that an entry is asked for is refused for one of three reasons and in no other
case, and a refusal leaves the site as it was, but for the number of the id that was given out last
at the entry if it is the name that is too long. A PUBLISH that a bridge can do nothing about changes
what the bridge has received, and beside this nothing but that number, for the same reason. -/
theorem refusals_leave_at_most_a_number (site : Site M) :
    (∀ {node : Nat} {name : String} {qos : Qos} {data : Bytes} {e : Error} {after : Site M},
      site.notify node name qos data = (.error e, after)
        ↔ site.Refused node name data e after) ∧
    (∀ {id : Nat} {bridge : Bridge} {frame : Frame} (now : Nat),
      site.tree.bridge? id = some bridge → (bridge.channel.poll site.medium).1 = some frame →
      frame.packetType = .ok .publish →
      (site.pool.available ≠ 0 →
        ∀ publish, Publish.ofFrame frame = .ok publish → ¬bridge.Minds publish) →
      (bridge.channel.poll site.medium).2.1.counters.framesSent
        = bridge.channel.counters.framesSent ∧
      ∃ after pool, Dropped (site.polled id bridge.channel) id bridge.session frame after ∧
        site.pool.Restored pool ∧ (site.pool.Tidy → pool = site.pool) ∧
        pollAt now site id = { after with pool }) := by
  refine ⟨⟨refused_of_notify, fun refused => refused.notify_eq _⟩, ?_⟩
  intro id bridge frame now there comes type idle
  obtain ⟨after, pool, hdropped, hrestored, hpoll⟩ := exists_pollAt_dropped now there comes type idle
  exact ⟨Channel.framesSent_poll _ _, after, pool, hdropped, hrestored, hrestored.eq_of_tidy, hpoll⟩

/-- Data that is too long is refused without a trace, at a reachable site. -/
theorem bulk_is_refused :
    let site := (start 5 (Pool.ofSize 1) Cabling.empty).run [.call (.build (.addRoot "house"))]
    site.Reachable ∧ site.notify 0 "lit" .atMostOnce (List.replicate 129 0)
      = (.error (.paramsTooLong 129 128), site) := by
  intro site
  have hlong : maxParams < (List.replicate 129 (0 : UInt8)).length := by
    rw [List.length_replicate]
    decide
  have hrefused : site.notify 0 "lit" .atMostOnce (List.replicate 129 0) = _ :=
    (refusals_leave_at_most_a_number site).1.2 (.data hlong)
  rw [List.length_replicate] at hrefused
  exact ⟨⟨_, _, _, _, rfl⟩, hrefused⟩

/-- The id that was given out last at an entry with an endpoint. -/
def lastId? (site : Site M) (id : Nat) : Option UInt16 :=
  (site.tree.endpoint? id).map (·.lastId)

/-- The moves that lead to a bridge whose client has a session and then publishes on a topic of 129
bytes. -/
def wordy : List (Move Cabling) :=
  [.call (.build (.addRoot "house")), .call (.build (.addBridge 0 "door" "wire" 23)),
    .call (.build (.setGuard 1 fun _ _ => true)),
    .around (Pool.ofSize 2) (Cabling.empty.feed "wire"
      [0x10, 0x0d, 0, 4, 0x4d, 0x51, 0x54, 0x54, 4, 2, 0, 60, 0, 1, 0x63]),
    .call (.tick 1),
    .around (Pool.ofSize 2) (Cabling.empty.feed "wire"
      ([0x30, 0x83, 1, 0, 0x81] ++ List.replicate 129 0x6e))]

/-- A name that is too long is refused, and yet leaves a trace: the next request of the node gets id 2
where it would have got 1. A client's PUBLISH on such a topic is dropped, and yet uses up an id of
the bridge. -/
theorem refused_name_takes_an_id :
    let site := (start 5 (Pool.ofSize 1) Cabling.empty).run [.call (.build (.addRoot "house"))]
    let after := (site.notify 0 ("".pushn 'n' 129) .atMostOnce []).2
    let busy := (start 5 (Pool.ofSize 2) Cabling.empty).run wordy
    let heard := pollAt 2 busy 1
    (site.Reachable ∧
      (site.notify 0 ("".pushn 'n' 129) .atMostOnce []).1 = .error (.pathTooLong 129 128) ∧
      site.lastId? 0 = some 0 ∧ after.lastId? 0 = some 1 ∧
      (site.execute 0 "on" "lamp" Params.empty 0 "caller").toOption.map (·.1) = some 1 ∧
      (after.execute 0 "on" "lamp" Params.empty 0 "caller").toOption.map (·.1) = some 2) ∧
    (busy.Reachable ∧ heard.log = busy.log ∧ busy.lastId? 1 = some 0 ∧ heard.lastId? 1 = some 1) := by
  intro site after busy heard
  refine ⟨⟨⟨_, _, _, _, rfl⟩, ?_, ?_, ?_, ?_, ?_⟩, ⟨_, _, _, _, rfl⟩, ?_, ?_, ?_⟩
  all_goals decide +kernel

end Site
end TopicTree
