import Mathlib.Data.List.Infix
import TopicTree.Proofs.Site.Waits

/-!
# To whom replies go

A bridge does not take note of the session in which a request came in. When it replies, it does so
to whoever has a session then: to the client that asked if the session has not been turned over
since, to its successor if there is one, and to nobody if there is none.
-/

namespace TopicTree.Site

variable {M : Type} [Medium M] {site : Site M} {id : Nat}

/-- In the course of steps a client has published a request for which its bridge has waited since:
when the request came in, and whose session it was then. -/
structure Received (origin : Site M) (id : Nat) (row : Pending) (before : List (RunStep M))
    (now : Nat) (after : List (RunStep M)) (asker : String) : Prop where
  session : (origin.follow before).tree.client? id = some asker
  asks : ∃ bridge target payload, (origin.follow before).Receives id bridge target payload ∧
    row.requester = .client ("<-" ++ target)
  /-- The request that came in turned over no session. -/
  kept : (origin.follow (before ++ [.poll now id])).tree.client? id = some asker
  waits : ∀ part, part <+: after →
    row ∈ (origin.follow (before ++ .poll now id :: part)).tree.awaited id

/-- A client that publishes a request has a session. -/
theorem exists_client?_of_receives {bridge : Bridge} {target : String} {payload : Bytes}
    (asks : site.Receives id bridge target payload) :
    ∃ client, site.tree.client? id = some client := by
  obtain ⟨frame, publish, hheard, -⟩ := asks.heard
  obtain ⟨hbridge, -, -⟩ := heard?_eq_some hheard
  exact Option.ne_none_iff_exists'.1 (Handles.client?_ne_none hbridge asks.session)

/-- A client that publishes a request keeps its session, whatever comes of the request at once. -/
theorem client?_poll_of_receives (wellFormed : site.tree.WellFormed) {bridge : Bridge}
    {target : String} {payload : Bytes} (asks : site.Receives id bridge target payload)
    (now : Nat) : (site.take (.poll now id)).tree.client? id = site.tree.client? id := by
  obtain ⟨frame, publish, hheard, hpublish, -⟩ := asks.heard
  have htype := Publish.packetType_of_ofFrame hpublish
  have hturn : bridge.turn? frame = none :=
    Bridge.turn?_of_ne (by simp [htype]) (by simp [htype])
  have hheardIn : site.heardIn? id (.poll now id) = some (bridge, frame) :=
    (if_pos rfl).trans hheard
  rw [(take_turn wellFormed id (.poll now id)).1, hheardIn, Option.bind_some, hturn]
  rfl

/-- Whatever a bridge awaits for a client has been received from one. -/
theorem exists_received {origin : Site M} (wellFormed : origin.tree.WellFormed)
    (fresh : origin.tree.awaited id = []) {row : Pending} {topic : String}
    (client : row.requester = .client topic) {steps : List (RunStep M)}
    (waits : row ∈ (origin.follow steps).tree.awaited id) :
    ∃ before now after asker, steps = before ++ .poll now id :: after ∧
      origin.Received id row before now after asker := by
  induction steps using List.reverseRecOn with
  | nil =>
    rw [follow, List.foldl_nil, fresh] at waits
    cases waits
  | append_singleton steps step ih =>
    have hlast : origin.follow (steps ++ [step]) = (origin.follow steps).take step :=
      follow_append origin steps [step]
    by_cases hold : row ∈ (origin.follow steps).tree.awaited id
    · obtain ⟨before, now, after, asker, rfl, h⟩ := ih hold
      refine ⟨before, now, after ++ [step], asker, by simp, h.session, h.asks, h.kept, ?_⟩
      intro part hpart
      rcases List.prefix_concat_iff.1 hpart with rfl | hearlier
      · rwa [List.append_assoc, List.cons_append] at waits
      · exact h.waits part hearlier
    · rw [hlast] at waits
      have hbegins := (begins_of_take waits).resolve_left hold
      rw [client] at hbegins
      generalize hrequester : Requester.client topic = requester at hbegins
      cases hbegins with
      | caller step tag => cases hrequester
      | @client bridge target payload now asks =>
        obtain ⟨asker, hasker⟩ := exists_client?_of_receives asks
        refine ⟨steps, now, [], asker, rfl, hasker, ⟨bridge, target, payload, asks, ?_⟩, ?_, ?_⟩
        · rw [client, hrequester]
        · rw [hlast, client?_poll_of_receives (wellFormed_follow wellFormed steps) asks, hasker]
        · intro part hpart
          rw [List.prefix_nil.1 hpart, hlast]
          exact waits

/-- The session since a request came in is that of the last turn heard since then, and still that in
which it came in if none was. -/
theorem Received.client?_eq {origin : Site M} (wellFormed : origin.tree.WellFormed) {row : Pending}
    {before after : List (RunStep M)} {now : Nat} {asker : String}
    (h : origin.Received id row before now after asker) :
    (origin.follow (before ++ .poll now id :: after)).tree.client? id
      = (((origin.follow (before ++ [.poll now id])).heard id after).filterMap
          fun heard => heard.1.turn? heard.2).getLast?.getD (some asker) := by
  rw [List.append_cons, follow_append, ← h.kept]
  exact (follow_turns (wellFormed_follow wellFormed _) id after).1

/-- Wherever a run has led: a request that comes in turns over no session, and whatever a bridge
awaits for a client came in as a request of one, in a session. If that session has not been turned
over since, it is the one there is now, and if it has, the one there is now is what the last turn
made of it. In whatever step the wait ends, that step turns over no session, and the reply goes to
the session there is, and to nobody if there is none. -/
theorem replies_follow_turns (timeout : Nat) (pool : Pool) (medium : M) (steps : List (RunStep M))
    (id : Nat) :
    let origin := start timeout pool medium
    let site := origin.follow steps
    (∀ bridge target payload now, site.Receives id bridge target payload →
      site.tree.client? id ≠ none ∧
        (site.take (.poll now id)).tree.client? id = site.tree.client? id) ∧
    ∀ row topic, row ∈ site.tree.awaited id → row.requester = .client topic →
      ∃ before now after asker, steps = before ++ .poll now id :: after ∧
        origin.Received id row before now after asker ∧
        site.tree.client? id
          = (((origin.follow (before ++ [.poll now id])).heard id after).filterMap
            fun heard => heard.1.turn? heard.2).getLast?.getD (some asker) ∧
        ∀ step, row ∉ (site.take step).tree.awaited id →
          (site.take step).tree.client? id = site.tree.client? id ∧
          ∃ (mid : Site M) (code : ReturnCode) (params : Params),
            mid.tree.client? id = site.tree.client? id ∧ site.log <+: mid.log ∧
            (mid.answerClient id topic code params).log <+: (site.take step).log ∧
            (site.tree.client? id = none → mid.answerClient id topic code params = mid) := by
  have hempty : (start timeout pool medium).tree.WellFormed := .empty timeout
  have hfresh : (start timeout pool medium).tree.awaited id = [] := rfl
  refine ⟨fun bridge target payload now asks => ?_, fun row topic waits client => ?_⟩
  · obtain ⟨client, hclient⟩ := exists_client?_of_receives asks
    refine ⟨by simp [hclient], ?_⟩
    exact client?_poll_of_receives (wellFormed_follow hempty steps) asks now
  · obtain ⟨before, now, after, asker, rfl, hreceived⟩ :=
      exists_received hempty hfresh client waits
    refine ⟨before, now, after, asker, rfl, hreceived, hreceived.client?_eq hempty, ?_⟩
    intro step ends
    obtain ⟨hsame, mid, code, params, hclient, hpast, hlog⟩ := informs_of_take waits ends
    rw [client] at hlog
    refine ⟨hsame, mid, code, params, hclient, hpast, hlog, fun gone => ?_⟩
    simp only [answerClient, hclient, gone]

/-- A DISCONNECT, and a CONNECT of protocol level 4 from client `d` behind it. -/
def takeover : Bytes :=
  [0xe0, 0, 0x10, 0x0d, 0, 4, 0x4d, 0x51, 0x54, 0x54, 4, 2, 0, 60, 0, 1, 0x64]

/-- The steps in which client `d` takes the place of client `c` at a bridge. -/
def handover : List (RunStep Cabling) :=
  [.around (Pool.ofSize 2) ((Cabling.empty.connect "port" "client").feed "port" takeover),
    .poll 4 2, .poll 5 2]

/-- The row of a request of client `c` that nobody answers. -/
def orphan : Pending :=
  ⟨1, 8, .client "<-~/../desk/on"⟩

/-- A request came in from client `c`, whose session has been closed and replaced since. When the
waiting time is over, client `d` is told of the timeout. -/
theorem successor_is_answered :
    let origin := start 5 (Pool.ofSize 2) Cabling.empty
    let site := origin.follow (call ++ .poll 3 2 :: handover)
    origin.Received 2 orphan call 3 handover "c" ∧
    (((origin.follow (call ++ [.poll 3 2])).heard 2 handover).filterMap
      fun heard => heard.1.turn? heard.2) = [none, some "d"] ∧
    site.tree.client? 2 = some "d" ∧ (site.take (.expire 8 2)).tree.awaited 2 = [] ∧
    ∃ frame, (Publish.plain "<-~/../desk/on" [ReturnCode.timeout.toByte]).toFrame = .ok frame ∧
      (site.take (.expire 8 2)).log = site.log ++ [.wrote "port" frame.encode] := by
  intro origin site
  have hreceived : origin.Received 2 orphan call 3 handover "c" := by
    refine ⟨by decide +kernel, ?_, by decide +kernel, ?_⟩
    · have hheard : ((origin.follow call).heard? 2).map (fun heard => (heard.1.session.isSome,
          (Publish.ofFrame heard.2).toOption))
          = some (true, some (Publish.plain "->~/../desk/on" [])) := by decide +kernel
      obtain ⟨⟨bridge, frame⟩, hfound, heq⟩ := Option.map_eq_some_iff.1 hheard
      simp only [Prod.mk.injEq, toOption_eq_some] at heq
      obtain ⟨hsession, hpublish⟩ := heq
      exact ⟨bridge, "~/../desk/on", [], ⟨hsession, frame, _, hfound, hpublish, rfl, rfl⟩, rfl⟩
    · have hwaits : ∀ part ∈ handover.inits,
          orphan ∈ (origin.follow (call ++ .poll 3 2 :: part)).tree.awaited 2 := by decide +kernel
      exact fun part hpart => hwaits part ((List.mem_inits part handover).2 hpart)
  have hframe : ((Publish.plain "<-~/../desk/on" [ReturnCode.timeout.toByte]).toFrame).isOk := by
    decide +kernel
  obtain ⟨frame, hframe⟩ := exists_eq_ok hframe
  have hlog : (site.take (.expire 8 2)).log = site.log ++ ((Publish.plain "<-~/../desk/on"
      [ReturnCode.timeout.toByte]).toFrame.toOption.map fun frame =>
        .wrote "port" frame.encode).toList := by decide +kernel
  rw [hframe] at hlog
  exact ⟨hreceived, by decide +kernel, by decide +kernel, by decide +kernel, frame, hframe, hlog⟩

/-- What client `d` is told is what becomes of a request that came in before. -/
theorem successor_waits_for_orphan :
    let origin := start 5 (Pool.ofSize 2) Cabling.empty
    let site := origin.follow (call ++ .poll 3 2 :: handover)
    ∃ before now after asker, origin.Received 2 orphan before now after asker ∧
      ∃ (mid : Site Cabling) (code : ReturnCode) (params : Params),
        mid.tree.client? 2 = some "d" ∧ site.log <+: mid.log ∧
        (mid.answerClient 2 "<-~/../desk/on" code params).log
          <+: (site.take (.expire 8 2)).log := by
  intro origin site
  obtain ⟨-, hrows⟩ := replies_follow_turns 5 (Pool.ofSize 2) Cabling.empty
    (call ++ .poll 3 2 :: handover) 2
  obtain ⟨before, now, after, asker, -, hreceived, -, hends⟩ :=
    hrows orphan "<-~/../desk/on" (by decide +kernel) rfl
  obtain ⟨-, mid, code, params, hclient, hpast, hlog, -⟩ := hends (.expire 8 2) (by decide +kernel)
  have hsuccessor : site.tree.client? 2 = some "d" := by decide +kernel
  exact ⟨before, now, after, asker, hreceived, mid, code, params, hclient.trans hsuccessor, hpast,
    hlog⟩

end TopicTree.Site
