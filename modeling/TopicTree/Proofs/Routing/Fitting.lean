import TopicTree.Proofs.Message.Capacity
import TopicTree.Proofs.Routing.Fidelity
import TopicTree.Proofs.Site.Mirror
import TopicTree.Proofs.Site.Spread

/-!
# Messages fit wherever they get

A request for which somebody waits asks for a method with a short name, and a notification names no
place. Both stay so on the way, within trees and across links, and what a request turns into asks
for the same method. So nothing that a node or a client sends is ever too large for a frame,
although its source grows with every entry that it leaves.
-/

namespace TopicTree

/-! ## Light messages on their way -/

/-- A path without levels stays one when its first level is taken off. -/
theorem Path.segments_dropFirst {path : Path} (h : path.segments = "") :
    path.dropFirst.segments = "" := by
  change String.ofList (Level.afterFirst path.segments.toList) = ""
  rw [h]
  rfl

/-- A path without levels is read back from its own text. -/
theorem Path.reads_of_segments {path : Path} (h : path.segments = "") : path.Reads := by
  rw [Path.reads_iff, Path.misleads, h]
  cases path.anchor <;> rfl

namespace Envelope

/-- The text of a kind and a destination tells both apart. -/
theorem topic_inj {kind other : Kind} {rest rest' : String}
    (h : kind.marker ++ rest = other.marker ++ rest') : kind = other ∧ rest = rest' := by
  have hfirst := Kind.splitMarker_eq_some.2 (Eq.refl (kind.marker ++ rest))
  rw [h, Kind.splitMarker_eq_some.2 rfl] at hfirst
  cases hfirst
  exact ⟨rfl, rfl⟩

/-- The text behind a length byte is told by the bytes. -/
theorem shortText_inj {text other : String} {rest rest' : Bytes} (short : text.utf8ByteSize ≤ 255)
    (short' : other.utf8ByteSize ≤ 255) (h : shortText text ++ rest = shortText other ++ rest') :
    text = other := by
  have hread : readShortText "text" (shortText other ++ rest') = .ok (text, rest) :=
    readShortText_eq_ok.2 ⟨short, h.symm⟩
  rw [readShortText_eq_ok.2 ⟨short', rfl⟩] at hread
  cases hread
  rfl

/-- The record of a message tells its method. -/
theorem method_of_record {message other : Envelope} {code code' : Option UInt8}
    (h : message.record code = other.record code') : message.method = other.method := by
  have hlen : (Field.wordBytes message.id).length = (Field.wordBytes other.id).length := by
    rw [Field.length_wordBytes, Field.length_wordBytes]
  exact shortText_inj (Nat.le_trans message.methodFits (by decide))
    (Nat.le_trans other.methodFits (by decide)) (List.append_inj h hlen).2

/-- What is read from the frame of a message is of its kind and has its method and the text of its
destination. -/
theorem same_of_read {message arrived : Envelope} {frame : Frame}
    (made : message.toFrame = .ok frame) (read : ofFrame frame = .ok arrived) :
    arrived.kind = message.kind ∧ arrived.method = message.method ∧
      arrived.dest.toText = message.dest.toText := by
  obtain ⟨-, -, packetId, code, retain, dup, -, -, hread⟩ := ofFrame_eq_ok.1 read
  have hwritten := Publish.ofFrame_eq_ok_iff_toFrame.2 (toFrame_eq_ok.1 made)
  have hsame : arrived.publication packetId code retain dup = message.written :=
    Except.ok.inj (hread.symm.trans hwritten)
  obtain ⟨hkind, hdest⟩ := topic_inj (congrArg Publish.topic hsame)
  exact ⟨hkind, method_of_record (congrArg Publish.payload hsame), hdest⟩

/-- A light message is read as a light one, even if its source is read as another path. -/
theorem IsLight.read {message arrived : Envelope} {frame : Frame} (light : message.IsLight)
    (made : message.toFrame = .ok frame) (read : ofFrame frame = .ok arrived) :
    arrived.IsLight := by
  obtain ⟨hkind, hmethod, htext⟩ := same_of_read made read
  rcases light with short | ⟨hnotifies, hempty⟩
  · exact .inl (hmethod ▸ short)
  · have hback : arrived.dest.Reads := (ofFrame_eq_ok.1 read).1
    have hdest : arrived.dest = message.dest := by
      rw [Path.Reads, htext, Path.reads_of_segments hempty] at hback
      exact (Except.ok.inj hback).symm
    exact .inr ⟨hkind.trans hnotifies, hdest ▸ hempty⟩

end Envelope

namespace Site

/-- A light message goes on as a light one. -/
theorem Leg.isLight {M : Type} {site after : Site M} {hop next : Hop} (h : site.Leg hop next after)
    (light : hop.message.IsLight) : next.message.IsLight := by
  have hasks : ∀ {message : Envelope} (code : ReturnCode) (params : Params),
      message.kind = .request → message.IsLight → (message.response code params).IsLight := by
    rintro message code params asked (short | ⟨hnotifies, -⟩)
    · exact .inl short
    · cases asked.symm.trans hnotifies
  cases h with
  | turn => exact light
  | leave => exact light
  | climb => exact light
  | enter => exact light.imp_right fun ⟨hkind, hempty⟩ => ⟨hkind, Path.segments_dropFirst hempty⟩
  | refuse _ _ _ asked => exact hasks _ _ asked light
  | serve _ asked => exact hasks _ _ asked light

/-- A light message is handed over as a light one. -/
theorem Relays.isLight {tree : Tree} {hop : Hop} {link : Nat} {relayed : Envelope}
    (h : Relays tree hop link relayed) (light : hop.message.IsLight) : relayed.IsLight := by
  cases h with
  | up =>
    unfold Envelope.relayedUp
    split <;> exact light
  | @down _ _ message _ _ _ crosses =>
    unfold Envelope.relayedDown? at crosses
    cases hanchor : message.source.anchor <;> simp only [hanchor] at crosses <;> cases crosses <;>
      exact light

end Site

/-! ## From end to end -/

namespace Envelope

/-- A message that sets out: a request for whose response a node or bridge has begun to wait, or a
notification. -/
inductive SetsOut : Envelope → Prop
  | request {endpoint waiting : Endpoint} {deadline : Nat} {requester : Requester} {id : UInt16}
      {dest : Path} {method : String} {params : Params} {request : Envelope}
      (begun : endpoint.beginRequest method deadline requester = .ok (id, waiting))
      (made : Envelope.request dest method 0 params = .ok request) : SetsOut { request with id }
  | notification {name : String} {id : UInt16} {qos : Qos} {params : Params} {message : Envelope}
      (made : notification name id qos params = .ok message) : SetsOut message

/-- What a message may have become after any number of hops: it goes some way at a site, or it is
handed over a link in a frame and read at the other end. -/
inductive Becomes (message : Envelope) : Envelope → Prop
  | start : Becomes message message
  | goes {M : Type} [Medium M] {site mid : Site M} {hop last : Hop}
      (sofar : Becomes message hop.message) (goes : Site.Goes hop site last mid) :
      Becomes message last.message
  | crosses {tree : Tree} {hop : Hop} {link : Nat} {relayed arrived : Envelope} {frame : Frame}
      (sofar : Becomes message hop.message) (relays : Site.Relays tree hop link relayed)
      (made : relayed.toFrame = .ok frame) (read : ofFrame frame = .ok arrived) :
      Becomes message arrived

/-- A request has the method that it was made for. -/
theorem method_of_request {dest : Path} {method : String} {id : UInt16} {params : Params}
    {message : Envelope} (made : request dest method id params = .ok message) :
    message.method = method := by
  unfold request outgoing at made
  split at made
  · cases made
    rfl
  · cases made

/-- A message that sets out is light. -/
theorem SetsOut.isLight {message : Envelope} (h : message.SetsOut) : message.IsLight := by
  cases h with
  | request begun made =>
    exact .inl ((method_of_request made).symm ▸ Endpoint.size_le_of_beginRequest begun)
  | notification made => exact isLight_of_notification made

/-- A light message is light wherever it has got. -/
theorem Becomes.isLight {message later : Envelope} (h : message.Becomes later)
    (light : message.IsLight) : later.IsLight := by
  induction h with
  | start => exact light
  | goes _ goes ih =>
    exact goes.keeps (P := fun _ hop => hop.message.IsLight) (fun leg => leg.isLight) ih
  | crosses _ relays made read ih => exact (relays.isLight ih).read made read

end Envelope

namespace Site

variable {M : Type} [Medium M]

/-- What a caller asks of a node is a message that sets out from there. -/
theorem setsOut_of_execute {site after : Site M} {node : Nat} {method path tag : String}
    {params : Params} {now : Nat} {id : UInt16}
    (accepted : site.execute node method path params now tag = .ok (id, after)) :
    ∃ (waiting : Site M) (message : Envelope), message.SetsOut ∧
      after = waiting.route (.up node message) := by
  obtain ⟨dest, request, old, new, -, hrequest, -, hbegun, rfl⟩ := execute_eq_ok accepted
  exact ⟨_, _, .request hbegun hrequest, rfl⟩

/-- What a node is asked to tell the top is a message that sets out from there. -/
theorem setsOut_of_notify {site after : Site M} {node : Nat} {name : String} {qos : Qos}
    {data : Bytes} (accepted : site.notify node name qos data = (.ok (), after)) :
    ∃ (numbered : Site M) (message : Envelope), message.SetsOut ∧
      after = numbered.route (.up node message) := by
  unfold notify at accepted
  split at accepted
  · cases accepted
  · simp only [] at accepted
    split at accepted
    · cases accepted
    · next notification made =>
      cases accepted
      exact ⟨_, notification, .notification made, rfl⟩

/-- What a client asks of its bridge is a message that sets out from there. -/
theorem setsOut_of_requestFor {site : Site M} {id : Nat} {bridge : Bridge} {now : Nat}
    {target : String} {payload : Bytes} {request : Envelope} {endpoint : Endpoint}
    (short : (Kind.response.marker ++ target).utf8ByteSize ≤ maxPath)
    (begun : beginClientRequest bridge target payload (now + site.tree.timeout)
      (Kind.response.marker ++ target) = .ok (request, endpoint)) :
    request.SetsOut ∧ site.requestFor id bridge now target payload
      = (site.withTree (site.tree.setEndpoint id endpoint)).route (.up id request) := by
  refine ⟨?_, by simp only [requestFor, if_neg (Nat.not_lt_of_le short), begun]⟩
  simp only [beginClientRequest, clientRequest, bind_eq_ok, pure_eq_ok, Prod.mk.injEq] at begun
  obtain ⟨asked, ⟨dest, -, params, -, hmade⟩, ⟨key, waiting⟩, hbegun, rfl, rfl⟩ := begun
  exact .request (Envelope.method_of_request hmade ▸ hbegun) hmade

/-- A message is nowhere lost for its size. -/
structure Fits (M : Type) [Medium M] (message : Envelope) : Prop where
  /-- It can be written into a frame where it stands. -/
  written : ∃ frame, message.toFrame = .ok frame
  /-- When it is routed and gets to a link, a frame is sent there. -/
  handed {site mid : Site M} {hop last : Hop} {link : Nat} {relayed : Envelope}
    (wellFormed : site.tree.WellFormed) (stands : hop.message = message)
    (goes : Goes hop site last mid) (relays : Relays mid.tree last link relayed) :
    ∃ frame, relayed.toFrame = .ok frame ∧ site.route hop = mid.send link frame
  /-- When it is spread, one frame goes to all who subscribed to it. -/
  spread (site : Site M) : ∃ frame,
    (Publish.plain (fanOutTopic message) message.params.bytes).toFrame = .ok frame ∧
    (site.tree.subscribers (fanOutTopic message) ≠ [] → site.fanOut message
      = site.holding frame (·.writeAll frame (site.tree.subscribers (fanOutTopic message))))
  /-- When it settles the request of a client, a frame is sent to the client. -/
  told {site : Site M} {bridge : Nat} {topic : String}
    (asked : topic.utf8ByteSize ≤ maxPath) (session : (site.tree.client? bridge).isSome) :
    ∃ frame, site.answerClient bridge topic message.code message.params = site.send bridge frame

/-- A light message is nowhere lost for its size. -/
theorem fits_of_isLight {message : Envelope} (light : message.IsLight) : Fits M message where
  written := Envelope.exists_toFrame_of_room light.room_le
  handed wellFormed stands goes relays := by
    have hlast := goes.keeps (P := fun _ hop => hop.message.IsLight) (fun leg => leg.isLight)
      (stands ▸ light)
    obtain ⟨frame, hframe⟩ := Envelope.exists_toFrame_of_room (relays.isLight hlast).room_le
    refine ⟨frame, hframe, (goes.route_eq wellFormed relays.step).trans ?_⟩
    rw [sendEnvelope, hframe, sendPacket]
  spread site := by
    have hsize := size_clientTopic_le message.source.fits message.methodFits
    rw [← fanOutTopic_eq] at hsize
    obtain ⟨frame, hframe⟩ := exists_toFrame_plain hsize message.params.fits
    refine ⟨frame, hframe, fun hsome => ?_⟩
    rw [fanOut, if_neg (not_or.2 ⟨Nat.not_lt_of_le hsize, hsome⟩)]
    simp only [hframe]
  told {site bridge topic} asked session := by
    obtain ⟨client, hclient⟩ := Option.isSome_iff_exists.1 session
    obtain ⟨frame, hframe⟩ := exists_toFrame_reply asked message.code message.params
    refine ⟨frame, ?_⟩
    simp only [answerClient, hclient, hframe, sendPacket]

/-- A message is written exactly if it takes no more room than a frame has, and is refused for its
room otherwise. A short method or the maker of notifications is enough for that, whatever the source
has grown to. What callers and clients make a node send is a message that sets out, and such a
message is nowhere lost for its size, wherever it gets and whatever it becomes. -/
theorem nothing_outgrows_frames (message : Envelope) (site : Site M) :
    ((∃ frame, message.toFrame = .ok frame) ↔ message.room ≤ frameCapacity) ∧
      (frameCapacity < message.room →
        message.toFrame = .error (.wire (.frameTooLarge message.room frameCapacity))) ∧
      (message.method.utf8ByteSize ≤ maxMethodName ∨
          (∃ name id qos params, Envelope.notification name id qos params = .ok message) →
        ∀ source, ∃ frame, { message with source }.toFrame = .ok frame) ∧
      (message.SetsOut → ∀ later, message.Becomes later → Fits M later) ∧
      (∀ node method path params now tag id after,
        site.execute node method path params now tag = .ok (id, after) →
        ∃ (waiting : Site M) (request : Envelope), request.SetsOut ∧
          after = waiting.route (.up node request)) ∧
      (∀ node name qos data after, site.notify node name qos data = (.ok (), after) →
        ∃ (numbered : Site M) (notification : Envelope), notification.SetsOut ∧
          after = numbered.route (.up node notification)) ∧
      ∀ id bridge now target payload request endpoint,
        (Kind.response.marker ++ target).utf8ByteSize ≤ maxPath →
        beginClientRequest bridge target payload (now + site.tree.timeout)
          (Kind.response.marker ++ target) = .ok (request, endpoint) →
        request.SetsOut ∧ site.requestFor id bridge now target payload
          = (site.withTree (site.tree.setEndpoint id endpoint)).route (.up id request) := by
  have hlarge : frameCapacity < message.room →
      message.toFrame = .error (.wire (.frameTooLarge message.room frameCapacity)) :=
    Envelope.toFrame_of_room
  refine ⟨⟨?_, Envelope.exists_toFrame_of_room⟩, hlarge, ?_, ?_, ?_, ?_, ?_⟩
  · rintro ⟨frame, hframe⟩
    by_contra hroom
    cases hframe.symm.trans (hlarge (Nat.lt_of_not_le hroom))
  · intro light source
    have hlight : { message with source }.IsLight := by
      rcases light with short | ⟨name, id, qos, params, made⟩
      · exact .inl short
      · exact (Envelope.isLight_of_notification made : message.IsLight)
    exact Envelope.exists_toFrame_of_room hlight.room_le
  · exact fun setsOut later becomes => fits_of_isLight (becomes.isLight setsOut.isLight)
  · exact fun _ _ _ _ _ _ _ _ accepted => setsOut_of_execute accepted
  · exact fun _ _ _ _ _ accepted => setsOut_of_notify accepted
  · exact fun _ _ _ _ _ _ _ short begun => setsOut_of_requestFor short begun

/-- A text of as many letters as a method may have bytes. -/
def longTitle : String :=
  String.ofList (List.replicate maxTitle 'm')

/-- A request whose texts and parameters are as long as they may be. -/
def bulky : Envelope :=
  ⟨.request, ⟨.top, longTitle, by decide +kernel⟩, ⟨.top, longTitle, by decide +kernel⟩, 1,
    longTitle, .success, .atLeastOnce, ⟨List.replicate maxParams 0, by decide +kernel⟩, by decide +kernel⟩

/-- The bulkiest request takes ten bytes more than a frame has; a request of the house for a lamp in
its shed is sent there. -/
theorem bulky_is_refused :
    bulky.toFrame = .error (.wire (.frameTooLarge 522 512)) ∧
      ∃ frame, annexed.route (.up 0 (errand ⟨.top, "shed/lamp", by decide⟩))
        = annexed.send 1 frame := by
  let path : Path := ⟨.top, "shed/lamp", by decide⟩
  let relayed := { errand path with dest := ⟨.near, "lamp", by decide⟩ }
  have hroom : bulky.room = 522 := by decide +kernel
  have hrefused := (nothing_outgrows_frames bulky annexed).2.1 (by rw [hroom]; decide)
  have hspells : path.Spells [⟨"shed", by decide, by decide, by decide⟩,
      ⟨"lamp", by decide, by decide, by decide⟩] := rfl
  have hrelays : Relays annexed.tree (.down 1 (errand path.dropFirst)) 1 relayed :=
    annexed_relays (by decide +kernel)
  have hsets : (errand path).SetsOut :=
    @Envelope.SetsOut.request Endpoint.empty _ 0 (.caller "asker") 1 path "on" Params.empty
      { errand path with id := 0 } rfl rfl
  have hfits : Fits Cabling (errand path) :=
    (nothing_outgrows_frames (errand path) annexed).2.2.2.1 hsets _ .start
  obtain ⟨frame, -, hroute⟩ := hfits.handed reachable_annexed.wellFormed rfl
    (errand_goes rfl hspells) hrelays
  exact ⟨hroom ▸ hrefused, frame, hroute⟩

end Site
end TopicTree
