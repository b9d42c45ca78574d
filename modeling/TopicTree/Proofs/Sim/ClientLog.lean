import TopicTree.Proofs.Sim.Accounts
import TopicTree.Proofs.Sim.Wires
import TopicTree.Proofs.Site.Acceptance
import TopicTree.Proofs.Wire.Frame

/-!
# What the client of a world receives

No step of a world puts a fault on the wire between the bridge and its client, and nobody but the
bridge writes there. So the bytes that have not arrived at the client yet are those of whole frames,
in the order in which the bridge wrote them, and what the client takes in is cut at the same places
again: it never has half a frame left, and never one that it cannot read.
-/

namespace TopicTree

/-! ## A wire without faults -/

variable {G : Type}

/-- Whether no fault touches what is written at an end. -/
def WireEnd.Faultless (sender : WireEnd G) : Prop :=
  sender.refuses = false ∧ sender.dropRate = .below 0 ∧ sender.corruptRate = .below 0

/-- Without faults bytes arrive as they are. -/
theorem WireEnd.Faultless.drawFate_eq [Chance G] {sender : WireEnd G} (h : sender.Faultless) (bytes : Bytes) :
    (sender.drawFate bytes).1 = .intact := by
  obtain ⟨refuses, dropRate, corruptRate⟩ := h
  simp only [drawFate, Fate.drawArrival, refuses, dropRate, corruptRate, Chance.happens_never,
    Bool.false_eq_true, if_false]
  split <;> rfl

namespace Media

/-- Whether the wire to the client has no faults on the side of the bridge, and these bytes wait at
the client. -/
def Waits (media : Media G) (waiting : Bytes) : Prop :=
  ∃ wire, media.client = some wire ∧ (wire.get .left).Faultless ∧ (wire.get .right).inbox = waiting

variable [Chance G] {media after : Media G} {waiting : Bytes} {label : String}

/-- A read at a socket takes nothing from what waits at the client. -/
theorem Waits.receive {outcome : Except TransportError (Option UInt8)} (h : media.Waits waiting)
    (receives : Medium.receive label media = (outcome, after)) : after.Waits waiting := by
  obtain ⟨wire, hclient, hfaultless, hinbox⟩ := h
  simp only [Medium.receive, Media.receive] at receives
  split at receives
  · cases receives
    exact ⟨wire, hclient, hfaultless, hinbox⟩
  · next client _ hsome =>
    obtain rfl := Option.some.inj (hclient.symm.trans hsome)
    cases receives
    refine ⟨_, rfl, ?_, ?_⟩
    · rw [wire.read_eq, FaultyWire.get_modify]
      exact hfaultless
    · rw [wire.read_eq]
      exact (congrArg WireEnd.inbox (wire.get_modify_across .left _)).trans hinbox
  · cases receives
    exact ⟨wire, hclient, hfaultless, hinbox⟩

/-- A write at another socket adds nothing to what waits at the client. -/
theorem Waits.transmit_of_ne (h : media.Waits waiting) (elsewhere : label ≠ bridgeSocket)
    (bytes : Bytes) : (Medium.transmit label bytes media).2.Waits waiting := by
  obtain ⟨wire, hclient, hkept⟩ := h
  simp only [Medium.transmit, Media.transmit]
  split
  · exact ⟨wire, hclient, hkept⟩
  · next hplug _ =>
    simp only [plug?] at hplug
    split at hplug
    · cases hplug
    · split at hplug
      · cases hplug
      · cases hplug
  · exact ⟨wire, hclient, hkept⟩

/-- A write at the socket of the bridge is taken, and waits at the client behind the rest. -/
theorem Waits.transmit (h : media.Waits waiting) (bytes : Bytes) :
    (Medium.transmit bridgeSocket bytes media).1 = .ok () ∧
      (Medium.transmit bridgeSocket bytes media).2.Waits (waiting ++ bytes) := by
  obtain ⟨wire, hclient, hfaultless, hinbox⟩ := h
  have hplug : plug? bridgeSocket = some .client := rfl
  have hfate := hfaultless.drawFate_eq bytes
  simp only [Medium.transmit, Media.transmit, hplug, hclient]
  refine ⟨by rw [wire.write_eq, hfate]; rfl, _, rfl, ?_, ?_⟩
  · rw [wire.get_write]
    exact hfaultless
  · refine (congrArg WireEnd.inbox (wire.get_across_write .left bytes)).trans ?_
    rw [hfate, WireEnd.accept]
    exact congrArg (· ++ bytes) hinbox

/-- A poll takes nothing from what waits at the client. -/
theorem Waits.poll (h : media.Waits waiting) (channel : Channel) :
    (channel.poll media).2.2.Waits waiting :=
  Channel.poll_keeps (P := fun media : Media G => media.Waits waiting) Waits.receive h

end Media

/-! ## What a tree writes to the client -/

/-- The bytes that an event tells of having been written at the socket of the bridge. -/
def Event.toClient? : Event → Option Bytes
  | .wrote socket bytes => if socket = Media.bridgeSocket then some bytes else none
  | _ => none

/-- All runs of bytes that were written at the socket of the bridge, in order. -/
def toClient (events : List Event) : List Bytes :=
  events.filterMap Event.toClient?

@[simp]
theorem toClient_nil : toClient [] = [] :=
  rfl

@[simp]
theorem toClient_append (events more : List Event) :
    toClient (events ++ more) = toClient events ++ toClient more :=
  List.filterMap_append

/-- Whether a tree has a channel at the socket of the bridge only at a given place, or at none. -/
def Tree.BridgesAt (tree : Tree) (place : Option Nat) : Prop :=
  ∀ id channel, tree.channel? id = some channel →
    (channel.socket = Media.bridgeSocket ↔ place = some id)

/-- Where all channels stay at their sockets, it stays so. -/
theorem Tree.BridgesAt.of_same {before after : Tree} {place : Option Nat} (h : before.BridgesAt place)
    (same : before.SameSockets after) : after.BridgesAt place := by
  intro id channel there
  obtain ⟨old, hold, hsocket⟩ := same.exists_channel? there
  rw [← hsocket]
  exact h id old hold

namespace Site

/-- A site that began with an empty log when `waiting` waited at the client. What it has written at
the socket of the bridge are frames that have come to wait behind that. It writes there from one
place or not at all. -/
structure Feeds (place : Option Nat) (waiting : Bytes) (site : Site (Media G)) : Prop where
  bridges : site.tree.BridgesAt place
  waits : site.medium.Waits (waiting ++ (toClient site.log).flatten)
  framed : ∃ frames : List Frame, toClient site.log = frames.map Frame.encode
  silent : place = none → toClient site.log = []

namespace Feeds

variable {place : Option Nat} {waiting : Bytes} {site after : Site (Media G)} {id : Nat}

/-- What leaves sockets, wires and the log as they are, as far as the client is concerned, keeps
this. -/
theorem of_same (h : site.Feeds place waiting) (same : site.tree.SameSockets after.tree)
    (waits : ∀ waiting, site.medium.Waits waiting → after.medium.Waits waiting)
    (log : toClient after.log = toClient site.log) : after.Feeds place waiting where
  bridges := h.bridges.of_same same
  waits := by
    rw [log]
    exact waits _ h.waits
  framed := by
    rw [log]
    exact h.framed
  silent hplace := log.trans (h.silent hplace)

variable [Chance G]

/-- A frame that is written at the bridge comes to wait at the client, and no other frame does. -/
theorem write (h : site.Feeds place waiting) (id : Nat) (frame : Frame) :
    (site.write id frame).Feeds place waiting := by
  cases hchannel : site.tree.channel? id with
  | none => simpa only [Site.write, hchannel] using h
  | some channel =>
    have hsockets : site.tree.SameSockets
        (site.tree.setChannel id (channel.send frame site.medium).2.1) :=
      .of_core (Tree.core_setChannel hchannel (channel.socket_send frame site.medium))
    have hplace := h.bridges id channel hchannel
    rw [write_eq hchannel]
    by_cases hsocket : channel.socket = Media.bridgeSocket
    · obtain ⟨htaken, hwaits⟩ := h.waits.transmit frame.encode
      obtain ⟨frames, hframes⟩ := h.framed
      have hlog : toClient (site.log ++ [.wrote Media.bridgeSocket frame.encode])
          = toClient site.log ++ [frame.encode] := toClient_append _ _
      rw [hsocket, htaken]
      refine ⟨h.bridges.of_same hsockets, ?_, ⟨frames ++ [frame], ?_⟩, fun hnone => ?_⟩
      · dsimp only [Event.ofWrite]
        rw [hlog, List.flatten_append, List.flatten_singleton, ← List.append_assoc]
        exact hwaits
      · dsimp only [Event.ofWrite]
        rw [hlog, hframes, List.map_append, List.map_singleton]
      · rw [hplace.1 hsocket] at hnone
        cases hnone
    · refine h.of_same hsockets (fun waiting hwaits => hwaits.transmit_of_ne hsocket _) ?_
      cases (Medium.transmit channel.socket frame.encode site.medium).1 with
      | error e => exact (toClient_append _ _).trans (List.append_nil _)
      | ok =>
        dsimp only [Event.ofWrite]
        rw [toClient_append]
        simp [toClient, Event.toClient?, hsocket]

/-- Writing and polling keep this. -/
theorem steady (place : Option Nat) (waiting : Bytes) :
    Steady (Feeds (G := G) place waiting) where
  pool _ h := ⟨h.bridges, h.waits, h.framed, h.silent⟩
  tree same h := h.of_same same (fun _ => id) rfl
  note {_ event} unwritten h := by
    have hnone : event.toClient? = none := by
      cases event with
      | wrote socket bytes => exact absurd rfl (unwritten socket bytes)
      | _ => rfl
    exact h.of_same (fun _ => rfl) (fun _ => id) (by simp [Site.note, toClient, hnone])
  write id frame h := h.write id frame
  poll there h := h.of_same (.of_core (Tree.core_setChannel there (Channel.socket_poll _ _)))
    (fun _ hwaits => hwaits.poll _) rfl

end Feeds

end Site

/-! ## What a world has sent to the client -/

/-- Whether a step ticks both trees until no byte is in flight. -/
def Step.Settles (step : Step) : Prop :=
  step = .settle ∨ ∃ ms, step = .advance ms

namespace World

/-- The bytes at the client when it takes in what has arrived. -/
def atClient (world : World G) : Bytes :=
  world.clientBuffer ++ world.media.client.elim [] fun wire => (wire.get .right).inbox

/-- The place from which a tree writes to the client. -/
def bridgeOf : Party → Option Nat
  | .hub => some Hub.bridge
  | .device => none

section Logs

variable [Chance G]

/-- What the hub reports in a round. The device has its turn before. -/
def hubTurn (world : World G) : List Event :=
  (((world.tick .device).siteOf .hub).tick (world.tick .device).clock.now).log

/-- The worlds in which the rounds of a world that settles begin. -/
def roundsIn : (rounds : Nat) → World G → List (World G)
  | 0, _ => []
  | rounds + 1, world =>
    world :: if world.round.isQuiet then [] else roundsIn rounds world.round

/-- The worlds in which the rounds of a step begin. -/
def rounds (world : World G) : Step → List (World G)
  | .settle => roundsIn maxRounds world
  | .advance ms => roundsIn maxRounds { world with clock := world.clock.advance ms }
  | _ => []

/-- What the hub reports in a step: in the rounds, or when it makes a request. -/
def hubLog (world : World G) : Step → List Event
  | .request .hub method path argument =>
    match world.attempt .hub method path argument with
    | .error _ => []
    | .ok (_, site) => site.log
  | step => (world.rounds step).flatMap hubTurn

/-- What the hub reports in the course of steps. -/
def hubLogs (world : World G) : List Step → List Event
  | [] => []
  | step :: steps =>
    world.hubLog step ++ match world.take step with
      | .error _ => []
      | .ok after => after.hubLogs steps

end Logs

/-- What holds of a world when so many runs of bytes have been written to the client. They are the
frames that the client has, and those whose bytes wait for it. -/
structure Tracks (written : List Bytes) (world : World G) : Prop where
  bridges : ∀ party, (world.camp party).tree.BridgesAt (bridgeOf party)
  buffer : world.clientBuffer = []
  waits : ∃ frames : List Frame, world.media.Waits (frames.map Frame.encode).flatten ∧
    written = (world.clientFrames ++ frames).map Frame.encode

namespace Tracks

variable {written : List Bytes} {world after : World G}

/-- A tree as it stands has written nothing yet. -/
theorem feeds (h : world.Tracks written) (party : Party) {frames : List Frame}
    (waits : world.media.Waits (frames.map Frame.encode).flatten) :
    (world.siteOf party).Feeds (bridgeOf party) (frames.map Frame.encode).flatten where
  bridges := h.bridges party
  waits := by
    rw [siteOf, toClient_nil, List.flatten_nil, List.append_nil]
    exact waits
  framed := ⟨[], rfl⟩
  silent _ := rfl

/-- What a tree does adds to what has been written what it has noted of that. -/
theorem putBack (h : world.Tracks written) {party : Party} {site : Site (Media G)}
    (feeds : ∀ waiting, (world.siteOf party).Feeds (bridgeOf party) waiting →
      site.Feeds (bridgeOf party) waiting) :
    (world.putBack party site).Tracks (written ++ toClient site.log) := by
  obtain ⟨waiting, hwaits, hwritten⟩ := h.waits
  obtain ⟨hbridges, hafter, ⟨more, hmore⟩, -⟩ := feeds _ (h.feeds party hwaits)
  have hrest : (world.putBack party site).clientBuffer = world.clientBuffer ∧
      (world.putBack party site).clientFrames = world.clientFrames ∧
      (world.putBack party site).media = site.medium := by
    cases party <;> exact ⟨rfl, rfl, rfl⟩
  obtain ⟨hbuffer, hframes, hmedia⟩ := hrest
  refine ⟨fun other => ?_, hbuffer.trans h.buffer, waiting ++ more, ?_, ?_⟩
  · by_cases hother : other = party
    · subst hother
      rw [camp_putBack_self, Camp.tree_putBack]
      exact hbridges
    · rw [camp_putBack_of_ne world hother]
      exact h.bridges other
  · rw [hmedia, List.map_append, List.flatten_append, ← hmore]
    exact hafter
  · rw [hframes, hwritten, hmore, ← List.map_append, List.append_assoc]

/-- What the device does is not written to the client. -/
theorem device (h : world.Tracks written) {site : Site (Media G)}
    (feeds : ∀ waiting, (world.siteOf .device).Feeds none waiting → site.Feeds none waiting) :
    (world.putBack .device site).Tracks written := by
  obtain ⟨waiting, hwaits, -⟩ := h.waits
  have hsilent := (feeds _ (h.feeds .device hwaits)).silent rfl
  have hafter : (world.putBack .device site).Tracks (written ++ toClient site.log) :=
    h.putBack feeds
  rwa [hsilent, List.append_nil] at hafter

/-- The bytes at the client are those of whole frames. -/
theorem exists_atClient (h : world.Tracks written) :
    ∃ frames : List Frame, world.atClient = (frames.map Frame.encode).flatten ∧
      written = (world.clientFrames ++ frames).map Frame.encode := by
  obtain ⟨frames, ⟨wire, hclient, -, hinbox⟩, hwritten⟩ := h.waits
  refine ⟨frames, ?_, hwritten⟩
  rw [atClient, h.buffer, hclient, Option.elim_some, hinbox, List.nil_append]

/-- The client takes in all frames that wait for it, and nothing is left of them. -/
theorem collect (h : world.Tracks written) : world.collect.Tracks written ∧
    world.collect.clientFrames.map Frame.encode = written := by
  obtain ⟨frames, ⟨wire, hclient, hfaultless, hinbox⟩, hwritten⟩ := h.waits
  have hcollect : world.collect = { world with
      media := { world.media with client := some (wire.drain .right).2 }
      clientBuffer := []
      clientFrames := world.clientFrames ++ frames } := by
    have hread : Frame.decodeAll (world.clientBuffer ++ (wire.drain .right).1) = (frames, []) := by
      rw [h.buffer, List.nil_append, FaultyWire.drain, hinbox, Frame.decodeAll_encode]
    simp only [World.collect, hclient, hread]
  rw [hcollect]
  refine ⟨⟨h.bridges, rfl, [], ⟨_, rfl, ?_, ?_⟩, ?_⟩, hwritten.symm⟩
  · exact (wire.get_modify_across .right _).symm ▸ hfaultless
  · exact congrArg WireEnd.inbox (wire.get_modify .right _)
  · rw [List.append_nil]
    exact hwritten

/-- What changes no tree but for its channels, and nothing about the client, keeps this. -/
theorem of_same (h : world.Tracks written)
    (trees : ∀ party, (world.camp party).tree.SameSockets (after.camp party).tree)
    (buffer : after.clientBuffer = world.clientBuffer)
    (frames : after.clientFrames = world.clientFrames)
    (waits : ∀ waiting, world.media.Waits waiting → after.media.Waits waiting) :
    after.Tracks written where
  bridges party := (h.bridges party).of_same (trees party)
  buffer := buffer.trans h.buffer
  waits := by
    obtain ⟨waiting, hwaits, hwritten⟩ := h.waits
    exact ⟨waiting, waits _ hwaits, by rw [frames, hwritten]⟩

/-- Another time keeps this. -/
theorem advance (h : world.Tracks written) (ms : Nat) :
    ({ world with clock := world.clock.advance ms } : World G).Tracks written := by
  refine h.of_same (fun party _ => ?_) rfl rfl fun _ => id
  cases party <;> rfl

variable [Chance G]

/-- A tick of the hub adds what it writes. -/
theorem tick_hub (h : world.Tracks written) : (world.tick .hub).Tracks
    (written ++ toClient ((world.siteOf .hub).tick world.clock.now).log) :=
  h.putBack fun _ => (Site.Feeds.steady _ _).changes (Site.changes_tick _ _)

/-- What has been written before the client takes in what has arrived in a round. -/
theorem ticked (h : world.Tracks written) :
    ((world.tick .device).tick .hub).Tracks (written ++ toClient world.hubTurn) :=
  (h.device fun _ => (Site.Feeds.steady _ _).changes (Site.changes_tick _ _)).tick_hub

/-- A round adds what the hub writes in it, and the client has all of it then. -/
theorem round (h : world.Tracks written) :
    world.round.Tracks (written ++ toClient world.hubTurn) ∧
      world.round.clientFrames.map Frame.encode = written ++ toClient world.hubTurn :=
  h.ticked.collect

/-- A world that settles adds what the hub writes in all rounds, and the client has all of it
then. -/
theorem settleIn (h : world.Tracks written) {rounds : Nat}
    (settles : settleIn rounds world = .ok after) :
    after.Tracks (written ++ toClient ((roundsIn rounds world).flatMap hubTurn)) ∧
      after.clientFrames.map Frame.encode
        = written ++ toClient ((roundsIn rounds world).flatMap hubTurn) := by
  induction rounds generalizing world written with
  | zero => cases settles
  | succ rounds ih =>
    have hround := h.round
    rw [roundsIn, List.flatMap_cons, toClient_append, ← List.append_assoc]
    simp only [World.settleIn] at settles
    split at settles
    · next hquiet =>
      cases settles
      have hnone : (if world.round.isQuiet then [] else roundsIn rounds world.round) = [] :=
        if_pos hquiet
      rw [hnone, List.flatMap_nil, toClient_nil, List.append_nil]
      exact hround
    · next hbusy =>
      have hmore : (if world.round.isQuiet then [] else roundsIn rounds world.round)
          = roundsIn rounds world.round := if_neg hbusy
      rw [hmore]
      exact ih hround.1 settles

/-- In no round does the client come to bytes that cannot start a frame, whether the world settles
or not. -/
theorem not_stumbles (h : world.Tracks written) {rounds : Nat} :
    ∀ mid ∈ roundsIn rounds world,
      ¬Frame.Stumbles ((mid.tick .device).tick .hub).atClient := by
  induction rounds generalizing world written with
  | zero =>
    intro mid hmid
    rw [roundsIn] at hmid
    cases hmid
  | succ rounds ih =>
    intro mid hmid
    rw [roundsIn, List.mem_cons] at hmid
    rcases hmid with rfl | hlater
    · obtain ⟨frames, hframes, -⟩ := h.ticked.exists_atClient
      rw [hframes]
      exact Frame.not_stumbles_encode frames
    · split at hlater
      · cases hlater
      · exact ih h.round.1 mid hlater

/-- A request adds what the hub writes when it makes it. -/
theorem request (h : world.Tracks written) (party : Party) (method path argument : String) :
    (world.request party method path argument).Tracks
      (written ++ toClient (world.hubLog (.request party method path argument))) := by
  rw [World.request, ← attempt]
  cases hattempt : world.attempt party method path argument with
  | error e =>
    have hsilent : world.hubLog (.request party method path argument) = [] := by
      cases party
      · simp only [hubLog, hattempt]
      · rfl
    rw [hsilent, toClient_nil, List.append_nil]
    exact h.of_same (fun _ _ => rfl) rfl rfl fun _ => id
  | ok issued =>
    obtain ⟨id, site⟩ := issued
    have hfeeds : ∀ waiting, (world.siteOf party).Feeds (bridgeOf party) waiting →
        site.Feeds (bridgeOf party) waiting := by
      intro waiting feeds
      simp only [attempt, bind_eq_ok] at hattempt
      obtain ⟨params, -, accepted⟩ := hattempt
      exact (Site.Feeds.steady _ _).execute accepted feeds
    cases party with
    | hub =>
      simp only [hubLog, hattempt]
      exact h.putBack hfeeds
    | device =>
      have hsilent : toClient (world.hubLog (.request .device method path argument)) = [] := rfl
      rw [hsilent, List.append_nil]
      exact h.device hfeeds

/-- A step adds what the hub writes in it. -/
theorem take (h : world.Tracks written) {step : Step} (taken : world.take step = .ok after) :
    after.Tracks (written ++ toClient (world.hubLog step)) := by
  have idle : toClient (world.hubLog step) = [] → after.Tracks written →
      after.Tracks (written ++ toClient (world.hubLog step)) := by
    intro hsilent hafter
    rwa [hsilent, List.append_nil]
  cases step with
  | settle => exact (h.settleIn taken).1
  | advance ms => exact ((h.advance ms).settleIn taken).1
  | request party method path argument =>
    cases taken
    exact h.request party method path argument
  | notify name data =>
    simp only [World.take, World.notify] at taken
    split at taken
    · cases taken
    · next site hsite =>
      cases taken
      have hafter : ((world.siteOf .device).notify Device.sensor name .atMostOnce data).2 = site :=
        congrArg Prod.snd hsite
      rw [← hafter] at idle ⊢
      exact idle rfl (h.device fun _ => (Site.Feeds.steady _ _).changes (Site.changes_notify _ _ _ _ _))
  | clientSend frame =>
    simp only [World.take, World.clientSend] at taken
    split at taken
    · cases taken
    · next client hsome =>
      cases taken
      refine idle rfl (h.of_same (fun _ _ => rfl) rfl rfl fun waiting hwaits => ?_)
      obtain ⟨wire, hclient, hfaultless, hinbox⟩ := hwaits
      obtain rfl := Option.some.inj (hclient.symm.trans hsome)
      exact ⟨_, rfl, hfaultless, hinbox⟩
  | injectToDevice frame =>
    cases taken
    exact idle rfl (h.of_same (fun _ _ => rfl) rfl rfl fun _ => id)
  | dropRate party rate =>
    cases taken
    exact idle rfl (h.of_same (fun _ _ => rfl) rfl rfl fun _ => id)
  | corruptRate party rate =>
    cases taken
    exact idle rfl (h.of_same (fun _ _ => rfl) rfl rfl fun _ => id)
  | hold count =>
    cases taken
    refine idle rfl (h.of_same (fun party _ => ?_) rfl rfl fun _ => id)
    cases party <;> rfl
  | release =>
    cases taken
    refine idle rfl (h.of_same (fun party _ => ?_) rfl rfl fun _ => id)
    cases party <;> rfl

/-- Steps add what the hub writes in them. -/
theorem takeAll (h : world.Tracks written) {index : Nat} {steps : List Step}
    (taken : world.takeAll index steps = .ok after) :
    after.Tracks (written ++ toClient (world.hubLogs steps)) := by
  induction steps generalizing world written index with
  | nil =>
    cases taken
    rw [hubLogs, toClient_nil, List.append_nil]
    exact h
  | cons step steps ih =>
    simp only [World.takeAll] at taken
    split at taken
    · cases taken
    · next mid hmid =>
      have hafter := ih (h.take hmid) taken
      simp only [hubLogs, hmid, toClient_append, ← List.append_assoc]
      exact hafter

end Tracks

/-- The hub has one channel at the socket of the bridge, which is that of the bridge. -/
theorem bridgesAt_hub {config : WorldConfig} {tree : Tree} (bridged : config.bridge.isSome)
    (built : Hub.build config = .ok tree) : tree.BridgesAt (some Hub.bridge) := by
  obtain ⟨seed, localRoot, poolSize, timeout, interval, bridge⟩ := config
  cases bridge with
  | none => cases bridged
  | some maxClientId =>
    cases built
    intro id channel there
    rcases id with _ | _ | _ | _ | id
    · cases there
    · cases there
    · cases there
      exact (by decide : Media.hubSocket = Media.bridgeSocket ↔ some Hub.bridge = some 2)
    · cases there
      exact iff_of_true rfl rfl
    · cases there

/-- The device has no channel at the socket of the bridge. -/
theorem bridgesAt_device {config : WorldConfig} {tree : Tree}
    (built : Device.build config = .ok tree) : tree.BridgesAt none := by
  obtain ⟨name, hname⟩ := exists_name_of_build built
  simp only [Device.build, Tree.addDownlink, hname] at built
  cases built
  intro id channel there
  rcases id with _ | _ | _ | id
  · cases there
    exact (by decide : Media.deviceSocket = Media.bridgeSocket ↔ none = some 0)
  · cases there
  · cases there
  · cases there

/-- At the start a world with a bridge has sent nothing to the client. -/
theorem tracks_build {link client : Side → G} {config : WorldConfig} {start : World G}
    (bridged : config.bridge.isSome) (built : buildWith link client config = .ok start) :
    start.Tracks [] := by
  simp only [buildWith, bind_eq_ok, pure_eq_ok] at built
  obtain ⟨hub, hhub, device, hdevice, rfl⟩ := built
  obtain ⟨maxClientId, hbridge⟩ := Option.isSome_iff_exists.1 bridged
  have hwaits :
      Media.Waits ⟨FaultyWire.fresh link, config.bridge.map fun _ => .fresh client⟩ [] := by
    refine ⟨.fresh client, ?_, ⟨rfl, rfl, rfl⟩, rfl⟩
    rw [hbridge, Option.map_some]
  refine ⟨fun party => ?_, rfl, [], hwaits, rfl⟩
  cases party with
  | hub => exact bridgesAt_hub bridged hhub
  | device => exact bridgesAt_device hdevice

/-- In a world with a bridge, whatever is drawn and whatever steps it takes, only the bridge has a
channel at the socket of the bridge. After a step that settles, the frames that the client has are
exactly those that were written there since the start, in order, and no byte is left; after any
other step they are the first of them, and the others wait. In no round of any step, not even of one
that fails, is there anything at the client that cannot be read. -/
theorem client_has_what_was_sent [Chance G] {link client : Side → G} {config : WorldConfig}
    {start world : World G} {steps : List Step} (bridged : config.bridge.isSome)
    (built : buildWith link client config = .ok start)
    (taken : start.takeAll 0 steps = .ok world) :
    (∀ party, (world.camp party).tree.BridgesAt (bridgeOf party)) ∧
    world.clientBuffer = [] ∧
    (∃ waiting : List Frame, (world.clientFrames ++ waiting).map Frame.encode
      = toClient (start.hubLogs steps)) ∧
    ∀ step : Step,
      (∀ after, step.Settles → world.take step = .ok after →
        after.clientFrames.map Frame.encode
            = toClient (start.hubLogs steps ++ world.hubLog step) ∧
          after.clientBuffer = []) ∧
      ∀ mid ∈ world.rounds step, ¬Frame.Stumbles ((mid.tick .device).tick .hub).atClient := by
  have tracks := (tracks_build bridged built).takeAll taken
  rw [List.nil_append] at tracks
  obtain ⟨waiting, -, hwritten⟩ := tracks.waits
  refine ⟨tracks.bridges, tracks.buffer, ⟨waiting, hwritten.symm⟩, fun step => ⟨?_, ?_⟩⟩
  · rintro after (rfl | ⟨ms, rfl⟩) settles
    · have hafter := tracks.settleIn settles
      rw [toClient_append]
      exact ⟨hafter.2, hafter.1.buffer⟩
    · have hafter := (tracks.advance ms).settleIn settles
      rw [toClient_append]
      exact ⟨hafter.2, hafter.1.buffer⟩
  · cases step with
    | settle => exact tracks.not_stumbles
    | advance ms => exact (tracks.advance ms).not_stumbles
    | _ => exact fun mid hmid => absurd hmid List.not_mem_nil

/-- A world with a bridge. -/
def bridged : WorldConfig :=
  ⟨7, "dev", 2, 5, 10, some 23⟩

/-- The client sends a keepalive, and the device is not heard. -/
def keepalive : List Step :=
  [.dropRate .device .always, .clientSend Bare.pingReq.toFrame]

/-- The client has the one answer, which is what the bridge has written. -/
theorem keepalive_is_answered :
    ∃ start world after, build bridged = .ok start ∧ start.takeAll 0 keepalive = .ok world ∧
      world.take .settle = .ok after ∧
      after.clientFrames.map Frame.encode = [[0xd0, 0]] ∧
      toClient (start.hubLogs keepalive ++ world.hubLog .settle) = [[0xd0, 0]] := by
  have hruns : (do
      let start ← (build bridged).toOption
      let world ← (start.takeAll 0 keepalive).toOption
      let after ← (world.take .settle).toOption
      return after.clientFrames.map Frame.encode) = some [[0xd0, 0]] := by
    decide +kernel
  simp only [Option.bind_eq_bind, Option.bind_eq_some_iff, toOption_eq_some, Option.pure_def,
    Option.some.injEq] at hruns
  obtain ⟨start, built, world, taken, after, settled, hframes⟩ := hruns
  obtain ⟨-, -, -, hsteps⟩ := client_has_what_was_sent rfl built taken
  obtain ⟨hsent, -⟩ := (hsteps .settle).1 after (.inl rfl) settled
  exact ⟨start, world, after, built, taken, settled, hframes, hsent.symm.trans hframes⟩

end World
end TopicTree
