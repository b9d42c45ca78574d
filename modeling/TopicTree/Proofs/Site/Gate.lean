import TopicTree.Proofs.Channel.Watch
import TopicTree.Proofs.Network.Provisioning
import TopicTree.Proofs.Site.Session
import TopicTree.Proofs.Site.Slots

/-!
# Hub ends without a name

What comes in at a hub end that has no name yet stays outside. Of the tree nothing changes but the
channel of the link, no method is called, nobody is told of anything, and nothing is written anywhere
else. A petition for a name that cannot be had is refused in one frame, and nothing but such
refusals is written at the link before it has a name.
-/

namespace TopicTree

/-! ## Petitions -/

/-- Whether a message is a petition: a request for a name to the manager of a link. -/
def Envelope.isPetition (message : Envelope) : Bool :=
  message.kind = .request ∧ message.dest.isManager ∧ message.method = nameMethod

/-- The name that a petition is for. -/
def Envelope.wish (petition : Envelope) : String :=
  (petition.params.text? 0).getD ""

/-- The code with which a hub end without a name refuses one, if it does: the text is no name, or a
sibling has it. -/
def Tree.refusal? (tree : Tree) (id : Nat) (text : String) : Option ReturnCode :=
  match Name.ofText text with
  | .error _ => some .invalidParams
  | .ok _ =>
    if (tree.parent? id).any fun above => (tree.childNamed above text).isSome then some .badState
    else none

/-- The code with which a hub end refuses a petition, if it does: it is always granted the name that
it has. -/
def Tree.denial? (tree : Tree) (id : Nat) (text : String) : Option ReturnCode :=
  if tree.isNamed text id then none else tree.refusal? id text

/-- Bytes that refuse a petition: those of a frame in which a response is read, with a code for the
refusal and without parameters. -/
def IsRefusal (petition : Envelope × Option ReturnCode) (bytes : Bytes) : Prop :=
  ∃ code, petition.2 = some code ∧ (code = .invalidParams ∨ code = .badState) ∧
    ∃ frame : Frame, bytes = frame.encode ∧
      Envelope.ofFrame frame = .ok (petition.1.response code Params.empty)

namespace Tree

variable {tree left right after : Tree} {id above : Nat} {text : String} {code : ReturnCode}

/-- What is refused is told by the outline. -/
theorem refusal?_congr (same : left.outline = right.outline) (id : Nat) (text : String) :
    left.refusal? id text = right.refusal? id text := by
  have hnamed : left.childNamed = right.childNamed :=
    funext fun above => funext fun text => childNamed_congr same above text
  rw [refusal?, refusal?, parent?_congr same, hnamed]

/-- A name is refused with one of two codes. -/
theorem refusal?_eq_some (h : tree.refusal? id text = some code) :
    code = .invalidParams ∨ code = .badState := by
  unfold refusal? at h
  split at h
  · exact .inl (Option.some.inj h).symm
  · split at h
    · exact .inr (Option.some.inj h).symm
    · cases h

/-- A hub end without a name refuses what is no name and what a sibling has. -/
theorem denial?_of_unnamed (unnamed : tree.name? id = none) (text : String) :
    tree.denial? id text = tree.refusal? id text := by
  simp [denial?, isNamed, unnamed]

/-! ## Hub ends stand below a node -/

/-- Building makes no hub end the first entry. -/
theorem form?_zero_construct {construction : Construction}
    (hbuilt : tree.construct construction = .ok after) (h : tree.form? 0 ≠ some .hubEnd) :
    after.form? 0 ≠ some .hubEnd := by
  rcases Nat.eq_zero_or_pos tree.size with hempty | hsome
  · have hnone : ∀ id, tree.get? id = none := fun id =>
      List.getElem?_eq_none (Nat.le_trans (Nat.le_of_eq hempty) (Nat.zero_le id))
    cases built_construct hbuilt with
    | top name free => simp [form?, get?_add, hempty, Role.form]
    | below there => simp [form?, hnone] at there
    | downlink name free =>
      simp [form?, get?_modify, get?_add, hempty, Role.form, freshLink, LinkEnd.form]
    | method there => simp [endpoint?, hnone] at there
    | listener there => simp [link?, hnone] at there
    | guard there => simp [bridge?, hnone] at there
  · rw [(lasts_construct hbuilt).form? 0 hsome]
    exact h

/-- A hub end stands below another entry. -/
theorem WellFormed.exists_parent? (h : tree.WellFormed) (first : tree.form? 0 ≠ some .hubEnd)
    (hubEnd : tree.form? id = some .hubEnd) : ∃ above, tree.parent? id = some above := by
  cases habove : tree.parent? id with
  | some above => exact ⟨above, rfl⟩
  | none =>
    obtain rfl := h.eq_zero (lt_size_of_form? hubEnd) habove
    exact absurd hubEnd first

end Tree

namespace Envelope

/-- Every petition can be refused. -/
theorem exists_refusal {petition : Envelope} {asked : Frame} (read : ofFrame asked = .ok petition)
    (petitions : petition.isPetition) (code : ReturnCode) :
    ∃ frame, (petition.response code Params.empty).toFrame = .ok frame ∧
      ofFrame frame = .ok (petition.response code Params.empty) := by
  obtain ⟨-, -, hmethod⟩ := of_decide_eq_true petitions
  have hshort : petition.method.utf8ByteSize ≤ maxMethodName := by
    rw [hmethod]
    decide
  exact Carried.exists_toFrame
    ⟨hshort, (ofFrame_eq_ok.1 read).2.1, reads_empty, fun h => absurd rfl h⟩

end Envelope

/-- What is noted of an attempt to write at a socket. -/
def Event.ofWrite (socket : String) (bytes : Bytes) : Except TransportError Unit → Event
  | .ok () => .wrote socket bytes
  | .error _ => .writeFailed socket bytes

/-- What is noted of an attempt tells the bytes. -/
theorem Event.writing?_ofWrite (socket : String) (bytes : Bytes)
    (outcome : Except TransportError Unit) :
    (ofWrite socket bytes outcome).writing? socket = some bytes := by
  cases outcome <;> exact if_pos rfl

namespace Site

variable {M : Type} [Medium M] {site : Site M} {id above : Nat} {link : Link} {text : String}

/-! ## Sending a frame -/

/-- A frame is written at a channel that is there, and noted. -/
theorem write_eq {channel : Channel} (there : site.tree.channel? id = some channel)
    (frame : Frame) : site.write id frame = { site with
      tree := site.tree.setChannel id (channel.send frame site.medium).2.1
      medium := (Medium.transmit channel.socket frame.encode site.medium).2
      log := site.log ++ [.ofWrite channel.socket frame.encode
        (Medium.transmit channel.socket frame.encode site.medium).1] } := by
  simp only [write, there, Channel.send]
  rcases Medium.transmit channel.socket frame.encode site.medium with ⟨_ | _, after⟩ <;> rfl

/-- With a free slot a frame that is sent is written, and the slot is given back. -/
theorem send_eq {channel : Channel} (there : site.tree.channel? id = some channel)
    (free : site.pool.available ≠ 0) (frame : Frame) : ∃ pool, site.pool.Restored pool ∧
      site.send id frame = { site.write id frame with pool } := by
  obtain ⟨slot, pool, claimed⟩ := Pool.exists_bind free frame
  have hthere : ({ site with pool } : Site M).tree.channel? id = some channel := there
  refine ⟨pool.release slot, .release claimed (.refl pool), ?_⟩
  simp only [send, holding, claimed, write_eq hthere, write_eq there]

/-- Without a free slot nothing is sent. -/
theorem send_of_full (full : site.pool.available = 0) (frame : Frame) :
    site.send id frame = site :=
  holding_of_full full frame (·.write id frame)

/-- The first entry is no hub end after a step if it was none before. -/
theorem form?_zero_take (h : site.tree.form? 0 ≠ some .hubEnd) (step : RunStep M) :
    (site.take step).tree.form? 0 ≠ some .hubEnd := by
  rcases exists_or_forall_not (step = .build ·) with ⟨construction, rfl⟩ | plain
  · simp only [take, move, perform]
    split
    · exact h
    · next after hbuilt => exact Tree.form?_zero_construct hbuilt h
  · rw [(renamed_take site plain).form]
    exact h

/-! ## Answers to petitions -/

omit [Medium M] in
/-- A name that is refused is not taken. -/
theorem adopt_of_denial? {code : ReturnCode} (below : site.tree.parent? id = some above)
    (refused : site.tree.denial? id text = some code) (link : Link) :
    site.adopt id link text = (code, site) := by
  unfold Tree.denial? at refused
  split at refused
  · cases refused
  · next hother =>
    unfold Tree.refusal? at refused
    unfold Site.adopt
    cases hname : Name.ofText text with
    | error e =>
      simp only [hname, Option.some.injEq] at refused
      exact congrArg (·, site) refused
    | ok name =>
      simp only [hname, below, Option.any_some] at refused
      split at refused
      · next htaken => simp [hother, below, htaken, Option.some.inj refused]
      · cases refused

omit [Medium M] in
/-- A name that is not refused is taken, and the listeners are told of the first one. -/
theorem exists_name_adopt (below : site.tree.parent? id = some above)
    (granted : site.tree.denial? id text = none) (link : Link) :
    ∃ name : Name, name.text = text ∧ site.adopt id link text
      = (.success, { site with
          tree := site.tree.setName id name
          log := site.log
            ++ if (site.tree.name? id).isSome then [] else link.listeners.map .linkUp }) := by
  unfold Tree.denial? at granted
  split at granted
  · next hnamed =>
    have hany := hnamed
    rw [Tree.isNamed, Option.any_eq_true] at hany
    obtain ⟨name, hname, htext⟩ := hany
    obtain rfl := of_decide_eq_true htext
    refine ⟨name, rfl, ?_⟩
    simp only [Site.adopt, Name.ofText_text, if_pos hnamed, hname, Option.isSome_some, if_true,
      List.append_nil, Tree.setName_of_name? hname]
  · next hother =>
    unfold Tree.refusal? at granted
    unfold Site.adopt
    cases hname : Name.ofText text with
    | error e => simp [hname] at granted
    | ok name =>
      simp only [hname, below, Option.any_some] at granted
      split at granted
      · cases granted
      · next hfree =>
        refine ⟨name, Name.text_of_ofText hname, ?_⟩
        cases hold : site.tree.name? id with
        | none => simp [hother, below, hfree, announce_eq, Site.withTree]
        | some old => simp [hother, below, hfree, Site.withTree]

/-- The petition that the manager of a link handles when the link is polled, if it handles one.
Without a free slot a frame is dropped. -/
def petition? (site : Site M) (id : Nat) : Option Envelope :=
  if site.pool.available = 0 then none
  else (site.arriving? id).bind fun frame =>
    (Envelope.ofFrame frame).toOption.filter Envelope.isPetition

/-- A petition that is handled is a message that is handled. -/
theorem petition?_eq (site : Site M) (id : Nat) :
    site.petition? id = (site.message? id).filter Envelope.isPetition := by
  unfold petition? message?
  split
  · rfl
  · cases site.arriving? id <;> rfl

/-- A petition that is handled has come in, and there is a slot for it. -/
theorem petition?_eq_some {petition : Envelope} (h : site.petition? id = some petition) :
    site.pool.available ≠ 0 ∧ petition.isPetition ∧
      ∃ frame, site.arriving? id = some frame ∧ Envelope.ofFrame frame = .ok petition := by
  rw [petition?_eq] at h
  obtain ⟨hmessage, hpetition⟩ := Option.filter_eq_some_iff.1 h
  obtain ⟨hfree, hread⟩ := message?_eq_some hmessage
  exact ⟨hfree, hpetition, hread⟩

/-- A hub end that is polled handles a petition, drops what comes in, or, once it has a name, lets a
message go up. -/
theorem pollAt_hub (there : site.tree.link? id = some link) (place : link.place = .hub) (now : Nat) :
    (∃ petition, site.petition? id = some petition ∧
      pollAt now site id = (site.polled id link.channel).answerNaming id
        { link with channel := (link.channel.poll site.medium).2.1 } petition) ∨
    site.petition? id = none ∧ (pollAt now site id = site.polled id link.channel ∨
      ∃ message, (site.tree.name? id).isSome ∧
        pollAt now site id = (site.polled id link.channel).route (.up id message)) := by
  have hname := Tree.name?_congr (outline_polled site id link.channel) id
  rw [petition?_eq]
  rcases pollAt_of_link? there now with ⟨hnone, heq⟩ | ⟨message, handles, -, heq⟩
  · exact .inr ⟨by rw [hnone]; rfl, .inl heq⟩
  · rw [handles, heq place, receiveAbove]
    by_cases hpetition : message.isPetition
    · rw [if_pos (of_decide_eq_true hpetition)]
      exact .inl ⟨message, Option.filter_some_pos hpetition, rfl⟩
    · rw [if_neg fun h => hpetition (decide_eq_true h)]
      refine .inr ⟨Option.filter_some_neg (Bool.not_eq_true _ ▸ hpetition), ?_⟩
      split
      · exact .inl rfl
      · next name hsome => exact .inr ⟨message, by simp [← hname, hsome], rfl⟩

/-- A hub end without a name that is polled handles petitions and nothing else. -/
theorem pollAt_unnamed (there : site.tree.link? id = some link) (place : link.place = .hub)
    (unnamed : site.tree.name? id = none) (now : Nat) :
    pollAt now site id
      = match site.petition? id with
        | none => site.polled id link.channel
        | some petition => (site.polled id link.channel).answerNaming id
            { link with channel := (link.channel.poll site.medium).2.1 } petition := by
  rcases pollAt_hub there place now with ⟨petition, hpetition, heq⟩ | ⟨hnone, heq | ⟨_, hnamed, -⟩⟩
  · rw [hpetition]
    exact heq
  · rw [hnone]
    exact heq
  · rw [unnamed] at hnamed
    cases hnamed

/-! ## Polls that let nothing in -/

/-- A poll of a link at which nothing got in, and which was answered in some runs of bytes. -/
structure Bars (id : Nat) (link : Link) (answers : List Bytes) (before after : Site M) : Prop where
  /-- Only the channel of the link changed: no table, no session, no name and no entry did. -/
  tree : ∃ channel, channel.socket = link.channel.socket ∧
    after.tree = before.tree.setChannel id channel
  pool : before.pool.Restored after.pool
  /-- Bytes were taken at the socket of the link, and then the answers were written there. -/
  medium : after.medium = answers.foldl
    (fun medium bytes => (Medium.transmit link.channel.socket bytes medium).2)
    (link.channel.poll before.medium).2.2
  /-- The answers are all that anybody notices. -/
  log : ∃ events, after.log = before.log ++ events ∧
    events.map (Event.writing? link.channel.socket) = answers.map some

namespace Bars

/-- What is written at the socket of the link is the answers. -/
theorem writings {answers : List Bytes} {before after : Site M} (h : Bars id link answers before after) :
    after.log.filterMap (Event.writing? link.channel.socket)
      = before.log.filterMap (Event.writing? link.channel.socket) ++ answers := by
  obtain ⟨events, hlog, hevents⟩ := h.log
  have hanswers : events.filterMap (Event.writing? link.channel.socket) = answers := by
    simpa [List.filterMap_map] using congrArg (List.filterMap fun bytes => bytes) hevents
  rw [hlog, List.filterMap_append, hanswers]

end Bars

/-- Nothing gets in at a poll that is not answered. -/
theorem bars_polled (site : Site M) (id : Nat) (link : Link) :
    Bars id link [] site (site.polled id link.channel) where
  tree := ⟨_, Channel.socket_poll _ _, rfl⟩
  pool := .refl site.pool
  medium := rfl
  log := ⟨[], (List.append_nil _).symm, rfl⟩

/-- Nothing gets in at a poll that is answered in a frame. -/
theorem bars_polled_send (there : site.tree.link? id = some link)
    (free : site.pool.available ≠ 0) (frame : Frame) :
    Bars id link [frame.encode] site ((site.polled id link.channel).send id frame) := by
  have hsocket := Channel.socket_poll link.channel site.medium
  have hthere := Tree.channel?_of_link? (link?_polled there)
  have hfree : (site.polled id link.channel).pool.available ≠ 0 := free
  obtain ⟨pool, hpool, hsend⟩ := send_eq hthere hfree frame
  rw [hsend, write_eq hthere]
  refine ⟨⟨_, (Channel.socket_send _ _ _).trans hsocket, Tree.setChannel_setChannel _ _ _ _⟩, hpool,
    ?_, [_], rfl, ?_⟩
  · rw [hsocket]
    rfl
  · rw [hsocket, List.map_singleton, Event.writing?_ofWrite, List.map_singleton]

/-- The petition that the manager of a link handles in a step, and the code with which it is refused
if it is. -/
def petitionIn? (site : Site M) (id : Nat) : RunStep M → Option (Envelope × Option ReturnCode)
  | .poll _ other =>
    if other = id then
      (site.petition? id).map fun petition => (petition, site.tree.refusal? id petition.wish)
    else none
  | _ => none

/-- The petitions that the manager of a link handles in the course of steps. -/
def petitions (site : Site M) (id : Nat) :
    List (RunStep M) → List (Envelope × Option ReturnCode)
  | [] => []
  | step :: steps => (site.petitionIn? id step).toList ++ (site.take step).petitions id steps

section Unnamed

variable (wellFormed : site.tree.WellFormed) (first : site.tree.form? 0 ≠ some .hubEnd)
  (there : site.tree.link? id = some link) (place : link.place = .hub)
  (unnamed : site.tree.name? id = none)
include wellFormed first there place unnamed

/-- What a hub end without a name knows when it handles a petition. -/
theorem exists_parent?_polled :
    ∃ above, (site.polled id link.channel).tree.parent? id = some above ∧
      (site.polled id link.channel).tree.name? id = none ∧
      ∀ {text}, (site.polled id link.channel).tree.denial? id text = site.tree.refusal? id text := by
  have houtline := outline_polled site id link.channel
  have hform := Tree.form?_hubEnd there place
  obtain ⟨above, habove⟩ := wellFormed.exists_parent? first hform
  have hunnamed := (Tree.name?_congr houtline id).trans unnamed
  exact ⟨above, (Tree.parent?_congr houtline id).trans habove, hunnamed,
    fun {text} => (Tree.denial?_of_unnamed hunnamed text).trans (Tree.refusal?_congr houtline id text)⟩

/-- A hub end without a name lets nothing in, unless a petition is granted. -/
theorem exists_bars (now : Nat)
    (refused : ∀ petition ∈ site.petitionIn? id (.poll now id), petition.2.isSome) :
    ∃ answers, List.Forall₂ IsRefusal (site.petitionIn? id (.poll now id)).toList answers ∧
      Bars id link answers site (pollAt now site id) := by
  obtain ⟨above, hbelow, hunnamed, hrefusal⟩ :=
    exists_parent?_polled wellFormed first there place unnamed
  have hpoll := pollAt_unnamed there place unnamed now
  simp only [petitionIn?, ↓reduceIte] at refused ⊢
  cases hpetition : site.petition? id with
  | none =>
    rw [hpetition] at hpoll
    exact ⟨[], .nil, hpoll ▸ bars_polled site id link⟩
  | some petition =>
    rw [hpetition] at hpoll
    obtain ⟨hfree, hasks, asked, -, hread⟩ := petition?_eq_some hpetition
    obtain ⟨code, hcode⟩ := Option.isSome_iff_exists.1
      (refused (petition, site.tree.refusal? id petition.wish) (by simp [hpetition]))
    obtain ⟨frame, hframe, hanswer⟩ := Envelope.exists_refusal hread hasks code
    have hadopt := adopt_of_denial? hbelow (hrefusal.trans hcode)
      { link with channel := (link.channel.poll site.medium).2.1 }
    have hparams : (if code = .success then (Params.ofText petition.wish).toOption.getD Params.empty
        else Params.empty) = Params.empty := by
      rcases Tree.refusal?_eq_some hcode with rfl | rfl <;> rfl
    have hsent : (site.polled id link.channel).answerNaming id
        { link with channel := (link.channel.poll site.medium).2.1 } petition
        = (site.polled id link.channel).send id frame := by
      simp only [Envelope.wish] at hadopt hparams
      simp only [answerNaming, hadopt, hparams, sendEnvelope, hframe, sendPacket]
    refine ⟨[frame.encode], ?_, (hpoll.trans hsent) ▸ bars_polled_send there hfree frame⟩
    exact .cons ⟨code, hcode, Tree.refusal?_eq_some hcode, frame, rfl, hanswer⟩ .nil

/-- A hub end takes the name for which a petition is granted. -/
theorem isSome_name?_pollAt (now : Nat) {petition : Envelope × Option ReturnCode}
    (handles : site.petitionIn? id (.poll now id) = some petition) (granted : petition.2 = none) :
    ((pollAt now site id).tree.name? id).isSome := by
  obtain ⟨above, hbelow, hunnamed, hrefusal⟩ :=
    exists_parent?_polled wellFormed first there place unnamed
  simp only [petitionIn?, ↓reduceIte] at handles
  obtain ⟨asked, hasked, rfl⟩ := Option.map_eq_some_iff.1 handles
  obtain ⟨name, -, hname⟩ := exists_name_adopt hbelow (hrefusal.trans granted)
    { link with channel := (link.channel.poll site.medium).2.1 }
  rw [pollAt_unnamed there place unnamed now, hasked]
  simp only [answerNaming, sendEnvelope]
  rw [Tree.name?_congr (Tree.outline_eq_of_core (sendPacket_cases _ id _).1)]
  simp only [Envelope.wish] at hname
  have hthere := Tree.lt_size_of_form? (Tree.form?_of_link? (link?_polled there))
  rw [hname, Tree.name?_setName_self hthere]
  rfl

end Unnamed

/-! ## Steps -/

/-- A petition is handled at a poll. -/
theorem petitionIn?_of_beside {step : RunStep M} (beside : ∀ now, step ≠ .poll now id) :
    site.petitionIn? id step = none := by
  cases step with
  | poll now other => exact if_neg fun heq : other = id => beside now (heq ▸ rfl)
  | build | execute | notify | expire | provision | around => rfl

/-- No petition is handled at an entry that is not there. -/
theorem petitionIn?_of_get? (absent : site.tree.get? id = none) (step : RunStep M) :
    site.petitionIn? id step = none := by
  have hnone : site.petition? id = none := by
    simp [petition?, arriving?, Tree.channel?, absent]
  cases step with
  | poll now other => simp [petitionIn?, hnone]
  | build | execute | notify | expire | provision | around => rfl

/-- A step that does not poll a hub end leaves it with the name it has, or without one. -/
theorem name?_take_beside {step : RunStep M} (beside : ∀ now, step ≠ .poll now id)
    (after : (site.take step).tree.form? id = some .hubEnd ∨
      (site.take step).tree.get? id = none) :
    (site.take step).tree.name? id = site.tree.name? id := by
  rcases spares_take_beside site beside with
    spares | ⟨construction, grown, rfl, hbuilt, htake⟩
  · exact spares.name?
  · rw [htake] at after ⊢
    rcases after with hubEnd | hlater
    · exact Tree.name?_construct hbuilt hubEnd
    · replace hlater : grown.get? id = none := hlater
      have hnone : site.tree.get? id = none := by
        rw [Tree.get?, List.getElem?_eq_none_iff] at hlater ⊢
        exact Nat.le_trans (Tree.size_le_construct hbuilt) hlater
      simp [Site.withTree, Tree.name?, hlater, hnone]

section Steps

variable (wellFormed : site.tree.WellFormed) (first : site.tree.form? 0 ≠ some .hubEnd)
  (before : site.tree.form? id = some .hubEnd ∨ site.tree.get? id = none) (step : RunStep M)
include wellFormed first before

/-- A hub end is without a name after a step if it was before and every petition that it handles is
refused, and not otherwise. -/
theorem name?_take_eq_none_iff
    (after : (site.take step).tree.form? id = some .hubEnd ∨
      (site.take step).tree.get? id = none) :
    (site.take step).tree.name? id = none ↔ site.tree.name? id = none ∧
      ∀ petition ∈ site.petitionIn? id step, petition.2.isSome := by
  rcases exists_or_forall_not (step = .poll · id) with ⟨now, rfl⟩ | beside
  · rcases before with hubEnd | hnone
    · obtain ⟨link, there, place⟩ := Tree.exists_hubEnd hubEnd
      constructor
      · intro hafter
        replace hafter : (pollAt now site id).tree.name? id = none := hafter
        have unnamed : site.tree.name? id = none := by
          rcases pollAt_hubEnd wellFormed there place now with
            spares | ⟨-, _, _, _, -, -, -, -, -, hname⟩
          · exact spares.name? ▸ hafter
          · rw [hafter] at hname
            cases hname
        refine ⟨unnamed, fun petition handles => Option.isSome_iff_ne_none.2 fun granted => ?_⟩
        have hnamed := isSome_name?_pollAt wellFormed first there place unnamed now handles granted
        simp [hafter] at hnamed
      · rintro ⟨unnamed, refused⟩
        obtain ⟨answers, -, hbars⟩ := exists_bars wellFormed first there place unnamed now refused
        obtain ⟨channel, -, htree⟩ := hbars.tree
        refine Eq.trans ?_ unnamed
        exact Tree.name?_congr (htree ▸ Tree.outline_setChannel site.tree id channel) id
    · rw [take_poll_of_get? hnone, petitionIn?_of_get? hnone]
      simp
  · rw [name?_take_beside beside after, petitionIn?_of_beside beside]
    simp

/-- What is written in a step at the socket of a hub end without a name is refusals, one for each
petition that it handles. -/
theorem exists_refusals_take {socket : String} (unnamed : site.tree.name? id = none)
    (refused : ∀ petition ∈ site.petitionIn? id step, petition.2.isSome)
    (mine : ∀ channel, site.tree.channel? id = some channel → channel.socket = socket)
    (own : ∀ other channel, site.tree.channel? other = some channel → channel.socket = socket →
      other = id) :
    ∃ answers, List.Forall₂ IsRefusal (site.petitionIn? id step).toList answers ∧
      (site.take step).log.filterMap (Event.writing? socket)
        = site.log.filterMap (Event.writing? socket) ++ answers := by
  have hquiet : ∀ {rule : Frame → Prop}, Spares rule id site (site.take step) →
      site.tree.client? id = none → ((site.tree.link? id).isSome → ∀ frame, ¬rule frame) →
      (site.take step).log.filterMap (Event.writing? socket)
        = site.log.filterMap (Event.writing? socket) ++ [] := by
    intro rule spares nobody silent
    obtain ⟨events, hlog, hevents⟩ := spares.unwritten own silent
    rw [hlog, List.filterMap_append, List.filterMap_eq_nil_iff.2 (hevents nobody)]
  rcases exists_or_forall_not (step = .poll · id) with ⟨now, rfl⟩ | beside
  · rcases before with hubEnd | hnone
    · obtain ⟨link, there, place⟩ := Tree.exists_hubEnd hubEnd
      obtain ⟨answers, hanswers, hbars⟩ :=
        exists_bars wellFormed first there place unnamed now refused
      obtain rfl := mine _ (Tree.channel?_of_link? there)
      exact ⟨answers, hanswers, hbars.writings⟩
    · rw [take_poll_of_get? hnone, petitionIn?_of_get? hnone]
      exact ⟨[], .nil, (List.append_nil _).symm⟩
  · rw [petitionIn?_of_beside beside]
    refine ⟨[], .nil, ?_⟩
    have hcases : ∃ rule : Frame → Prop,
        Routes M (fun other frame => other = id → rule frame) site.tree (site.path? step) ∧
        (∀ request frame, site.tree.namingRequest? id = some request →
          request.toFrame = .ok frame → rule frame) ∧
        site.tree.client? id = none ∧ ((site.tree.link? id).isSome → ∀ frame, ¬rule frame) := by
      rcases before with hubEnd | hnone
      · obtain ⟨link, there, -⟩ := Tree.exists_hubEnd hubEnd
        refine ⟨fun _ => False, routes_named wellFormed hubEnd (by simp [unnamed]) _, ?_,
          Tree.client?_of_link? there, by simp⟩
        simp [wellFormed.namingRequest?_hubEnd hubEnd]
      · refine ⟨fun _ => True, routes_of_forall (fun _ _ _ => trivial) _ _,
          fun _ _ _ _ => trivial, ?_, ?_⟩
        · simp [Tree.client?, Tree.bridge?, hnone]
        · simp [Tree.link?, hnone]
    obtain ⟨rule, routes, attempts, nobody, silent⟩ := hcases
    rcases spares_take routes attempts beside with spares | ⟨construction, grown, -, -, htake⟩
    · exact hquiet spares nobody silent
    · rw [htake, List.append_nil]
      rfl

end Steps

/-! ## Whole runs -/

/-- The petitions of steps in two parts. -/
theorem petitions_append (site : Site M) (id : Nat) (front back : List (RunStep M)) :
    site.petitions id (front ++ back)
      = site.petitions id front ++ (site.follow front).petitions id back := by
  induction front generalizing site with
  | nil => rfl
  | cons step front ih =>
    change (site.petitionIn? id step).toList ++ (site.take step).petitions id (front ++ back) = _
    rw [ih, ← List.append_assoc]
    rfl

/-- The first entry is no hub end after steps if it was none before. -/
theorem form?_zero_follow (h : site.tree.form? 0 ≠ some .hubEnd) (steps : List (RunStep M)) :
    (site.follow steps).tree.form? 0 ≠ some .hubEnd := by
  induction steps generalizing site with
  | nil => exact h
  | cons step steps ih => exact ih (form?_zero_take h step)

section Runs

variable (wellFormed : site.tree.WellFormed) (first : site.tree.form? 0 ≠ some .hubEnd)
  (steps : List (RunStep M))
include wellFormed first

/-- A hub end is without a name after steps if it was before and every petition that it handled was
refused, and not otherwise. -/
theorem name?_follow_eq_none_iff
    (hubEnd : (site.follow steps).tree.form? id = some .hubEnd) :
    (site.follow steps).tree.name? id = none ↔ site.tree.name? id = none ∧
      ∀ petition ∈ site.petitions id steps, petition.2.isSome := by
  induction steps generalizing site with
  | nil => simp [follow, petitions]
  | cons step steps ih =>
    replace hubEnd : ((site.take step).follow steps).tree.form? id = some .hubEnd := hubEnd
    have hlater := lasts_follow (site.take step) steps
    have hafter := hlater.form?_or hubEnd
    have hbefore := ((lasts_take site step).trans hlater).form?_or hubEnd
    have hrest := ih (wellFormed_take wellFormed step) (form?_zero_take first step) hubEnd
    have hstep := name?_take_eq_none_iff wellFormed first hbefore step hafter
    change ((site.take step).follow steps).tree.name? id = none ↔ _
    rw [hrest, hstep, petitions, List.forall_mem_append, and_assoc]
    simp only [Option.mem_toList, Option.mem_def]

/-- What is written in the course of steps at a hub end without a name is refusals, one for each
petition that it handled. -/
theorem exists_refusals_follow {mine : Channel}
    (hubEnd : (site.follow steps).tree.form? id = some .hubEnd)
    (there : (site.follow steps).tree.channel? id = some mine)
    (own : (site.follow steps).tree.Owns id)
    (unnamed : (site.follow steps).tree.name? id = none) :
    ∃ answers, List.Forall₂ IsRefusal (site.petitions id steps) answers ∧
      (site.follow steps).log.filterMap (Event.writing? mine.socket)
        = site.log.filterMap (Event.writing? mine.socket) ++ answers := by
  induction steps generalizing site with
  | nil => exact ⟨[], .nil, (List.append_nil _).symm⟩
  | cons step steps ih =>
    replace hubEnd : ((site.take step).follow steps).tree.form? id = some .hubEnd := hubEnd
    replace unnamed : ((site.take step).follow steps).tree.name? id = none := unnamed
    have hlater := lasts_follow (site.take step) steps
    have hlasts := (lasts_take site step).trans hlater
    have hafter := hlater.form?_or hubEnd
    have hbefore := hlasts.form?_or hubEnd
    have wellFormed' := wellFormed_take wellFormed step
    have first' := form?_zero_take first step
    obtain ⟨hname, -⟩ := (name?_follow_eq_none_iff wellFormed' first' steps hubEnd).1 unnamed
    obtain ⟨hunnamed, hrefused⟩ :=
      (name?_take_eq_none_iff wellFormed first hbefore step hafter).1 hname
    obtain ⟨answers, hanswers, hlog⟩ := exists_refusals_take wellFormed first hbefore step hunnamed
      hrefused
      (fun channel hchannel => by
        obtain ⟨last, hlast, hsocket⟩ := hlasts.channel? hchannel
        rw [← hsocket, Option.some.inj (hlast.symm.trans there)])
      (hlasts.eq_of_socket own there)
    obtain ⟨more, hmore, hrest⟩ := ih wellFormed' first' hubEnd there own unnamed
    refine ⟨answers ++ more, List.rel_append hanswers hmore, ?_⟩
    change ((site.take step).follow steps).log.filterMap _ = _
    rw [hrest, hlog, List.append_assoc]

end Runs

/-- An unnamed link admits nothing. A hub end is without a name exactly as long as every petition
that it has handled was refused. As long as it is, no poll of it has let anything in: of the tree
nothing changed but the channel of the link, no method was called, nobody was told of anything, and
nothing was written but one refusal for a petition, if one was handled. These refusals, one for each
petition, are all that has been written at the socket of the link, if no other entry has it. -/
theorem unnamed_link_admits_nothing (timeout : Nat) (pool : Pool) (medium : M)
    (steps : List (RunStep M)) {id : Nat} {link : Link}
    (there : ((start timeout pool medium).follow steps).tree.link? id = some link)
    (place : link.place = .hub) :
    let origin := start timeout pool medium
    let site := origin.follow steps
    (site.tree.name? id = none ↔ ∀ petition ∈ origin.petitions id steps, petition.2.isSome) ∧
    (site.tree.name? id = none →
      (∀ front now back, steps = front ++ .poll now id :: back →
        ∀ early, (origin.follow front).tree.link? id = some early →
          ∃ answers,
            List.Forall₂ IsRefusal ((origin.follow front).petitionIn? id (.poll now id)).toList
              answers ∧
            Bars id early answers (origin.follow front) (origin.follow (front ++ [.poll now id]))) ∧
      (site.tree.Owns id → List.Forall₂ IsRefusal (origin.petitions id steps)
        (site.log.filterMap (Event.writing? link.channel.socket)))) := by
  intro origin site
  have wellFormed : origin.tree.WellFormed := .empty timeout
  have first : origin.tree.form? 0 ≠ some .hubEnd := nofun
  have hubEnd := Tree.form?_hubEnd there place
  have hnamed := name?_follow_eq_none_iff wellFormed first steps hubEnd
  have hnobody : origin.tree.name? id = none := rfl
  refine ⟨hnamed.trans (and_iff_right hnobody), fun unnamed => ⟨?_, fun own => ?_⟩⟩
  · rintro front now back rfl early hearly
    have hrefused := (hnamed.1 unnamed).2
    rw [petitions_append, List.forall_mem_append] at hrefused
    have hlasts := lasts_follow (origin.follow front) (.poll now id :: back)
    rw [← follow_append] at hlasts
    have hform : (origin.follow front).tree.form? id = some .hubEnd := by
      refine (hlasts.form?_or hubEnd).resolve_right fun hnone => ?_
      simp [Tree.link?, hnone] at hearly
    have hplace : early.place = .hub := by
      obtain ⟨found, hfound, hplace⟩ := Tree.exists_hubEnd hform
      obtain rfl : early = found := Option.some.inj (hearly.symm.trans hfound)
      exact hplace
    rw [follow_append]
    refine exists_bars (wellFormed_follow wellFormed front) (form?_zero_follow first front) hearly
      hplace ?_ now fun petition handles => hrefused.2 petition ?_
    · exact (name?_follow_eq_none_iff wellFormed first front hform).2 ⟨hnobody, hrefused.1⟩
    · exact List.mem_append_left _ (Option.mem_toList.2 handles)
  · obtain ⟨answers, hanswers, hlog⟩ := exists_refusals_follow wellFormed first steps hubEnd
      (Tree.channel?_of_link? there) own unnamed
    have hall : site.log.filterMap (Event.writing? link.channel.socket) = answers := hlog
    exact hall ▸ hanswers

/-- The steps that lead to a node `lamp` and a hub end beside it, at whose socket two frames wait: a
request for the method `on` of the lamp, and a petition for its name. -/
def intrude : List (RunStep Cabling) :=
  [.build (.addRoot "hub"), .build (.addNode 0 "lamp"), .build (.addMethod 1 "on" Handler.echo),
    .build (.addUplink 0 "wire" 10),
    .around (Pool.ofSize 1) (Cabling.empty.feed "wire"
      [48, 14, 0, 6, 45, 62, 108, 97, 109, 112, 0, 1, 2, 111, 110, 0,
        48, 37, 0, 10, 45, 62, 95, 108, 105, 110, 107, 77, 97, 110, 4, 210, 8, 95, 103, 101, 116, 78,
        97, 109, 101, 8, 95, 108, 105, 110, 107, 77, 97, 110, 4, 108, 97, 109, 112])]

/-- The request is dropped, although the lamp has the method, and the petition is refused, because
the lamp has the name. -/
theorem intruder_stays_outside :
    let origin := start 5 (Pool.ofSize 1) Cabling.empty
    let site := origin.follow (intrude ++ [.poll 1 2, .poll 2 2])
    site.tree.name? 2 = none ∧
      (∃ link, Bars 2 link [] (origin.follow intrude) (origin.follow (intrude ++ [.poll 1 2]))) ∧
      ∃ petition bytes, IsRefusal (petition, some .badState) bytes ∧
        site.log.filterMap (Event.writing? "wire") = [bytes] := by
  let origin := start 5 (Pool.ofSize 1) Cabling.empty
  let steps := intrude ++ [.poll 1 2, .poll 2 2]
  have hend : ((origin.follow steps).tree.link? 2).map (fun link => (link.place, link.channel.socket))
      = some (.hub, "wire") := by decide +kernel
  obtain ⟨link, there, heq⟩ := Option.map_eq_some_iff.1 hend
  obtain ⟨place, socket⟩ := Prod.mk.inj heq
  obtain ⟨hnamed, hbars⟩ :=
    unnamed_link_admits_nothing 5 (Pool.ofSize 1) Cabling.empty steps there place
  have hcodes : (origin.petitions 2 steps).map Prod.snd = [some .badState] := by decide +kernel
  obtain ⟨⟨petition, code⟩, hpetitions, rfl⟩ := List.map_eq_singleton_iff.1 hcodes
  have unnamed : (origin.follow steps).tree.name? 2 = none := hnamed.2 (by simp [origin, hpetitions])
  obtain ⟨hpolls, hwrites⟩ := hbars unnamed
  have hown : (origin.follow steps).tree.Owns 2 := by decide +kernel
  refine ⟨unnamed, ?_, petition, ?_⟩
  · obtain ⟨early, hearly⟩ : ∃ early, (origin.follow intrude).tree.link? 2 = some early := ⟨_, rfl⟩
    obtain ⟨answers, hanswers, hbars⟩ := hpolls intrude 1 [.poll 2 2] rfl early hearly
    have hnone : (origin.follow intrude).petitionIn? 2 (.poll 1 2) = none := by decide +kernel
    rw [hnone] at hanswers
    cases hanswers
    exact ⟨early, hbars⟩
  · have hall := hwrites hown
    rw [hpetitions, socket] at hall
    obtain ⟨bytes, _, hrefusal, hrest, hwritten⟩ := List.forall₂_cons_left_iff.1 hall
    cases hrest
    exact ⟨bytes, hrefusal, hwritten⟩

end Site
end TopicTree
