import TopicTree.Proofs.Message.Capacity
import TopicTree.Proofs.Site.Gate

/-!
# Adoption of names

The manager of a hub end answers every petition that it handles, with one response to where the
petition came from. It grants the name that the hub end has and every name that no sibling has,
whoever else takes and gives out names around it in the meantime. So a hub end has the name that was
granted last, and it comes up when the first one is granted.
-/

namespace TopicTree

/-- A name is told by its text. -/
theorem Name.text_inj {name other : Name} : name.text = other.text ↔ name = other := by
  cases name
  cases other
  simp

/-- The text of a name behind its length byte is short enough for parameters. -/
theorem Name.length_shortText_le (name : Name) :
    (Envelope.shortText name.text).length ≤ maxParams := by
  have hfits := name.fits
  rw [Envelope.length_shortText]
  simp only [maxName, maxParams] at *
  omega

/-- The parameters whose only field is a name. -/
def Params.ofName (name : Name) : Params :=
  ⟨Envelope.shortText name.text, name.length_shortText_le⟩

/-- The text of a name is short enough for a field. -/
theorem Params.ofText_name (name : Name) : ofText name.text = .ok (ofName name) := by
  have hsize := Text.length_toBytes name.text
  have hshort : ¬maxField < (Text.toBytes name.text).length := by
    have hfits := name.fits
    simp only [maxName, maxField] at *
    omega
  have hbytes : empty.bytes ++ (Text.toBytes name.text).length.toUInt8 :: Text.toBytes name.text
      = Envelope.shortText name.text := by
    rw [hsize]
    rfl
  rw [ofText, addText, addField, if_neg hshort, hbytes, ofBytes, dif_pos name.length_shortText_le]
  rfl

namespace Envelope

/-- The text that a petition asks for is a name exactly if its first parameter is. -/
theorem wish_eq_text {petition : Envelope} {name : Name} :
    petition.wish = name.text ↔ petition.params.text? 0 = some name.text := by
  unfold wish
  cases petition.params.text? 0 with
  | none => simpa using Ne.symm name.nonempty
  | some text => simp

/-- What answers a petition fits a frame. -/
theorem exists_toFrame_answer {petition : Envelope} (petitions : petition.isPetition)
    (code : ReturnCode) (params : Params) :
    ∃ frame, (petition.response code params).toFrame = .ok frame := by
  obtain ⟨-, -, hmethod⟩ := of_decide_eq_true petitions
  have hlight : (petition.response code params).IsLight := by
    left
    change petition.method.utf8ByteSize ≤ maxMethodName
    rw [hmethod]
    decide
  exact exists_toFrame_of_room hlight.room_le

end Envelope

namespace Tree

variable {tree : Tree} {id above : Nat} {name : Name}

/-- Whether no sibling of an entry has a name. -/
def Spare (tree : Tree) (id : Nat) (name : Name) : Prop :=
  ∀ other ≠ id, tree.parent? other = tree.parent? id → tree.name? other ≠ some name

/-- An entry is named by the text of its name. -/
theorem isNamed_text : tree.isNamed name.text id ↔ tree.name? id = some name := by
  cases h : tree.name? id with
  | none => simp [isNamed, h]
  | some found => simp [isNamed, h, Name.text_inj]

/-- A name that an entry does not have is free below its parent exactly if no sibling has it. -/
theorem childNamed_eq_none_iff (h : tree.WellFormed) (below : tree.parent? id = some above)
    (other : tree.name? id ≠ some name) :
    tree.childNamed above name.text = none ↔ tree.Spare id name := by
  rw [childNamed, List.find?_eq_none]
  constructor
  · intro hnone sibling _ hparent hname
    exact hnone sibling (h.mem_children.2 (hparent.trans below)) (isNamed_text.2 hname)
  · intro hspare child hchild hnamed
    have hname := isNamed_text.1 hnamed
    refine hspare child ?_ ((h.mem_children.1 hchild).trans below.symm) hname
    rintro rfl
    exact other hname

/-- A hub end is granted the name that it has and every name that no sibling has. -/
theorem denial?_text_eq_none_iff (h : tree.WellFormed) (below : tree.parent? id = some above) :
    tree.denial? id name.text = none ↔ tree.name? id = some name ∨ tree.Spare id name := by
  by_cases hown : tree.name? id = some name
  · rw [denial?, if_pos (isNamed_text.2 hown)]
    exact iff_of_true rfl (.inl hown)
  · rw [denial?, if_neg (mt isNamed_text.1 hown), refusal?, Name.ofText_text, or_iff_right hown,
      ← childNamed_eq_none_iff h below hown]
    simp only [below, Option.any_some]
    cases tree.childNamed above name.text <;> simp

/-- A name is not denied for being none. -/
theorem denial?_text_ne_invalid : tree.denial? id name.text ≠ some .invalidParams := by
  rw [denial?, refusal?, Name.ofText_text]
  split
  · simp
  · dsimp only
    split <;> simp

/-- A hub end denies a petition with one of two codes. -/
theorem denial?_eq_some {text : String} {code : ReturnCode}
    (h : tree.denial? id text = some code) : code = .invalidParams ∨ code = .badState := by
  unfold denial? at h
  split at h
  · cases h
  · exact refusal?_eq_some h

/-- A hub end is denied whatever is no name. -/
theorem denial?_of_not_name {text : String} (none : ∀ name : Name, name.text ≠ text) :
    tree.denial? id text = some .invalidParams := by
  have hunnamed : ¬tree.isNamed text id := by
    rw [isNamed, Option.any_eq_true]
    rintro ⟨name, -, htext⟩
    exact none name (of_decide_eq_true htext)
  rw [denial?, if_neg hunnamed, refusal?]
  cases hname : Name.ofText text with
  | error e => rfl
  | ok name => exact absurd (Name.text_of_ofText hname) (none name)

/-- What is denied is told by the outline. -/
theorem denial?_congr {left right : Tree} (same : left.outline = right.outline) (id : Nat)
    (text : String) : left.denial? id text = right.denial? id text := by
  rw [denial?, denial?, isNamed, isNamed, name?_congr same, refusal?_congr same]

end Tree

namespace Site

variable {M : Type} [Medium M] {site : Site M} {id above : Nat} {link : Link}

/-- The name that a hub end is granted in a step, if it is granted one. -/
def grantIn? (site : Site M) (id : Nat) : RunStep M → Option Name
  | .poll _ other =>
    if other = id then
      (site.petition? id).bind fun petition =>
        if (site.tree.denial? id petition.wish).isNone then (Name.ofText petition.wish).toOption
        else none
    else none
  | _ => none

/-- The names that a hub end is granted in the course of steps. -/
def grants (site : Site M) (id : Nat) (steps : List (RunStep M)) : List Name :=
  site.shown (grantIn? · id) steps

/-! ## One petition -/

/-- A petition that is handled when a hub end is polled has been answered by a response. -/
structure Answered (id : Nat) (link : Link) (petition response : Envelope) (now : Nat)
    (before after : Site M) : Prop where
  kind : response.kind = .response
  number : response.id = petition.id
  dest : response.dest = petition.source
  /-- A name is granted to whoever has it and to whoever has no sibling with it. -/
  success : response.code = .success ↔ ∃ name : Name, petition.params.text? 0 = some name.text ∧
    (before.tree.name? id = some name ∨ before.tree.Spare id name)
  invalid : response.code = .invalidParams ↔ ∀ name : Name, petition.params.text? 0 ≠ some name.text
  others : response.code = .success ∨ response.code = .invalidParams ∨ response.code = .badState
  /-- The response to one that was granted repeats the name, and the hub end has it. -/
  granted : response.code = .success → ∃ name : Name, petition.params.text? 0 = some name.text ∧
    response.params = .ofName name ∧ before.grantIn? id (.poll now id) = some name ∧
    after.tree.name? id = some name
  /-- After one that was not granted the hub end has the name that it had, or none. -/
  refused : response.code ≠ .success → response.params = Params.empty ∧
    before.grantIn? id (.poll now id) = none ∧ after.tree.name? id = before.tree.name? id
  /-- The listeners are told of the first name. Then the response is written, once. -/
  log : ∃ frame, Envelope.ofFrame frame = .ok response ∧ after.log = before.log
    ++ (if response.code = .success ∧ before.tree.name? id = none
      then link.listeners.map .linkUp else [])
    ++ [.ofWrite link.channel.socket frame.encode (Medium.transmit link.channel.socket frame.encode
      (link.channel.poll before.medium).2.2).1]

/-- A petition that is denied is answered with the code for that. -/
theorem answerNaming_of_denied {petition : Envelope} {code : ReturnCode}
    (below : site.tree.parent? id = some above)
    (denied : site.tree.denial? id petition.wish = some code) (link : Link) :
    site.answerNaming id link petition
      = site.sendEnvelope id (petition.response code Params.empty) := by
  have hadopt := adopt_of_denial? below denied link
  have hparams : (if code = .success then (Params.ofText petition.wish).toOption.getD Params.empty
      else Params.empty) = Params.empty := by
    rcases Tree.denial?_eq_some denied with rfl | rfl <;> rfl
  unfold Envelope.wish at hadopt hparams
  simp only [answerNaming, hadopt, hparams]

/-- A site at which a hub end has taken a name. The listeners of the link are told of the first one. -/
def christened (site : Site M) (id : Nat) (link : Link) (name : Name) : Site M :=
  { site with
    tree := site.tree.setName id name
    log := site.log ++ if (site.tree.name? id).isSome then [] else link.listeners.map .linkUp }

/-- A petition that is granted is answered with the name, which the hub end has then. -/
theorem answerNaming_of_granted {petition : Envelope} (below : site.tree.parent? id = some above)
    (granted : site.tree.denial? id petition.wish = none) (link : Link) :
    ∃ name : Name, name.text = petition.wish ∧ site.answerNaming id link petition
      = (site.christened id link name).sendEnvelope id
          (petition.response .success (.ofName name)) := by
  obtain ⟨name, htext, hadopt⟩ := exists_name_adopt below granted link
  have hparams := Params.ofText_name name
  refine ⟨name, htext, ?_⟩
  rw [htext] at hparams
  unfold Envelope.wish at hadopt hparams
  simp only [answerNaming, hadopt, hparams, if_true, Except.toOption, Option.getD_some, christened]

/-- A message that fits a frame is written with a free slot, and nothing else happens. -/
theorem sendEnvelope_eq {channel : Channel} {message : Envelope} {frame : Frame}
    (there : site.tree.channel? id = some channel) (free : site.pool.available ≠ 0)
    (made : message.toFrame = .ok frame) :
    (site.sendEnvelope id message).tree.outline = site.tree.outline ∧
      (site.sendEnvelope id message).log = site.log ++ [.ofWrite channel.socket frame.encode
        (Medium.transmit channel.socket frame.encode site.medium).1] := by
  obtain ⟨pool, -, hsend⟩ := send_eq there free frame
  rw [sendEnvelope, made, sendPacket, hsend, write_eq there]
  exact ⟨Tree.outline_setChannel _ _ _, rfl⟩

/-- What is granted when a petition is handled. -/
theorem grantIn?_poll {petition : Envelope} (handles : site.petition? id = some petition)
    (now : Nat) : site.grantIn? id (.poll now id)
      = if (site.tree.denial? id petition.wish).isNone then (Name.ofText petition.wish).toOption
        else none := by
  simp only [grantIn?, if_true, handles, Option.bind_some]

section Petition

variable (there : site.tree.link? id = some link) (place : link.place = .hub)
include there place

/-- A hub end that handles a petition answers it. -/
theorem pollAt_of_petition? (now : Nat) {petition : Envelope}
    (handles : site.petition? id = some petition) :
    pollAt now site id = (site.polled id link.channel).answerNaming id
      { link with channel := (link.channel.poll site.medium).2.1 } petition := by
  rcases pollAt_hub there place now with ⟨found, hfound, heq⟩ | ⟨hnone, -⟩
  · obtain rfl := Option.some.inj (hfound.symm.trans handles)
    exact heq
  · cases hnone.symm.trans handles

/-- When a petition is granted, the hub end has the name, the listeners are told if it is the first
one, and the response is written. -/
theorem pollAt_granted (below : site.tree.parent? id = some above) (now : Nat) {petition : Envelope}
    (handles : site.petition? id = some petition)
    (granted : site.tree.denial? id petition.wish = none) :
    ∃ (name : Name) (frame : Frame), name.text = petition.wish ∧
      (petition.response .success (.ofName name)).toFrame = .ok frame ∧
      (pollAt now site id).tree.name? id = some name ∧
      (pollAt now site id).log = site.log
        ++ (if site.tree.name? id = none then link.listeners.map .linkUp else [])
        ++ [.ofWrite link.channel.socket frame.encode (Medium.transmit link.channel.socket
          frame.encode (link.channel.poll site.medium).2.2).1] := by
  obtain ⟨hfree, hasks, -⟩ := petition?_eq_some handles
  have houtline := outline_polled site id link.channel
  have hlink := link?_polled there
  obtain ⟨name, htext, hanswer⟩ := answerNaming_of_granted
    ((Tree.parent?_congr houtline id).trans below)
    ((Tree.denial?_congr houtline id petition.wish).trans granted)
    { link with channel := (link.channel.poll site.medium).2.1 }
  obtain ⟨frame, hframe⟩ := Envelope.exists_toFrame_answer hasks .success (.ofName name)
  have hchannel : ((site.polled id link.channel).christened id { link with
      channel := (link.channel.poll site.medium).2.1 } name).tree.channel? id
        = some (link.channel.poll site.medium).2.1 :=
    (Tree.channel?_setName _ id name id).trans (Tree.channel?_of_link? hlink)
  obtain ⟨hsame, hlog⟩ := sendEnvelope_eq hchannel hfree hframe
  have hpoll := pollAt_of_petition? there place now handles
  refine ⟨name, frame, htext, hframe, ?_, ?_⟩
  · rw [hpoll, hanswer, Tree.name?_congr hsame]
    exact Tree.name?_setName_self (Tree.lt_size_of_form? (Tree.form?_of_link? hlink)) name
  · rw [hpoll, hanswer, hlog, Channel.socket_poll, christened, Tree.name?_congr houtline]
    cases site.tree.name? id <;> simp [polled]

/-- When a petition is denied, the hub end keeps its name, and the response is written. -/
theorem pollAt_denied (below : site.tree.parent? id = some above) (now : Nat) {petition : Envelope}
    {code : ReturnCode} (handles : site.petition? id = some petition)
    (denied : site.tree.denial? id petition.wish = some code) :
    ∃ frame : Frame, (petition.response code Params.empty).toFrame = .ok frame ∧
      (pollAt now site id).tree.name? id = site.tree.name? id ∧
      (pollAt now site id).log = site.log
        ++ [.ofWrite link.channel.socket frame.encode (Medium.transmit link.channel.socket
          frame.encode (link.channel.poll site.medium).2.2).1] := by
  obtain ⟨hfree, hasks, -⟩ := petition?_eq_some handles
  have houtline := outline_polled site id link.channel
  have hchannel := Tree.channel?_of_link? (link?_polled there)
  have hanswer := answerNaming_of_denied ((Tree.parent?_congr houtline id).trans below)
    ((Tree.denial?_congr houtline id petition.wish).trans denied)
    { link with channel := (link.channel.poll site.medium).2.1 }
  obtain ⟨frame, hframe⟩ := Envelope.exists_toFrame_answer hasks code Params.empty
  obtain ⟨hsame, hlog⟩ := sendEnvelope_eq hchannel hfree hframe
  have hpoll := pollAt_of_petition? there place now handles
  refine ⟨frame, hframe, ?_, ?_⟩
  · rw [hpoll, hanswer, Tree.name?_congr hsame, Tree.name?_congr houtline]
  · rw [hpoll, hanswer, hlog, Channel.socket_poll]
    rfl

/-- Every petition that a hub end handles has its response. -/
theorem exists_answered (wellFormed : site.tree.WellFormed)
    (first : site.tree.form? 0 ≠ some .hubEnd) (now : Nat) {petition : Envelope}
    (handles : site.petition? id = some petition) :
    ∃ response, Answered id link petition response now site (pollAt now site id) := by
  obtain ⟨-, -, asked, -, hread⟩ := petition?_eq_some handles
  have hform := Tree.form?_hubEnd there place
  obtain ⟨above, hbelow⟩ := wellFormed.exists_parent? first hform
  cases hcase : site.tree.denial? id petition.wish with
  | none =>
    obtain ⟨name, frame, htext, hframe, hname, hlog⟩ :=
      pollAt_granted there place hbelow now handles hcase
    have hasked := Envelope.wish_eq_text.1 htext.symm
    have hmay := (Tree.denial?_text_eq_none_iff wellFormed hbelow).1 (htext ▸ hcase)
    refine ⟨petition.response .success (.ofName name), rfl, rfl, rfl,
      iff_of_true rfl ⟨name, hasked, hmay⟩,
      iff_of_false nofun fun hnone => hnone name hasked, .inl rfl,
      fun _ => ⟨name, hasked, rfl, ?_, hname⟩, fun hfailed => absurd rfl hfailed, frame,
      Envelope.ofFrame_response hread hframe, ?_⟩
    · rw [grantIn?_poll handles, hcase, ← htext, Name.ofText_text]
      rfl
    · rw [hlog]
      simp [Envelope.response]
  | some code =>
    obtain ⟨frame, hframe, hname, hlog⟩ := pollAt_denied there place hbelow now handles hcase
    have hfailed : code ≠ .success := by
      rcases Tree.denial?_eq_some hcase with rfl | rfl <;> decide
    refine ⟨petition.response code Params.empty, rfl, rfl, rfl, iff_of_false hfailed ?_, ?_,
      .inr (Tree.denial?_eq_some hcase), fun hsuccess => absurd hsuccess hfailed,
      fun _ => ⟨by simp [Envelope.response], ?_, hname⟩, frame, Envelope.ofFrame_response hread hframe, ?_⟩
    · rintro ⟨name, hasked, hmay⟩
      have hnone := (Tree.denial?_text_eq_none_iff wellFormed hbelow).2 hmay
      rw [← Envelope.wish_eq_text.2 hasked, hcase] at hnone
      cases hnone
    · constructor
      · rintro rfl name hasked
        exact Tree.denial?_text_ne_invalid (Envelope.wish_eq_text.2 hasked ▸ hcase)
      · intro hnone
        have hinvalid : site.tree.denial? id petition.wish = some .invalidParams :=
          Tree.denial?_of_not_name fun name htext =>
            hnone name (Envelope.wish_eq_text.1 htext.symm)
        exact Option.some.inj (hcase.symm.trans hinvalid)
    · rw [grantIn?_poll handles, hcase]
      rfl
    · rw [hlog, if_neg fun h => hfailed h.1, List.append_nil]

end Petition

/-! ## Steps and runs -/

section Steps

variable (wellFormed : site.tree.WellFormed) (first : site.tree.form? 0 ≠ some .hubEnd)
include wellFormed first

/-- A step leaves a hub end with the name that it is granted, or with the one that it has. -/
theorem name?_take
    (before : site.tree.form? id = some .hubEnd ∨ site.tree.get? id = none) (step : RunStep M)
    (after : (site.take step).tree.form? id = some .hubEnd ∨
      (site.take step).tree.get? id = none) :
    (site.take step).tree.name? id = (site.grantIn? id step).or (site.tree.name? id) := by
  rcases exists_or_forall_not (step = .poll · id) with ⟨now, rfl⟩ | beside
  · rcases before with hubEnd | hnone
    · obtain ⟨link, there, place⟩ := Tree.exists_hubEnd hubEnd
      have hpolled := Tree.name?_congr (outline_polled site id link.channel) id
      rcases pollAt_hub there place now with ⟨petition, handles, -⟩ | ⟨hnone, heq⟩
      · obtain ⟨response, answered⟩ := exists_answered there place wellFormed first now handles
        by_cases hcode : response.code = .success
        · obtain ⟨name, -, -, hgrant, hname⟩ := answered.granted hcode
          rw [hgrant, Option.some_or]
          exact hname
        · obtain ⟨-, hgrant, hname⟩ := answered.refused hcode
          rw [hgrant, Option.none_or]
          exact hname
      · have hgrant : site.grantIn? id (.poll now id) = none := by simp [grantIn?, hnone]
        rw [hgrant, Option.none_or]
        change (pollAt now site id).tree.name? id = _
        rcases heq with heq | ⟨message, hnamed, heq⟩
        · rw [heq, hpolled]
        · have routes : Routes M (fun _ _ => True) (site.polled id link.channel).tree none :=
            routes_of_forall (fun _ _ => trivial) _ _
          have hroute := routes _ _ rfl
            (.fromBelow message (link?_polled there) place (hpolled.symm ▸ hnamed))
          rw [heq, Tree.name?_congr (Tree.outline_eq_of_core hroute.core), hpolled]
    · have hgrant : site.grantIn? id (.poll now id) = none := by
        simp [grantIn?, petition?, arriving?, Tree.channel?, hnone]
      rw [take_poll_of_get? hnone, hgrant, Option.none_or]
  · have hgrant : site.grantIn? id step = none := by
      cases step with
      | poll now other => exact if_neg fun heq : other = id => beside now (heq ▸ rfl)
      | build | execute | notify | expire | provision | around => rfl
    rw [name?_take_beside beside after, hgrant, Option.none_or]

/-- Steps leave a hub end with the name that it is granted last, or with the one that it has. -/
theorem name?_follow (steps : List (RunStep M))
    (hubEnd : (site.follow steps).tree.form? id = some .hubEnd) :
    (site.follow steps).tree.name? id
      = (site.grants id steps).getLast?.or (site.tree.name? id) := by
  refine eq_getLast?_shown (fun site => site.tree.name? id) fun front step back hsteps => ?_
  have hlasts : ((site.follow front).take step).tree.Lasts (site.follow steps).tree := by
    rw [hsteps, follow_append]
    exact lasts_follow _ back
  exact name?_take (wellFormed_follow wellFormed front) (form?_zero_follow first front)
    (((lasts_take _ step).trans hlasts).form?_or hubEnd) step (hlasts.form?_or hubEnd)

end Steps

/-- A hub end is up once it has been granted a name. -/
theorem isUp_follow_hubEnd {timeout : Nat} {pool : Pool} {medium : M} {steps : List (RunStep M)}
    (hubEnd : ((start timeout pool medium).follow steps).tree.form? id = some .hubEnd) :
    ((start timeout pool medium).follow steps).tree.isUp id
      ↔ (start timeout pool medium).grants id steps ≠ [] := by
  have first : (start timeout pool medium).tree.form? 0 ≠ some .hubEnd := nofun
  have hname := name?_follow (.empty timeout) first steps hubEnd
  obtain ⟨link, there, place⟩ := Tree.exists_hubEnd hubEnd
  have hnone : (start timeout pool medium).tree.name? id = none := rfl
  rw [hnone, Option.or_none] at hname
  rw [Tree.isUp, there, Option.any_some, place, hname]
  cases (start timeout pool medium).grants id steps <;> simp

/-- Every petition that a hub end handles is answered once, as the names around it are at that
moment. The hub end has the name that was granted last. A listener is told once, when the first name
is granted, and never if it is posted later than that. -/
theorem names_are_adopted (timeout : Nat) (pool : Pool) (medium : M) (steps : List (RunStep M))
    {id : Nat} {link : Link}
    (there : ((start timeout pool medium).follow steps).tree.link? id = some link)
    (place : link.place = .hub) :
    let origin := start timeout pool medium
    let site := origin.follow steps
    (∀ front now back petition, steps = front ++ .poll now id :: back →
      (origin.follow front).petition? id = some petition →
      ∃ early response, (origin.follow front).tree.link? id = some early ∧
        Answered id early petition response now (origin.follow front)
          (origin.follow (front ++ [.poll now id]))) ∧
    site.tree.name? id = (origin.grants id steps).getLast? ∧
    ∀ early tag, origin.PostsAfter early steps id tag →
      site.log.count (.linkUp tag)
        = if origin.grants id early ≠ [] then 0 else if origin.grants id steps ≠ [] then 1 else 0 := by
  intro origin site
  have wellFormed : origin.tree.WellFormed := .empty timeout
  have first : origin.tree.form? 0 ≠ some .hubEnd := nofun
  have hubEnd := Tree.form?_hubEnd there place
  have hprior : ∀ {front back}, steps = front ++ back → (origin.follow front).tree.get? id ≠ none →
      (origin.follow front).tree.form? id = some .hubEnd := by
    rintro front back rfl hsome
    have hlasts := lasts_follow (origin.follow front) back
    rw [← follow_append] at hlasts
    exact (hlasts.form?_or hubEnd).resolve_right hsome
  refine ⟨?_, ?_, ?_⟩
  · rintro front now back petition hsteps handles
    have hsome : (origin.follow front).tree.get? id ≠ none := by
      intro hnone
      simp [petition?, arriving?, Tree.channel?, hnone] at handles
    obtain ⟨early, hearly, hplace⟩ := Tree.exists_hubEnd (hprior hsteps hsome)
    obtain ⟨response, answered⟩ := exists_answered hearly hplace (wellFormed_follow wellFormed front)
      (form?_zero_follow first front) now handles
    rw [follow_append]
    exact ⟨early, response, hearly, answered⟩
  · have hname := name?_follow wellFormed first steps hubEnd
    have hnone : origin.tree.name? id = none := rfl
    rwa [hnone, Option.or_none] at hname
  · intro early tag posts
    have htold := told_of_postsAfter posts
    obtain ⟨late, hsteps, ⟨after, hbuilt⟩, -⟩ := posts
    obtain ⟨found, hfound, -⟩ := Tree.addListener_eq_ok hbuilt
    have hsome : (origin.follow early).tree.get? id ≠ none := by
      intro hnone
      simp [Tree.link?, hnone] at hfound
    simp only [isUp_follow_hubEnd (hprior hsteps hsome), isUp_follow_hubEnd hubEnd] at htold
    exact htold

/-- The steps that lead to a node `lamp` and a hub end beside it, with a listener, at whose socket two
petitions wait: one for the name of the lamp, and one for the name `shed`. -/
def retry : List (RunStep Cabling) :=
  [.build (.addRoot "hub"), .build (.addNode 0 "lamp"), .build (.addUplink 0 "wire" 10),
    .build (.addListener 2 "up"),
    .around (Pool.ofSize 1) (Cabling.empty.feed "wire"
      [48, 37, 0, 10, 45, 62, 95, 108, 105, 110, 107, 77, 97, 110, 4, 210, 8, 95, 103, 101, 116, 78,
        97, 109, 101, 8, 95, 108, 105, 110, 107, 77, 97, 110, 4, 108, 97, 109, 112,
        48, 37, 0, 10, 45, 62, 95, 108, 105, 110, 107, 77, 97, 110, 4, 210, 8, 95, 103, 101, 116, 78,
        97, 109, 101, 8, 95, 108, 105, 110, 107, 77, 97, 110, 4, 115, 104, 101, 100]),
    .poll 1 2]

/-- The first petition is refused, and with the second one the hub end has a name and its listener is
told. -/
theorem second_petition_is_granted :
    let origin := start 5 (Pool.ofSize 1) Cabling.empty
    let site := origin.follow (retry ++ [.poll 2 2])
    (origin.follow retry).tree.name? 2 = none ∧ (site.tree.name? 2).map (·.text) = some "shed" ∧
      site.log.count (.linkUp "up") = 1 ∧ ∃ link petition response,
        Answered 2 link petition response 2 (origin.follow retry) site ∧
          response.code = .success := by
  let origin := start 5 (Pool.ofSize 1) Cabling.empty
  let steps := retry ++ [.poll 2 2]
  have hend : ((origin.follow steps).tree.link? 2).map (·.place) = some .hub := by decide +kernel
  obtain ⟨link, there, place⟩ := Option.map_eq_some_iff.1 hend
  obtain ⟨hanswers, hname, htold⟩ :=
    names_are_adopted 5 (Pool.ofSize 1) Cabling.empty steps there place
  have hgrants : (origin.grants 2 steps).map (·.text) = ["shed"] := by decide +kernel
  obtain ⟨name, hall, htext⟩ := List.map_eq_singleton_iff.1 hgrants
  replace hname : (origin.follow steps).tree.name? 2 = some name := by rw [hname, hall]; rfl
  have hunnamed : (origin.follow retry).tree.name? 2 = none := by decide +kernel
  have hsome : (origin.follow retry).petition? 2 ≠ none := by decide +kernel
  obtain ⟨petition, hpetition⟩ := Option.ne_none_iff_exists'.1 hsome
  obtain ⟨early, response, -, answered⟩ := hanswers retry 2 [] petition rfl hpetition
  refine ⟨hunnamed, ?_, ?_, early, petition, response, answered, ?_⟩
  · rw [hname, Option.map_some, htext]
  · have hposts : origin.PostsAfter (retry.take 3) steps 2 "up" :=
      ⟨retry.drop 4 ++ [.poll 2 2], rfl, exists_eq_ok (by decide +kernel), by simp [retry]⟩
    have hbefore : origin.grants 2 (retry.take 3) = [] := by decide +kernel
    have honce := htold _ _ hposts
    rw [hbefore, hall] at honce
    exact honce
  · by_contra hfailed
    obtain ⟨-, -, hkept⟩ := answered.refused hfailed
    rw [hunnamed, hname] at hkept
    cases hkept

end Site
end TopicTree
