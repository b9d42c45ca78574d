import TopicTree.Proofs.Site.Adoption
import TopicTree.Proofs.Site.Pace

/-!
# Attempts to be named

The device end of a link asks for a name until it hears that its local root has it there. An attempt
is due as long as it has not heard so, once the interval since the attempt before has passed, whether
or not anything could be written then. So the times of the attempts are a schedule that the ticks
fill in. The first answer that tells of success with the name of the local root brings the link up
for good.
-/

namespace TopicTree

/-- The time to which a move advances a site, if it is a tick. -/
def Move.tick? {M : Type} : Move M → Option Nat
  | .call (.tick now) => some now
  | _ => none

namespace Envelope

/-- Whether a message tells a device end that its local root has a name on the other side. -/
def affirms (message : Envelope) (name : Name) : Bool :=
  message.kind = .response ∧ message.dest.isManager ∧ message.code = .success ∧
    message.params.text? 0 = some name.text

/-- The path to the manager of a link. -/
def manager : Path :=
  ⟨.top, linkManager, by decide⟩

/-- The request with which a device end asks for a name. -/
def naming (name : Name) : Envelope :=
  ⟨.request, manager, manager, namingId, nameMethod, .success, .atMostOnce, .ofName name, by decide⟩

/-- The bytes of a request for a name: a packet that is delivered at most once, with the manager of a
link for its topic, the number and the method of such requests, the manager for its source and the
name for its only parameter. -/
def namingBytes (name : Name) : Bytes :=
  let body := Field.textBytes "->_linkMan" ++ (Field.wordBytes 1234
    ++ (shortText "_getName" ++ (shortText "_linkMan" ++ shortText name.text)))
  0x30 :: body.length.toUInt8 :: body

/-- The header of a message that is delivered at most once. -/
theorem header_eq {message : Envelope} (once : message.qos = .atMostOnce) :
    message.written.header = 0x30 := by
  rw [written, publication, Publish.header]
  dsimp only
  rw [once]
  rfl

/-- A request for a name is written in its bytes. -/
theorem exists_toFrame_naming (name : Name) :
    ∃ frame, (naming name).toFrame = .ok frame ∧ frame.encode = namingBytes name := by
  have hlight : (naming name).IsLight := .inl (show nameMethod.utf8ByteSize ≤ maxMethodName by decide)
  obtain ⟨frame, hframe, hheader, hpayload⟩ :=
    exists_toFrame (length_body (naming name) ▸ hlight.room_le)
  have hbody : frame.payload = Field.textBytes "->_linkMan" ++ (Field.wordBytes 1234
      ++ (shortText "_getName" ++ (shortText "_linkMan" ++ shortText name.text))) := hpayload
  have hshort : frame.payload.length < 128 := by
    have hname := name.fits
    have htopic : "->_linkMan".utf8ByteSize = 10 := by decide
    have hmethod : "_getName".utf8ByteSize = 8 := by decide
    have hsource : "_linkMan".utf8ByteSize = 8 := by decide
    rw [hbody]
    simp only [List.length_append, Field.length_textBytes, Field.length_wordBytes,
      length_shortText, htopic, hmethod, hsource, maxName] at *
    omega
  refine ⟨frame, hframe, ?_⟩
  rw [Frame.encode, Length.maxBytes, Length.digits, if_pos hshort, hheader, header_eq rfl, hbody]
  rfl

end Envelope

namespace Tree

variable {tree left right : Tree} {id other : Nat}

/-- The name of the local root below a device end. -/
def localName? (tree : Tree) (id : Nat) : Option Name :=
  (tree.children id).head?.bind tree.name?

/-- The name of the local root is told by the outline. -/
theorem localName?_congr (same : left.outline = right.outline) (id : Nat) :
    left.localName? id = right.localName? id := by
  rw [localName?, localName?, children_congr same, funext (name?_congr same)]

/-- A device end has a local root with a name, and asks for that. -/
theorem WellFormed.exists_localName? (h : tree.WellFormed)
    (deviceEnd : tree.form? id = some .deviceEnd) :
    ∃ name, tree.localName? id = some name ∧ tree.namingRequest? id = some (.naming name) := by
  obtain rfl := h.deviceEnd_eq deviceEnd
  obtain ⟨root, hchildren, hroot⟩ := h.localRoot deviceEnd
  obtain ⟨name, hname⟩ := Option.isSome_iff_exists.1 (h.isSome_name? (.inl hroot))
  refine ⟨name, by simp [localName?, hchildren, hname], ?_⟩
  rw [namingRequest?, hchildren]
  simp only [List.head?_cons, Option.bind_eq_bind, Option.bind_some, hname, Params.ofText_name,
    Except.toOption]
  rfl

end Tree

namespace Site

variable {M : Type} [Medium M] {site : Site M} {id other : Nat} {link : Link}

/-! ## One attempt -/

/-- The time of the attempt that a device end makes in a step, if it makes one. -/
def attemptIn? (site : Site M) (id : Nat) : RunStep M → Option Nat
  | .provision now other =>
    if other = id ∧ (site.tree.link? id).any (·.isDue now) then some now else none
  | _ => none

/-- The times of the attempts that a device end makes in the course of steps. -/
def attempts (site : Site M) (id : Nat) (steps : List (RunStep M)) : List Nat :=
  site.shown (attemptIn? · id) steps

/-- An attempt has been made: its time is noted, and the request for the name of the local root is
written, if there is a slot, whatever becomes of that. -/
structure Attempted (id now : Nat) (link : Link) (name : Name) (before after : Site M) : Prop where
  core : after.tree.core = (before.tree.setLink id { link with lastAttempt := some now }).core
  pool : before.pool.Restored after.pool
  medium : after.medium = if before.pool.available = 0 then before.medium
    else (Medium.transmit link.channel.socket (Envelope.namingBytes name) before.medium).2
  log : after.log = before.log ++ if before.pool.available = 0 then []
    else [.ofWrite link.channel.socket (Envelope.namingBytes name)
      (Medium.transmit link.channel.socket (Envelope.namingBytes name) before.medium).1]

/-- A device end that is due makes an attempt. -/
theorem exists_attempted {now : Nat} (wellFormed : site.tree.WellFormed)
    (there : site.tree.link? id = some link) (due : link.isDue now) :
    ∃ name, site.tree.localName? id = some name ∧
      Attempted id now link name site (provisionAt now site id) := by
  have place : link.place = .device := by simp_all [Link.isDue]
  obtain ⟨name, hname, hasks⟩ :=
    wellFormed.exists_localName? (Tree.form?_deviceEnd there place)
  obtain ⟨frame, hframe, hbytes⟩ := Envelope.exists_toFrame_naming name
  let noted := site.withTree (site.tree.setLink id { link with lastAttempt := some now })
  have hnoted : noted.tree.link? id = some { link with lastAttempt := some now } := by
    rw [tree_withTree, Tree.link?_setLink there, if_pos rfl]
  have hchannel := Tree.channel?_of_link? hnoted
  have heq : provisionAt now site id = noted.send id frame := by
    simp only [provisionAt, there, due, if_true, hasks, sendEnvelope, hframe, sendPacket, noted]
  refine ⟨name, hname, ?_⟩
  by_cases hfull : site.pool.available = 0
  · have hnone : noted.pool.available = 0 := hfull
    rw [heq, send_of_full hnone]
    exact ⟨rfl, .refl _, (if_pos hfull).symm, by simp [noted, hfull]⟩
  · obtain ⟨pool, hpool, hsend⟩ := send_eq hchannel hfull frame
    rw [heq, hsend, write_eq hchannel, hbytes]
    exact ⟨Tree.core_setChannel hchannel (Channel.socket_send _ _ _), hpool, (if_neg hfull).symm,
      by rw [if_neg hfull]; rfl⟩

/-! ## The schedule of attempts -/

omit [Medium M] in
/-- No attempt is made at a step that does not see to the link. -/
theorem attemptIn?_of_beside {step : RunStep M} (beside : ∀ now, step ≠ .provision now id) :
    site.attemptIn? id step = none := by
  cases step with
  | provision now other => exact if_neg fun h => beside now (congrArg _ h.1)
  | build | execute | notify | expire | poll | around => rfl

/-- Steps that do not see to the link show no attempt. -/
theorem attempts_eq_nil {steps : List (RunStep M)} (beside : ∀ now, .provision now id ∉ steps) :
    site.attempts id steps = [] := by
  induction steps generalizing site with
  | nil => rfl
  | cons step steps ih =>
    have hstep : site.attemptIn? id step = none :=
      attemptIn?_of_beside fun now heq => beside now (heq ▸ List.mem_cons_self)
    have hsteps := @ih (site.take step) fun now hmem => beside now (List.mem_cons_of_mem _ hmem)
    simp only [attempts] at hsteps
    simp [attempts, shown, hstep, hsteps]

/-- A link keeps its interval in a step, and remembers the attempt that it makes. -/
theorem pace?_take (wellFormed : site.tree.WellFormed) {interval : Nat} {last : Option Nat}
    (h : site.tree.pace? id = some (interval, last)) (step : RunStep M) :
    (site.take step).tree.pace? id = some (interval, (site.attemptIn? id step).or last) := by
  obtain ⟨link, there, hpace⟩ := Option.map_eq_some_iff.1 h
  cases hpace
  rcases exists_or_forall_not (step = .build ·) with ⟨construction, rfl⟩ | plain
  · simp only [take, move, perform, attemptIn?, Option.none_or]
    split
    · exact h
    · next after hbuilt =>
      obtain ⟨later, hlater, -⟩ := Tree.isSome_link?_construct hbuilt there
      rcases Tree.link?_construct hbuilt hlater with ⟨old, hold, hsame⟩ | ⟨hnone, -⟩
      · obtain rfl := Option.some.inj (hold.symm.trans there)
        rw [tree_withTree, Tree.pace?, hlater]
        rcases hsame with rfl | ⟨_, -, rfl⟩ <;> rfl
      · simp [Tree.link?, hnone] at there
  · rcases exists_or_forall_not (step = .provision · id) with ⟨now, rfl⟩ | beside
    · by_cases due : link.isDue now
      · obtain ⟨name, -, attempted⟩ := exists_attempted wellFormed there due
        refine (Tree.pace?_of_core attempted.core id).trans ?_
        rw [Tree.pace?, Tree.link?_setLink there, if_pos rfl, attemptIn?,
          if_pos ⟨rfl, by simpa [there] using due⟩]
        rfl
      · rw [attemptIn?, if_neg (by simpa [there] using due), Option.none_or]
        have hsame : provisionAt now site id = site := by
          simp only [provisionAt, there, if_neg due]
        exact (congrArg (Tree.pace? · id) (congrArg tree hsame)).trans h
    · rw [pace?_take_beside plain beside, attemptIn?_of_beside beside]
      exact h

/-- A link that is not there makes no attempt, and a new one has made none. -/
theorem pace?_take_of_none (h : site.tree.pace? id = none) (step : RunStep M) :
    site.attemptIn? id step = none ∧ (site.take step).tree.lastAttempt? id = none := by
  have absent : site.tree.link? id = none := Option.map_eq_none_iff.1 h
  have hnone : site.tree.lastAttempt? id = none := by rw [Tree.lastAttempt?, h, Option.bind_none]
  rcases exists_or_forall_not (step = .build ·) with ⟨construction, rfl⟩ | plain
  · refine ⟨rfl, ?_⟩
    simp only [take, move, perform]
    split
    · exact hnone
    · next after hbuilt =>
      rw [tree_withTree, Tree.lastAttempt?, Tree.pace?]
      cases hafter : after.link? id with
      | none => rfl
      | some link =>
        rcases Tree.link?_construct hbuilt hafter with ⟨old, hold, -⟩ | ⟨-, _, _, _, rfl⟩
        · rw [absent] at hold
          cases hold
        · rfl
  · rcases exists_or_forall_not (step = .provision · id) with ⟨now, rfl⟩ | beside
    · have hsame : site.take (.provision now id) = site := by simp only [take, provisionAt, absent]
      rw [hsame]
      exact ⟨if_neg (by simp [absent]), hnone⟩
    · refine ⟨attemptIn?_of_beside beside, ?_⟩
      rw [Tree.lastAttempt?, pace?_take_beside plain beside]
      exact hnone

/-- The latest attempt of a link after a step is the one that it makes, or the latest one before. -/
theorem lastAttempt?_take (wellFormed : site.tree.WellFormed) (step : RunStep M) :
    (site.take step).tree.lastAttempt? id
      = (site.attemptIn? id step).or (site.tree.lastAttempt? id) := by
  cases h : site.tree.pace? id with
  | none =>
    obtain ⟨hnone, hfresh⟩ := pace?_take_of_none h step
    rw [hnone, hfresh, Tree.lastAttempt?, h]
    rfl
  | some pace => rw [Tree.lastAttempt?, pace?_take wellFormed h step, Tree.lastAttempt?, h]; rfl

/-- The latest attempt of a link is the last one of its schedule. -/
theorem lastAttempt?_follow (wellFormed : site.tree.WellFormed) (steps : List (RunStep M)) :
    (site.follow steps).tree.lastAttempt? id
      = (site.attempts id steps).getLast?.or (site.tree.lastAttempt? id) :=
  eq_getLast?_shown (fun site => site.tree.lastAttempt? id) fun front step _ _ =>
    lastAttempt?_take (wellFormed_follow wellFormed front) step

/-- A link keeps its interval. -/
theorem pace?_follow (wellFormed : site.tree.WellFormed) {interval : Nat} {last : Option Nat}
    (h : site.tree.pace? id = some (interval, last)) (steps : List (RunStep M)) :
    ∃ later, (site.follow steps).tree.pace? id = some (interval, later) := by
  induction steps generalizing site last with
  | nil => exact ⟨last, h⟩
  | cons step steps ih => exact ih (wellFormed_take wellFormed step) (pace?_take wellFormed h step)

/-! ## The answer that brings the link up -/

/-- Whether a device end that is polled handles an answer that tells it that its local root has its
name on the other side. -/
def isAffirmed (site : Site M) (id : Nat) : Bool :=
  (site.tree.localName? id).any fun name => (site.message? id).any (·.affirms name)

omit [Medium M] in
/-- A device end takes note of answers that tell of success with the name of its local root. -/
theorem confirm_eq {name : Name} (named : site.tree.localName? id = some name) (link : Link)
    (response : Envelope) : site.confirm id link response
      = if response.code = .success ∧ response.params.text? 0 = some name.text ∧ !link.confirmed then
          (site.withTree (site.tree.setLink id { link with confirmed := true })).announce link
        else site := by
  obtain ⟨root, hroot, hname⟩ := Option.bind_eq_some_iff.1 named
  simp only [confirm, hroot, hname, Option.map_some]
  split
  · next h => rw [if_neg (by rintro ⟨hcode, htext, hopen⟩; simp_all)]
  · next h => rw [if_pos (by simp_all)]

/-- A device end that is polled comes up with an answer that tells it so, and stays up. -/
theorem isUp_pollAt (wellFormed : site.tree.WellFormed) (there : site.tree.link? id = some link)
    (place : link.place = .device) (now : Nat) :
    (pollAt now site id).tree.isUp id = (site.tree.isUp id || site.isAffirmed id) := by
  have routes : Routes M (fun _ _ => True) site.tree none := routes_of_forall (fun _ _ => trivial) _ _
  have hcarries : Carries (fun _ _ => True) site (site.polled id link.channel) :=
    carries_polled (Tree.channel?_of_link? there)
  have hsame : (site.polled id link.channel).tree.isUp id = site.tree.isUp id :=
    Tree.isUp_of_core hcarries.core id
  have hup : site.tree.isUp id = link.confirmed := by simp [Tree.isUp, there, place]
  obtain ⟨name, hname, -⟩ :=
    wellFormed.exists_localName? (Tree.form?_deviceEnd there place)
  have hpolled := (Tree.localName?_congr (outline_polled site id link.channel) id).trans hname
  have hlink := link?_polled there
  rw [isAffirmed, hname, Option.any_some]
  rcases pollAt_of_link? there now with ⟨hnone, heq⟩ | ⟨message, handles, heq, -⟩
  · rw [heq, hnone, hsame, Option.any_none, Bool.or_false]
  · rw [heq place, handles, Option.any_some, receiveBelow]
    by_cases hanswers : message.kind = .response ∧ message.dest.isManager
    · rw [if_pos hanswers, confirm_eq hpolled]
      split
      · next hconfirms =>
        have haffirms : message.affirms name = true :=
          decide_eq_true ⟨hanswers.1, hanswers.2, hconfirms.1, hconfirms.2.1⟩
        rw [announce_eq, haffirms, Bool.or_true]
        simp [Tree.isUp, Tree.link?_setLink hlink, place]
      · next hkept =>
        rw [hsame, hup]
        cases hconfirmed : link.confirmed with
        | true => rfl
        | false =>
          have hidle : message.affirms name = false := decide_eq_false fun h =>
            hkept ⟨h.2.2.1, h.2.2.2, by simp [hconfirmed]⟩
          rw [hidle, Bool.or_false]
    · have hidle : message.affirms name = false :=
        decide_eq_false fun h => hanswers ⟨h.1, h.2.1⟩
      rw [if_neg hanswers, hidle, Bool.or_false]
      split
      · exact hsame
      · next root hroot =>
        have hroute := routes _ _ hcarries.core (.fromAbove message hlink place hroot)
        exact (Tree.isUp_of_core hroute.core id).trans hsame

/-- A step that handles an answer which tells a device end that it is up brings it up, and every
other step leaves it as it is. -/
theorem isUp_take (wellFormed : site.tree.WellFormed)
    (before : site.tree.form? id = some .deviceEnd ∨ site.tree.get? id = none) (step : RunStep M) :
    (site.take step).tree.isUp id
      ↔ site.tree.isUp id ∨ ∃ now, step = .poll now id ∧ site.isAffirmed id := by
  rcases exists_or_forall_not (step = .poll · id) with ⟨now, rfl⟩ | beside
  · have hiff : (∃ time, RunStep.poll (M := M) now id = .poll time id ∧ site.isAffirmed id)
        ↔ site.isAffirmed id := by
      constructor
      · rintro ⟨_, _, h⟩
        exact h
      · exact fun h => ⟨now, rfl, h⟩
    rw [hiff]
    rcases before with deviceEnd | hnone
    · obtain ⟨link, there, place⟩ := Tree.exists_deviceEnd deviceEnd
      have hup := isUp_pollAt wellFormed there place now
      change (pollAt now site id).tree.isUp id ↔ _
      rw [hup, Bool.or_eq_true]
    · have hidle : site.isAffirmed id = false := by
        simp [isAffirmed, message?, arriving?, Tree.channel?, hnone]
      rw [take_poll_of_get? hnone, hidle]
      simp
  · rw [isUp_take_beside beside]
    refine ⟨.inl, fun h => h.resolve_right ?_⟩
    rintro ⟨now, heq, -⟩
    exact beside now heq

/-- What will be a device end is up once it has handled an answer that tells it so. -/
theorem isUp_follow_deviceEnd {timeout : Nat} {pool : Pool} {medium : M} {steps : List (RunStep M)}
    {last : Tree} (lasts : ((start timeout pool medium).follow steps).tree.Lasts last)
    (deviceEnd : last.form? id = some .deviceEnd) :
    ((start timeout pool medium).follow steps).tree.isUp id
      ↔ ∃ front now back, steps = front ++ .poll now id :: back ∧
        ((start timeout pool medium).follow front).isAffirmed id := by
  induction steps using List.reverseRecOn with
  | nil =>
    have hdown : ((start timeout pool medium).follow []).tree.isUp id = false := rfl
    simp [hdown]
  | append_singleton steps step ih =>
    have hlast : (start timeout pool medium).follow (steps ++ [step])
        = ((start timeout pool medium).follow steps).take step := follow_append _ steps [step]
    rw [hlast] at lasts ⊢
    have hlasts := (lasts_take _ step).trans lasts
    rw [isUp_take (wellFormed_follow (.empty timeout) steps) (hlasts.form?_or deviceEnd), ih hlasts]
    constructor
    · rintro (⟨front, now, back, rfl, h⟩ | ⟨now, rfl, h⟩)
      · exact ⟨front, now, back ++ [step], by simp, h⟩
      · exact ⟨steps, now, [], rfl, h⟩
    · rintro ⟨front, now, back, hsteps, h⟩
      rcases List.eq_nil_or_concat back with rfl | ⟨back, final, rfl⟩
      · obtain ⟨rfl, hstep⟩ := List.append_inj' hsteps rfl
        exact .inr ⟨now, List.singleton_inj.1 hstep, h⟩
      · have hfront : steps ++ [step] = (front ++ .poll now id :: back) ++ [final] := by
          simpa using hsteps
        exact .inl ⟨front, now, back, (List.append_inj' hfront rfl).1, h⟩

/-! ## Ticks -/

/-- Steps that neither build nor see to a link nor poll it leave its pace alone, and do not bring it
up. -/
theorem pace?_isUp_follow {steps : List (RunStep M)}
    (plain : ∀ construction, .build construction ∉ steps) (unseen : ∀ now, .provision now id ∉ steps)
    (unpolled : ∀ now, .poll now id ∉ steps) :
    (site.follow steps).tree.pace? id = site.tree.pace? id ∧
      (site.follow steps).tree.isUp id = site.tree.isUp id := by
  induction steps generalizing site with
  | nil => exact ⟨rfl, rfl⟩
  | cons step steps ih =>
    simp only [List.mem_cons, not_or] at plain unseen unpolled
    obtain ⟨hpace, hup⟩ := @ih (site.take step) (fun construction => (plain construction).2)
      (fun now => (unseen now).2) fun now => (unpolled now).2
    exact ⟨hpace.trans (pace?_take_beside (fun construction => Ne.symm (plain construction).1)
        fun now => Ne.symm (unseen now).1),
      hup.trans (isUp_take_beside fun now => Ne.symm (unpolled now).1)⟩

omit [Medium M] in
/-- A device end is due while it is down, once its interval has passed since the latest attempt. -/
theorem isDue_eq (there : site.tree.link? id = some link) (place : link.place = .device) (now : Nat) :
    link.isDue now = (!site.tree.isUp id
      && (site.tree.lastAttempt? id).all fun last => link.interval ≤ now - last) := by
  have hup : site.tree.isUp id = link.confirmed := by simp [Tree.isUp, there, place]
  have hlast : site.tree.lastAttempt? id = link.lastAttempt := by
    rw [Tree.lastAttempt?, Tree.pace?, there]
    rfl
  rw [Link.isDue, place, hup, hlast]
  simp

/-- In a tick a device end makes an attempt if that is due when the tick starts. -/
theorem attempts_tick (there : site.tree.link? id = some link) (place : link.place = .device)
    (now : Nat) : site.attempts id (Move.steps site.tree.size (.call (.tick now)))
      = if link.isDue now then [now] else [] := by
  have hid : id < site.tree.size := Tree.lt_size_of_form? (Tree.form?_of_link? there)
  obtain ⟨prior, rest, hrange⟩ := List.append_of_mem (List.mem_range.2 hid)
  obtain ⟨hprior, hrest⟩ : id ∉ prior ∧ id ∉ rest := by
    have hnodup : (prior ++ id :: rest).Nodup := hrange ▸ List.nodup_range
    simpa using (List.nodup_cons.1 (List.nodup_middle.1 hnodup)).1
  let front : List (RunStep M) :=
    (List.range site.tree.size).map (.expire now) ++ prior.map (.provision now)
  let back : List (RunStep M) :=
    rest.map (.provision now) ++ (List.range site.tree.size).map (.poll now)
  have hsteps : Move.steps site.tree.size (.call (.tick now))
      = front ++ .provision now id :: back := by
    simp [Move.steps, hrange, front, back]
  have hfront : ∀ time, .provision time id ∉ front := by simp [front, hprior]
  have hback : ∀ time, .provision time id ∉ back := by simp [back, hrest]
  obtain ⟨hpace, hup⟩ : (site.follow front).tree.pace? id = site.tree.pace? id ∧
      (site.follow front).tree.isUp id = site.tree.isUp id :=
    pace?_isUp_follow (by simp [front]) hfront (by simp [front])
  obtain ⟨found, hfound, hplace⟩ : ∃ found, (site.follow front).tree.link? id = some found ∧
      found.place = .device :=
    Tree.exists_deviceEnd ((lasts_follow site front).form?_eq (Tree.form?_deviceEnd there place))
  have hinterval : found.interval = link.interval := by
    rw [Tree.pace?, Tree.pace?, hfound, there] at hpace
    exact congrArg Prod.fst (Option.some.inj hpace)
  have hdue : found.isDue now = link.isDue now := by
    rw [isDue_eq hfound hplace, isDue_eq there place, hup, Tree.lastAttempt?, hpace, hinterval,
      Tree.lastAttempt?]
  have hattempt : (site.follow front).attemptIn? id (.provision now id)
      = if link.isDue now then some now else none := by
    rw [attemptIn?, hfound, Option.any_some, hdue]
    simp
  have hnone : site.attempts id front = [] := attempts_eq_nil hfront
  have hlater : ∀ mid : Site M, mid.attempts id back = [] := fun mid => attempts_eq_nil hback
  unfold attempts at hnone hlater ⊢
  rw [hsteps, shown_append, shown, hnone, hattempt, hlater]
  split <;> rfl

/-- When a link is seen to, it makes no attempt and nothing happens, or it makes one. -/
theorem attempts_provision (wellFormed : site.tree.WellFormed) (now id : Nat) :
    site.attemptIn? id (.provision now id) = none ∧ provisionAt now site id = site ∨
    site.attemptIn? id (.provision now id) = some now ∧
      ∃ link name, site.tree.link? id = some link ∧ site.tree.localName? id = some name ∧
        Attempted id now link name site (provisionAt now site id) := by
  cases hlink : site.tree.link? id with
  | none => exact .inl ⟨by simp [attemptIn?, hlink], by simp only [provisionAt, hlink]⟩
  | some link =>
    by_cases due : link.isDue now
    · obtain ⟨name, hname, attempted⟩ := exists_attempted wellFormed hlink due
      exact .inr ⟨by simp [attemptIn?, hlink, due], link, name, rfl, hname, attempted⟩
    · exact .inl ⟨by simp [attemptIn?, hlink, due], by simp only [provisionAt, hlink, if_neg due]⟩

/-- A move other than a tick makes no attempt. -/
theorem attempts_steps {move : Move M} (still : move.tick? = none) (size : Nat) :
    site.attempts id (move.steps size) = [] := by
  refine attempts_eq_nil fun now => ?_
  cases move with
  | around pool medium => simp [Move.steps]
  | call call =>
    cases call with
    | tick now => cases still
    | build | execute | notify => simp [Move.steps]

/-- As long as a device end has been there it has had its interval. -/
theorem exists_link?_prior {timeout : Nat} {pool : Pool} {medium : M} {front back : List (Move M)}
    (there : ((start timeout pool medium).run (front ++ back)).tree.link? id = some link)
    (place : link.place = .device)
    (prior : (((start timeout pool medium).run front).tree.link? id).isSome) :
    ∃ found, ((start timeout pool medium).run front).tree.link? id = some found ∧
      found.place = .device ∧ found.interval = link.interval := by
  let mid := (start timeout pool medium).run front
  have hend : (start timeout pool medium).run (front ++ back) = mid.follow (mid.trail back) := by
    rw [run_append, follow_trail]
  obtain ⟨found, hfound, hplace⟩ : ∃ found, mid.tree.link? id = some found ∧
      found.place = .device := by
    rw [hend] at there
    refine Tree.exists_deviceEnd (((lasts_follow mid _).form?_or
      (Tree.form?_deviceEnd there place)).resolve_right ?_)
    intro hnone
    simp [Tree.link?, mid, hnone] at prior
  have wellFormed : mid.tree.WellFormed :=
    Reachable.wellFormed ⟨timeout, pool, medium, front, rfl⟩
  obtain ⟨later, hlater⟩ :=
    pace?_follow wellFormed (congrArg (Option.map Link.pace) hfound) (mid.trail back)
  rw [← hend, Tree.pace?, there] at hlater
  exact ⟨found, hfound, hplace, (congrArg Prod.fst (Option.some.inj hlater)).symm⟩

/-- A tick adds to the schedule of a device end what is due when it starts, and no other move adds
anything. -/
theorem attempts_move {timeout : Nat} {pool : Pool} {medium : M} {front : List (Move M)}
    (there : ((start timeout pool medium).run front).tree.link? id = some link)
    (place : link.place = .device) (move : Move M) :
    let origin := start timeout pool medium
    let made := origin.attempts id (origin.trail front)
    origin.attempts id (origin.trail (front ++ [move])) = made ++ (move.tick?.filter fun now =>
      !(origin.run front).tree.isProvisioned id
        && made.getLast?.all fun last => link.interval ≤ now - last).toList := by
  intro origin made
  have hrun : origin.run front = origin.follow (origin.trail front) := (follow_trail origin front).symm
  have hmade : origin.attempts id (origin.trail (front ++ [move]))
      = made ++ (origin.run front).attempts id (move.steps (origin.run front).tree.size) := by
    simp only [attempts, trail_append, shown_append, trail, List.append_nil, hrun, made]
  have hlast : (origin.run front).tree.lastAttempt? id = made.getLast? := by
    rw [hrun, lastAttempt?_follow (.empty timeout)]
    exact Option.or_none
  have hup : (origin.run front).tree.isProvisioned id = (origin.run front).tree.isUp id :=
    Pair.isProvisioned_eq_isUp (.inl (Tree.form?_deviceEnd there place))
  rw [hmade]
  congr 1
  cases htick : move.tick? with
  | none => exact attempts_steps htick _
  | some now =>
    obtain rfl : move = .call (.tick now) := by
      unfold Move.tick? at htick
      split at htick <;> cases htick
      rfl
    rw [attempts_tick there place, isDue_eq there place, hlast, ← hup, Option.filter_some]
    split <;> rfl

/-- A device end asks for a name in a tick exactly when it was not provisioned at the start of the
tick and it has not asked before or its interval has passed since then. What it writes then, if there
is a slot, is one request for the name of its local root. It is provisioned once it has handled an
answer that tells of success with that name. A listener that is posted before is told once, and one
that is posted later is never told. -/
theorem device_end_asks_until_named (timeout : Nat) (pool : Pool) (medium : M)
    (moves : List (Move M)) {id : Nat} {link : Link}
    (there : ((start timeout pool medium).run moves).tree.link? id = some link)
    (place : link.place = .device) :
    let origin := start timeout pool medium
    let steps := origin.trail moves
    (∀ front move back, moves = front ++ move :: back →
      ((origin.run front).tree.link? id).isSome →
      let made := origin.attempts id (origin.trail front)
      origin.attempts id (origin.trail (front ++ [move])) = made ++ (move.tick?.filter fun now =>
        !(origin.run front).tree.isProvisioned id
          && made.getLast?.all fun last => link.interval ≤ now - last).toList) ∧
    (∀ early now late, steps = early ++ .provision now id :: late →
      let made := origin.attempts id early
      let site := origin.follow early
      let after := origin.follow (early ++ [.provision now id])
      origin.attempts id (early ++ [.provision now id]) = made ∧ after = site ∨
      origin.attempts id (early ++ [.provision now id]) = made ++ [now] ∧
        ∃ found name, site.tree.link? id = some found ∧ site.tree.localName? id = some name ∧
          Attempted id now found name site after) ∧
    (∀ early late, steps = early ++ late →
      ((origin.follow early).tree.isProvisioned id ↔
        ∃ front now back, early = front ++ .poll now id :: back ∧
          (origin.follow front).isAffirmed id) ∧
      ((origin.follow early).tree.isProvisioned id → (origin.run moves).tree.isProvisioned id)) ∧
    ∀ early tag, origin.PostsAfter early steps id tag →
      (origin.run moves).log.count (.linkUp tag)
        = if (origin.follow early).tree.isProvisioned id then 0
          else if (origin.run moves).tree.isProvisioned id then 1 else 0 := by
  intro origin steps
  have wellFormed : ∀ early, (origin.follow early).tree.WellFormed :=
    wellFormed_follow (.empty timeout)
  have hrun : ∀ front, origin.run front = origin.follow (origin.trail front) := fun front =>
    (follow_trail origin front).symm
  have deviceEnd := Tree.form?_deviceEnd there place
  have hlasts : ∀ {early late}, steps = early ++ late →
      (origin.follow early).tree.Lasts (origin.run moves).tree := by
    intro early late hsteps
    change origin.trail moves = _ at hsteps
    rw [hrun, hsteps, follow_append]
    exact lasts_follow _ late
  have hup : ∀ {early late}, steps = early ++ late → (origin.follow early).tree.isProvisioned id
      = (origin.follow early).tree.isUp id := fun hsteps =>
    Pair.isProvisioned_eq_isUp ((hlasts hsteps).form?_or deviceEnd)
  have hend := hup (List.append_nil steps).symm
  have hanswered : ∀ {early late}, steps = early ++ late →
      ((origin.follow early).tree.isProvisioned id ↔
        ∃ front now back, early = front ++ .poll now id :: back ∧
          (origin.follow front).isAffirmed id) := fun hsteps => by
    rw [hup hsteps]
    exact isUp_follow_deviceEnd (hlasts hsteps) deviceEnd
  refine ⟨?_, ?_, fun early late hsteps => ⟨hanswered hsteps, fun h => ?_⟩, ?_⟩
  · rintro front move back rfl prior made
    obtain ⟨found, hfound, hplace, hinterval⟩ := exists_link?_prior there place prior
    rw [← hinterval]
    exact attempts_move hfound hplace move
  · intro early now late hsteps made site after
    have hshown : origin.attempts id (early ++ [.provision now id])
        = made ++ (site.attemptIn? id (.provision now id)).toList := by
      simp only [attempts, shown_append, shown, List.append_nil, made, site]
    have hafter : after = provisionAt now site id := follow_append origin early _
    rw [hshown, hafter]
    rcases attempts_provision (wellFormed early) now id with ⟨hnone, heq⟩ | ⟨hsome, hmade⟩
    · exact .inl ⟨by simp [site, hnone], heq⟩
    · exact .inr ⟨by simp [site, hsome], hmade⟩
  · obtain ⟨front, now, back, rfl, haffirmed⟩ := (hanswered hsteps).1 h
    rw [hrun]
    refine (hanswered (List.append_nil steps).symm).2 ⟨front, now, back ++ late, ?_, haffirmed⟩
    simp [hsteps]
  · intro early tag posts
    have htold := told_of_postsAfter posts
    obtain ⟨late, hsteps, -⟩ := posts
    rw [hrun, hup hsteps, hend]
    exact htold

/-- The moves that lead to a device end, above a local root `shed`, that asked for a name at time 0 and
not at time 5. -/
def opening : List (Move Cabling) :=
  [.call (.build (.addDownlink "wire" "shed" 10)), .call (.build (.addListener 0 "up")),
    .call (.tick 0), .call (.tick 5)]

/-- The moves after that: an answer comes in and is handled at time 12. -/
def hearing : List (Move Cabling) :=
  [.around (Pool.ofSize 1) (Cabling.empty.feed "wire"
      [48, 30, 0, 10, 60, 45, 95, 108, 105, 110, 107, 77, 97, 110, 4, 210, 8, 95, 103, 101, 116, 78,
        97, 109, 101, 0, 0, 4, 115, 104, 101, 100]),
    .call (.tick 12)]

/-- The device end asks again at time 10, is provisioned by the answer, and its listener is told. -/
theorem second_attempt_is_answered :
    let origin := start 5 (Pool.ofSize 1) Cabling.empty
    let site := origin.run (opening ++ .call (.tick 10) :: hearing)
    origin.attempts 0 (origin.trail (opening ++ [.call (.tick 10)])) = [0, 10] ∧
      site.tree.isProvisioned 0 ∧ site.log.count (.linkUp "up") = 1 := by
  let origin := start 5 (Pool.ofSize 1) Cabling.empty
  let moves := opening ++ .call (.tick 10) :: hearing
  have hend : ((origin.run moves).tree.link? 0).map (fun link => (link.place, link.interval))
      = some (.device, 10) := by decide +kernel
  obtain ⟨link, there, heq⟩ := Option.map_eq_some_iff.1 hend
  obtain ⟨place, hinterval⟩ := Prod.mk.inj heq
  obtain ⟨hschedule, -, -, htold⟩ :=
    device_end_asks_until_named 5 (Pool.ofSize 1) Cabling.empty moves there place
  have hprovisioned : (origin.run moves).tree.isProvisioned 0 := by decide +kernel
  refine ⟨?_, hprovisioned, ?_⟩
  · have hmade : origin.attempts 0 (origin.trail opening) = [0] := by decide +kernel
    have hdown : (origin.run opening).tree.isProvisioned 0 = false := by decide +kernel
    have hthere : ((origin.run opening).tree.link? 0).isSome := by decide +kernel
    have hnext := hschedule opening _ hearing rfl hthere
    rw [hmade, hdown, hinterval] at hnext
    exact hnext
  · have hposts : origin.PostsAfter [.build (.addDownlink "wire" "shed" 10)] (origin.trail moves) 0
        "up" := by
      refine ⟨(origin.run (opening.take 2)).trail (moves.drop 2), rfl,
        exists_eq_ok (by decide +kernel), fun other => ?_⟩
      simp [moves, opening, hearing, trail, Move.steps]
    have honce := htold _ _ hposts
    rw [hprovisioned] at honce
    exact honce

end Site
end TopicTree
