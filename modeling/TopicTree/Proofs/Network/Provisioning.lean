import TopicTree.Proofs.Site.Listeners
import TopicTree.Proofs.Wire.Stream

/-!
# Agreement on a name

A link has one end in each of two trees, which take their steps in any order. What is on its way
between them may be lost or late, so neither end knows what the other has heard. All the same the
device end is confirmed only when the hub end has the name of its local root: whatever the device
end wrote proposes no other name, and whatever the hub end wrote before it had a name tells of no
success.
-/

namespace TopicTree

namespace Tree

variable {tree before after : Tree} {id : Nat}

/-- No other entry has its channel at the socket of an entry. -/
def Owns (tree : Tree) (id : Nat) : Prop :=
  ∀ other < tree.size, (tree.channel? other).isSome →
    (tree.channel? other).map (·.socket) = (tree.channel? id).map (·.socket) → other = id

instance (tree : Tree) (id : Nat) : Decidable (tree.Owns id) :=
  inferInstanceAs (Decidable (∀ other < tree.size, _))

/-- Siblings of one name are one. -/
theorem WellFormed.eq_of_name? (h : tree.WellFormed) {left right : Nat} {name : Name}
    (siblings : tree.parent? left = tree.parent? right) (hleft : tree.name? left = some name)
    (hright : tree.name? right = some name) : left = right := by
  cases habove : tree.parent? right with
  | none =>
    rw [h.eq_zero (lt_size_of_name? hleft) (siblings.trans habove),
      h.eq_zero (lt_size_of_name? hright) habove]
  | some above =>
    have hnamed : ∀ {id}, tree.name? id = some name → tree.isNamed name.text id := by
      intro id hname
      simp [isNamed, hname]
    exact h.isNamed_inj (h.mem_children.2 (siblings.trans habove)) (h.mem_children.2 habove)
      (hnamed hleft) (hnamed hright)

/-- Nobody has a session at a link. -/
theorem client?_of_link? {link : Link} (there : tree.link? id = some link) :
    tree.client? id = none := by
  cases hbridge : tree.bridge? id with
  | none => simp [client?, hbridge]
  | some bridge => simp [link?_eq_none_of_bridge? hbridge] at there

/-- A hub end proposes no name. -/
theorem WellFormed.namingRequest?_hubEnd (h : tree.WellFormed)
    (hubEnd : tree.form? id = some .hubEnd) : tree.namingRequest? id = none := by
  have hchildren : tree.children id = [] :=
    h.children_eq_nil (by simp [hubEnd]) (by simp [hubEnd])
  simp [namingRequest?, hchildren]

/-- An entry that will be of a form is of that form or is not there yet. -/
theorem Lasts.form?_or (h : before.Lasts after) {form : Form} (there : after.form? id = some form) :
    before.form? id = some form ∨ before.get? id = none := by
  rcases Nat.lt_or_ge id before.size with hid | hid
  · exact .inl ((h.form? id hid).symm.trans there)
  · exact .inr (List.getElem?_eq_none hid)

/-- A channel that is there will be at the same socket. -/
theorem Lasts.channel? (h : before.Lasts after) {channel : Channel}
    (there : before.channel? id = some channel) :
    ∃ later, after.channel? id = some later ∧ later.socket = channel.socket := by
  obtain ⟨entry, hentry, -⟩ := Option.bind_eq_some_iff.1 there
  have hsocket := h.socket id (List.getElem?_eq_some_iff.1 hentry).1
  rw [there] at hsocket
  exact Option.map_eq_some_iff.1 hsocket

/-- An entry that will have its socket to itself has it to itself. -/
theorem Lasts.eq_of_socket (h : before.Lasts after) (own : after.Owns id) {mine : Channel}
    (there : after.channel? id = some mine) (other : Nat) (channel : Channel)
    (hchannel : before.channel? other = some channel) (socket : channel.socket = mine.socket) :
    other = id := by
  obtain ⟨later, hlater, heq⟩ := h.channel? hchannel
  have hother : other < after.size := by
    obtain ⟨entry, hentry, -⟩ := Option.bind_eq_some_iff.1 hlater
    exact (List.getElem?_eq_some_iff.1 hentry).1
  exact own other hother (by simp [hlater]) (by simp [hlater, there, heq, socket])

end Tree

/-! ## The hub end -/

namespace Site

variable {M : Type} [Medium M] {site : Site M} {id : Nat} {socket : String}

omit [Medium M] in
/-- What is written beside an entry at a socket of its own is handed over by the rule. -/
theorem Spares.wrote_own {rule : Frame → Prop} {after : Site M} (h : Spares rule id site after)
    (own : ∀ other channel, site.tree.channel? other = some channel → channel.socket = socket →
      other = id) (nobody : site.tree.client? id = none) {frame : Frame}
    (wrote : .wrote socket frame.encode ∈ after.log) :
    .wrote socket frame.encode ∈ site.log ∨ (site.tree.link? id).isSome ∧ rule frame := by
  obtain ⟨events, hlog, hall⟩ := h.log
  rw [hlog, List.mem_append] at wrote
  refine wrote.imp_right fun hmem => ?_
  obtain ⟨other, channel, there, hsocket, may⟩ := hall _ hmem
  rcases may (own other channel there hsocket) with hclient | ⟨hlink, written, hbytes, hrule⟩
  · rw [nobody] at hclient
    cases hclient
  · rw [Frame.encode_inj hbytes]
    exact ⟨hlink, hrule⟩

/-- An entry that is not there is polled in vain. -/
theorem take_poll_of_get? (absent : site.tree.get? id = none) (now : Nat) :
    site.take (.poll now id) = site := by
  have hchannel : site.tree.channel? id = none := by simp [Tree.channel?, absent]
  simp only [take, pollAt, hchannel]

/-- Before an entry is there, a step goes on beside it or builds. -/
theorem take_of_get? (absent : site.tree.get? id = none) (step : RunStep M) :
    Spares (fun _ => True) id site (site.take step) ∨ ∃ construction grown,
      site.tree.construct construction = .ok grown ∧ site.take step = site.withTree grown := by
  rcases exists_or_forall_not (step = .poll · id) with ⟨now, rfl⟩ | beside
  · rw [take_poll_of_get? absent]
    exact .inl (.refl site)
  · refine (spares_take_beside site beside).imp_right ?_
    rintro ⟨construction, grown, -, hbuilt, htake⟩
    exact ⟨construction, grown, hbuilt, htake⟩

omit [Medium M] in
/-- Before an entry is there, nothing is written at the socket that it will have to itself. -/
theorem Spares.wrote_of_get? {rule : Frame → Prop} {after : Site M} (h : Spares rule id site after)
    (own : ∀ other channel, site.tree.channel? other = some channel → channel.socket = socket →
      other = id) (absent : site.tree.get? id = none) {frame : Frame}
    (wrote : .wrote socket frame.encode ∈ after.log) : .wrote socket frame.encode ∈ site.log := by
  have nobody : site.tree.client? id = none := by simp [Tree.client?, Tree.bridge?, absent]
  exact (h.wrote_own own nobody wrote).resolve_right (by simp [Tree.link?, absent])

/-- A request for a name that comes in at a hub end with the next step, and the name that it proposes. -/
def Takes (site : Site M) (id : Nat) (step : RunStep M) (name : Name) : Prop :=
  ∃ now frame message, step = .poll now id ∧ site.arriving? id = some frame ∧
    Envelope.ofFrame frame = .ok message ∧ message.kind = .request ∧ message.dest.isManager ∧
    Name.ofText ((message.params.text? 0).getD "") = .ok name

/-- A step goes on beside a hub end, names it as a request proposes that comes in, or builds. -/
theorem hubEnd_cases (wellFormed : site.tree.WellFormed)
    (hubEnd : site.tree.form? id = some .hubEnd) (step : RunStep M) :
    Spares (site.tree.Grants id) id site (site.take step) ∨
      (∃ name, site.Takes id step name ∧ (site.take step).tree.name? id = some name) ∨
      ∃ construction grown,
        site.tree.construct construction = .ok grown ∧ site.take step = site.withTree grown := by
  obtain ⟨link, hlink, place⟩ := Tree.exists_hubEnd hubEnd
  rcases exists_or_forall_not (step = .poll · id) with ⟨now, rfl⟩ | beside
  · rcases pollAt_hubEnd wellFormed hlink place now with spares |
      ⟨-, frame, message, name, hframe, hmessage, hkind, hmanager, hparsed, hname⟩
    · exact .inl spares
    · exact .inr (.inl ⟨name, ⟨now, frame, message, rfl, hframe, hmessage, hkind, hmanager, hparsed⟩,
        hname⟩)
  · have attempts : ∀ request frame, site.tree.namingRequest? id = some request →
        request.toFrame = .ok frame → site.tree.Grants id frame := by
      simp [wellFormed.namingRequest?_hubEnd hubEnd]
    rcases spares_take (routes_hubEnd wellFormed hubEnd _) attempts beside with
      spares | ⟨construction, grown, -, hbuilt, htake⟩
    · exact .inl spares
    · exact .inr (.inr ⟨construction, grown, hbuilt, htake⟩)

/-- What a step makes of a hub end, be it there already or not: only a request for a name that comes in
names it, and what is written at its socket tells of success only if it has a name. -/
theorem hubEnd_take (wellFormed : site.tree.WellFormed)
    (before : site.tree.form? id = some .hubEnd ∨ site.tree.get? id = none) (step : RunStep M)
    (after : (site.take step).tree.form? id = some .hubEnd ∨ (site.take step).tree.get? id = none)
    (own : ∀ other channel, site.tree.channel? other = some channel → channel.socket = socket →
      other = id) :
    ((site.take step).tree.name? id = site.tree.name? id ∨ ∃ name,
      site.Takes id step name ∧ (site.take step).tree.name? id = some name) ∧
    ∀ frame : Frame, .wrote socket frame.encode ∈ (site.take step).log →
      .wrote socket frame.encode ∈ site.log ∨ (site.take step).tree.Grants id frame := by
  rcases before with hubEnd | absent
  · rcases hubEnd_cases wellFormed hubEnd step with
      spares | ⟨name, takes, hname⟩ | ⟨construction, grown, hbuilt, htake⟩
    · obtain ⟨link, hlink, -⟩ := Tree.exists_hubEnd hubEnd
      refine ⟨.inl spares.name?, fun frame hwrote => ?_⟩
      rw [Tree.Grants, spares.name?]
      exact (spares.wrote_own own (Tree.client?_of_link? hlink) hwrote).imp_right And.right
    · refine ⟨.inr ⟨name, takes, hname⟩, fun _ _ => .inr (.inl ?_)⟩
      rw [hname]
      rfl
    · rw [htake]
      refine ⟨.inl (Tree.name?_construct hbuilt ?_), fun _ => .inl⟩
      exact (Tree.lasts_construct hbuilt).form?_eq hubEnd
  · rcases take_of_get? absent step with spares | ⟨construction, grown, hbuilt, htake⟩
    · exact ⟨.inl spares.name?, fun frame hwrote => .inl (spares.wrote_of_get? own absent hwrote)⟩
    · rw [htake] at after ⊢
      refine ⟨.inl ?_, fun _ => .inl⟩
      rcases after with hubEnd | hlater
      · exact Tree.name?_construct hbuilt hubEnd
      · rw [Site.withTree] at hlater ⊢
        simp [Tree.name?, hlater, absent]

/-! ## The device end -/

/-- A step may confirm a device end: an answer comes in that tells of success. -/
def Confirms (site : Site M) (id : Nat) (step : RunStep M) : Prop :=
  ∃ now frame message, step = .poll now id ∧ site.arriving? id = some frame ∧
    Envelope.ofFrame frame = .ok message ∧ message.code = .success

/-- A step goes on beside a device end, tells its listeners that it is confirmed, or builds. -/
theorem deviceEnd_cases {name : Name} {step : RunStep M} {link : Link}
    (there : site.tree.link? id = some link) (place : link.place = .device)
    (routes : Routes M (fun other frame => other = id → frame.Proposes name) site.tree
      (site.path? step))
    (named : ∀ root, (site.tree.children id).head? = some root →
      site.tree.name? root = some name) :
    Spares (·.Proposes name) id site (site.take step) ∨
      site.Confirms id step ∧ (site.take step).log = site.log ++ link.listeners.map .linkUp ∨
      ∃ construction grown,
        site.tree.construct construction = .ok grown ∧ site.take step = site.withTree grown := by
  rcases exists_or_forall_not (step = .poll · id) with ⟨now, rfl⟩ | beside
  · rcases pollAt_deviceEnd routes there place now with spares |
      ⟨-, hlog, frame, message, hframe, hmessage, hcode⟩
    · exact .inl spares
    · exact .inr (.inl ⟨⟨now, frame, message, rfl, hframe, hmessage, hcode⟩, hlog⟩)
  · have attempts : ∀ request frame, site.tree.namingRequest? id = some request →
        request.toFrame = .ok frame → frame.Proposes name := by
      intro request frame hrequest hmade
      cases hroot : (site.tree.children id).head? with
      | none => simp [Tree.namingRequest?, hroot] at hrequest
      | some root => exact Tree.proposes_namingRequest? hroot (named root hroot) hrequest hmade
    rcases spares_take routes attempts beside with
      spares | ⟨construction, grown, -, hbuilt, htake⟩
    · exact .inl spares
    · exact .inr (.inr ⟨construction, grown, hbuilt, htake⟩)

/-- What a step makes of a device end, be it there already or not, that is the only link of its tree:
only an answer that comes in brings it up, and what is written at its socket proposes no name but
that of the local root. -/
theorem deviceEnd_take {name : Name} {step : RunStep M}
    (before : site.tree.form? id = some .deviceEnd ∨ site.tree.get? id = none)
    (only : ∀ other link, site.tree.link? other = some link → other = id)
    (named : ∀ root, (site.tree.children id).head? = some root →
      site.tree.name? root = some name)
    (modest : ∀ path ∈ site.path? step, ¬MentionsManager path)
    (own : ∀ other channel, site.tree.channel? other = some channel → channel.socket = socket →
      other = id) :
    ((site.take step).tree.isUp id = site.tree.isUp id ∨ site.Confirms id step) ∧
    ∀ frame : Frame, .wrote socket frame.encode ∈ (site.take step).log →
      .wrote socket frame.encode ∈ site.log ∨ frame.Proposes name := by
  rcases before with deviceEnd | absent
  · obtain ⟨link, hlink, place⟩ := Tree.exists_deviceEnd deviceEnd
    have places : ∀ other found, site.tree.link? other = some found → found.place = .device := by
      intro other found hfound
      obtain rfl := only other found hfound
      exact Option.some.inj (hlink.symm.trans hfound) ▸ place
    rcases deviceEnd_cases hlink place (routes_deviceEnd name places modest) named with
      spares | ⟨confirms, hlog⟩ | ⟨construction, grown, hbuilt, htake⟩
    · exact ⟨.inl (Tree.isUp_congr spares.standing spares.name?), fun frame hwrote =>
        (spares.wrote_own own (Tree.client?_of_link? hlink) hwrote).imp_right And.right⟩
    · refine ⟨.inr confirms, fun frame hwrote => .inl ?_⟩
      simpa [hlog] using hwrote
    · rw [htake]
      exact ⟨.inl (Tree.isUp_construct hbuilt id), fun _ => .inl⟩
  · rcases take_of_get? absent step with spares | ⟨construction, grown, hbuilt, htake⟩
    · exact ⟨.inl (Tree.isUp_congr spares.standing spares.name?), fun frame hwrote =>
        .inl (spares.wrote_of_get? own absent hwrote)⟩
    · rw [htake]
      exact ⟨.inl (Tree.isUp_construct hbuilt id), fun _ => .inl⟩

/-- A frame was written at an entry. -/
def HasWritten (site : Site M) (id : Nat) (frame : Frame) : Prop :=
  ∃ channel ∈ site.tree.channel? id, .wrote channel.socket frame.encode ∈ site.log

instance (site : Site M) (id : Nat) (frame : Frame) : Decidable (site.HasWritten id frame) :=
  inferInstanceAs (Decidable (∃ channel ∈ site.tree.channel? id, _))

end Site

/-! ## Both ends -/

/-- Whether a step polls the channel of an entry. -/
def RunStep.polls {M : Type} (id : Nat) : RunStep M → Bool
  | .poll _ other => other = id
  | _ => false

/-- Two trees that are joined by a link, each with its pool and its medium. -/
structure Pair (H D : Type) where
  /-- The tree with the hub end. -/
  hub : Site H
  /-- The tree with the device end. -/
  device : Site D

/-- A step of one of the two trees. -/
inductive Turn (H D : Type)
  | hub (step : RunStep H)
  | device (step : RunStep D)

/-- The step, if it is one of the tree with the hub end. -/
def Turn.hub? {H D : Type} : Turn H D → Option (RunStep H)
  | .hub step => some step
  | .device _ => none

/-- The step, if it is one of the tree with the device end. -/
def Turn.device? {H D : Type} : Turn H D → Option (RunStep D)
  | .hub _ => none
  | .device step => some step

namespace Pair

variable {H D : Type}

/-- Both trees are empty, and nothing has happened yet. -/
structure Fresh (pair : Pair H D) : Prop where
  hub : ∃ timeout pool medium, pair.hub = Site.start timeout pool medium
  device : ∃ timeout pool medium, pair.device = Site.start timeout pool medium

/-- Two trees with one end of a link in each. The device end is the only link of its tree, and the
local root below it has a given name. -/
structure Joined (pair : Pair H D) (uplink downlink : Nat) (name : Name) : Prop where
  hubEnd : pair.hub.tree.form? uplink = some .hubEnd
  deviceEnd : pair.device.tree.form? downlink = some .deviceEnd
  only : ∀ other < pair.device.tree.size, (pair.device.tree.link? other).isSome → other = downlink
  named : ∃ root ∈ pair.device.tree.children downlink, pair.device.tree.name? root = some name
  ownUplink : pair.hub.tree.Owns uplink
  ownDownlink : pair.device.tree.Owns downlink

variable [Medium H] [Medium D]

/-- One of the trees takes a step. -/
def take (pair : Pair H D) : Turn H D → Pair H D
  | .hub step => { pair with hub := pair.hub.take step }
  | .device step => { pair with device := pair.device.take step }

/-- The trees take steps one after the other. -/
def follow (pair : Pair H D) (turns : List (Turn H D)) : Pair H D :=
  turns.foldl take pair

/-- What comes in at one end was written at the other. Not all that is written has to come in, nor
at any time. -/
def Genuine (pair : Pair H D) (uplink downlink : Nat) : Turn H D → Prop
  | .hub step => step.polls uplink →
    ∀ frame ∈ pair.hub.arriving? uplink, pair.device.HasWritten downlink frame
  | .device step => step.polls downlink →
    ∀ frame ∈ pair.device.arriving? downlink, pair.hub.HasWritten uplink frame

/-- Nobody at the device makes a request that mentions the manager of the link. -/
def Modest (pair : Pair H D) : Turn H D → Prop
  | .hub _ => True
  | .device step => ∀ path ∈ pair.device.path? step, ¬MentionsManager path

/-- All that comes in over the link while the trees take their steps was written at the other end,
and nobody at the device asks for the manager of the link. -/
def Behaves (pair : Pair H D) (uplink downlink : Nat) : List (Turn H D) → Prop
  | [] => True
  | turn :: turns => pair.Genuine uplink downlink turn ∧ pair.Modest turn ∧
    (pair.take turn).Behaves uplink downlink turns

variable {pair : Pair H D} {uplink downlink : Nat} {name : Name}

/-- The first step is taken first. -/
theorem follow_cons (pair : Pair H D) (turn : Turn H D) (turns : List (Turn H D)) :
    pair.follow (turn :: turns) = (pair.take turn).follow turns :=
  rfl

/-- Steps in two parts are taken one after the other. -/
theorem follow_append (pair : Pair H D) (first second : List (Turn H D)) :
    pair.follow (first ++ second) = (pair.follow first).follow second :=
  List.foldl_append

/-- The hub goes through its own steps. -/
theorem hub_follow (pair : Pair H D) (turns : List (Turn H D)) :
    (pair.follow turns).hub = pair.hub.follow (turns.filterMap Turn.hub?) := by
  induction turns generalizing pair with
  | nil => rfl
  | cons turn turns ih => cases turn <;> exact ih _

/-- The device goes through its own steps. -/
theorem device_follow (pair : Pair H D) (turns : List (Turn H D)) :
    (pair.follow turns).device = pair.device.follow (turns.filterMap Turn.device?) := by
  induction turns generalizing pair with
  | nil => rfl
  | cons turn turns ih => cases turn <;> exact ih _

omit [Medium H] [Medium D] in
/-- The only link that the device will have is the only one that it has. -/
theorem Joined.only_of_lasts {last : Pair H D} (joined : last.Joined uplink downlink name)
    {tree : Tree} (lasts : tree.Lasts last.device.tree) (other : Nat) (link : Link)
    (there : tree.link? other = some link) : other = downlink := by
  obtain ⟨later, hlater, -⟩ :=
    Tree.exists_link?_of_form? (lasts.form?_eq (Tree.form?_of_link? there))
  exact joined.only other (Tree.lt_size_of_form? (Tree.form?_of_link? hlater)) (by simp [hlater])

omit [Medium H] [Medium D] in
/-- The local root has its name as soon as it is there. -/
theorem Joined.name?_root_of_lasts {last : Pair H D} (joined : last.Joined uplink downlink name)
    {tree : Tree} (lasts : tree.Lasts last.device.tree) (wellFormed : tree.WellFormed)
    (later : last.device.tree.WellFormed) (root : Nat)
    (there : (tree.children downlink).head? = some root) : tree.name? root = some name := by
  have hparent := wellFormed.mem_children.1 (List.mem_of_mem_head? there)
  have hroot := Tree.WellFormed.lt_size_of_parent? hparent
  have hmem := later.mem_children.2 ((lasts.parent? root hroot).trans hparent)
  obtain ⟨named, hnamed, hname⟩ := joined.named
  obtain rfl := later.deviceEnd_eq joined.deviceEnd
  obtain ⟨only, honly, hnode⟩ := later.localRoot joined.deviceEnd
  obtain rfl : named = only := by simpa [honly] using hnamed
  obtain rfl : root = named := by simpa [honly] using hmem
  have hform : tree.form? root ≠ some .hubEnd := by simp [← lasts.form? root hroot, hnode]
  exact (lasts.name? root hroot hform).symm.trans hname

omit [Medium H] [Medium D] in
/-- What the ends of a link agree on at every moment, be they there already or not, told with the
sockets that they have once they are there. -/
structure Agrees (pair : Pair H D) (uplink downlink : Nat) (name : Name) (above below : String) :
    Prop where
  hubWellFormed : pair.hub.tree.WellFormed
  deviceWellFormed : pair.device.tree.WellFormed
  /-- The hub end has no name but that of the local root. -/
  named : ∀ other, pair.hub.tree.name? uplink = some other → other = name
  /-- What the hub end wrote tells of success only if it has a name. -/
  granted : ∀ frame : Frame, .wrote above frame.encode ∈ pair.hub.log →
    pair.hub.tree.Grants uplink frame
  /-- What the device end wrote proposes no name but that of the local root. -/
  proposed : ∀ frame : Frame, .wrote below frame.encode ∈ pair.device.log → frame.Proposes name
  /-- The device end is up only if the hub end has a name. -/
  agreed : pair.device.tree.isUp downlink → pair.hub.tree.name? uplink = some name

namespace Agrees

variable {last : Pair H D} {up down : Channel}

/-- The hub end learns no name but that of the local root. -/
theorem eq_of_takes (agrees : pair.Agrees uplink downlink name up.socket down.socket)
    (lasts : pair.device.tree.Lasts last.device.tree)
    (there : last.device.tree.channel? downlink = some down) {step : RunStep H} {other : Name}
    (genuine : pair.Genuine uplink downlink (.hub step))
    (takes : pair.hub.Takes uplink step other) : other = name := by
  obtain ⟨now, frame, message, rfl, hframe, hmessage, hkind, hmanager, hparsed⟩ := takes
  obtain ⟨channel, hchannel, hwrote⟩ := genuine (decide_eq_true rfl) frame hframe
  obtain ⟨later, hlater, hsocket⟩ := lasts.channel? hchannel
  obtain rfl : later = down := Option.some.inj (hlater.symm.trans there)
  have htext := agrees.proposed frame (hsocket ▸ hwrote) message hmessage hkind hmanager
  rw [htext, Option.getD_some, Name.ofText_text] at hparsed
  exact (Except.ok.inj hparsed).symm

/-- The device end is confirmed only if the hub end has the name of the local root. -/
theorem name?_of_confirms (agrees : pair.Agrees uplink downlink name up.socket down.socket)
    (lasts : pair.hub.tree.Lasts last.hub.tree)
    (there : last.hub.tree.channel? uplink = some up) {step : RunStep D}
    (genuine : pair.Genuine uplink downlink (.device step))
    (confirms : pair.device.Confirms downlink step) : pair.hub.tree.name? uplink = some name := by
  obtain ⟨now, frame, message, rfl, hframe, hmessage, hsuccess⟩ := confirms
  obtain ⟨channel, hchannel, hwrote⟩ := genuine (decide_eq_true rfl) frame hframe
  obtain ⟨later, hlater, hsocket⟩ := lasts.channel? hchannel
  obtain rfl : later = up := Option.some.inj (hlater.symm.trans there)
  rcases agrees.granted frame (hsocket ▸ hwrote) with hnamed | hrefuses
  · obtain ⟨other, hother⟩ := Option.isSome_iff_exists.1 hnamed
    exact agrees.named other hother ▸ hother
  · exact absurd hsuccess (hrefuses message hmessage)

/-- The ends still agree after a step of the hub, and a hub end with its name keeps it. -/
theorem takeHub (agrees : pair.Agrees uplink downlink name up.socket down.socket)
    (joined : last.Joined uplink downlink name)
    (hup : last.hub.tree.channel? uplink = some up)
    (hdown : last.device.tree.channel? downlink = some down) {step : RunStep H}
    (hub : (pair.hub.take step).tree.Lasts last.hub.tree)
    (device : pair.device.tree.Lasts last.device.tree)
    (genuine : pair.Genuine uplink downlink (.hub step)) :
    (pair.take (.hub step)).Agrees uplink downlink name up.socket down.socket ∧
      (pair.hub.tree.name? uplink = some name →
        (pair.hub.take step).tree.name? uplink = some name) := by
  have hlasts := (Site.lasts_take pair.hub step).trans hub
  obtain ⟨hname, hwrote⟩ := Site.hubEnd_take agrees.hubWellFormed
    (hlasts.form?_or joined.hubEnd) step (hub.form?_or joined.hubEnd)
    (hlasts.eq_of_socket joined.ownUplink hup)
  have hnamed : ∀ other, (pair.hub.take step).tree.name? uplink = some other → other = name := by
    intro other hother
    rcases hname with hsame | ⟨taken, takes, htaken⟩
    · exact agrees.named other (hsame ▸ hother)
    · obtain rfl : taken = other := Option.some.inj (htaken.symm.trans hother)
      exact agrees.eq_of_takes device hdown genuine takes
  have hkeeps : (pair.hub.tree.name? uplink).isSome →
      ((pair.hub.take step).tree.name? uplink).isSome := by
    intro hsome
    rcases hname with hsame | ⟨taken, -, htaken⟩
    · rw [hsame]
      exact hsome
    · simp [htaken]
  have hstays : pair.hub.tree.name? uplink = some name →
      (pair.hub.take step).tree.name? uplink = some name := by
    intro hold
    obtain ⟨other, hother⟩ := Option.isSome_iff_exists.1 (hkeeps (by simp [hold]))
    exact hnamed other hother ▸ hother
  refine ⟨⟨Site.wellFormed_take agrees.hubWellFormed step, agrees.deviceWellFormed, hnamed, ?_,
    agrees.proposed, fun hisUp => hstays (agrees.agreed hisUp)⟩, hstays⟩
  intro frame hframe
  rcases hwrote frame hframe with hbefore | hgrants
  · exact (agrees.granted frame hbefore).imp_left hkeeps
  · exact hgrants

/-- The ends still agree after a step of the device. -/
theorem takeDevice (agrees : pair.Agrees uplink downlink name up.socket down.socket)
    (joined : last.Joined uplink downlink name)
    (there : last.hub.tree.channel? uplink = some up)
    (hdown : last.device.tree.channel? downlink = some down) {step : RunStep D}
    (hub : pair.hub.tree.Lasts last.hub.tree)
    (device : (pair.device.take step).tree.Lasts last.device.tree)
    (wellFormed : last.device.tree.WellFormed)
    (genuine : pair.Genuine uplink downlink (.device step)) (modest : pair.Modest (.device step)) :
    (pair.take (.device step)).Agrees uplink downlink name up.socket down.socket := by
  have hlasts := (Site.lasts_take pair.device step).trans device
  obtain ⟨hisUp, hwrote⟩ := Site.deviceEnd_take (hlasts.form?_or joined.deviceEnd)
    (joined.only_of_lasts hlasts)
    (joined.name?_root_of_lasts hlasts agrees.deviceWellFormed wellFormed) modest
    (hlasts.eq_of_socket joined.ownDownlink hdown)
  refine ⟨agrees.hubWellFormed, Site.wellFormed_take agrees.deviceWellFormed step, agrees.named,
    agrees.granted, fun frame hframe => ?_, fun hup => ?_⟩
  · exact (hwrote frame hframe).elim (agrees.proposed frame) id
  · rcases hisUp with hsame | confirms
    · exact agrees.agreed (hsame ▸ hup)
    · exact agrees.name?_of_confirms hub there genuine confirms

/-- The ends agree all along, and a hub end with its name keeps it. -/
theorem follow (agrees : pair.Agrees uplink downlink name up.socket down.socket)
    (joined : last.Joined uplink downlink name)
    (hup : last.hub.tree.channel? uplink = some up)
    (hdown : last.device.tree.channel? downlink = some down)
    (wellFormed : last.device.tree.WellFormed) {turns : List (Turn H D)}
    (behaves : pair.Behaves uplink downlink turns) (hlast : pair.follow turns = last)
    {early : List (Turn H D)} (prior : early <+: turns) :
    (pair.follow early).Agrees uplink downlink name up.socket down.socket ∧
      (pair.hub.tree.name? uplink = some name →
        (pair.follow early).hub.tree.name? uplink = some name) := by
  induction early generalizing pair turns with
  | nil => exact ⟨agrees, fun h => h⟩
  | cons turn early ih =>
    obtain ⟨late, rfl⟩ := prior
    obtain ⟨genuine, modest, behaves⟩ := behaves
    have hlasts : (pair.take turn).hub.tree.Lasts last.hub.tree ∧
        (pair.take turn).device.tree.Lasts last.device.tree := by
      rw [← hlast, List.cons_append, follow_cons, hub_follow, device_follow]
      exact ⟨Site.lasts_follow _ _, Site.lasts_follow _ _⟩
    obtain ⟨hnext, hstays⟩ : (pair.take turn).Agrees uplink downlink name up.socket down.socket ∧
        (pair.hub.tree.name? uplink = some name →
          (pair.take turn).hub.tree.name? uplink = some name) := by
      cases turn with
      | hub step => exact agrees.takeHub joined hup hdown hlasts.1 hlasts.2 genuine
      | device step =>
        exact ⟨agrees.takeDevice joined hup hdown hlasts.1 hlasts.2 wellFormed genuine modest,
          fun h => h⟩
    obtain ⟨hagrees, hlater⟩ := ih hnext behaves hlast (List.prefix_append early late)
    exact ⟨hagrees, fun h => hlater (hstays h)⟩

end Agrees

/-- What is so after some steps and was not so before them came to be so with one of them. -/
theorem exists_turn {P : Pair H D → Prop} (turns : List (Turn H D)) (before : ¬P pair)
    (after : P (pair.follow turns)) : ∃ early turn late, turns = early ++ turn :: late ∧
      ¬P (pair.follow early) ∧ P ((pair.follow early).take turn) := by
  induction turns generalizing pair with
  | nil => exact absurd after before
  | cons turn turns ih =>
    by_cases hnow : P (pair.take turn)
    · exact ⟨[], turn, turns, rfl, before, hnow⟩
    · obtain ⟨early, other, late, rfl, hbefore, hafter⟩ := ih hnow after
      exact ⟨turn :: early, other, late, rfl, hbefore, hafter⟩

/-- The trees after fewer steps last. -/
theorem lasts_prior (pair : Pair H D) {early turns : List (Turn H D)} (prior : early <+: turns) :
    (pair.follow early).hub.tree.Lasts (pair.follow turns).hub.tree ∧
      (pair.follow early).device.tree.Lasts (pair.follow turns).device.tree := by
  obtain ⟨late, rfl⟩ := prior
  rw [follow_append, hub_follow (pair.follow early), device_follow (pair.follow early)]
  exact ⟨Site.lasts_follow _ _, Site.lasts_follow _ _⟩

/-- All that comes in after some steps too was written at the other end. -/
theorem Behaves.drop {early late : List (Turn H D)}
    (behaves : pair.Behaves uplink downlink (early ++ late)) :
    (pair.follow early).Behaves uplink downlink late := by
  induction early generalizing pair with
  | nil => exact behaves
  | cons turn early ih => exact ih behaves.2.2

omit [Medium H] [Medium D] in
/-- The ends of a link that is not there yet agree. -/
theorem Fresh.agrees (fresh : pair.Fresh) (above below : String) :
    pair.Agrees uplink downlink name above below := by
  obtain ⟨hub, device⟩ := pair
  obtain ⟨⟨timeout, pool, medium, rfl⟩, ⟨waiting, slots, wire, rfl⟩⟩ := fresh
  refine ⟨.empty timeout, .empty waiting, fun other h => ?_, fun frame h => ?_, fun frame h => ?_,
    fun h => ?_⟩
  · cases h
  · cases h
  · cases h
  · cases h

/-- The device end is up when it is provisioned. -/
theorem isProvisioned_eq_isUp {tree : Tree}
    (place : tree.form? downlink = some .deviceEnd ∨ tree.get? downlink = none) :
    tree.isProvisioned downlink = tree.isUp downlink := by
  rcases place with deviceEnd | hnone
  · obtain ⟨link, hlink, hplace⟩ : ∃ link, tree.link? downlink = some link ∧ link.place = .device :=
      Tree.exists_link?_of_form? deviceEnd
    simp [Tree.isProvisioned, Tree.isUp, hlink, hplace]
  · simp [Tree.isProvisioned, Tree.isUp, Tree.link?, hnone]

/-- Once the device end is provisioned, the hub end has the name of the local root and has had it
since before, no sibling of it has that name, and at both ends the listeners that were posted in time
have been told once. While another entry beside the hub end has the name, the device end is not
provisioned; all but hub ends keep their names. -/
theorem provisioning_agrees {origin : Pair H D} (fresh : origin.Fresh) {turns : List (Turn H D)}
    (joined : (origin.follow turns).Joined uplink downlink name)
    (behaves : origin.Behaves uplink downlink turns) :
    let last := origin.follow turns
    (last.device.tree.isProvisioned downlink →
      last.hub.tree.name? uplink = some name ∧
      (∃ early turn late, turns = early ++ turn :: late ∧
        ¬(origin.follow early).device.tree.isProvisioned downlink ∧
        ((origin.follow early).take turn).device.tree.isProvisioned downlink ∧
        ∀ more, more <+: turn :: late →
          (origin.follow (early ++ more)).hub.tree.name? uplink = some name) ∧
      (∀ other, last.hub.tree.parent? other = last.hub.tree.parent? uplink →
        last.hub.tree.name? other = some name → other = uplink) ∧
      (∀ tag, origin.hub.Posts (turns.filterMap Turn.hub?) uplink tag →
        last.hub.log.count (.linkUp tag) = 1) ∧
      ∀ tag, origin.device.Posts (turns.filterMap Turn.device?) downlink tag →
        last.device.log.count (.linkUp tag) = 1) ∧
    ∀ early other, early <+: turns → other ≠ uplink →
      (origin.follow early).hub.tree.parent? other = last.hub.tree.parent? uplink →
      (origin.follow early).hub.tree.name? other = some name →
      (last.hub.tree.form? other = some .hubEnd → last.hub.tree.name? other = some name) →
      ¬last.device.tree.isProvisioned downlink := by
  intro last
  obtain ⟨up, hup⟩ : ∃ up, last.hub.tree.channel? uplink = some up := by
    obtain ⟨link, hlink, -⟩ : ∃ link, last.hub.tree.link? uplink = some link ∧ link.place = .hub :=
      Tree.exists_link?_of_form? joined.hubEnd
    exact ⟨_, Tree.channel?_of_link? hlink⟩
  obtain ⟨down, hdown⟩ : ∃ down, last.device.tree.channel? downlink = some down := by
    obtain ⟨link, hlink, -⟩ : ∃ link, last.device.tree.link? downlink = some link ∧
        link.place = .device := Tree.exists_link?_of_form? joined.deviceEnd
    exact ⟨_, Tree.channel?_of_link? hlink⟩
  have hstart : origin.Agrees uplink downlink name up.socket down.socket := fresh.agrees _ _
  have wellFormed : last.device.tree.WellFormed :=
    (device_follow origin turns) ▸ Site.wellFormed_follow hstart.deviceWellFormed _
  have hprior : ∀ {early}, early <+: turns →
      (origin.follow early).Agrees uplink downlink name up.socket down.socket := fun prior =>
    (hstart.follow joined hup hdown wellFormed behaves rfl prior).1
  have hlast : last.Agrees uplink downlink name up.socket down.socket := hprior List.prefix_rfl
  have hup_eq : ∀ {early}, early <+: turns →
      (origin.follow early).device.tree.isProvisioned downlink
        = (origin.follow early).device.tree.isUp downlink := fun prior =>
    isProvisioned_eq_isUp ((lasts_prior origin prior).2.form?_or joined.deviceEnd)
  have hsiblings : ∀ other, last.hub.tree.parent? other = last.hub.tree.parent? uplink →
      last.hub.tree.name? other = some name → last.device.tree.isProvisioned downlink →
      other = uplink := fun other hparent hname hdone =>
    hlast.hubWellFormed.eq_of_name? hparent hname
      (hlast.agreed ((hup_eq List.prefix_rfl).symm.trans hdone))
  refine ⟨fun hdone => ?_, fun early other prior hne hparent hname hkept hdone => ?_⟩
  · have hisUp : last.device.tree.isUp downlink := (hup_eq List.prefix_rfl).symm.trans hdone
    have hnamed := hlast.agreed hisUp
    refine ⟨hnamed, ?_, fun other hparent hname => hsiblings other hparent hname hdone,
      fun tag posts => ?_, fun tag posts => ?_⟩
    · have hnot : ¬origin.device.tree.isUp downlink := by
        obtain ⟨timeout, pool, medium, hdevice⟩ := fresh.device
        rw [hdevice]
        exact nofun
      obtain ⟨early, turn, late, rfl, hbefore, hafter⟩ :=
        exists_turn (P := fun pair => pair.device.tree.isUp downlink) turns hnot hisUp
      have prior : early <+: early ++ turn :: late := List.prefix_append early _
      have next : early ++ [turn] <+: early ++ turn :: late := ⟨late, by simp⟩
      have hthen : (origin.follow early).hub.tree.name? uplink = some name := by
        have hnext := (hprior next).agreed (by rw [follow_append]; exact hafter)
        rw [follow_append] at hnext
        cases turn with
        | hub step => exact absurd hafter hbefore
        | device step => exact hnext
      refine ⟨early, turn, late, rfl, ?_, ?_, fun more hmore => ?_⟩
      · rw [hup_eq prior]
        exact hbefore
      · have heq := hup_eq next
        rw [follow_append] at heq
        exact heq.trans hafter
      · rw [follow_append]
        exact ((hprior prior).follow joined hup hdown wellFormed behaves.drop
          (follow_append origin early _).symm hmore).2 hthen
    · obtain ⟨timeout, pool, medium, hhub⟩ := fresh.hub
      have htold := Site.told_of_posts (hhub ▸ posts)
      have hhubUp : last.hub.tree.isUp uplink := by
        obtain ⟨link, hlink, hplace⟩ : ∃ link, last.hub.tree.link? uplink = some link ∧
            link.place = .hub := Tree.exists_link?_of_form? joined.hubEnd
        simp [Tree.isUp, hlink, hplace, hnamed]
      rw [← hhub, ← hub_follow] at htold
      exact htold.trans (if_pos hhubUp)
    · obtain ⟨timeout, pool, medium, hdevice⟩ := fresh.device
      have htold := Site.told_of_posts (hdevice ▸ posts)
      rw [← hdevice, ← device_follow] at htold
      exact htold.trans (if_pos hisUp)
  · have hlasts := (lasts_prior origin prior).1
    have hother := Tree.lt_size_of_name? hname
    refine hne (hsiblings other ((hlasts.parent? other hother).trans hparent) ?_ hdone)
    by_cases hform : last.hub.tree.form? other = some .hubEnd
    · exact hkept hform
    · rw [hlasts.form? other hother] at hform
      exact (hlasts.name? other hother hform).trans hname

/-! ## Two handshakes -/

instance (turn : Turn H D) : Decidable (pair.Genuine uplink downlink turn) :=
  match turn with
  | .hub step => inferInstanceAs (Decidable (step.polls uplink → _))
  | .device step => inferInstanceAs (Decidable (step.polls downlink → _))

instance (turn : Turn H D) : Decidable (pair.Modest turn) :=
  match turn with
  | .hub _ => .isTrue trivial
  | .device step => inferInstanceAs (Decidable (∀ path ∈ pair.device.path? step, _))

/-- Whether a pair behaves is told step by step. -/
def decideBehaves (pair : Pair H D) (uplink downlink : Nat) :
    (turns : List (Turn H D)) → Decidable (pair.Behaves uplink downlink turns)
  | [] => .isTrue trivial
  | turn :: turns =>
    have := (pair.take turn).decideBehaves uplink downlink turns
    inferInstanceAs (Decidable (pair.Genuine uplink downlink turn ∧ pair.Modest turn ∧
      (pair.take turn).Behaves uplink downlink turns))

instance (turns : List (Turn H D)) : Decidable (pair.Behaves uplink downlink turns) :=
  pair.decideBehaves uplink downlink turns

/-- The name `shed`. -/
def shed : Name :=
  (Name.ofText "shed").toOption.get (by decide)

/-- A tree on a medium where nothing is connected. -/
def solitary : Site Cabling :=
  .start 5 (Pool.ofSize 2) Cabling.empty

/-- The bytes that are written in the course of steps. -/
def bytesOf (steps : List (RunStep Cabling)) : Bytes :=
  (solitary.follow steps).log.flatMap fun event =>
    match event with
    | .wrote _ bytes => bytes
    | _ => []

/-- Bytes that wait at a socket. -/
def arrival (socket : String) (bytes : Bytes) : RunStep Cabling :=
  .around (Pool.ofSize 2) (Cabling.empty.feed socket bytes)

/-- A device with a local root builds its tree and attempts to have its link named. -/
def proposal (root : String) : List (RunStep Cabling) :=
  [.build (.addDownlink "below" root 0), .build (.addListener 0 "device"), .provision 0 0]

/-- A hub builds its tree and grants the name. -/
def welcome : List (RunStep Cabling) :=
  [.build (.addRoot "house"), .build (.addUplink 0 "above" 0), .build (.addListener 1 "hub"),
    arrival "above" (bytesOf (proposal "shed")), .poll 0 1]

/-- The hub grants the name, and the device hears of it. -/
def handshake : List (Turn Cabling Cabling) :=
  (proposal "shed").map .device ++ welcome.map .hub
    ++ [.device (arrival "below" (bytesOf welcome)), .device (.poll 1 0)]

/-- The device takes up its link with the name of its local root, and either listener is told. -/
theorem shed_is_welcomed :
    let origin : Pair Cabling Cabling := ⟨solitary, solitary⟩
    let last := origin.follow handshake
    last.device.tree.isProvisioned 0 ∧ last.hub.tree.name? 1 = some shed ∧
      last.hub.log.count (.linkUp "hub") = 1 ∧ last.device.log.count (.linkUp "device") = 1 ∧
      ¬(origin.follow ((proposal "shed").map .device)).device.tree.isProvisioned 0 := by
  intro origin last
  have joined : last.Joined 1 0 shed :=
    ⟨by decide +kernel, by decide +kernel, by decide +kernel, by decide +kernel, by decide +kernel,
      by decide +kernel⟩
  have done : last.device.tree.isProvisioned 0 := by decide +kernel
  have fresh : origin.Fresh := ⟨⟨5, _, _, rfl⟩, ⟨5, _, _, rfl⟩⟩
  obtain ⟨hagrees, -⟩ := provisioning_agrees fresh joined (by decide +kernel)
  obtain ⟨hnamed, -, -, hhub, hdevice⟩ := hagrees done
  refine ⟨done, hnamed, hhub "hub" ?_, hdevice "device" ?_, by decide +kernel⟩
  · exact ⟨welcome.take 2, welcome.drop 3, rfl, by decide +kernel, ⟨_, rfl⟩,
      by simp [welcome, arrival]⟩
  · exact ⟨[.build (.addDownlink "below" "shed" 0)],
      [.provision 0 0, arrival "below" (bytesOf welcome), .poll 1 0], rfl, by decide +kernel,
      ⟨_, rfl⟩, by simp [arrival]⟩

/-- A hub of which another link takes the name `shed` before the device attempts anything. -/
def namesake : List (Turn Cabling Cabling) :=
  [.hub (.build (.addRoot "house")), .hub (.build (.addUplink 0 "above" 0)),
    .hub (.build (.addUplink 0 "beside" 0)), .hub (arrival "beside" (bytesOf (proposal "shed"))),
    .hub (.poll 0 2)]

/-- The first attempt of the device is in vain, but the other link takes another name, and then the
second attempt is not. -/
def succession : List (Turn Cabling Cabling) :=
  (proposal "shed").map .device
    ++ [.hub (arrival "above" (bytesOf (proposal "shed"))), .hub (.poll 0 1),
      .hub (arrival "beside" (bytesOf (proposal "barn"))), .hub (.poll 1 2),
      .device (.provision 1 0), .hub (arrival "above" (bytesOf (proposal "shed"))),
      .hub (.poll 1 1), .device (arrival "below" (bytesOf welcome)), .device (.poll 1 0)]

/-- A name that another child of the hub has before the first attempt can come free later, if that
child is a hub end. -/
theorem taken_name_comes_free :
    let origin : Pair Cabling Cabling := ⟨solitary, solitary⟩
    let early := origin.follow namesake
    let last := early.follow succession
    origin.Fresh ∧ last.Joined 1 0 shed ∧ origin.Behaves 1 0 (namesake ++ succession) ∧
      (∀ id < last.device.tree.size,
        (last.device.tree.name? id).map (·.text) ≠ some linkManager) ∧
      early.hub.tree.parent? 2 = early.hub.tree.parent? 1 ∧
      early.hub.tree.name? 2 = some shed ∧ early.device.log = [] ∧
      last.device.tree.isProvisioned 0 := by
  refine ⟨⟨⟨5, _, _, rfl⟩, ⟨5, _, _, rfl⟩⟩, ⟨?_, ?_, ?_, ?_, ?_, ?_⟩, ?_⟩
  all_goals decide +kernel

end Pair
end TopicTree
