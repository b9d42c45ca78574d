import Mathlib.Data.List.Forall2
import TopicTree.Proofs.Outcome
import TopicTree.Proofs.Tree.Build
import TopicTree.Proofs.Tree.Update
import TopicTree.Proofs.Tree.Waiting
import TopicTree.Site.Route

/-!
# Trees that differ in who asks

A request may be made by the client of a bridge, or in its stead by a caller in the program. The two
trees in which it is made await the same responses in the same order, and differ in whom they will
tell of that one. Besides, a channel may have counted more frames in one of them, which nothing that
a tree does depends on. Everything that is read of such trees is the same or differs like that, and
so they still do after the same change of both.
-/

namespace TopicTree

/-- Who makes a request: the client of a bridge, who is told on a topic at the socket of the bridge,
or in its stead a caller, known by a tag. -/
structure Asker where
  bridge : Nat
  socket : String
  topic : String
  tag : String
  /-- Where the channels of the trees are. What is written to the client arrives elsewhere. -/
  near : String → Prop

/-- The socket of the channel that is built, if one is. -/
def Construction.socket? : Construction → Option String
  | addUplink _ socket _ | addDownlink socket _ _ | addBridge _ _ socket _ => some socket
  | _ => none

namespace Asker

variable (asker : Asker)

/-- Rows of two tables: the same row, or the one row of which the client is told in one tree and the
caller in the other. -/
inductive Rows (id : Nat) : Pending → Pending → Prop
  | same (row : Pending) (other : row.requester ≠ .caller asker.tag) : Rows id row row
  | own (key : UInt16) (deadline : Nat) (here : id = asker.bridge) :
      Rows id ⟨key, deadline, .client asker.topic⟩ ⟨key, deadline, .caller asker.tag⟩

/-- Endpoints whose rows correspond and that are the same otherwise. -/
structure Endpoints (id : Nat) (left right : Endpoint) : Prop where
  methods : left.methods = right.methods
  lastId : left.lastId = right.lastId
  pending : List.Forall₂ (asker.Rows id) left.pending right.pending

/-- Channels that are the same but for what they have counted. -/
structure Channels (id : Nat) (left right : Channel) : Prop where
  socket : left.socket = right.socket
  decoder : left.decoder = right.decoder
  own : id = asker.bridge → left.socket = asker.socket
  near : asker.near left.socket

/-- Roles that differ in their endpoints and channels at most. -/
inductive Roles (id : Nat) : Role → Role → Prop
  | node {left right : Endpoint} (endpoint : asker.Endpoints id left right) :
      Roles id (.node left) (.node right)
  | link {left : Link} {right : Channel} (channel : asker.Channels id left.channel right) :
      Roles id (.link left) (.link { left with channel := right })
  | bridge {left : Bridge} {endpoint : Endpoint} {channel : Channel}
      (endpoints : asker.Endpoints id left.endpoint endpoint)
      (channels : asker.Channels id left.channel channel) :
      Roles id (.bridge left) (.bridge { left with endpoint, channel })

/-- Entries in one place, with one name and the same entries below. -/
structure Entries (id : Nat) (left right : Entry) : Prop where
  name : left.name = right.name
  parent : left.parent = right.parent
  children : left.children = right.children
  role : asker.Roles id left.role right.role

/-- Trees that differ in who asks. -/
structure Trees (left right : Tree) : Prop where
  timeout : left.timeout = right.timeout
  there : asker.bridge < left.size
  entries : ∀ id, Option.Rel (asker.Entries id) (left.get? id) (right.get? id)

variable {asker : Asker} {id : Nat}

/-- Values that correspond are both there, or both are not. -/
theorem rel_cases {α β : Type} {related : α → β → Prop} {left : Option α} {right : Option β}
    (h : Option.Rel related left right) : (left = none ∧ right = none) ∨
      ∃ value value', left = some value ∧ right = some value' ∧ related value value' := by
  cases h with
  | none => exact .inl ⟨rfl, rfl⟩
  | some h => exact .inr ⟨_, _, rfl, rfl, h⟩

/-! ## Tables -/

/-- Rows that correspond have one id. -/
theorem Rows.id_eq {left right : Pending} (h : asker.Rows id left right) : left.id = right.id := by
  cases h <;> rfl

/-- Rows that correspond have one deadline. -/
theorem Rows.deadline_eq {left right : Pending} (h : asker.Rows id left right) :
    left.deadline = right.deadline := by
  cases h <;> rfl

/-- Tables that correspond do so with their last rows put first. -/
theorem forall₂_lastFirst {α : Type} {related : α → α → Prop} {left right : List α}
    (h : List.Forall₂ related left right) :
    List.Forall₂ related (Endpoint.lastFirst left) (Endpoint.lastFirst right) := by
  rcases left.eq_nil_or_concat with rfl | ⟨front, last, rfl⟩
  · rw [List.forall₂_nil_left_iff.1 h]
    exact .nil
  · rw [← List.forall₂_reverse_iff, List.concat_eq_append, List.reverse_concat,
      List.forall₂_cons_left_iff] at h
    obtain ⟨last', back, hlast, hback, hright⟩ := h
    obtain rfl : right = back.reverse ++ [last'] := by
      rw [← List.reverse_cons, ← hright, List.reverse_reverse]
    rw [← List.forall₂_reverse_iff, List.reverse_reverse] at hback
    simpa [Endpoint.lastFirst] using ⟨hlast, hback⟩

/-- A row is taken out of both tables or out of none. -/
theorem rel_settleIn {left right : List Pending} (h : List.Forall₂ (asker.Rows id) left right)
    (key : UInt16) :
    Option.Rel (fun taken taken' => asker.Rows id taken.1 taken'.1 ∧
      List.Forall₂ (asker.Rows id) taken.2 taken'.2)
      (Endpoint.settleIn key left) (Endpoint.settleIn key right) := by
  induction h with
  | nil => exact .none
  | @cons row row' rest rest' hrow hrest ih =>
    unfold Endpoint.settleIn
    rw [hrow.id_eq]
    split
    · exact .some ⟨hrow, forall₂_lastFirst hrest⟩
    · generalize Endpoint.settleIn key rest = taken at ih
      generalize Endpoint.settleIn key rest' = taken' at ih
      cases ih with
      | none => exact .none
      | some h => exact .some ⟨h.1, .cons hrow h.2⟩

/-- The same rows are overdue in both tables. -/
theorem forall₂_expireIn (now : Nat) {left right : List Pending}
    (h : List.Forall₂ (asker.Rows id) left right) :
    List.Forall₂ (asker.Rows id) (Endpoint.expireIn now left).1 (Endpoint.expireIn now right).1 ∧
      List.Forall₂ (asker.Rows id) (Endpoint.expireIn now left).2
        (Endpoint.expireIn now right).2 := by
  induction left using Endpoint.expireIn.induct now generalizing right with
  | case1 =>
    rw [List.forall₂_nil_left_iff.1 h]
    simp [Endpoint.expireIn]
  | case2 row rest due _ _ _ ih =>
    obtain ⟨row', rest', hrow, hrest, rfl⟩ := List.forall₂_cons_left_iff.1 h
    obtain ⟨hexpired, hkept⟩ := ih (forall₂_lastFirst hrest)
    rw [Endpoint.expireIn, if_pos due, Endpoint.expireIn, if_pos (hrow.deadline_eq ▸ due)]
    exact ⟨.cons hrow hexpired, hkept⟩
  | case3 row rest early _ _ _ ih =>
    obtain ⟨row', rest', hrow, hrest, rfl⟩ := List.forall₂_cons_left_iff.1 h
    obtain ⟨hexpired, hkept⟩ := ih hrest
    rw [Endpoint.expireIn, if_neg early, Endpoint.expireIn, if_neg (hrow.deadline_eq ▸ early)]
    exact ⟨hexpired, .cons hrow hkept⟩

/-! ## Endpoints -/

/-- A fresh channel at a socket nearby corresponds to itself. -/
theorem Channels.ofSocket {socket : String} (near : asker.near socket) (other : id ≠ asker.bridge) :
    asker.Channels id (Channel.ofSocket socket) (Channel.ofSocket socket) :=
  ⟨rfl, rfl, fun heq => absurd heq other, near⟩

namespace Endpoints

variable {left right : Endpoint}

/-- An endpoint without anything corresponds to itself. -/
protected theorem empty (id : Nat) : asker.Endpoints id Endpoint.empty Endpoint.empty :=
  ⟨rfl, rfl, .nil⟩

/-- A method is called at both endpoints, with one reply, or at none. -/
theorem call? (h : asker.Endpoints id left right) (name : String) (params : Params) :
    Option.Rel (fun called called' => called.1 = called'.1 ∧ asker.Endpoints id called.2 called'.2)
      (left.call? name params) (right.call? name params) := by
  rw [Endpoint.call?, Endpoint.call?, h.methods]
  cases Endpoint.callIn name params right.methods with
  | none => exact .none
  | some called => exact .some ⟨rfl, rfl, h.lastId, h.pending⟩

/-- A wait ends at both endpoints or at none. -/
theorem settle? (h : asker.Endpoints id left right) (key : UInt16) :
    Option.Rel (fun settled settled' => asker.Rows id settled.1 settled'.1 ∧
      asker.Endpoints id settled.2 settled'.2) (left.settle? key) (right.settle? key) := by
  have hrel := rel_settleIn h.pending key
  unfold Endpoint.settle?
  generalize Endpoint.settleIn key left.pending = taken at hrel
  generalize Endpoint.settleIn key right.pending = taken' at hrel
  cases hrel with
  | none => exact .none
  | some hrows => exact .some ⟨hrows.1, h.methods, h.lastId, hrows.2⟩

/-- The same waits end at both endpoints when they are overdue. -/
theorem takeExpired (h : asker.Endpoints id left right) (now : Nat) :
    List.Forall₂ (asker.Rows id) (left.takeExpired now).1 (right.takeExpired now).1 ∧
      asker.Endpoints id (left.takeExpired now).2 (right.takeExpired now).2 := by
  obtain ⟨hexpired, hkept⟩ := forall₂_expireIn now h.pending
  exact ⟨hexpired, h.methods, h.lastId, hkept⟩

/-- Both endpoints give out one id. -/
theorem allocateId (h : asker.Endpoints id left right) :
    left.allocateId.1 = right.allocateId.1 ∧
      asker.Endpoints id left.allocateId.2 right.allocateId.2 := by
  have hused : left.usedIds = right.usedIds := by
    have hids : List.Forall₂ (· = ·) left.usedIds right.usedIds :=
      List.rel_map (fun _ _ hrow => Rows.id_eq hrow) h.pending
    rwa [List.forall₂_eq_eq_eq] at hids
  have hkey : left.allocateId.1 = right.allocateId.1 := by
    rw [Endpoint.allocateId, Endpoint.allocateId, hused, h.lastId, h.pending.length_eq]
  exact ⟨hkey, h.methods, hkey, h.pending⟩

/-- Requests begin at both endpoints, under one id, or are refused at both. -/
theorem beginRequest (h : asker.Endpoints id left right) {requester requester' : Requester}
    {deadline : Nat} (asks : ∀ key, asker.Rows id ⟨key, deadline, requester⟩
      ⟨key, deadline, requester'⟩) (method : String) :
    Agree (fun begun begun' => begun.1 = begun'.1 ∧ asker.Endpoints id begun.2 begun'.2)
      (left.beginRequest method deadline requester)
      (right.beginRequest method deadline requester') := by
  obtain ⟨hkey, hallocated⟩ := h.allocateId
  unfold Endpoint.beginRequest
  rw [h.pending.length_eq]
  refine .check (.after fun _ _ => .ok ⟨hkey, hallocated.methods, hallocated.lastId, ?_⟩)
  have hrow : asker.Rows id ⟨left.allocateId.1, deadline, requester⟩
      ⟨right.allocateId.1, deadline, requester'⟩ := by
    rw [← hkey]
    exact asks _
  exact List.rel_append hallocated.pending (.cons hrow .nil)

/-- A method is put on offer at both endpoints or at none. -/
theorem addMethod (h : asker.Endpoints id left right) (name : String) (handler : Handler) :
    Agree (asker.Endpoints id) (left.addMethod name handler) (right.addMethod name handler) := by
  unfold Endpoint.addMethod Endpoint.offers
  rw [h.methods]
  refine .check (.after fun _ _ => .check (.check (.ok ⟨rfl, h.lastId, h.pending⟩)))

end Endpoints

/-! ## Reading trees -/

/-- Corresponding roles are of one form. -/
theorem Roles.form_eq {left right : Role} (h : asker.Roles id left right) :
    left.form = right.form := by
  cases h <;> rfl

/-- Bridges correspond that are the same but for endpoints and channels that correspond. -/
theorem Roles.of_bridge {left right : Bridge}
    (endpoints : asker.Endpoints id left.endpoint right.endpoint)
    (channels : asker.Channels id left.channel right.channel)
    (same : { left with endpoint := right.endpoint, channel := right.channel } = right) :
    asker.Roles id (.bridge left) (.bridge right) :=
  same ▸ .bridge endpoints channels

/-- Links correspond that are the same but for channels that correspond. -/
theorem Roles.of_link {left right : Link} (channels : asker.Channels id left.channel right.channel)
    (same : { left with channel := right.channel } = right) :
    asker.Roles id (.link left) (.link right) :=
  same ▸ .link channels

namespace Trees

variable {left right : Tree}

/-- A tree in which nothing is owed to the caller is like itself. -/
protected theorem refl {tree : Tree} (there : asker.bridge < tree.size)
    (untold : ∀ id, ∀ row ∈ tree.awaited id, row.requester ≠ .caller asker.tag)
    (own : ∀ channel, tree.channel? asker.bridge = some channel → channel.socket = asker.socket)
    (near : ∀ id channel, tree.channel? id = some channel → asker.near channel.socket) :
    asker.Trees tree tree := by
  refine ⟨rfl, there, fun id => ?_⟩
  have hrows : ∀ endpoint, tree.endpoint? id = some endpoint →
      asker.Endpoints id endpoint endpoint := fun endpoint hendpoint => by
    refine ⟨rfl, rfl, List.forall₂_same.2 fun row hrow => .same row (untold id row ?_)⟩
    rwa [Tree.awaited_of_endpoint? hendpoint]
  have hchannels : ∀ channel, tree.channel? id = some channel →
      asker.Channels id channel channel := fun channel hchannel =>
    ⟨rfl, rfl, fun heq => own channel (heq ▸ hchannel), near id channel hchannel⟩
  rw [Tree.endpoint?] at hrows
  rw [Tree.channel?] at hchannels
  generalize tree.get? id = found at hrows hchannels
  cases found with
  | none => exact .none
  | some entry =>
    obtain ⟨name, parent, children, role⟩ := entry
    refine .some ⟨rfl, rfl, rfl, ?_⟩
    cases role with
    | node endpoint => exact .node (hrows endpoint rfl)
    | link link => exact .link (hchannels link.channel rfl)
    | bridge bridge => exact .bridge (hrows bridge.endpoint rfl) (hchannels bridge.channel rfl)

/-- An entry is there in both trees or in none. -/
theorem get?_cases (h : asker.Trees left right) (id : Nat) :
    (left.get? id = none ∧ right.get? id = none) ∨
      ∃ entry entry', left.get? id = some entry ∧ right.get? id = some entry' ∧
        asker.Entries id entry entry' :=
  rel_cases (h.entries id)

/-- Both trees have one outline. -/
theorem outline_eq (h : asker.Trees left right) : left.outline = right.outline := by
  apply List.ext_getElem?
  intro id
  rw [Tree.getElem?_outline, Tree.getElem?_outline]
  rcases h.get?_cases id with ⟨hleft, hright⟩ | ⟨entry, entry', hleft, hright, hentry⟩
  · rw [hleft, hright]
  · rw [hleft, hright, Option.map_some, Option.map_some, Entry.outline, Entry.outline, hentry.name,
      hentry.parent, hentry.children, hentry.role.form_eq]

/-- What is read of roles is related if it is of every two corresponding ones. -/
theorem bind_get? {α : Type} (h : asker.Trees left right) {read : Role → Option α}
    {related : α → α → Prop} (id : Nat)
    (reads : ∀ role role', asker.Roles id role role' → Option.Rel related (read role) (read role')) :
    Option.Rel related ((left.get? id).bind fun entry => read entry.role)
      ((right.get? id).bind fun entry => read entry.role) := by
  rcases h.get?_cases id with ⟨hleft, hright⟩ | ⟨entry, entry', hleft, hright, hentry⟩
  · rw [hleft, hright]
    exact .none
  · rw [hleft, hright]
    exact reads _ _ hentry.role

/-- Endpoints correspond. -/
theorem endpoint? (h : asker.Trees left right) (id : Nat) :
    Option.Rel (asker.Endpoints id) (left.endpoint? id) (right.endpoint? id) := by
  refine h.bind_get? id fun role role' hrole => ?_
  cases hrole with
  | node endpoint => exact .some endpoint
  | link => exact .none
  | bridge endpoints => exact .some endpoints

/-- Channels correspond. -/
theorem channel? (h : asker.Trees left right) (id : Nat) :
    Option.Rel (asker.Channels id) (left.channel? id) (right.channel? id) := by
  refine h.bind_get? id fun role role' hrole => ?_
  cases hrole with
  | node => exact .none
  | link channel => exact .some channel
  | bridge _ channels => exact .some channels

/-- Links correspond. -/
theorem link? (h : asker.Trees left right) (id : Nat) :
    Option.Rel (fun link link' => asker.Roles id (.link link) (.link link')) (left.link? id)
      (right.link? id) := by
  refine h.bind_get? id fun role role' hrole => ?_
  cases hrole with
  | node => exact .none
  | link channel => exact .some (.link channel)
  | bridge => exact .none

/-- Bridges correspond. -/
theorem bridge? (h : asker.Trees left right) (id : Nat) :
    Option.Rel (fun bridge bridge' => asker.Roles id (.bridge bridge) (.bridge bridge'))
      (left.bridge? id) (right.bridge? id) := by
  refine h.bind_get? id fun role role' hrole => ?_
  cases hrole with
  | node => exact .none
  | link => exact .none
  | bridge endpoints channels => exact .some (.bridge endpoints channels)

/-- The same client has a session at a bridge. -/
theorem client?_eq (h : asker.Trees left right) (id : Nat) :
    left.client? id = right.client? id := by
  have hrel := h.bridge? id
  rw [Tree.client?, Tree.client?]
  generalize left.bridge? id = bridge at hrel
  generalize right.bridge? id = bridge' at hrel
  cases hrel with
  | none => rfl
  | some hrole => cases hrole with | bridge => rfl

/-- The same entries are device ends. -/
theorem isDeviceEnd_eq (h : asker.Trees left right) (id : Nat) :
    left.isDeviceEnd id = right.isDeviceEnd id := by
  rw [Bool.eq_iff_iff, Tree.isDeviceEnd_iff, Tree.isDeviceEnd_iff, Tree.form?_congr h.outline_eq]

/-- The same entries stand below a device end. -/
theorem isBelowLink_eq (h : asker.Trees left right) {entry entry' : Entry}
    (entries : asker.Entries id entry entry') : left.isBelowLink entry = right.isBelowLink entry' := by
  have hend : left.isDeviceEnd = right.isDeviceEnd := funext h.isDeviceEnd_eq
  rw [Tree.isBelowLink, Tree.isBelowLink, hend, entries.parent]

/-- A message turns at the same entries. -/
theorem isTurn_eq (h : asker.Trees left right) {entry entry' : Entry}
    (entries : asker.Entries id entry entry') (message : Envelope) :
    left.isTurn entry message = right.isTurn entry' message := by
  rw [Tree.isTurn, Tree.isTurn, h.isBelowLink_eq entries, entries.parent]

/-- Clients subscribed to a topic at the same bridges. -/
theorem subscribers_eq (h : asker.Trees left right) (topic : String) :
    left.subscribers topic = right.subscribers topic := by
  rw [Tree.subscribers, Tree.subscribers, Tree.size_congr h.outline_eq]
  refine List.filter_congr fun id _ => ?_
  rcases h.get?_cases id with ⟨hleft, hright⟩ | ⟨entry, entry', hleft, hright, hentry⟩
  · rw [hleft, hright]
  · have hrole := hentry.role
    rw [hleft, hright, Option.any_some, Option.any_some, Entry.wants, Entry.wants]
    generalize entry.role = role at hrole
    generalize entry'.role = role' at hrole
    cases hrole <;> rfl

/-! ## Changing trees -/

/-- Corresponding entries may be changed so that they still correspond. -/
theorem modify (h : asker.Trees left right) {id : Nat} {change change' : Entry → Entry}
    (keeps : ∀ entry entry', asker.Entries id entry entry' →
      asker.Entries id (change entry) (change' entry')) :
    asker.Trees (left.modify id change) (right.modify id change') := by
  refine ⟨h.timeout, (Tree.size_modify left id change).symm ▸ h.there, fun other => ?_⟩
  rw [Tree.get?_modify, Tree.get?_modify]
  split
  · next hid =>
    subst hid
    rcases h.get?_cases id with ⟨hleft, hright⟩ | ⟨entry, entry', hleft, hright, hentry⟩
    · rw [hleft, hright]
      exact .none
    · rw [hleft, hright]
      exact .some (keeps entry entry' hentry)
  · exact h.entries other

/-- Corresponding roles may be changed so that they still correspond. -/
theorem setRole (h : asker.Trees left right) {id : Nat} {change change' : Role → Role}
    (keeps : ∀ role role', asker.Roles id role role' → asker.Roles id (change role) (change' role')) :
    asker.Trees (left.setRole id change) (right.setRole id change') :=
  h.modify fun _ _ hentry =>
    ⟨hentry.name, hentry.parent, hentry.children, keeps _ _ hentry.role⟩

/-- Corresponding endpoints may be put in one place. -/
theorem setEndpoint (h : asker.Trees left right) {id : Nat} {endpoint endpoint' : Endpoint}
    (h' : asker.Endpoints id endpoint endpoint') :
    asker.Trees (left.setEndpoint id endpoint) (right.setEndpoint id endpoint') := by
  refine h.setRole fun role role' hrole => ?_
  cases hrole with
  | node => exact .node h'
  | link channel => exact .link channel
  | bridge _ channels => exact .bridge h' channels

/-- Corresponding channels may be put in one place. -/
theorem setChannel (h : asker.Trees left right) {id : Nat} {channel channel' : Channel}
    (h' : asker.Channels id channel channel') :
    asker.Trees (left.setChannel id channel) (right.setChannel id channel') := by
  refine h.setRole fun role role' hrole => ?_
  cases hrole with
  | node endpoint => exact .node endpoint
  | link => exact .of_link h' rfl
  | bridge endpoints => exact .of_bridge endpoints h' rfl

/-- A channel may be put in one tree that corresponds to the one in the other tree. -/
theorem setChannel_left (h : asker.Trees left right) {id : Nat} {channel : Channel}
    (h' : ∀ channel', right.channel? id = some channel' → asker.Channels id channel channel') :
    asker.Trees (left.setChannel id channel) right := by
  refine ⟨h.timeout, (Tree.size_modify left id _).symm ▸ h.there, fun other => ?_⟩
  rw [Tree.setChannel, Tree.setRole, Tree.get?_modify]
  split
  · next hid =>
    subst hid
    rcases h.get?_cases id with ⟨hleft, hright⟩ | ⟨entry, entry', hleft, hright, hentry⟩
    · rw [hleft, hright]
      exact .none
    · have hrole := hentry.role
      rw [Tree.channel?, hright, Option.bind_some] at h'
      rw [hleft, hright, Option.map_some]
      refine .some ⟨hentry.name, hentry.parent, hentry.children, ?_⟩
      generalize entry.role = role at hrole ⊢
      generalize entry'.role = role' at hrole h' ⊢
      cases hrole with
      | node endpoint => exact .node endpoint
      | link => exact .of_link (h' _ rfl) rfl
      | bridge endpoints => exact .of_bridge endpoints (h' _ rfl) rfl
  · exact h.entries other

/-- Corresponding links may be put in one place. -/
theorem setLink (h : asker.Trees left right) {id : Nat} {link link' : Link}
    (h' : asker.Roles id (.link link) (.link link')) :
    asker.Trees (left.setLink id link) (right.setLink id link') :=
  h.setRole fun _ _ _ => h'

/-- Corresponding bridges may be put in one place. -/
theorem setBridge (h : asker.Trees left right) {id : Nat} {bridge bridge' : Bridge}
    (h' : asker.Roles id (.bridge bridge) (.bridge bridge')) :
    asker.Trees (left.setBridge id bridge) (right.setBridge id bridge') :=
  h.setRole fun _ _ _ => h'

/-- One name may be given in one place. -/
theorem setName (h : asker.Trees left right) (id : Nat) (name : Name) :
    asker.Trees (left.setName id name) (right.setName id name) :=
  h.modify fun _ _ hentry => ⟨rfl, hentry.parent, hentry.children, hentry.role⟩

/-! ## Building -/

/-- Corresponding entries may be added behind the others. -/
theorem push (h : asker.Trees left right) {entry entry' : Entry}
    (h' : ∀ id ≠ asker.bridge, asker.Entries id entry entry') :
    Agree (fun added added' => added.1 = added'.1 ∧ asker.Trees added.2 added'.2)
      (left.push entry) (right.push entry') := by
  have hsize := Tree.size_congr h.outline_eq
  unfold Tree.push
  rw [hsize]
  have hadd : ∀ (tree : Tree) (entry : Entry),
      (⟨tree.entries ++ [entry], tree.timeout⟩ : Tree) = tree.add entry := fun _ _ => rfl
  refine .check (.ok ⟨rfl, h.timeout, ?_, fun id => ?_⟩)
  · rw [hadd, Tree.size_add]
    exact Nat.lt_succ_of_lt h.there
  · rw [hadd, hadd, Tree.get?_add, Tree.get?_add, hsize]
    split
    · next hid =>
      have hlt : asker.bridge < id := hid ▸ hsize ▸ h.there
      exact .some (h' id (Nat.ne_of_gt hlt))
    · exact h.entries id

/-- Corresponding roles that are new, of entries of one name, may be put below one node. -/
theorem attach (h : asker.Trees left right) (parent : Nat) (name : Option Name) {role role' : Role}
    (h' : ∀ id ≠ asker.bridge, asker.Roles id role role') :
    Agree (fun added added' => asker.Trees added.2 added'.2) (left.attach parent name role)
      (right.attach parent name role') := by
  unfold Tree.attach
  rcases h.get?_cases parent with ⟨hleft, hright⟩ | ⟨entry, entry', hleft, hright, hentry⟩
  · rw [hleft, hright]
    exact .error _
  · have hnode : entry.role.isNode = entry'.role.isNode := by
      have hrole := hentry.role
      generalize entry.role = role at hrole
      generalize entry'.role = role' at hrole
      cases hrole <;> rfl
    have hunused : left.checkUnused parent name = right.checkUnused parent name := by
      cases name with
      | none => rfl
      | some name =>
        rw [Tree.checkUnused, Tree.checkUnused, Tree.childNamed_congr h.outline_eq]
    rw [hleft, hright]
    simp only [hnode, hentry.children, hunused]
    refine .check (.check (.after fun _ _ => .bind (h.push fun id hid =>
      ⟨rfl, rfl, rfl, h' id hid⟩) fun added added' hadded => .ok ?_))
    rw [hadded.1]
    exact hadded.2.modify fun _ _ hbelow =>
      ⟨hbelow.name, hbelow.parent, by rw [hbelow.children], hbelow.role⟩

/-- An entry has an endpoint in both trees or is refused in both. -/
theorem needEndpoint (h : asker.Trees left right) (id : Nat) :
    Agree (asker.Endpoints id) (left.needEndpoint id) (right.needEndpoint id) := by
  unfold Tree.needEndpoint
  rcases h.get?_cases id with ⟨hleft, hright⟩ | ⟨entry, entry', hleft, hright, hentry⟩
  · rw [hleft, hright]
    exact .error _
  · have hrole := hentry.role
    simp only [hleft, hright]
    generalize entry.role = role at hrole ⊢
    generalize entry'.role = role' at hrole ⊢
    cases hrole with
    | node endpoint => exact .ok endpoint
    | link => exact .error _
    | bridge endpoints => exact .ok endpoints

/-- Both trees have a top or neither has one. -/
theorem checkNoTop_eq (h : asker.Trees left right) : left.checkNoTop = right.checkNoTop := by
  have hany : ∀ tree : Tree, tree.entries.any (·.parent = none)
      = tree.outline.any (·.parent = none) := fun tree => by
    rw [Tree.outline, List.any_map]
    rfl
  rw [Tree.checkNoTop, Tree.checkNoTop, hany, hany, h.outline_eq]

/-- A top may be put into both trees, or it is refused in both. -/
theorem addRoot (h : asker.Trees left right) (name : String) :
    Agree (fun added added' => added.1 = added'.1 ∧ asker.Trees added.2 added'.2)
      (left.addRoot name) (right.addRoot name) := by
  refine .after fun _ _ => ?_
  rw [h.checkNoTop_eq]
  exact .after fun _ _ => h.push fun id _ => ⟨rfl, rfl, rfl, .node (.empty id)⟩

/-- A node may be put into both trees, or it is refused in both. -/
theorem addNode (h : asker.Trees left right) (parent : Nat) (name : String) :
    Agree (fun added added' => asker.Trees added.2 added'.2) (left.addNode parent name)
      (right.addNode parent name) := by
  refine .after fun _ _ => ?_
  exact h.attach parent _ fun id _ => .node (.empty id)

/-- A hub end may be put into both trees, or it is refused in both. -/
theorem addUplink (h : asker.Trees left right) {socket : String} (near : asker.near socket)
    (parent interval : Nat) :
    Agree (fun added added' => asker.Trees added.2 added'.2) (left.addUplink parent socket interval)
      (right.addUplink parent socket interval) :=
  h.attach parent none fun _ hid => .link (.ofSocket near hid)

/-- A device end with its local root may be put into both trees, or it is refused in both. -/
theorem addDownlink (h : asker.Trees left right) {socket : String} (near : asker.near socket)
    (localRoot : String) (interval : Nat) :
    Agree (fun added added' => asker.Trees added.2.2 added'.2.2)
      (left.addDownlink socket localRoot interval)
      (right.addDownlink socket localRoot interval) := by
  refine .after fun _ _ => ?_
  rw [h.checkNoTop_eq, Tree.size_congr h.outline_eq]
  refine .after fun _ _ => .check (.bind (h.push fun id hid =>
    ⟨rfl, rfl, rfl, .link (.ofSocket near hid)⟩) ?_)
  rintro ⟨link, grown⟩ ⟨_, grown'⟩ ⟨rfl, hgrown⟩
  refine .bind (hgrown.push fun id _ => ⟨rfl, rfl, rfl, .node (.empty id)⟩) ?_
  rintro ⟨root, last⟩ ⟨_, last'⟩ ⟨rfl, hlast⟩
  exact .ok (hlast.modify fun _ _ hentry => ⟨hentry.name, hentry.parent, rfl, hentry.role⟩)

/-- A bridge may be put into both trees, or it is refused in both. -/
theorem addBridge (h : asker.Trees left right) {socket : String} (near : asker.near socket)
    (parent : Nat) (name : String) (maxClientId : Nat) :
    Agree (fun added added' => asker.Trees added.2 added'.2)
      (left.addBridge parent name socket maxClientId)
      (right.addBridge parent name socket maxClientId) := by
  refine .after fun _ _ => ?_
  exact h.attach parent _ fun id hid => .bridge (.empty id) (.ofSocket near hid)

/-- A method is put on offer in both trees or in none. -/
theorem addMethod (h : asker.Trees left right) (id : Nat) (name : String) (handler : Handler) :
    Agree asker.Trees (left.addMethod id name handler) (right.addMethod id name handler) :=
  .bind (h.needEndpoint id) fun _ _ hendpoint =>
    .bind (hendpoint.addMethod name handler) fun _ _ hoffered => .ok (h.setEndpoint hoffered)

/-- A listener is posted in both trees or in none. -/
theorem addListener (h : asker.Trees left right) (id : Nat) (tag : String) :
    Agree asker.Trees (left.addListener id tag) (right.addListener id tag) := by
  unfold Tree.addListener
  rcases h.get?_cases id with ⟨hleft, hright⟩ | ⟨entry, entry', hleft, hright, hentry⟩
  · rw [hleft, hright]
    exact .error _
  · have hrole := hentry.role
    simp only [hleft, hright]
    generalize entry.role = role at hrole ⊢
    generalize entry'.role = role' at hrole ⊢
    cases hrole with
    | node => exact .error _
    | link channels => exact .check (.ok (h.setLink (.of_link channels rfl)))
    | bridge => exact .error _

/-- A guard is posted in both trees or in none. -/
theorem setGuard (h : asker.Trees left right) (id : Nat) (guard : Guard) :
    Agree asker.Trees (left.setGuard id guard) (right.setGuard id guard) := by
  have hrel := h.bridge? id
  unfold Tree.setGuard
  generalize left.bridge? id = bridge at hrel
  generalize right.bridge? id = bridge' at hrel
  cases hrel with
  | none => exact .error _
  | some hrole =>
    cases hrole with
    | bridge endpoints channels => exact .ok (h.setBridge (.of_bridge endpoints channels rfl))

/-- The same can be built at both trees. -/
theorem construct (h : asker.Trees left right) {construction : Construction}
    (near : ∀ socket ∈ construction.socket?, asker.near socket) :
    Agree asker.Trees (left.construct construction) (right.construct construction) := by
  cases construction with
  | addRoot name => exact .map (h.addRoot name) fun _ _ => And.right
  | addNode parent name => exact .map (h.addNode parent name) fun _ _ => id
  | addUplink parent socket interval =>
    exact .map (h.addUplink (near socket rfl) parent interval) fun _ _ => id
  | addDownlink socket localRoot interval =>
    exact .map (h.addDownlink (near socket rfl) localRoot interval) fun _ _ => id
  | addBridge parent name socket maxClientId =>
    exact .map (h.addBridge (near socket rfl) parent name maxClientId) fun _ _ => id
  | addMethod id name handler => exact h.addMethod id name handler
  | addListener id tag => exact h.addListener id tag
  | setGuard id guard => exact h.setGuard id guard

end Trees

end Asker
end TopicTree
