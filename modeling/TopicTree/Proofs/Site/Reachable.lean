import TopicTree.Proofs.Tree.Build

/-!
# Reachable sites

What a site does by itself keeps the number of its entries and the time that requests wait, and
changes its outline only when a hub end takes a name that no sibling has. So the tree of every
reachable site is well formed.
-/

namespace TopicTree

/-! ## Names -/

namespace Tree

variable {tree : Tree} {id parent : Nat} {name : Name}

/-- The names after one entry has taken a name. -/
theorem name?_setName (tree : Tree) (id : Nat) (name : Name) (other : Nat) :
    (tree.setName id name).name? other
      = if id = other then (tree.get? other).map fun _ => name else tree.name? other := by
  rw [Tree.name?, get?_setName, Option.bind_map, Tree.name?]
  split
  · cases tree.get? other <;> rfl
  · rfl

/-- An entry that takes a name has it. -/
theorem name?_setName_self (there : id < tree.size) (name : Name) :
    (tree.setName id name).name? id = some name := by
  have hget : tree.get? id = some tree.entries[id] := List.getElem?_eq_getElem there
  rw [name?_setName, if_pos rfl, hget, Option.map_some]

/-- A name changes nothing of what stands above what. -/
theorem parent?_setName (tree : Tree) (id : Nat) (name : Name) (other : Nat) :
    (tree.setName id name).parent? other = tree.parent? other := by
  rw [Tree.parent?, get?_setName, Option.bind_map, Tree.parent?]
  rfl

/-- A name changes nothing of what stands below what. -/
theorem children_setName (tree : Tree) (id : Nat) (name : Name) (other : Nat) :
    (tree.setName id name).children other = tree.children other := by
  rw [Tree.children, get?_setName, Tree.children]
  cases tree.get? other <;> rfl

/-- A name changes no form. -/
theorem form?_setName (tree : Tree) (id : Nat) (name : Name) (other : Nat) :
    (tree.setName id name).form? other = tree.form? other := by
  rw [Tree.form?, get?_setName, Option.map_map, Tree.form?]
  rfl

namespace WellFormed

variable (h : tree.WellFormed) (below : tree.parent? id = some parent)
  (free : tree.childNamed parent name.text = none)
include h below free

/-- An entry that takes a name which no sibling has leaves siblings with different names. -/
theorem isNamed_inj_setName {above left right : Nat} {text : String}
    (hleft : left ∈ tree.children above) (hright : right ∈ tree.children above) :
    (tree.setName id name).isNamed text left → (tree.setName id name).isNamed text right →
      left = right := by
  have hold : ∀ {other}, id ≠ other →
      (tree.setName id name).isNamed text other = tree.isNamed text other := by
    intro other hne
    rw [isNamed, name?_setName, if_neg hne, isNamed]
  have habove : ∀ {other}, other ∈ tree.children above → id = other → above = parent := by
    rintro other hother rfl
    exact Option.some.inj ((h.mem_children.1 hother).symm.trans below)
  have hsibling : ∀ {other}, other ∈ tree.children parent →
      (tree.setName id name).isNamed text id → ¬tree.isNamed text other := by
    intro other hother hid hnamed
    have htext : name.text = text := by
      simpa [isNamed, name?_setName_self (WellFormed.lt_size_of_parent? below)] using hid
    exact List.find?_eq_none.1 (htext ▸ free) other hother hnamed
  by_cases hl : id = left <;> by_cases hr : id = right
  · exact fun _ _ => hl.symm.trans hr
  · subst hl
    obtain rfl := habove hleft rfl
    rw [hold hr]
    exact fun hnew hnamed => absurd hnamed (hsibling hright hnew)
  · subst hr
    obtain rfl := habove hright rfl
    rw [hold hl]
    exact fun hnamed hnew => absurd hnamed (hsibling hleft hnew)
  · rw [hold hl, hold hr]
    exact h.isNamed_inj hleft hright

/-- A name that no sibling has can be taken in a well-formed tree. -/
theorem setName : (tree.setName id name).WellFormed := by
  have hsize : (tree.setName id name).size = tree.size := size_modify tree id _
  constructor
  case size_le => exact hsize ▸ h.size_le
  case parent_lt =>
    intro other above
    rw [parent?_setName]
    exact h.parent_lt
  case eq_zero =>
    intro other
    rw [hsize, parent?_setName]
    exact h.eq_zero
  case mem_children =>
    intro other above
    rw [children_setName, parent?_setName]
    exact h.mem_children
  case nodup =>
    intro above
    rw [children_setName]
    exact h.nodup above
  case above_form =>
    intro other above
    rw [parent?_setName, form?_setName]
    exact h.above_form
  case deviceEnd_eq =>
    intro other
    rw [form?_setName]
    exact h.deviceEnd_eq
  case localRoot =>
    rw [form?_setName, children_setName]
    simp only [form?_setName]
    exact h.localRoot
  case isNamed_inj =>
    intro above left right text
    rw [children_setName]
    exact h.isNamed_inj_setName below free
  case isSome_name? =>
    intro other hother
    rw [form?_setName] at hother
    by_cases hsame : id = other
    · subst hsame
      rw [name?_setName_self (hother.elim lt_size_of_form? lt_size_of_form?)]
      rfl
    · rw [name?_setName, if_neg hsame]
      exact h.isSome_name? hother

end WellFormed

end Tree

namespace Site

variable {M : Type}

/-! ## What changes do to the tree -/

@[simp]
theorem tree_note (site : Site M) (event : Event) : (site.note event).tree = site.tree :=
  rfl

@[simp]
theorem tree_withTree (site : Site M) (tree : Tree) : (site.withTree tree).tree = tree :=
  rfl

@[simp]
theorem log_withTree (site : Site M) (tree : Tree) : (site.withTree tree).log = site.log :=
  rfl

variable [Medium M]

/-- Writing a frame changes nothing of the tree but a channel. -/
theorem alike_write (site : Site M) (id : Nat) (frame : Frame) :
    (site.write id frame).tree.Alike site.tree := by
  unfold write
  split
  · exact .refl _
  · simp only []
    split <;> exact Tree.alike_setChannel site.tree id _

/-- Writing takes no slot. -/
theorem pool_write (site : Site M) (id : Nat) (frame : Frame) :
    (site.write id frame).pool = site.pool := by
  unfold write
  split
  · rfl
  · simp only []
    split <;> rfl

omit [Medium M] in
/-- What is done while a slot is held does to the tree what it does without one. -/
theorem alike_holding {site : Site M} {frame : Frame} {act : Site M → Site M}
    (h : ∀ pool : Pool, (act { site with pool }).tree.Alike site.tree) :
    (site.holding frame act).tree.Alike site.tree := by
  unfold holding
  split
  · exact .refl _
  · next slot pool _ => exact h pool

/-- Sending a packet changes nothing of the tree but a channel. -/
theorem alike_sendPacket {ε : Type} (site : Site M) (id : Nat) (frame : Except ε Frame) :
    (site.sendPacket id frame).tree.Alike site.tree := by
  unfold sendPacket
  split
  · next frame => exact alike_holding fun pool => alike_write { site with pool } id frame
  · exact .refl _

/-- Telling a requester changes nothing of the tree but a channel. -/
theorem alike_tell (site : Site M) (id : Nat) (requester : Requester) (code : ReturnCode)
    (params : Params) : (site.tell id requester code params).tree.Alike site.tree := by
  cases requester with
  | caller tag => exact .refl _
  | client topic =>
    simp only [tell, answerClient]
    split
    · exact .refl _
    · exact alike_sendPacket site id _

/-- Tells the requesters of some rows of an entry that their time is up. -/
def tellExpired (id : Nat) (rows : List Pending) (site : Site M) : Site M :=
  rows.foldl (fun site row => site.tell id row.requester .timeout Params.empty) site

/-- Telling requesters that their time is up changes nothing of the tree but a channel. -/
theorem alike_tellExpired (id : Nat) (rows : List Pending) (site : Site M) :
    (tellExpired id rows site).tree.Alike site.tree := by
  induction rows generalizing site with
  | nil => exact .refl _
  | cons row rest ih => exact (ih _).trans (alike_tell site id row.requester .timeout Params.empty)

/-- Ending the overdue waits of an entry is taking them out of its table and telling about them. -/
theorem expireAt_eq {site : Site M} {id : Nat} {endpoint : Endpoint}
    (h : site.tree.endpoint? id = some endpoint) (now : Nat) :
    expireAt now site id
      = tellExpired id (endpoint.takeExpired now).1
          (site.withTree (site.tree.setEndpoint id (endpoint.takeExpired now).2)) := by
  simp only [expireAt, h]
  rfl

/-- An entry without an endpoint has no waits to end. -/
theorem expireAt_eq_self {site : Site M} {id : Nat} (h : site.tree.endpoint? id = none)
    (now : Nat) : expireAt now site id = site := by
  simp only [expireAt, h]

/-- What a change does to the tree: nothing but to an endpoint at most, or a hub end is named. -/
theorem Change.tree_cases {before after : Site M} (h : Change before after) :
    after.tree.Alike before.tree ∨
      (∃ id old new, before.tree.endpoint? id = some old ∧
        after.tree.Alike (before.tree.setEndpoint id new)) ∨
      ∃ id parent name, before.tree.parent? id = some parent ∧
        before.tree.childNamed parent name.text = none ∧
        before.tree.form? id = some .hubEnd ∧ after.tree = before.tree.setName id name := by
  cases h with
  | pool => exact .inl (.refl _)
  | write id frame => exact .inl (alike_write before id frame)
  | poll => exact .inl (Tree.alike_setChannel _ _ _)
  | call there => exact .inr (.inl ⟨_, _, _, there, .refl _⟩)
  | settle there => exact .inr (.inl ⟨_, _, _, there, alike_tell _ _ _ _ _⟩)
  | expire now id =>
    cases hendpoint : before.tree.endpoint? id with
    | none =>
      rw [expireAt_eq_self hendpoint]
      exact .inl (.refl _)
    | some endpoint =>
      rw [expireAt_eq hendpoint]
      exact .inr (.inl ⟨id, endpoint, _, hendpoint, alike_tellExpired id _ _⟩)
  | begin there => exact .inr (.inl ⟨_, _, _, there, .refl _⟩)
  | number there => exact .inr (.inl ⟨_, _, _, there, .refl _⟩)
  | adopt there place below free =>
    have hform := Tree.form?_hubEnd there place
    exact .inr (.inr ⟨_, _, _, below, free, hform, rfl⟩)
  | attempt there => exact .inl (Tree.alike_setLink there rfl)
  | confirm there => exact .inl (Tree.alike_setLink there rfl)
  | linkUp => exact .inl (.refl _)
  | ask there => exact .inl (Tree.alike_setBridge there rfl)
  | session there => exact .inl (Tree.alike_setBridge there rfl)

/-- A change keeps a tree well formed. -/
theorem Change.wellFormed {before after : Site M} (h : Change before after)
    (hbefore : before.tree.WellFormed) : after.tree.WellFormed := by
  rcases h.tree_cases with halike | ⟨id, _, new, _, halike⟩ | ⟨_, _, _, below, free, _, heq⟩
  · exact hbefore.congr halike.outline.symm
  · exact (hbefore.congr (Tree.outline_setEndpoint before.tree id new).symm).congr
      halike.outline.symm
  · exact heq ▸ hbefore.setName below free

/-- A change leaves the time that requests wait as it is. -/
theorem Change.timeout_eq {before after : Site M} (h : Change before after) :
    after.tree.timeout = before.tree.timeout := by
  rcases h.tree_cases with halike | ⟨_, _, _, _, halike⟩ | ⟨_, _, _, _, _, _, heq⟩
  · exact halike.timeout
  · exact halike.timeout
  · rw [heq]
    rfl

/-- What every change keeps, a chain of changes keeps. -/
theorem Changes.induction {P : Site M → Prop}
    (change : ∀ {before after : Site M}, Change before after → P before → P after)
    {before after : Site M} (h : Changes before after) (hbefore : P before) : P after := by
  induction h with
  | refl => exact hbefore
  | tail _ hchange ih => exact change hchange ih

/-- A chain of changes leaves the time that requests wait as it is. -/
theorem Changes.timeout_eq {before after : Site M} (h : Changes before after) :
    after.tree.timeout = before.tree.timeout :=
  h.induction (P := fun site => site.tree.timeout = before.tree.timeout)
    (fun change ih => change.timeout_eq.trans ih) rfl

/-! ## Reachable sites -/

/-- A request that is accepted begins at its node and is routed from there. -/
theorem execute_eq_ok {site after : Site M} {node : Nat} {method path : String} {params : Params}
    {now : Nat} {tag : String} {id : UInt16}
    (h : site.execute node method path params now tag = .ok (id, after)) :
    ∃ dest request old new, Path.ofText path = .ok dest ∧
      Envelope.request dest method 0 params = .ok request ∧
      site.tree.endpoint? node = some old ∧
      old.beginRequest method (now + site.tree.timeout) (.caller tag) = .ok (id, new) ∧
      after = (site.withTree (site.tree.setEndpoint node new)).route
        (.up node { request with id }) := by
  simp only [execute, bind_eq_ok, pure_eq_ok, Prod.mk.injEq] at h
  obtain ⟨dest, hdest, request, hrequest, old, hneed, ⟨key, new⟩, hbegin, rfl, rfl⟩ := h
  exact ⟨dest, request, old, new, hdest, hrequest, endpoint?_of_needEndpoint hneed, hbegin, rfl⟩

/-- A move builds at the tree, begins a request of a caller and goes on by itself, goes on by
itself, or does not touch the tree. -/
theorem move_cases (site : Site M) (move : Move M) :
    (∃ construction tree, move = .call (.build construction) ∧
      site.tree.construct construction = .ok tree ∧ site.move move = site.withTree tree) ∨
    (∃ node method path params now tag id old new, move = .call (.execute node method path params
        now tag) ∧ site.tree.endpoint? node = some old ∧
      old.beginRequest method (now + site.tree.timeout) (.caller tag) = .ok (id, new) ∧
      Changes (site.withTree (site.tree.setEndpoint node new)) (site.move move)) ∨
    Changes site (site.move move) ∨
    ∃ pool medium, move = .around pool medium ∧ site.move move = { site with pool, medium } := by
  cases move with
  | around pool medium => exact .inr (.inr (.inr ⟨pool, medium, rfl, rfl⟩))
  | call call =>
    cases call with
    | build construction =>
      cases hbuilt : site.tree.construct construction with
      | error e =>
        refine .inr (.inr (.inl ?_))
        simp only [Site.move, perform, hbuilt]
        exact .refl
      | ok tree =>
        exact .inl ⟨construction, tree, rfl, hbuilt, by simp [Site.move, perform, hbuilt]⟩
    | execute node method path params now tag =>
      cases hexecute : site.execute node method path params now tag with
      | error e =>
        refine .inr (.inr (.inl ?_))
        simp only [Site.move, perform, hexecute]
        exact .refl
      | ok result =>
        obtain ⟨id, after⟩ := result
        obtain ⟨_, _, old, new, _, _, hold, hbegin, rfl⟩ := execute_eq_ok hexecute
        refine .inr (.inl ⟨node, method, path, params, now, tag, id, old, new, rfl, hold, hbegin,
          ?_⟩)
        simp only [Site.move, perform, hexecute]
        exact changes_route _ _
    | notify node name qos data =>
      exact .inr (.inr (.inl (changes_notify site node name qos data)))
    | tick now => exact .inr (.inr (.inl (changes_tick site now)))

/-- A move keeps a tree well formed. -/
theorem wellFormed_move {site : Site M} (h : site.tree.WellFormed) (move : Move M) :
    (site.move move).tree.WellFormed := by
  rcases move_cases site move with ⟨_, tree, _, hbuilt, heq⟩ |
    ⟨node, _, _, _, _, _, _, _, new, _, _, _, hchanges⟩ | hchanges | ⟨_, _, _, heq⟩
  · rw [heq]
    exact h.construct hbuilt
  · refine hchanges.induction (P := fun site => site.tree.WellFormed) Change.wellFormed ?_
    exact h.congr (Tree.outline_setEndpoint site.tree node new).symm
  · exact hchanges.induction (P := fun site => site.tree.WellFormed) Change.wellFormed h
  · rw [heq]
    exact h

/-- A move leaves the time that requests wait as it is. -/
theorem timeout_move (site : Site M) (move : Move M) :
    (site.move move).tree.timeout = site.tree.timeout := by
  rcases move_cases site move with ⟨_, tree, _, hbuilt, heq⟩ |
    ⟨_, _, _, _, _, _, _, _, _, _, _, _, hchanges⟩ | hchanges | ⟨_, _, _, heq⟩
  · rw [heq]
    exact Tree.timeout_construct hbuilt
  · exact hchanges.timeout_eq
  · exact hchanges.timeout_eq
  · rw [heq]

/-- The tree of a reachable site is well formed. -/
theorem Reachable.wellFormed {site : Site M} (h : site.Reachable) : site.tree.WellFormed :=
  h.induction (P := fun site => site.tree.WellFormed)
    (fun timeout _ _ => Tree.WellFormed.empty timeout)
    fun _ move hsite => wellFormed_move hsite move

end Site

/-- A reachable tree is well formed. -/
theorem Tree.Reachable.wellFormed {tree : Tree} (h : tree.Reachable) : tree.WellFormed := by
  obtain ⟨M, _, site, hsite, rfl⟩ := h
  exact Site.Reachable.wellFormed hsite

end TopicTree
