import TopicTree.Tree.Basic

/-!
# The outline of a tree

What a tree is apart from what its entries do: the name, the place and the form of every entry. Most
changes of a tree leave its outline alone; those that do not are told by what they do to it. The
accessors that only read the outline are unchanged wherever the outline is.
-/

namespace TopicTree

/-- The forms that an entry can have. -/
inductive Form
  | node
  | hubEnd
  | deviceEnd
  | bridge
  deriving DecidableEq, Repr

/-- The form of an end of a link. -/
def LinkEnd.form : LinkEnd → Form
  | hub => .hubEnd
  | device => .deviceEnd

/-- The form of an entry. -/
def Role.form : Role → Form
  | node _ => .node
  | link inner => inner.place.form
  | bridge _ => .bridge

/-- An entry without what it does. -/
structure Outline where
  name : Option Name
  parent : Option Nat
  children : List Nat
  form : Form

/-- The outline of an entry. -/
def Entry.outline (entry : Entry) : Outline :=
  ⟨entry.name, entry.parent, entry.children, entry.role.form⟩

namespace Tree

/-- The outlines of all entries. -/
def outline (tree : Tree) : List Outline :=
  tree.entries.map Entry.outline

/-- The form of an entry. -/
def form? (tree : Tree) (id : Nat) : Option Form :=
  (tree.get? id).map (·.role.form)

/-! ## What the outline tells -/

/-- The outline of one entry of a tree. -/
theorem getElem?_outline (tree : Tree) (id : Nat) :
    tree.outline[id]? = (tree.get? id).map Entry.outline := by
  simp [outline, get?]

section

variable {left right : Tree} (same : left.outline = right.outline)
include same

/-- Trees of one outline have equally many entries. -/
theorem size_congr : left.size = right.size := by
  simpa [outline, size] using congrArg List.length same

/-- Trees of one outline agree on every entry up to what it does. -/
theorem outline_congr (id : Nat) :
    (left.get? id).map Entry.outline = (right.get? id).map Entry.outline := by
  rw [← getElem?_outline, same, getElem?_outline]

/-- Trees of one outline have the same names. -/
theorem name?_congr (id : Nat) : left.name? id = right.name? id := by
  have h := congrArg (Option.bind · Outline.name) (outline_congr same id)
  simpa [name?, Option.bind_map, Function.comp_def, Entry.outline] using h

/-- In trees of one outline the same entries are above an entry. -/
theorem parent?_congr (id : Nat) : left.parent? id = right.parent? id := by
  have h := congrArg (Option.bind · Outline.parent) (outline_congr same id)
  simpa [parent?, Option.bind_map, Function.comp_def, Entry.outline] using h

/-- In trees of one outline the same entries are below an entry. -/
theorem children_congr (id : Nat) : left.children id = right.children id := by
  have h := congrArg (fun o => (o.map Outline.children).getD []) (outline_congr same id)
  simpa [children, Function.comp_def, Entry.outline] using h

/-- Entries of trees of one outline have the same forms. -/
theorem form?_congr (id : Nat) : left.form? id = right.form? id := by
  have h := congrArg (Option.map Outline.form) (outline_congr same id)
  simpa [form?, Function.comp_def, Entry.outline] using h

/-- In trees of one outline the same child has a name. -/
theorem childNamed_congr (parent : Nat) (text : String) :
    left.childNamed parent text = right.childNamed parent text := by
  have h : left.isNamed text = right.isNamed text := by
    funext id
    rw [isNamed, isNamed, name?_congr same]
  rw [childNamed, childNamed, children_congr same, h]

end

/-! ## What the form of an entry tells -/

/-- A node or bridge is an entry with an endpoint. -/
theorem isSome_endpoint?_iff (tree : Tree) (id : Nat) :
    (tree.endpoint? id).isSome ↔ tree.form? id = some .node ∨ tree.form? id = some .bridge := by
  simp only [endpoint?, form?]
  cases tree.get? id with
  | none => simp
  | some entry =>
    cases hrole : entry.role with
    | node endpoint => simp [Role.endpoint?, Role.form, hrole]
    | link link =>
      cases hplace : link.place <;>
        simp [Role.endpoint?, Role.form, LinkEnd.form, hrole, hplace]
    | bridge bridge => simp [Role.endpoint?, Role.form, hrole]

/-- The device end of a link is told by its form. -/
theorem isDeviceEnd_iff (tree : Tree) (id : Nat) :
    tree.isDeviceEnd id ↔ tree.form? id = some .deviceEnd := by
  simp only [isDeviceEnd, link?, form?]
  cases tree.get? id with
  | none => simp
  | some entry =>
    cases hrole : entry.role with
    | node endpoint => simp [Role.link?, Role.form, hrole]
    | link link =>
      cases hplace : link.place <;> simp [Role.link?, Role.form, LinkEnd.form, hrole, hplace]
    | bridge bridge => simp [Role.link?, Role.form, hrole]

/-- A plain node is no end of a link. -/
theorem not_isDeviceEnd_of_node {tree : Tree} {id : Nat} (plain : tree.form? id = some .node) :
    ¬tree.isDeviceEnd id := by
  rw [isDeviceEnd_iff, plain]
  exact fun h => by cases h

/-- The form of a link is the end that it is. -/
theorem form?_of_link? {tree : Tree} {id : Nat} {link : Link} (h : tree.link? id = some link) :
    tree.form? id = some link.place.form := by
  obtain ⟨entry, hentry, hlink⟩ := Option.bind_eq_some_iff.1 h
  cases hrole : entry.role with
  | node endpoint => simp [hrole, Role.link?] at hlink
  | link inner =>
    obtain rfl : inner = link := by simpa [hrole, Role.link?] using hlink
    simp [form?, hentry, hrole, Role.form]
  | bridge bridge => simp [hrole, Role.link?] at hlink

/-- The form of a bridge is that of a bridge. -/
theorem form?_of_bridge? {tree : Tree} {id : Nat} {bridge : Bridge}
    (h : tree.bridge? id = some bridge) : tree.form? id = some .bridge := by
  obtain ⟨entry, hentry, hbridge⟩ := Option.bind_eq_some_iff.1 h
  cases hrole : entry.role with
  | node endpoint => simp [hrole, Role.bridge?] at hbridge
  | link link => simp [hrole, Role.bridge?] at hbridge
  | bridge inner => simp [form?, hentry, hrole, Role.form]

/-- An entry with the form of an end of a link is that end. -/
theorem exists_link?_of_form? {tree : Tree} {id : Nat} {place : LinkEnd}
    (h : tree.form? id = some place.form) : ∃ link, tree.link? id = some link ∧ link.place = place := by
  obtain ⟨entry, hentry, hform⟩ := Option.map_eq_some_iff.1 h
  cases hrole : entry.role with
  | node endpoint => cases place <;> simp [hrole, Role.form, LinkEnd.form] at hform
  | link link =>
    refine ⟨link, by simp [link?, hentry, hrole, Role.link?], ?_⟩
    rw [hrole, Role.form] at hform
    cases hplace : link.place <;> cases place <;> simp_all [LinkEnd.form]
  | bridge bridge => cases place <;> simp [hrole, Role.form, LinkEnd.form] at hform

/-- A hub end is a link. -/
theorem exists_hubEnd {tree : Tree} {id : Nat} (h : tree.form? id = some .hubEnd) :
    ∃ link, tree.link? id = some link ∧ link.place = .hub :=
  exists_link?_of_form? h

/-- A device end is a link. -/
theorem exists_deviceEnd {tree : Tree} {id : Nat} (h : tree.form? id = some .deviceEnd) :
    ∃ link, tree.link? id = some link ∧ link.place = .device :=
  exists_link?_of_form? h

/-- A link that is a hub end has the form of one. -/
theorem form?_hubEnd {tree : Tree} {id : Nat} {link : Link} (there : tree.link? id = some link)
    (place : link.place = .hub) : tree.form? id = some .hubEnd :=
  (form?_of_link? there).trans (congrArg (fun place => some place.form) place)

/-- A link that is a device end has the form of one. -/
theorem form?_deviceEnd {tree : Tree} {id : Nat} {link : Link} (there : tree.link? id = some link)
    (place : link.place = .device) : tree.form? id = some .deviceEnd :=
  (form?_of_link? there).trans (congrArg (fun place => some place.form) place)

/-- A node or bridge is no link. -/
theorem link?_eq_none {tree : Tree} {id : Nat}
    (h : tree.form? id = some .node ∨ tree.form? id = some .bridge) : tree.link? id = none := by
  cases hlink : tree.link? id with
  | none => rfl
  | some link =>
    rw [form?_of_link? hlink] at h
    cases hplace : link.place <;> simp [LinkEnd.form, hplace] at h

/-- An entry that is no link is a node or bridge. -/
theorem form?_of_link?_eq_none {tree : Tree} {id : Nat} (hlt : id < tree.size)
    (h : tree.link? id = none) :
    tree.form? id = some .node ∨ tree.form? id = some .bridge := by
  have hentry : tree.get? id = some tree.entries[id] := List.getElem?_eq_getElem hlt
  rw [link?, hentry, Option.bind_some] at h
  rw [form?, hentry, Option.map_some]
  cases hrole : tree.entries[id].role with
  | node endpoint => exact .inl rfl
  | link link => simp [hrole, Role.link?] at h
  | bridge bridge => exact .inr rfl

/-- An entry that is no link is none in any tree of the same outline. -/
theorem link?_eq_none_congr {left right : Tree} (same : left.outline = right.outline) {id : Nat}
    (h : left.link? id = none) : right.link? id = none := by
  by_cases hlt : id < left.size
  · apply link?_eq_none
    rw [← form?_congr same]
    exact form?_of_link?_eq_none hlt h
  · rw [size_congr same] at hlt
    have hnone : right.get? id = none := List.getElem?_eq_none (Nat.le_of_not_lt hlt)
    rw [link?, hnone, Option.bind_none]

/-- An entry with a form is there. -/
theorem lt_size_of_form? {tree : Tree} {id : Nat} {form : Form} (h : tree.form? id = some form) :
    id < tree.size := by
  obtain ⟨entry, hentry, _⟩ := Option.map_eq_some_iff.1 h
  exact (List.getElem?_eq_some_iff.1 hentry).1

/-- An entry with a name is there. -/
theorem lt_size_of_name? {tree : Tree} {id : Nat} {name : Name} (h : tree.name? id = some name) :
    id < tree.size := by
  obtain ⟨entry, hentry, _⟩ := Option.bind_eq_some_iff.1 h
  exact (List.getElem?_eq_some_iff.1 hentry).1

/-! ## Changes that leave the outline alone -/

/-- A change of one entry that keeps its outline keeps the outline of the tree. -/
theorem outline_modify_eq {tree : Tree} {id : Nat} {change : Entry → Entry}
    (h : ∀ entry, tree.get? id = some entry → (change entry).outline = entry.outline) :
    (tree.modify id change).outline = tree.outline := by
  apply List.ext_getElem?
  intro other
  rw [getElem?_outline, getElem?_outline, get?_modify]
  split
  · next hid =>
    subst hid
    cases hentry : tree.get? id with
    | none => rfl
    | some entry => simp [h entry hentry]
  · rfl

/-- A change of one role that keeps its form keeps the outline. -/
theorem outline_setRole_eq {tree : Tree} {id : Nat} {change : Role → Role}
    (h : ∀ entry, tree.get? id = some entry → (change entry.role).form = entry.role.form) :
    (tree.setRole id change).outline = tree.outline := by
  apply outline_modify_eq
  intro entry hentry
  simp [Entry.outline, h entry hentry]

@[simp]
theorem outline_setEndpoint (tree : Tree) (id : Nat) (endpoint : Endpoint) :
    (tree.setEndpoint id endpoint).outline = tree.outline := by
  apply outline_setRole_eq
  intro entry _
  cases entry.role <;> rfl

@[simp]
theorem outline_setChannel (tree : Tree) (id : Nat) (channel : Channel) :
    (tree.setChannel id channel).outline = tree.outline := by
  apply outline_setRole_eq
  intro entry _
  cases entry.role <;> rfl

/-- A link that stays the same end of a link keeps the outline. -/
theorem outline_setLink {tree : Tree} {id : Nat} {old link : Link}
    (h : tree.link? id = some old) (hplace : link.place = old.place) :
    (tree.setLink id link).outline = tree.outline := by
  apply outline_setRole_eq
  intro entry hentry
  have hform := form?_of_link? h
  simp only [form?, hentry, Option.map_some, Option.some.injEq] at hform
  rw [hform, Role.form, hplace]

/-- A bridge that stays a bridge keeps the outline. -/
theorem outline_setBridge {tree : Tree} {id : Nat} {old bridge : Bridge}
    (h : tree.bridge? id = some old) : (tree.setBridge id bridge).outline = tree.outline := by
  apply outline_setRole_eq
  intro entry hentry
  obtain ⟨entry', hentry', hbridge⟩ := Option.bind_eq_some_iff.1 h
  obtain rfl : entry = entry' := Option.some.inj (hentry.symm.trans hentry')
  cases hrole : entry.role <;> simp_all [Role.bridge?, Role.form]

end Tree
end TopicTree
