import TopicTree.Proofs.Address.Names
import TopicTree.Proofs.Tree.WellFormed

/-!
# Walks

The reference for routing: from an entry, name by name, to the child of that name. In a well-formed
tree every node and bridge is reached by a walk from the local root, a walk goes through nodes only,
and what the tree is apart from its outline has no part in it.
-/

namespace TopicTree.Tree

/-- The entry that a row of names leads to from an entry. -/
def walk (tree : Tree) (here : Nat) : List Name → Option Nat
  | [] => some here
  | name :: names => (tree.childNamed here name.text).bind fun child => tree.walk child names

/-- Whether a walk meets no link, as far as it gets. -/
def StaysInside (tree : Tree) (here : Nat) (names : List Name) : Prop :=
  ∀ front back id, names = front ++ back → tree.walk here front = some id → tree.link? id = none

/-- The entry at which a tree begins for those inside: the top, or the only entry below it if the
top is the device end of a link. -/
def localRoot (tree : Tree) : Nat :=
  if tree.isDeviceEnd 0 then (tree.children 0).headD 0 else 0

/-- A walk in two parts is one walk after the other. -/
theorem walk_append (tree : Tree) (here : Nat) (front back : List Name) :
    tree.walk here (front ++ back) = (tree.walk here front).bind (tree.walk · back) := by
  induction front generalizing here with
  | nil => rfl
  | cons name front ih =>
    cases hchild : tree.childNamed here name.text with
    | none => simp [walk, hchild]
    | some child => simpa [walk, hchild] using ih child

/-- A walk of one more name ends at a child of where the walk before ended. -/
theorem walk_concat_eq_some {tree : Tree} {here id : Nat} {front : List Name} {name : Name} :
    tree.walk here (front ++ [name]) = some id ↔
      ∃ above, tree.walk here front = some above ∧ tree.childNamed above name.text = some id := by
  simp [walk_append, walk, Option.bind_eq_some_iff]

/-- Trees of one outline have the same walks. -/
theorem walk_congr {left right : Tree} (same : left.outline = right.outline) (here : Nat)
    (names : List Name) : left.walk here names = right.walk here names := by
  induction names generalizing here with
  | nil => rfl
  | cons name names ih =>
    have h : (fun child => left.walk child names) = fun child => right.walk child names :=
      funext ih
    rw [walk, walk, childNamed_congr same, h]

/-- Trees of one outline begin at the same entry for those inside. -/
theorem localRoot_congr {left right : Tree} (same : left.outline = right.outline) :
    left.localRoot = right.localRoot := by
  have hend : left.isDeviceEnd 0 = right.isDeviceEnd 0 := by
    rw [Bool.eq_iff_iff, isDeviceEnd_iff, isDeviceEnd_iff, form?_congr same]
  rw [localRoot, localRoot, hend, children_congr same]

/-- In trees of one outline the same walks meet no link. -/
theorem StaysInside.congr {left right : Tree} (same : left.outline = right.outline) {here : Nat}
    {names : List Name} (h : left.StaysInside here names) : right.StaysInside here names := by
  intro front back id hnames hwalk
  apply link?_eq_none_congr same
  exact h front back id hnames ((walk_congr same here front).trans hwalk)

/-- A walk that leads nowhere gets stuck at an entry that has no child of the next name. -/
theorem walk_eq_none {tree : Tree} {here : Nat} {names : List Name}
    (h : tree.walk here names = none) :
    ∃ front name back stuck, names = front ++ name :: back ∧
      tree.walk here front = some stuck ∧ tree.childNamed stuck name.text = none := by
  induction names generalizing here with
  | nil => cases h
  | cons name names ih =>
    cases hchild : tree.childNamed here name.text with
    | none => exact ⟨[], name, names, here, rfl, rfl, hchild⟩
    | some child =>
      rw [walk, hchild] at h
      obtain ⟨front, next, back, stuck, rfl, hfront, hstuck⟩ := ih h
      refine ⟨name :: front, next, back, stuck, rfl, ?_, hstuck⟩
      rw [walk, hchild]
      exact hfront

/-! ## Walks in well-formed trees -/

namespace WellFormed

variable {tree : Tree} (h : tree.WellFormed)
include h

/-- A child that was looked for by name stands below its parent and has that name. -/
theorem of_childNamed {above child : Nat} {text : String}
    (hchild : tree.childNamed above text = some child) :
    tree.parent? child = some above ∧ ∃ name, tree.name? child = some name ∧ name.text = text := by
  refine ⟨h.mem_children.1 (List.mem_of_find?_eq_some hchild), ?_⟩
  have hnamed := List.find?_some hchild
  rw [isNamed, Option.any_eq_true] at hnamed
  obtain ⟨name, hname, htext⟩ := hnamed
  exact ⟨name, hname, by simpa using htext⟩

/-- A walk never leads back. -/
theorem le_of_walk {here id : Nat} {names : List Name} (hwalk : tree.walk here names = some id) :
    here ≤ id := by
  induction names generalizing here with
  | nil => exact Nat.le_of_eq (Option.some.inj hwalk)
  | cons name names ih =>
    obtain ⟨child, hchild, hrest⟩ := Option.bind_eq_some_iff.1 hwalk
    exact Nat.le_trans (Nat.le_of_lt (h.parent_lt (h.of_childNamed hchild).1)) (ih hrest)

/-- An entry that stands below another one is no device end. -/
theorem not_deviceEnd_of_parent? {id above : Nat} (hparent : tree.parent? id = some above) :
    tree.form? id ≠ some .deviceEnd := by
  intro hform
  rw [h.deviceEnd_eq hform] at hparent
  exact Nat.not_lt_zero _ (h.parent_lt hparent)

/-- A walk that does not start at a device end leads to none. -/
theorem not_deviceEnd_of_walk {here id : Nat} {names : List Name}
    (hstart : tree.form? here ≠ some .deviceEnd) (hwalk : tree.walk here names = some id) :
    tree.form? id ≠ some .deviceEnd := by
  intro hform
  have hle := h.le_of_walk hwalk
  have hid := h.deviceEnd_eq hform
  have hhere : here = id := by omega
  exact hstart (hhere ▸ hform)

/-- An entry with a child, if it is no device end, is a node. -/
theorem node_of_child {id above : Nat} (hparent : tree.parent? id = some above)
    (habove : tree.form? above ≠ some .deviceEnd) : tree.form? above = some .node :=
  (h.above_form hparent).resolve_right habove

/-- The local root is a node, and the only entry below the device end that is the top. -/
theorem children_zero (htop : tree.form? 0 = some .deviceEnd) :
    tree.children 0 = [tree.localRoot] ∧ tree.form? tree.localRoot = some .node := by
  obtain ⟨root, hroot, hform⟩ := h.localRoot htop
  have hlocal : tree.localRoot = root := by
    rw [Tree.localRoot, if_pos ((isDeviceEnd_iff tree 0).2 htop), hroot]
    rfl
  rw [hlocal]
  exact ⟨hroot, hform⟩

/-- The local root stands below the device end that is the top. -/
theorem parent?_localRoot (htop : tree.form? 0 = some .deviceEnd) :
    tree.parent? tree.localRoot = some 0 :=
  h.mem_children.1 (by simp [h.children_zero htop])

omit h in
/-- Without a device end the local root is the top. -/
theorem localRoot_eq_zero (htop : tree.form? 0 ≠ some .deviceEnd) : tree.localRoot = 0 :=
  if_neg fun hend => htop ((isDeviceEnd_iff tree 0).1 hend)

/-- The local root is no device end. -/
theorem not_deviceEnd_localRoot : tree.form? tree.localRoot ≠ some .deviceEnd := by
  by_cases htop : tree.form? 0 = some .deviceEnd
  · exact h.not_deviceEnd_of_parent? (h.parent?_localRoot htop)
  · rw [localRoot_eq_zero htop]
    exact htop

/-- Every node and every bridge is reached by a walk from the local root. -/
theorem exists_walk {id : Nat} (hform : tree.form? id = some .node ∨ tree.form? id = some .bridge) :
    ∃ names, tree.walk tree.localRoot names = some id := by
  induction id using Nat.strongRecOn with
  | ind id ih =>
    have hlt : id < tree.size := hform.elim lt_size_of_form? lt_size_of_form?
    cases hparent : tree.parent? id with
    | none =>
      obtain rfl := h.eq_zero hlt hparent
      refine ⟨[], congrArg some (localRoot_eq_zero ?_)⟩
      rcases hform with hform | hform <;> simp [hform]
    | some above =>
      by_cases hend : tree.form? above = some .deviceEnd
      · obtain rfl := h.deviceEnd_eq hend
        have hid := h.mem_children.2 hparent
        rw [(h.children_zero hend).1, List.mem_singleton] at hid
        exact ⟨[], congrArg some hid.symm⟩
      · have hnode := h.node_of_child hparent hend
        obtain ⟨names, hnames⟩ := ih above (h.parent_lt hparent) (.inl hnode)
        obtain ⟨name, hname⟩ := Option.isSome_iff_exists.1 (h.isSome_name? hform)
        refine ⟨names ++ [name], walk_concat_eq_some.2 ⟨above, hnames, ?_⟩⟩
        exact h.childNamed_eq hparent (by simp [isNamed, hname])

/-- An entry that a walk leads to is there. -/
theorem lt_size_of_walk {here id : Nat} {names : List Name} (hstart : here < tree.size)
    (hwalk : tree.walk here names = some id) : id < tree.size := by
  induction names generalizing here with
  | nil => exact Option.some.inj hwalk ▸ hstart
  | cons name names ih =>
    obtain ⟨child, hchild, hrest⟩ := Option.bind_eq_some_iff.1 hwalk
    exact ih (lt_size_of_parent? (h.of_childNamed hchild).1) hrest

/-- A walk that leads to a node or bridge from a node or bridge meets no link. -/
theorem staysInside {here id : Nat} {names : List Name}
    (hstart : tree.form? here ≠ some .deviceEnd) (hwalk : tree.walk here names = some id)
    (hid : tree.link? id = none) : tree.StaysInside here names := by
  rintro front back mid rfl hfront
  rw [walk_append, hfront, Option.bind_some] at hwalk
  cases back with
  | nil => exact Option.some.inj hwalk ▸ hid
  | cons name back =>
    obtain ⟨child, hchild, _⟩ := Option.bind_eq_some_iff.1 hwalk
    have hnode := h.node_of_child (h.of_childNamed hchild).1
      (h.not_deviceEnd_of_walk hstart hfront)
    exact link?_eq_none (.inl hnode)

/-- A walk that leads to a node or bridge starts at a node or bridge. -/
theorem form_of_walk {here id : Nat} {names : List Name}
    (hstart : tree.form? here ≠ some .deviceEnd) (hwalk : tree.walk here names = some id)
    (hid : tree.form? id = some .node ∨ tree.form? id = some .bridge) :
    tree.form? here = some .node ∨ tree.form? here = some .bridge := by
  cases names with
  | nil => exact Option.some.inj hwalk ▸ hid
  | cons name names =>
    obtain ⟨child, hchild, _⟩ := Option.bind_eq_some_iff.1 hwalk
    exact .inl (h.node_of_child (h.of_childNamed hchild).1 hstart)

end WellFormed

end TopicTree.Tree
