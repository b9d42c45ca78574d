import TopicTree.Proofs.Outcome
import TopicTree.Proofs.Site.Change
import TopicTree.Proofs.Site.Run

/-!
# Well-formed trees

The shape of every tree that was built entry by entry: entries come after the ones they stand below,
lists of children and parents agree, siblings have different names, and a device end is the top with
a local root below it. Building keeps the shape, and so does everything that a site does by itself,
because nothing but building and the naming of a hub end touches the outline.
-/

namespace TopicTree.Tree

/-- The shape of a tree that was built entry by entry. -/
structure WellFormed (tree : Tree) : Prop where
  /-- There is room for a few entries only. -/
  size_le : tree.size ≤ maxEntries
  /-- An entry comes after the one that it stands below. -/
  parent_lt : ∀ {id above}, tree.parent? id = some above → above < id
  /-- No entry but the first is a top. -/
  eq_zero : ∀ {id}, id < tree.size → tree.parent? id = none → id = 0
  /-- An entry is listed below the one that it stands below, and nowhere else. -/
  mem_children : ∀ {id above}, id ∈ tree.children above ↔ tree.parent? id = some above
  /-- An entry is listed once. -/
  nodup : ∀ above, (tree.children above).Nodup
  /-- Entries stand below nodes and device ends only. -/
  above_form : ∀ {id above}, tree.parent? id = some above →
    tree.form? above = some .node ∨ tree.form? above = some .deviceEnd
  /-- A device end is the top. -/
  deviceEnd_eq : ∀ {id}, tree.form? id = some .deviceEnd → id = 0
  /-- A local root stands below a device end, and nothing else. -/
  localRoot : tree.form? 0 = some .deviceEnd →
    ∃ root, tree.children 0 = [root] ∧ tree.form? root = some .node
  /-- Siblings have different names. -/
  isNamed_inj : ∀ {above left right text}, left ∈ tree.children above →
    right ∈ tree.children above → tree.isNamed text left → tree.isNamed text right → left = right
  /-- Nodes and bridges have names. -/
  isSome_name? : ∀ {id}, tree.form? id = some .node ∨ tree.form? id = some .bridge →
    (tree.name? id).isSome

namespace WellFormed

variable {tree : Tree}

/-- Whether a tree is well formed is told by its outline. -/
theorem congr {left right : Tree} (same : left.outline = right.outline) (h : left.WellFormed) :
    right.WellFormed where
  size_le := size_congr same ▸ h.size_le
  parent_lt := by
    intro id above hid
    exact h.parent_lt (parent?_congr same id ▸ hid)
  eq_zero := by
    intro id hlt hid
    rw [← size_congr same] at hlt
    exact h.eq_zero hlt (parent?_congr same id ▸ hid)
  mem_children := by
    intro id above
    rw [← children_congr same, ← parent?_congr same]
    exact h.mem_children
  nodup := by
    intro above
    exact children_congr same above ▸ h.nodup above
  above_form := by
    intro id above hid
    rw [← form?_congr same]
    exact h.above_form (parent?_congr same id ▸ hid)
  deviceEnd_eq := by
    intro id hid
    exact h.deviceEnd_eq (form?_congr same id ▸ hid)
  localRoot := by
    rw [← form?_congr same, ← children_congr same]
    intro htop
    obtain ⟨root, hroot, hform⟩ := h.localRoot htop
    exact ⟨root, hroot, form?_congr same root ▸ hform⟩
  isNamed_inj := by
    intro above left right text hleft hright
    rw [← children_congr same] at hleft hright
    simp only [isNamed, ← name?_congr same]
    exact h.isNamed_inj hleft hright
  isSome_name? := by
    intro id hid
    rw [← name?_congr same]
    exact h.isSome_name? (form?_congr same id ▸ hid)

/-- A tree without entries is well formed. -/
theorem empty (timeout : Nat) : (Tree.empty timeout).WellFormed where
  size_le := Nat.zero_le _
  parent_lt := by simp [parent?, get?, Tree.empty]
  eq_zero := by simp [size, Tree.empty]
  mem_children := by simp [parent?, children, get?, Tree.empty]
  nodup := by simp [children, get?, Tree.empty]
  above_form := by simp [parent?, get?, Tree.empty]
  deviceEnd_eq := by simp [form?, get?, Tree.empty]
  localRoot := by simp [form?, get?, Tree.empty]
  isNamed_inj := by simp [children, get?, Tree.empty]
  isSome_name? := by simp [form?, get?, Tree.empty]

/-- An entry that stands below another one is there. -/
theorem lt_size_of_parent? {id above : Nat} (h : tree.parent? id = some above) :
    id < tree.size := by
  obtain ⟨entry, hentry, _⟩ := Option.bind_eq_some_iff.1 h
  exact (List.getElem?_eq_some_iff.1 hentry).1

/-- Nothing stands above the first entry. -/
theorem parent?_zero (h : tree.WellFormed) : tree.parent? 0 = none := by
  cases habove : tree.parent? 0 with
  | none => rfl
  | some above => exact absurd (h.parent_lt habove) (Nat.not_lt_zero above)

/-- A child comes after the entry that it stands below. -/
theorem lt_of_mem_children (h : tree.WellFormed) {child above : Nat}
    (hchild : child ∈ tree.children above) : above < child :=
  h.parent_lt (h.mem_children.1 hchild)

/-- A child is there. -/
theorem lt_size_of_mem_children (h : tree.WellFormed) {child above : Nat}
    (hchild : child ∈ tree.children above) : child < tree.size :=
  lt_size_of_parent? (h.mem_children.1 hchild)

/-- The first of the children with a name is any child with that name. -/
theorem childNamed_eq (h : tree.WellFormed) {child above : Nat} {text : String}
    (hchild : tree.parent? child = some above) (hname : tree.isNamed text child) :
    tree.childNamed above text = some child := by
  have hmem := h.mem_children.2 hchild
  cases hfound : tree.childNamed above text with
  | none => exact absurd hname (List.find?_eq_none.1 hfound child hmem)
  | some other =>
    rw [h.isNamed_inj hmem (List.mem_of_find?_eq_some hfound) hname (List.find?_some hfound)]

end WellFormed

/-! ## One more entry -/

/-- A tree with one more entry at its end. -/
def add (tree : Tree) (entry : Entry) : Tree :=
  { tree with entries := tree.entries ++ [entry] }

@[simp]
theorem size_add (tree : Tree) (entry : Entry) : (tree.add entry).size = tree.size + 1 := by
  simp [add, size]

/-- A new entry is found at its end. -/
theorem get?_add (tree : Tree) (entry : Entry) (id : Nat) :
    (tree.add entry).get? id = if id = tree.size then some entry else tree.get? id := by
  by_cases h : id = tree.size
  · subst h
    simp [add, get?, size]
  · rw [if_neg h]
    rcases Nat.lt_or_gt_of_ne h with hlt | hgt
    · exact List.getElem?_append_left hlt
    · have hend : (tree.add entry).size ≤ id := by
        rw [size_add]
        exact hgt
      rw [get?, get?, List.getElem?_eq_none hend, List.getElem?_eq_none (Nat.le_of_lt hgt)]

/-- Nothing stands at the end of a tree. -/
theorem get?_size (tree : Tree) : tree.get? tree.size = none :=
  List.getElem?_eq_none (Nat.le_refl _)

/-- A tree with one more entry below one of its entries. -/
def below (tree : Tree) (parent : Nat) (name : Option Name) (role : Role) : Tree :=
  (tree.add ⟨name, some parent, [], role⟩).modify parent fun entry =>
    { entry with children := entry.children ++ [tree.size] }

section

variable {tree : Tree} {parent : Nat} (there : parent < tree.size) (name : Option Name)
  (role : Role)
include there

/-- What is found in a tree with one more entry below one of its entries. -/
theorem get?_below (id : Nat) :
    (tree.below parent name role).get? id
      = if id = tree.size then some ⟨name, some parent, [], role⟩
        else if id = parent then
          (tree.get? id).map fun entry => { entry with children := entry.children ++ [tree.size] }
        else tree.get? id := by
  rw [below, get?_modify, get?_add]
  by_cases hnew : id = tree.size
  · have hne : parent ≠ id := by omega
    rw [if_neg hne, if_pos hnew, if_pos hnew]
  · by_cases hid : id = parent
    · rw [if_pos hid.symm, if_neg hnew, if_neg hnew, if_pos hid]
    · rw [if_neg (Ne.symm hid), if_neg hnew, if_neg hnew, if_neg hid]

/-- The names after an entry was added. -/
theorem name?_below (id : Nat) :
    (tree.below parent name role).name? id = if id = tree.size then name else tree.name? id := by
  rw [name?, get?_below there, name?]
  split
  · rfl
  · split
    · rw [Option.bind_map]
      rfl
    · rfl

/-- The entries above others after an entry was added. -/
theorem parent?_below (id : Nat) :
    (tree.below parent name role).parent? id
      = if id = tree.size then some parent else tree.parent? id := by
  rw [parent?, get?_below there, parent?]
  split
  · rfl
  · split
    · rw [Option.bind_map]
      rfl
    · rfl

/-- The forms after an entry was added. -/
theorem form?_below (id : Nat) :
    (tree.below parent name role).form? id
      = if id = tree.size then some role.form else tree.form? id := by
  rw [form?, get?_below there, form?]
  split
  · rfl
  · split
    · rw [Option.map_map]
      rfl
    · rfl

/-- The children after an entry was added. -/
theorem children_below (id : Nat) :
    (tree.below parent name role).children id
      = if id = parent then tree.children id ++ [tree.size] else tree.children id := by
  rw [children, get?_below there, children]
  by_cases hnew : id = tree.size
  · have hne : id ≠ parent := by omega
    rw [if_pos hnew, if_neg hne, hnew, get?_size]
    rfl
  · rw [if_neg hnew]
    split
    · next hid =>
      obtain ⟨entry, hentry⟩ : ∃ entry, tree.get? id = some entry :=
        ⟨_, List.getElem?_eq_getElem (hid ▸ there)⟩
      simp [hentry]
    · rfl

end

namespace WellFormed

variable {tree : Tree} (h : tree.WellFormed) {parent : Nat} (there : parent < tree.size)
  {name : Option Name} (role : Role)
include h

/-- The place of a new entry is the place of no child. -/
theorem size_notMem_children (above : Nat) : tree.size ∉ tree.children above :=
  fun hmem => absurd (h.lt_size_of_mem_children hmem) (Nat.lt_irrefl _)

include there

/-- A new entry below a node leaves a local root below a device end. -/
theorem localRoot_below (node : tree.form? parent = some .node)
    (htop : (tree.below parent name role).form? 0 = some .deviceEnd) :
    ∃ root, (tree.below parent name role).children 0 = [root] ∧
      (tree.below parent name role).form? root = some .node := by
  have hne : (0 : Nat) ≠ tree.size := by omega
  rw [form?_below there, if_neg hne] at htop
  have hzero : (0 : Nat) ≠ parent := by
    rintro rfl
    simp [htop] at node
  obtain ⟨root, hroot, hform⟩ := h.localRoot htop
  have hlt := h.lt_size_of_mem_children (hroot ▸ List.mem_singleton_self root)
  refine ⟨root, ?_, ?_⟩
  · rw [children_below there, if_neg hzero, hroot]
  · rw [form?_below there, if_neg (Nat.ne_of_lt hlt), hform]

/-- A new entry with an unused name leaves siblings with different names. -/
theorem isNamed_inj_below (unused : ∀ text ∈ name, tree.childNamed parent text.text = none)
    {above left right : Nat} {text : String}
    (hleft : left ∈ (tree.below parent name role).children above)
    (hright : right ∈ (tree.below parent name role).children above) :
    (tree.below parent name role).isNamed text left →
      (tree.below parent name role).isNamed text right → left = right := by
  have hold : ∀ {id}, id ∈ tree.children above → id ≠ tree.size :=
    fun hid hsame => h.size_notMem_children above (hsame ▸ hid)
  have hunused : ∀ {id}, id ∈ tree.children parent → tree.isNamed text id →
      ¬name.any (·.text = text) := by
    intro id hid hnamed hnew
    cases hname : name with
    | none => simp [hname] at hnew
    | some new =>
      simp only [hname, Option.any_some, decide_eq_true_eq] at hnew
      have hnone := unused new hname
      rw [hnew] at hnone
      exact List.find?_eq_none.1 hnone id hid hnamed
  rw [children_below there] at hleft hright
  simp only [isNamed, name?_below there]
  by_cases habove : above = parent
  · subst habove
    simp only [if_true, List.mem_append, List.mem_singleton] at hleft hright
    rcases hleft with hleft | rfl <;> rcases hright with hright | rfl
    · rw [if_neg (hold hleft), if_neg (hold hright)]
      exact h.isNamed_inj hleft hright
    · rw [if_neg (hold hleft), if_pos rfl]
      intro hnamed hnew
      exact absurd hnew (hunused hleft hnamed)
    · rw [if_neg (hold hright), if_pos rfl]
      intro hnew hnamed
      exact absurd hnew (hunused hright hnamed)
    · exact fun _ _ => rfl
  · rw [if_neg habove] at hleft hright
    rw [if_neg (hold hleft), if_neg (hold hright)]
    exact h.isNamed_inj hleft hright

omit there in
/-- A well-formed tree stays so when an entry is added below a node without a child of its name. -/
theorem below (room : tree.size < maxEntries) (node : tree.form? parent = some .node)
    (unused : ∀ text ∈ name, tree.childNamed parent text.text = none)
    (notDevice : role.form ≠ .deviceEnd)
    (named : role.form = .node ∨ role.form = .bridge → name.isSome) :
    (tree.below parent name role).WellFormed := by
  have there : parent < tree.size := lt_size_of_form? node
  constructor
  case size_le =>
    simp only [Tree.below, size_modify, size_add]
    exact room
  case parent_lt =>
    intro id above
    rw [parent?_below there]
    split
    · intro habove
      obtain rfl := Option.some.inj habove
      omega
    · exact h.parent_lt
  case eq_zero =>
    intro id hlt
    rw [parent?_below there]
    split
    · simp
    · next hne =>
      apply h.eq_zero
      simp only [Tree.below, size_modify, size_add] at hlt
      omega
  case mem_children =>
    intro id above
    have hfresh := h.size_notMem_children above
    rw [children_below there, parent?_below there]
    by_cases hid : id = tree.size
    · subst hid
      by_cases habove : above = parent
      · simp [habove]
      · simp [habove, hfresh, Ne.symm habove]
    · by_cases habove : above = parent
      · simp [habove, hid, h.mem_children]
      · simp [habove, hid, h.mem_children]
  case nodup =>
    intro above
    rw [children_below there]
    split
    · rw [List.nodup_append]
      refine ⟨h.nodup above, by simp, ?_⟩
      intro id hid new hnew hsame
      rw [hsame, List.mem_singleton.1 hnew] at hid
      exact h.size_notMem_children above hid
    · exact h.nodup above
  case above_form =>
    intro id above
    rw [parent?_below there, form?_below there]
    split
    · intro habove
      obtain rfl := Option.some.inj habove
      rw [if_neg (Nat.ne_of_lt there)]
      exact .inl node
    · intro habove
      have hlt := Nat.lt_trans (h.parent_lt habove) (WellFormed.lt_size_of_parent? habove)
      rw [if_neg (Nat.ne_of_lt hlt)]
      exact h.above_form habove
  case deviceEnd_eq =>
    intro id
    rw [form?_below there]
    split
    · intro hform
      exact absurd (Option.some.inj hform) notDevice
    · exact h.deviceEnd_eq
  case localRoot => exact h.localRoot_below there role node
  case isNamed_inj => exact h.isNamed_inj_below there role unused
  case isSome_name? =>
    intro id
    rw [form?_below there, name?_below there]
    split
    · simpa using named
    · exact h.isSome_name?

end WellFormed

end TopicTree.Tree
