import Mathlib.Data.List.Nodup
import TopicTree.Network.Cabling
import TopicTree.Proofs.Site.Reachable
import TopicTree.Proofs.Tree.InPlace

/-!
# The shape of a tree and what changes it

The tree of a reachable site has one top. Every other entry is listed once, by the earlier node or
device end that it stands below. Hub ends and bridges have nothing below them, and siblings have
different names. Nothing but building changes the shape: requests, notifications and ticks name hub
ends, whatever bytes come in. Building that is refused leaves the tree as it was, also when the
tables of the tree are written one after the other.
-/

namespace TopicTree

namespace Tree

variable {tree : Tree}

/-! ## Shape -/

/-- The shape of a tree, told entry by entry. -/
structure Shaped (tree : Tree) : Prop where
  /-- The first entry stands below nothing, and no other entry does. -/
  top : ∀ id < tree.size, tree.parent? id = none ↔ id = 0
  /-- Every other entry stands below an earlier node or device end, which lists it once, and it is
  listed nowhere else. -/
  below : ∀ id < tree.size, id ≠ 0 → ∃ above < id, tree.parent? id = some above ∧
    (tree.form? above = some .node ∨ tree.form? above = some .deviceEnd) ∧
    ∀ other, (tree.children other).count id = if other = above then 1 else 0
  /-- Nothing is listed but entries other than the first. -/
  listed : ∀ above, ∀ id ∈ tree.children above, id < tree.size ∧ id ≠ 0
  /-- Hub ends and bridges have nothing below them. -/
  childless : ∀ id, tree.form? id = some .hubEnd ∨ tree.form? id = some .bridge →
    tree.children id = []
  /-- A device end is the first entry, and below it is a node with a name. -/
  deviceEnd : ∀ id, tree.form? id = some .deviceEnd → id = 0 ∧
    ∃ root, tree.children id = [root] ∧ tree.form? root = some .node ∧ (tree.name? root).isSome
  /-- No two siblings have the same name. -/
  siblings : ∀ above, ∀ left ∈ tree.children above, ∀ right ∈ tree.children above, ∀ name,
    tree.name? left = some name → tree.name? right = some name → left = right
  /-- Names are there, are short and are single levels. -/
  names : ∀ id name, tree.name? id = some name →
    name.text ≠ "" ∧ name.text.utf8ByteSize ≤ 32 ∧ '/' ∉ name.text.toList

namespace WellFormed

variable (h : tree.WellFormed)
include h

/-- An entry is listed once by the entry that it stands below, and by no other. -/
theorem count_children {id above : Nat} (habove : tree.parent? id = some above) (other : Nat) :
    (tree.children other).count id = if other = above then 1 else 0 := by
  split
  · next heq =>
    subst heq
    exact List.count_eq_one_of_mem (h.nodup other) (h.mem_children.2 habove)
  · next hne =>
    apply List.count_eq_zero_of_not_mem
    intro hmem
    have hother := h.mem_children.1 hmem
    rw [habove] at hother
    exact hne (Option.some.inj hother).symm

/-- An entry that is neither a node nor a device end has nothing below it. -/
theorem children_eq_nil {id : Nat} (node : tree.form? id ≠ some .node)
    (deviceEnd : tree.form? id ≠ some .deviceEnd) : tree.children id = [] := by
  rw [List.eq_nil_iff_forall_not_mem]
  intro child hchild
  exact (h.above_form (h.mem_children.1 hchild)).elim node deviceEnd

/-- A well-formed tree has its shape. -/
theorem shaped : tree.Shaped where
  top := by
    intro id hlt
    constructor
    · exact h.eq_zero hlt
    · rintro rfl
      exact h.parent?_zero
  below := by
    intro id hlt hne
    cases habove : tree.parent? id with
    | none => exact absurd (h.eq_zero hlt habove) hne
    | some above =>
      exact ⟨above, h.parent_lt habove, rfl, h.above_form habove, h.count_children habove⟩
  listed := by
    intro above id hid
    have hlt := h.lt_of_mem_children hid
    exact ⟨h.lt_size_of_mem_children hid, by omega⟩
  childless := by
    intro id hform
    apply h.children_eq_nil
    all_goals
      rcases hform with hform | hform <;> simp [hform]
  deviceEnd := by
    intro id hform
    obtain rfl := h.deviceEnd_eq hform
    obtain ⟨root, hroot, hnode⟩ := h.localRoot hform
    exact ⟨rfl, root, hroot, hnode, h.isSome_name? (.inl hnode)⟩
  siblings := by
    intro above left hleft right hright name hl hr
    have hnamed : ∀ id, tree.name? id = some name → tree.isNamed name.text id := by
      intro id hid
      simp [isNamed, hid]
    exact h.isNamed_inj hleft hright (hnamed left hl) (hnamed right hr)
  names := by
    intro id name _
    exact ⟨name.nonempty, name.fits, name.oneLevel⟩

end WellFormed

/-! ## Trees that differ in the names of hub ends -/

/-- A later tree has the entries of an earlier one, each in its place and form, and with its name
unless it is a hub end. -/
structure Renamed (before after : Tree) : Prop where
  size : after.size = before.size
  parent : ∀ id, after.parent? id = before.parent? id
  children : ∀ id, after.children id = before.children id
  form : ∀ id, after.form? id = before.form? id
  name : ∀ id, before.form? id ≠ some .hubEnd → after.name? id = before.name? id

namespace Renamed

/-- A tree of the same outline. -/
theorem of_outline {before after : Tree} (same : after.outline = before.outline) :
    before.Renamed after where
  size := size_congr same
  parent := parent?_congr same
  children := children_congr same
  form := form?_congr same
  name := fun id _ => name?_congr same id

/-- A tree in which a hub end takes a name. -/
theorem setName {id : Nat} (hubEnd : tree.form? id = some .hubEnd) (name : Name) :
    tree.Renamed (tree.setName id name) where
  size := size_modify tree id _
  parent := parent?_setName tree id name
  children := children_setName tree id name
  form := form?_setName tree id name
  name := by
    intro other hother
    have hne : id ≠ other := by
      rintro rfl
      exact hother hubEnd
    rw [name?_setName, if_neg hne]

/-- What differs in the names of hub ends twice does so once. -/
theorem trans {first second third : Tree} (h : first.Renamed second) (h' : second.Renamed third) :
    first.Renamed third where
  size := h'.size.trans h.size
  parent := fun id => (h'.parent id).trans (h.parent id)
  children := fun id => (h'.children id).trans (h.children id)
  form := fun id => (h'.form id).trans (h.form id)
  name := by
    intro id hid
    rw [h'.name id (h.form id ▸ hid), h.name id hid]

end Renamed

end Tree

namespace Site

variable {M : Type} [Medium M]

/-- A change names a hub end or leaves the outline alone. -/
theorem Change.renamed {before after : Site M} (h : Change before after) :
    before.tree.Renamed after.tree := by
  rcases h.tree_cases with halike | ⟨id, _, new, _, halike⟩ | ⟨id, _, name, _, _, hform, heq⟩
  · exact .of_outline halike.outline
  · exact .of_outline (halike.outline.trans (Tree.outline_setEndpoint before.tree id new))
  · exact heq ▸ .setName hform name

/-- A chain of changes names hub ends and leaves all else of the outline alone. -/
theorem Changes.renamed {before after : Site M} (h : Changes before after) :
    before.tree.Renamed after.tree :=
  h.induction (P := fun site => before.tree.Renamed site.tree)
    (fun change ih => ih.trans change.renamed) (.of_outline rfl)

/-- A call that does not build names hub ends and leaves all else of the outline alone. -/
theorem renamed_perform (site : Site M) {call : Call}
    (plain : ∀ construction, call ≠ .build construction) :
    site.tree.Renamed (site.perform call).2.tree := by
  have hcases := move_cases site (.call call)
  rcases hcases with ⟨construction, _, hcall, _, _⟩ |
    ⟨node, _, _, _, _, _, _, _, new, _, _, _, hchanges⟩ | hchanges | ⟨_, _, hcall, _⟩
  · exact absurd (Move.call.inj hcall) (plain construction)
  · have hbegun := Tree.outline_setEndpoint site.tree node new
    exact (Tree.Renamed.of_outline hbegun).trans hchanges.renamed
  · exact hchanges.renamed
  · cases hcall

/-- Building at a site is building at its tree in place. -/
theorem perform_build (site : Site M) (construction : Construction) :
    match (Writing.build construction).run site.tree with
    | .ok _ after => site.perform (.build construction) = (.ok (), site.withTree after)
    | .error e after =>
      after = site.tree ∧ site.perform (.build construction) = (.error e, site) := by
  rw [Writing.run_build]
  cases hbuilt : site.tree.construct construction with
  | error e => exact ⟨rfl, by simp only [perform, hbuilt]⟩
  | ok after => simp only [Except.map, settled_ok, perform, hbuilt]

/-- A reachable tree has its shape; requests, notifications and ticks change nothing of it but the
names of hub ends; and building that is refused has written nothing. -/
theorem tree_keeps_shape {site : Site M} (reachable : site.Reachable) :
    site.tree.Shaped ∧
      (∀ call, (∀ construction, call ≠ .build construction) →
        site.tree.Renamed (site.perform call).2.tree) ∧
      ∀ construction, match (Writing.build construction).run site.tree with
        | .ok _ after => site.perform (.build construction) = (.ok (), site.withTree after)
        | .error e after =>
          after = site.tree ∧ site.perform (.build construction) = (.error e, site) :=
  ⟨reachable.wellFormed.shaped, fun _ plain => renamed_perform site plain, perform_build site⟩

/-- The moves that build a node with the hub end of a link below it, on which a request for the name
`shed` has come in. -/
def buildHub : List (Move Cabling) :=
  [.call (.build (.addRoot "hub")), .call (.build (.addUplink 0 "wire" 10)),
    .around (Pool.ofSize 1) (Cabling.empty.feed "wire"
      [48, 37, 0, 10, 45, 62, 95, 108, 105, 110, 107, 77, 97, 110, 4, 210, 8, 95, 103, 101, 116, 78,
        97, 109, 101, 8, 95, 108, 105, 110, 107, 77, 97, 110, 4, 115, 104, 101, 100])]

/-- A node with a hub end below it that is about to be named. -/
def nameless : Site Cabling :=
  (start 5 (Pool.ofSize 1) Cabling.empty).run buildHub

/-- The tick that reads the request names the hub end and nothing else, and a second top is
refused without a trace. -/
theorem hub_end_takes_name :
    nameless.tree.children 1 = [] ∧ nameless.tree.name? 1 = none ∧
      (((nameless.perform (.tick 7)).2.tree.name? 1).map (·.text) = some "shed" ∧
        nameless.tree.Renamed (nameless.perform (.tick 7)).2.tree) ∧
      nameless.perform (.build (.addRoot "top")) = (.error .rootExists, nameless) := by
  have reachable : nameless.Reachable := ⟨5, Pool.ofSize 1, Cabling.empty, buildHub, rfl⟩
  obtain ⟨hshape, hplain, hbuild⟩ := tree_keeps_shape reachable
  refine ⟨hshape.childless 1 (.inl rfl), rfl, ⟨by decide +kernel, hplain _ ?_⟩, ?_⟩
  · intro construction h
    cases h
  · exact (hbuild (.addRoot "top")).2

end Site

end TopicTree
