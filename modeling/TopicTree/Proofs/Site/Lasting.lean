import TopicTree.Proofs.Site.Beside
import TopicTree.Proofs.Site.Shape
import TopicTree.Proofs.Tree.Growth

/-!
# What lasts of a tree

Entries are never taken away. Each keeps its place below another one, its form, its socket and, unless
it is a hub end, its name, whatever is built and whatever comes in. So what is told of a tree in
these words at the end of a run could be told of it at every moment since its entries are there.
-/

namespace TopicTree

namespace Tree

/-- Building at an entry leaves its form as it is. -/
theorem form_of_fits {construction : Construction} {id : Nat} {old new : Role}
    (h : construction.Fits id old new) : new.form = old.form := by
  cases h with
  | method there offered => cases old <;> rfl
  | listener tag link => rfl
  | guard guard bridge => rfl

/-- Building at an entry leaves its channel as it is. -/
theorem channel?_of_fits {construction : Construction} {id : Nat} {old new : Role}
    (h : construction.Fits id old new) : new.channel? = old.channel? := by
  cases h with
  | method there offered => cases old <;> rfl
  | listener tag link => rfl
  | guard guard bridge => rfl

/-- A later tree has every entry of an earlier one where it was. -/
structure Lasts (before after : Tree) : Prop where
  size_le : before.size ≤ after.size
  parent? : ∀ id < before.size, after.parent? id = before.parent? id
  form? : ∀ id < before.size, after.form? id = before.form? id
  name? : ∀ id < before.size, before.form? id ≠ some .hubEnd → after.name? id = before.name? id
  socket : ∀ id < before.size,
    (after.channel? id).map (·.socket) = (before.channel? id).map (·.socket)

namespace Lasts

/-- Every tree is as it is. -/
@[refl]
protected theorem refl (tree : Tree) : tree.Lasts tree :=
  ⟨Nat.le_refl _, fun _ _ => rfl, fun _ _ => rfl, fun _ _ _ => rfl, fun _ _ => rfl⟩

protected theorem trans {first second third : Tree} (h : first.Lasts second)
    (h' : second.Lasts third) : first.Lasts third where
  size_le := Nat.le_trans h.size_le h'.size_le
  parent? id hid := (h'.parent? id (Nat.lt_of_lt_of_le hid h.size_le)).trans (h.parent? id hid)
  form? id hid := (h'.form? id (Nat.lt_of_lt_of_le hid h.size_le)).trans (h.form? id hid)
  name? id hid hform := by
    rw [h'.name? id (Nat.lt_of_lt_of_le hid h.size_le) (h.form? id hid ▸ hform), h.name? id hid hform]
  socket id hid := (h'.socket id (Nat.lt_of_lt_of_le hid h.size_le)).trans (h.socket id hid)

/-- A form that an entry has it keeps. -/
theorem form?_eq {before after : Tree} (h : before.Lasts after) {id : Nat} {form : Form}
    (there : before.form? id = some form) : after.form? id = some form :=
  (h.form? id (lt_size_of_form? there)).trans there

end Lasts

/-- Building takes no entry away. -/
theorem lasts_construct {tree after : Tree} {construction : Construction}
    (hbuilt : tree.construct construction = .ok after) : tree.Lasts after := by
  have hsize := size_le_construct hbuilt
  have hold : ∀ id < tree.size, ∃ old entry, tree.get? id = some old ∧ after.get? id = some entry ∧
      entry.name = old.name ∧ entry.parent = old.parent ∧
      (entry.role = old.role ∨ construction.Fits id old.role entry.role) := by
    intro id hid
    have hentry := List.getElem?_eq_getElem (Nat.lt_of_lt_of_le hid hsize)
    rcases settled_construct hbuilt hentry with ⟨old, hold, hname, hparent, hrole⟩ | ⟨hnone, -⟩
    · exact ⟨old, _, hold, hentry, hname, hparent, hrole⟩
    · rw [get?, List.getElem?_eq_none_iff] at hnone
      exact absurd hid (Nat.not_lt_of_le hnone)
  refine ⟨hsize, fun id hid => ?_, fun id hid => ?_, fun id hid _ => ?_, fun id hid => ?_⟩
  all_goals obtain ⟨old, entry, hbefore, hafter, hname, hparent, hrole⟩ := hold id hid
  · simp [parent?, hbefore, hafter, hparent]
  · simp only [form?, hbefore, hafter, Option.map_some]
    rcases hrole with hsame | hfits
    · rw [hsame]
    · rw [form_of_fits hfits]
  · simp [name?, hbefore, hafter, hname]
  · simp only [channel?, hbefore, hafter, Option.bind_some]
    rcases hrole with hsame | hfits
    · rw [hsame]
    · rw [channel?_of_fits hfits]

end Tree

namespace Site

variable {M : Type} [Medium M]

/-- A step that does not build names hub ends and leaves all else of the outline alone. -/
theorem renamed_take (site : Site M) {step : RunStep M}
    (plain : ∀ construction, step ≠ .build construction) :
    site.tree.Renamed (site.take step).tree := by
  cases step with
  | build construction => exact absurd rfl (plain construction)
  | execute node method path params now tag => exact renamed_perform site nofun
  | notify node name qos data => exact renamed_perform site nofun
  | expire now id =>
    have changes : Changes site (site.take (.expire now id)) := .single (.expire site now id)
    exact changes.renamed
  | provision now id => exact (changes_provisionAt now site id).renamed
  | poll now id => exact (changes_pollAt now site id).renamed
  | around pool medium => exact .of_outline rfl

/-- A step that does not build leaves every channel at its socket and every link its listeners. -/
theorem socket_listeners_take (site : Site M) {step : RunStep M}
    (plain : ∀ construction, step ≠ .build construction) (id : Nat) :
    ((site.take step).tree.channel? id).map (·.socket)
        = (site.tree.channel? id).map (·.socket) ∧
      ((site.take step).tree.link? id).map (·.listeners)
        = (site.tree.link? id).map (·.listeners) := by
  obtain ⟨aside, haside⟩ : ∃ aside, ∀ now, step ≠ .poll now aside := by
    cases step with
    | poll now other =>
      refine ⟨other + 1, fun time heq => ?_⟩
      have hother : other = other + 1 := by simpa using (RunStep.poll.inj heq).2
      omega
    | build | execute | notify | expire | provision | around => exact ⟨0, nofun⟩
  rcases spares_take_beside site haside with spares | ⟨construction, _, h, _⟩
  · exact ⟨spares.sockets id, spares.listeners id⟩
  · exact absurd h (plain construction)

/-- No step takes an entry away. -/
theorem lasts_take (site : Site M) (step : RunStep M) : site.tree.Lasts (site.take step).tree := by
  rcases exists_or_forall_not (step = .build ·) with ⟨construction, rfl⟩ | plain
  · simp only [take, move, perform]
    split
    · exact .refl _
    · next after hbuilt => exact Tree.lasts_construct hbuilt
  · have hrenamed := renamed_take site plain
    exact ⟨Nat.le_of_eq hrenamed.size.symm, fun id _ => hrenamed.parent id,
      fun id _ => hrenamed.form id, fun id _ => hrenamed.name id,
      fun id _ => (socket_listeners_take site plain id).1⟩

/-- Steps take no entry away. -/
theorem lasts_follow (site : Site M) (steps : List (RunStep M)) :
    site.tree.Lasts (site.follow steps).tree := by
  induction steps generalizing site with
  | nil => exact .refl _
  | cons step steps ih => exact (lasts_take site step).trans (ih _)

end Site
end TopicTree
