import TopicTree.Proofs.Address.Text

/-!
# Levels that read like a lead

A path travels as its lead and its levels, and is read as the longest lead that the text begins
with. So a path from the top whose first level is `~`, and one from the local root whose first level
is `..`, are read as paths from elsewhere. All others are read back. Names and levels that are
neither of the two make such a path nowhere on a way.
-/

namespace TopicTree

/-- Whether neither of the two levels that make a lead is among the levels of a text. -/
def Level.Plain (text : List Char) : Prop :=
  ['~'] ∉ split text ∧ ['.', '.'] ∉ split text

namespace Level

instance (text : List Char) : Decidable (Plain text) :=
  inferInstanceAs (Decidable (_ ∧ _))

/-- Levels are plain on both sides of a slash. -/
theorem plain_append_slash {front back : List Char} :
    Plain (front ++ slash :: back) ↔ Plain front ∧ Plain back := by
  simp only [Plain, split_append_slash, List.mem_append, not_or]
  exact and_and_and_comm

/-- What follows the first level is plain if the whole is. -/
theorem Plain.afterFirst {text : List Char} (h : Plain text) : Plain (afterFirst text) := by
  by_cases hslash : slash ∈ text
  · rw [← first_append_afterFirst hslash] at h
    exact (plain_append_slash.1 h).2
  · rw [afterFirst_eq_nil hslash]
    decide

end Level

/-- Whether a name is neither of the two levels that make a lead. -/
def Name.Plain (name : Name) : Prop :=
  name.text ≠ "~" ∧ name.text ≠ ".."

namespace Path

variable {path : Path}

/-- Whether the lead of a path and its first level make another lead. -/
def misleads (path : Path) : Bool :=
  match path.anchor with
  | .top => (Level.after? "~/".toList path.segments.toList).isSome
  | .near => (Level.after? "../".toList path.segments.toList).isSome
  | .far => false

/-- A path that is read back is read with its own anchor. -/
theorem Reads.anchor_eq (h : path.Reads) : (splitAnchor path.toText).1 = path.anchor :=
  (ofSegments_eq_ok_iff.1 h).1.symm

/-- A path is read back from its own text exactly if its first level does not mislead. -/
theorem reads_iff : path.Reads ↔ path.misleads = false := by
  cases hanchor : path.anchor with
  | far => exact iff_of_true (reads_far hanchor) (by simp [misleads, hanchor])
  | near =>
    simp only [misleads, hanchor, Option.isSome_eq_false_iff, Option.isNone_iff_eq_none]
    refine ⟨fun h => ?_, reads_near hanchor⟩
    cases hlead : Level.after? "../".toList path.segments.toList with
    | none => rfl
    | some rest =>
      have htext : path.toText.toList = Anchor.far.lead.toList ++ rest := by
        rw [toText, hanchor, String.toList_append, Level.after?_eq_some_iff.1 hlead]
        rfl
      have hread := h.anchor_eq
      rw [splitAnchor, Level.after?_eq_some_iff.2 htext, hanchor] at hread
      cases hread
  | top =>
    simp only [misleads, hanchor, Option.isSome_eq_false_iff, Option.isNone_iff_eq_none]
    refine ⟨fun h => ?_, reads_top hanchor⟩
    cases hlead : Level.after? "~/".toList path.segments.toList with
    | none => rfl
    | some rest =>
      have htext : Level.after? Anchor.near.lead.toList path.toText.toList = some rest := by
        rw [toText, hanchor, String.toList_append]
        exact hlead
      have hread := h.anchor_eq
      rw [splitAnchor, htext, hanchor] at hread
      split at hread <;> cases hread

/-- Whether no level of a path is one that makes a lead. -/
def Plain (path : Path) : Prop :=
  Level.Plain path.segments.toList

instance (path : Path) : Decidable path.Plain :=
  inferInstanceAs (Decidable (Level.Plain _))

/-- A text that begins with a level of a lead is not plain. -/
theorem Plain.after?_eq_none (h : path.Plain) {level : List Char} (single : Level.slash ∉ level)
    (leads : level = ['~'] ∨ level = ['.', '.']) :
    Level.after? (level ++ [Level.slash]) path.segments.toList = none := by
  cases hlead : Level.after? (level ++ [Level.slash]) path.segments.toList with
  | none => rfl
  | some rest =>
    have htext := Level.after?_eq_some_iff.1 hlead
    rw [List.append_assoc, List.singleton_append] at htext
    rw [Plain, htext, Level.plain_append_slash, Level.Plain, Level.split_eq_singleton single,
      List.mem_singleton, List.mem_singleton] at h
    rcases leads with rfl | rfl
    · exact absurd rfl h.1.1
    · exact absurd rfl h.1.2

/-- A path of plain levels misleads nobody. -/
theorem Plain.misleads (h : path.Plain) : path.misleads = false := by
  have hnear : Level.after? "~/".toList path.segments.toList = none :=
    h.after?_eq_none (by decide) (.inl rfl)
  have hfar : Level.after? "../".toList path.segments.toList = none :=
    h.after?_eq_none (by decide) (.inr rfl)
  cases hanchor : path.anchor <;>
    simp only [Path.misleads, hanchor, hnear, hfar, Option.isSome_none]

/-- A path without levels is plain. -/
theorem plain_empty (anchor : Anchor) : (empty anchor).Plain := by
  change Level.Plain []
  decide

/-- A plain path is plain from anywhere. -/
theorem Plain.withAnchor (h : path.Plain) (anchor : Anchor) : (path.withAnchor anchor).Plain :=
  h

/-- A plain path without its first level is plain. -/
theorem Plain.dropFirst (h : path.Plain) : path.dropFirst.Plain := by
  rw [Plain, toList_dropFirst]
  exact Level.Plain.afterFirst h

/-- A plain path with a plain name in front is plain. -/
theorem Plain.prepend {name : Name} {longer : Path} (h : path.Plain) (plain : name.Plain)
    (made : Path.prepend name.text path = .ok longer) : longer.Plain := by
  have hname : Level.Plain name.text.toList := by
    rw [Level.Plain, Level.split_eq_singleton name.oneLevel, List.mem_singleton, List.mem_singleton]
    exact ⟨fun heq => plain.1 (String.toList_inj.1 heq.symm),
      fun heq => plain.2 (String.toList_inj.1 heq.symm)⟩
  rw [Plain, (ofSegments_eq_ok_iff.1 made).2]
  split
  · exact hname
  · rw [String.toList_append, String.toList_append, List.append_assoc]
    exact Level.plain_append_slash.2 ⟨hname, h⟩

end Path
end TopicTree
