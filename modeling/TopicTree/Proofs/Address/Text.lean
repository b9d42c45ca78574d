import TopicTree.Proofs.Address.Names

/-!
# Paths as text

A path that was read from a text has that text. The other way round a path is read back from its own
text unless its levels begin like a lead: `..` behind the local root, or `~` behind the top.
-/

namespace TopicTree.Path

/-- Whether a path is read back from its own text. -/
def Reads (path : Path) : Prop :=
  ofText path.toText = .ok path

/-- The lead of the anchor that a text starts with, and the rest, are the text. -/
theorem lead_splitAnchor (text : String) :
    (splitAnchor text).1.lead ++ (splitAnchor text).2 = text := by
  unfold splitAnchor
  split
  · next rest h =>
    rw [← String.ofList_toList (s := text), Level.after?_eq_some_iff.1 h, String.ofList_append,
      String.ofList_toList]
  · split
    · next rest h =>
      rw [← String.ofList_toList (s := text), Level.after?_eq_some_iff.1 h, String.ofList_append,
        String.ofList_toList]
    · exact String.empty_append

/-- A text that is no longer than a path spells one. -/
theorem exists_ofText {text : String} (short : text.utf8ByteSize ≤ maxPath) :
    ∃ path, ofText text = .ok path := by
  have hsize := congrArg String.utf8ByteSize (lead_splitAnchor text)
  rw [String.utf8ByteSize_append] at hsize
  exact ⟨_, dif_pos (Nat.le_trans (Nat.le_of_add_left_le (Nat.le_of_eq hsize)) short)⟩

/-- A path has the text that it was read from. -/
theorem toText_of_ofText {text : String} {path : Path} (h : ofText text = .ok path) :
    path.toText = text := by
  obtain ⟨hanchor, hsegments⟩ := ofSegments_eq_ok_iff.1 h
  rw [toText, hanchor, hsegments, lead_splitAnchor]

/-- A path that was read is read back. -/
theorem reads_of_ofText {text : String} {path : Path} (h : ofText text = .ok path) :
    path.Reads := by
  rw [Reads, toText_of_ofText h, h]

/-! ## Paths that are read back -/

variable {path : Path}

/-- The levels behind the anchor that a text starts with. -/
theorem reads_of_splitAnchor (h : splitAnchor path.toText = (path.anchor, path.segments)) :
    path.Reads := by
  rw [Reads, ofText, h, ofSegments, dif_pos path.fits]

/-- A path from across the link is read back. -/
theorem reads_far (h : path.anchor = .far) : path.Reads := by
  have hlead : Level.after? Anchor.far.lead.toList path.toText.toList
      = some path.segments.toList := by
    rw [Level.after?_eq_some_iff, toText, h, String.toList_append]
  refine reads_of_splitAnchor ?_
  rw [splitAnchor, hlead, h]
  simp only [String.ofList_toList]

/-- A path from the local root is read back unless its levels begin like a lead. -/
theorem reads_near (h : path.anchor = .near)
    (levels : Level.after? "../".toList path.segments.toList = none) : path.Reads := by
  have hfar : Level.after? Anchor.far.lead.toList path.toText.toList = none := by
    cases hrest : Level.after? Anchor.far.lead.toList path.toText.toList with
    | none => rfl
    | some rest =>
      have htext := Level.after?_eq_some_iff.1 hrest
      rw [toText, h, String.toList_append] at htext
      have hlevels : path.segments.toList = "../".toList ++ rest :=
        (List.append_right_inj "~/".toList).1 htext
      rw [Level.after?_eq_some_iff.2 hlevels] at levels
      cases levels
  have hlead : Level.after? Anchor.near.lead.toList path.toText.toList
      = some path.segments.toList := by
    rw [Level.after?_eq_some_iff, toText, h, String.toList_append]
  refine reads_of_splitAnchor ?_
  rw [splitAnchor, hfar]
  simp only [hlead, h, String.ofList_toList]

/-- A path from the top is read back unless its levels begin like a lead. -/
theorem reads_top (h : path.anchor = .top)
    (levels : Level.after? "~/".toList path.segments.toList = none) : path.Reads := by
  have htext : path.toText = path.segments := by
    rw [toText, h]
    exact String.empty_append
  have hfar : Level.after? Anchor.far.lead.toList path.segments.toList = none := by
    cases hrest : Level.after? Anchor.far.lead.toList path.segments.toList with
    | none => rfl
    | some rest =>
      have htext := Level.after?_eq_some_iff.1 hrest
      have hlevels : path.segments.toList = "~/".toList ++ ("../".toList ++ rest) := htext
      rw [Level.after?_eq_some_iff.2 hlevels] at levels
      cases levels
  refine reads_of_splitAnchor ?_
  rw [htext, splitAnchor, hfar]
  have hnear : Level.after? Anchor.near.lead.toList path.segments.toList = none := levels
  simp only [hnear, h]

/-- A text without a slash does not begin with one behind a level. -/
theorem after?_eq_none (level : String) {text : List Char} (single : Level.slash ∉ text) :
    Level.after? (level ++ "/").toList text = none := by
  cases hrest : Level.after? (level ++ "/").toList text with
  | none => rfl
  | some rest =>
    refine absurd ?_ single
    rw [Level.after?_eq_some_iff.1 hrest, String.toList_append]
    exact List.mem_append_left _ (List.mem_append_right _ (List.mem_singleton_self _))

/-- The names behind the first one of a row, if that is a given text and is not the last one. -/
def past? (level : String) : List Name → Option (List Name)
  | name :: next :: names => if name.text = level then some (next :: names) else none
  | _ => none

/-- A row of names begins with a level and a slash if that is its first name and others follow. -/
theorem after?_join_eq {level : String} (single : Level.slash ∉ level.toList) (names : List Name) :
    Level.after? (level ++ "/").toList (Name.join names).toList
      = (past? level names).map fun rest => (Name.join rest).toList := by
  match names with
  | [] => exact after?_eq_none level (by simp [Name.join])
  | [name] => exact after?_eq_none level name.oneLevel
  | name :: next :: names =>
    rw [past?]
    by_cases hname : name.text = level
    · rw [if_pos hname, Option.map_some, Level.after?_eq_some_iff, Name.toList_join_cons, hname,
        String.toList_append, List.append_assoc]
      rfl
    · rw [if_neg hname, Option.map_none]
      cases hrest : Level.after? (level ++ "/").toList (Name.join (name :: next :: names)).toList with
      | none => rfl
      | some rest =>
        refine absurd ?_ hname
        have htext := Level.after?_eq_some_iff.1 hrest
        rw [Name.toList_join_cons, String.toList_append, List.append_assoc] at htext
        have hfirst := congrArg Level.first htext
        rw [Level.first_append_slash name.oneLevel] at hfirst
        exact String.toList_inj.1 (hfirst.trans (Level.first_append_slash single rest))

/-- A row of names begins with a level and a slash only if that is its first name. -/
theorem after?_join {level : String} {names : List Name} (single : Level.slash ∉ level.toList)
    (other : ∀ name ∈ names.head?, name.text ≠ level) :
    Level.after? (level ++ "/").toList (Name.join names).toList = none := by
  rw [after?_join_eq single, Option.map_eq_none_iff]
  unfold past?
  split
  · next name _ _ => exact if_neg (other name rfl)
  · rfl

/-- A path from the local root whose first name is not `..` is read back. -/
theorem Spells.reads_near {names : List Name} (h : path.Spells names) (anchor : path.anchor = .near)
    (other : ∀ name ∈ names.head?, name.text ≠ "..") : path.Reads := by
  refine Path.reads_near anchor ?_
  rw [h]
  exact after?_join (by decide) other

/-- A path from the top whose first name is not `~` is read back. -/
theorem Spells.reads_top {names : List Name} (h : path.Spells names) (anchor : path.anchor = .top)
    (other : ∀ name ∈ names.head?, name.text ≠ "~") : path.Reads := by
  refine Path.reads_top anchor ?_
  rw [h]
  exact after?_join (by decide) other

end TopicTree.Path
