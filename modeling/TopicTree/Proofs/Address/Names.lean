import Mathlib.Data.List.TakeWhile
import TopicTree.Address.Path

/-!
# Paths as rows of names

A path whose levels are names is told by the row of them. What a node does to a path on the way is
done to the row: it takes the first name off, or puts one in front.
-/

namespace TopicTree

/-! ## The first level -/

namespace Level

/-- A text without a slash is its own first level. -/
theorem first_eq_self {text : List Char} (h : slash ∉ text) : first text = text := by
  rw [first, List.takeWhile_eq_self_iff]
  intro c hc
  simpa using fun heq : c = slash => h (heq ▸ hc)

/-- Nothing follows the first slash of a text without one. -/
theorem afterFirst_eq_nil {text : List Char} (h : slash ∉ text) : afterFirst text = [] := by
  have hdrop : text.dropWhile (· ≠ slash) = [] := by
    rw [List.dropWhile_eq_nil_iff]
    intro c hc
    simpa using fun heq : c = slash => h (heq ▸ hc)
  rw [afterFirst, hdrop, List.drop_nil]

/-- The first level of a text is what stands before its first slash. -/
theorem first_append_slash {level : List Char} (h : slash ∉ level) (rest : List Char) :
    first (level ++ slash :: rest) = level := by
  induction level with
  | nil => simp [first]
  | cons c level ih =>
    have hc : c ≠ slash := fun heq => h (heq ▸ List.mem_cons_self)
    have hrest := ih fun hmem => h (List.mem_cons_of_mem c hmem)
    simpa [first, hc] using hrest

/-- What follows the first level of a text is what stands behind its first slash. -/
theorem afterFirst_append_slash {level : List Char} (h : slash ∉ level) (rest : List Char) :
    afterFirst (level ++ slash :: rest) = rest := by
  induction level with
  | nil => simp [afterFirst]
  | cons c level ih =>
    have hc : c ≠ slash := fun heq => h (heq ▸ List.mem_cons_self)
    have hrest := ih fun hmem => h (List.mem_cons_of_mem c hmem)
    simpa [afterFirst, hc] using hrest

/-- No character of a single level is a slash, read from its end either. -/
theorem ne_slash_of_mem_reverse {level : List Char} (h : slash ∉ level) :
    ∀ c ∈ level.reverse, decide (c ≠ slash) = true := fun c hc => by
  simpa using fun heq : c = slash => h (heq ▸ List.mem_reverse.1 hc)

/-- The last level of a text is what stands behind its last slash. -/
theorem last_append_slash (front : List Char) {level : List Char} (h : slash ∉ level) :
    last (front ++ slash :: level) = level := by
  simp only [last, List.reverse_append, List.reverse_cons, List.append_assoc,
    List.takeWhile_append_of_pos (ne_slash_of_mem_reverse h)]
  simp

/-- What comes before the last level of a text is what stands before its last slash. -/
theorem beforeLast_append_slash (front : List Char) {level : List Char} (h : slash ∉ level) :
    beforeLast (front ++ slash :: level) = front := by
  simp only [beforeLast, List.reverse_append, List.reverse_cons, List.append_assoc,
    List.dropWhile_append_of_pos (ne_slash_of_mem_reverse h)]
  simp

/-- A text without slashes is its last level. -/
theorem last_eq_self {text : List Char} (h : slash ∉ text) : last text = text := by
  rw [last, List.takeWhile_eq_self_iff.2 (ne_slash_of_mem_reverse h), List.reverse_reverse]

/-- Nothing comes before the last level of a text without slashes. -/
theorem beforeLast_eq_nil {text : List Char} (h : slash ∉ text) : beforeLast text = [] := by
  rw [beforeLast, List.dropWhile_eq_nil_iff.2 (ne_slash_of_mem_reverse h), List.drop_nil,
    List.reverse_nil]

/-- A slash ends a level. -/
theorem split_append_slash (front back : List Char) :
    split (front ++ slash :: back) = split front ++ split back := by
  induction front with
  | nil => simp [split]
  | cons c front ih =>
    obtain ⟨level, levels, hsplit⟩ := List.exists_cons_of_ne_nil (split_ne_nil front)
    by_cases hc : c = slash
    · simp [split, hc, ih]
    · simp [split, hc, ih, hsplit]

/-- The first level is a level. -/
theorem first_mem_split (text : List Char) : first text ∈ split text := by
  cases hsplit : split text with
  | nil => exact absurd hsplit (split_ne_nil text)
  | cons level levels =>
    suffices h : first text = level by simp [h]
    induction text generalizing level levels with
    | nil =>
      cases hsplit
      rfl
    | cons c rest ih =>
      obtain ⟨next, more, hrest⟩ := List.exists_cons_of_ne_nil (split_ne_nil rest)
      by_cases hc : c = slash
      · simp only [split, hc, ↓reduceIte, List.cons.injEq] at hsplit
        simp [first, hc, ← hsplit.1]
      · simp only [split, hc, ↓reduceIte, hrest, List.cons.injEq] at hsplit
        have hfirst := ih next more hrest
        rw [← hsplit.1, ← hfirst]
        simp [first, hc]

/-- A lead in two parts is one lead after the other. -/
theorem after?_append (lead more text : List Char) :
    after? (lead ++ more) text = (after? lead text).bind (after? more) := by
  induction lead generalizing text with
  | nil => rfl
  | cons l lead ih =>
    cases text with
    | nil => rfl
    | cons c text =>
      by_cases hc : l = c
      · simp [after?, hc, ih]
      · simp [after?, hc]

/-- A text without slashes is one level. -/
theorem split_eq_singleton {text : List Char} (h : slash ∉ text) : split text = [text] := by
  induction text with
  | nil => rfl
  | cons c rest ih =>
    have hc : c ≠ slash := fun heq => h (heq ▸ List.mem_cons_self)
    simp [split, hc, ih fun hmem => h (List.mem_cons_of_mem c hmem)]

end Level

/-! ## Rows of names -/

/-- Names joined with slashes. -/
def Name.join : List Name → String
  | [] => ""
  | [name] => name.text
  | name :: next :: names => name.text ++ "/" ++ join (next :: names)

namespace Name

/-- A row of names is empty only if its text is. -/
theorem join_eq_empty_iff (names : List Name) : join names = "" ↔ names = [] := by
  match names with
  | [] => simp [join]
  | [name] => simp [join, name.nonempty]
  | name :: next :: names =>
    have hsize : (join (name :: next :: names)).utf8ByteSize ≠ 0 := by
      rw [join, String.utf8ByteSize_append, String.utf8ByteSize_append]
      have : ("/" : String).utf8ByteSize = 1 := by decide
      omega
    refine ⟨fun h => absurd (congrArg String.utf8ByteSize h) hsize, fun h => by cases h⟩

/-- The text of a row of names, its first name split off. -/
theorem toList_join_cons (name next : Name) (names : List Name) :
    (join (name :: next :: names)).toList
      = name.text.toList ++ Level.slash :: (join (next :: names)).toList := by
  rw [join, String.toList_append, String.toList_append, List.append_assoc]
  rfl

/-- The start of a row of names takes no more room than the row. -/
theorem size_join_append_le (front back : List Name) :
    (join front).utf8ByteSize ≤ (join (front ++ back)).utf8ByteSize := by
  match front with
  | [] => exact Nat.zero_le _
  | [name] =>
    cases back with
    | nil => exact Nat.le_refl _
    | cons next back =>
      simp only [List.cons_append, List.nil_append, join, String.utf8ByteSize_append]
      omega
  | name :: next :: front =>
    have ih := size_join_append_le (next :: front) back
    simp only [List.cons_append, join, String.utf8ByteSize_append] at ih ⊢
    omega

end Name

/-! ## Names in front of levels -/

/-- A text of levels with a row of names in front. -/
def Path.behind : List Name → String → String
  | [], segments => segments
  | name :: names, segments =>
    if behind names segments = "" then name.text else name.text ++ "/" ++ behind names segments

namespace Path

/-- Names are put in front one row after the other. -/
theorem behind_append (front back : List Name) (segments : String) :
    behind (front ++ back) segments = behind front (behind back segments) := by
  induction front with
  | nil => rfl
  | cons name front ih => rw [List.cons_append, behind, ih, behind]

/-- Names in front of nothing are the row of names. -/
theorem behind_empty (names : List Name) : behind names "" = Name.join names := by
  induction names with
  | nil => rfl
  | cons name names ih =>
    rw [behind, ih]
    cases names with
    | nil => rfl
    | cons next names =>
      have hnext : Name.join (next :: names) ≠ "" := fun h => by
        cases (Name.join_eq_empty_iff _).1 h
      rw [if_neg hnext, Name.join]

/-- Names in front of a row of names are a longer row. -/
theorem behind_join (front back : List Name) :
    behind front (Name.join back) = Name.join (front ++ back) := by
  rw [← behind_empty back, ← behind_append, behind_empty]

/-- Names in front take room. -/
theorem size_le_size_behind (names : List Name) (segments : String) :
    segments.utf8ByteSize ≤ (behind names segments).utf8ByteSize := by
  induction names with
  | nil => exact Nat.le_refl _
  | cons name names ih =>
    rw [behind]
    split
    · next hempty =>
      have hzero : segments.utf8ByteSize ≤ 0 := by simpa [hempty] using ih
      exact Nat.le_trans hzero (Nat.zero_le _)
    · rw [String.utf8ByteSize_append]
      omega

/-- A name stands before a slash and the levels it is put in front of, if there are any. -/
theorem toList_behind (name : Name) {segments : String} (levels : segments ≠ "") :
    (behind [name] segments).toList = name.text.toList ++ Level.slash :: segments.toList := by
  have hlevels : behind [name] segments = name.text ++ "/" ++ segments := if_neg levels
  rw [hlevels, String.toList_append, String.toList_append, List.append_assoc]
  rfl

/-- A name in front of any levels is the first of them. -/
theorem first_behind (name : Name) (segments : String) :
    Level.first (behind [name] segments).toList = name.text.toList := by
  by_cases hempty : segments = ""
  · rw [hempty, behind_empty]
    exact Level.first_eq_self name.oneLevel
  · rw [toList_behind name hempty]
    exact Level.first_append_slash name.oneLevel _

/-- What follows a name in front of any levels is those levels, also if there are none. -/
theorem afterFirst_behind (name : Name) (segments : String) :
    Level.afterFirst (behind [name] segments).toList = segments.toList := by
  by_cases hempty : segments = ""
  · rw [hempty, behind_empty]
    exact Level.afterFirst_eq_nil name.oneLevel
  · rw [toList_behind name hempty]
    exact Level.afterFirst_append_slash name.oneLevel _

end Path

/-- The end of a row of names takes no more room than the row. -/
theorem Name.size_join_le_append (front back : List Name) :
    (join back).utf8ByteSize ≤ (join (front ++ back)).utf8ByteSize := by
  rw [← Path.behind_join]
  exact Path.size_le_size_behind front _

/-! ## Paths -/

namespace Path

/-- Whether the levels of a path are the names of a row. -/
def Spells (path : Path) (names : List Name) : Prop :=
  path.segments = Name.join names

variable {path : Path} {name : Name} {names : List Name}

/-- The path without levels spells the row without names. -/
theorem spells_empty (anchor : Anchor) : (Path.empty anchor).Spells [] :=
  rfl

/-- A row of names that a path spells is short. -/
theorem Spells.size_le (h : path.Spells names) : (Name.join names).utf8ByteSize ≤ maxPath :=
  h ▸ path.fits

/-- No level is left where no name is. -/
theorem Spells.isEmpty_iff (h : path.Spells names) : path.isEmpty ↔ names = [] := by
  rw [isEmpty, h, decide_eq_true_iff]
  exact Name.join_eq_empty_iff names

/-- The levels behind the first one are what follows the first slash. -/
theorem toList_dropFirst (path : Path) :
    path.dropFirst.segments.toList = Level.afterFirst path.segments.toList :=
  String.toList_ofList

/-- The first level of a path is what stands before its first slash. -/
theorem level_of_first {level : String} (h : path.first = .ok (some level)) :
    Level.first path.segments.toList = level.toList := by
  unfold first at h
  split at h
  · cases h
  · dsimp only at h
    split at h
    · cases h
    · split at h
      · cases h
      · cases h
        rw [String.toList_ofList]

/-- A path without levels has no first one. -/
theorem first_of_isEmpty (h : path.isEmpty) : path.first = .ok none :=
  if_pos h

/-- A path that spells no names has no first level. -/
theorem Spells.first_nil (h : path.Spells []) : path.first = .ok none :=
  first_of_isEmpty (h.isEmpty_iff.2 rfl)

/-- A path has a first level if that can be a name. -/
theorem first_of_level (h : Level.first path.segments.toList = name.text.toList) :
    path.first = .ok (some name.text) := by
  have hempty : ¬path.isEmpty := fun hempty => by
    rw [segments_of_isEmpty hempty] at h
    exact name.nonempty (String.toList_inj.1 h.symm)
  rw [first, if_neg hempty]
  simp only [h, String.ofList_toList, if_neg name.nonempty, if_neg (Nat.not_lt_of_le name.fits)]

/-- The first level of a path is the first name. -/
theorem Spells.first_cons (h : path.Spells (name :: names)) :
    path.first = .ok (some name.text) := by
  apply first_of_level
  rw [h, ← List.singleton_append, ← behind_join]
  exact first_behind name _

/-- A path loses its first name with its first level. -/
theorem Spells.dropFirst (h : path.Spells (name :: names)) : path.dropFirst.Spells names := by
  rw [Spells, ← String.toList_inj, toList_dropFirst, h, ← List.singleton_append, ← behind_join]
  exact afterFirst_behind name _

/-- Whether the first levels of a path are the names of a row, and which path is left behind them. -/
inductive Leaves : Path → List Name → Path → Prop
  | nil (path : Path) : Leaves path [] path
  | cons {path rest : Path} {name : Name} {names : List Name}
      (first : path.first = .ok (some name.text)) (more : Leaves path.dropFirst names rest) :
      Leaves path (name :: names) rest

/-- What is left of a path has its anchor. -/
theorem Leaves.anchor_eq {rest : Path} (h : path.Leaves names rest) : rest.anchor = path.anchor := by
  induction h with
  | nil => rfl
  | cons _ _ ih => exact ih

/-- The names in front of a path take no more room than the path. -/
theorem Leaves.size_le {rest : Path} (h : path.Leaves names rest) :
    (Name.join names).utf8ByteSize ≤ path.segments.utf8ByteSize := by
  induction h with
  | nil => exact Nat.zero_le _
  | @cons path rest name names first more ih =>
    have hname := level_of_first first
    by_cases hslash : Level.slash ∈ path.segments.toList
    · have htext : path.segments = name.text ++ "/" ++ path.dropFirst.segments := by
        rw [← String.toList_inj, String.toList_append, String.toList_append, toList_dropFirst,
          List.append_assoc, ← hname]
        exact (Level.first_append_afterFirst hslash).symm
      rw [htext, String.utf8ByteSize_append, String.utf8ByteSize_append]
      cases names with
      | nil => exact Nat.le_trans (Nat.le_add_right _ _) (Nat.le_add_right _ _)
      | cons next names =>
        rw [Name.join, String.utf8ByteSize_append, String.utf8ByteSize_append]
        exact Nat.add_le_add_left ih _
    · have hlast : path.dropFirst.segments = "" := by
        rw [← String.toList_inj, toList_dropFirst, Level.afterFirst_eq_nil hslash]
        rfl
      rw [hlast] at ih
      obtain rfl : names = [] :=
        (Name.join_eq_empty_iff names).1 (String.utf8ByteSize_eq_zero_iff.1 (Nat.le_zero.1 ih))
      rw [Level.first_eq_self hslash] at hname
      rw [String.toList_inj.1 hname, Name.join]

/-- A path that spells a row of names leaves one that spells the end of the row. -/
theorem Spells.leaves {front back : List Name} (h : path.Spells (front ++ back)) :
    ∃ rest, path.Leaves front rest ∧ rest.Spells back := by
  induction front generalizing path with
  | nil => exact ⟨path, .nil path, h⟩
  | cons name front ih =>
    obtain ⟨rest, hleaves, hspells⟩ := ih h.dropFirst
    exact ⟨rest, .cons h.first_cons hleaves, hspells⟩

/-- A name is put in front of a path by making the path with it. -/
theorem prepend_eq (name : Name) (path : Path) :
    prepend name.text path = ofSegments path.anchor (behind [name] path.segments) := by
  have hlevels : (if path.isEmpty then name.text else name.text ++ "/" ++ path.segments)
      = behind [name] path.segments := by
    by_cases hempty : path.segments = "" <;> simp [behind, isEmpty, hempty]
  rw [prepend, hlevels]

/-- Which path has one more name in front. -/
theorem prepend_eq_ok_iff {longer : Path} : prepend name.text path = .ok longer
    ↔ longer.anchor = path.anchor ∧ longer.segments = behind [name] path.segments := by
  rw [prepend_eq, ofSegments_eq_ok_iff]

/-- A path that got one more name in front spells one more name. -/
theorem Spells.of_prepend {longer : Path} (h : path.Spells names)
    (made : Path.prepend name.text path = .ok longer) : longer.Spells (name :: names) := by
  rw [Spells, (prepend_eq_ok_iff.1 made).2, h, behind_join, List.singleton_append]

end Path
end TopicTree
