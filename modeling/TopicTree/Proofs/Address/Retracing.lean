import TopicTree.Proofs.Address.Names
import TopicTree.Proofs.Outcome

/-!
# Names put in front and taken off again

Going up, a message puts the name of each entry it leaves in front of its source. Going down, it
looks at the first level and takes it off. So the names come off in the order that leads back down,
and what stood there before them is left as it was, be it nothing or levels that no name could be.
Only the room of a path limits how many names can be put in front.
-/

namespace TopicTree.Path

variable {path longer : Path} {name : Name} {names : List Name}

/-- The path with a row of names in front, of which the last one is put there first. The row is
refused with the first name that does not fit. -/
def prependAll : List Name → Path → Except Error Path
  | [], path => .ok path
  | name :: names, path => prependAll names path >>= prepend name.text

/-- The first levels of a path, each of them looked at and taken off, and the path that is left. -/
def takeLevels : Nat → Path → Except Error (List (Option String) × Path)
  | 0, path => .ok ([], path)
  | count + 1, path => do
    let level ← path.first
    let (levels, rest) ← takeLevels count path.dropFirst
    return (level :: levels, rest)

/-! ## One name -/

/-- A name that was put in front of a path is its first level. -/
theorem first_of_prepend (made : prepend name.text path = .ok longer) :
    longer.first = .ok (some name.text) := by
  apply first_of_level
  rw [(prepend_eq_ok_iff.1 made).2]
  exact first_behind name _

/-- Without the name that was put in front of it, a path is the path it was. -/
theorem dropFirst_of_prepend (made : prepend name.text path = .ok longer) :
    longer.dropFirst = path := by
  obtain ⟨hanchor, hsegments⟩ := prepend_eq_ok_iff.1 made
  have hkept : longer.dropFirst.anchor = path.anchor := hanchor
  apply eq_of_segments hkept
  rw [← String.toList_inj, toList_dropFirst, hsegments]
  exact afterFirst_behind name _

/-! ## A row of names -/

/-- A row of one name is put in front of a path as that name is. -/
theorem prependAll_singleton (name : Name) (path : Path) :
    prependAll [name] path = prepend name.text path :=
  rfl

/-- Of two rows in front of a path the second one is put there first. -/
theorem prependAll_append (front back : List Name) (path : Path) :
    prependAll (front ++ back) path = prependAll back path >>= prependAll front := by
  induction front with
  | nil => exact (bind_pure _).symm
  | cons name front ih =>
    rw [List.cons_append, prependAll, ih, bind_assoc]
    rfl

/-- Which path has a row of names in front. -/
theorem prependAll_eq_ok_iff : prependAll names path = .ok longer
    ↔ longer.anchor = path.anchor ∧ longer.segments = behind names path.segments := by
  induction names generalizing longer with
  | nil =>
    constructor
    · intro made
      cases made
      exact ⟨rfl, rfl⟩
    · rintro ⟨hanchor, hsegments⟩
      rw [prependAll, eq_of_segments hanchor hsegments]
  | cons name names ih =>
    have hlevels := behind_append [name] names path.segments
    rw [List.singleton_append] at hlevels
    rw [prependAll, bind_eq_ok, hlevels]
    constructor
    · rintro ⟨mid, hmid, hlonger⟩
      obtain ⟨hanchor, hsegments⟩ := ih.1 hmid
      rw [← hanchor, ← hsegments]
      exact prepend_eq_ok_iff.1 hlonger
    · rintro ⟨hanchor, hsegments⟩
      have hroom : (behind names path.segments).utf8ByteSize ≤ maxPath :=
        Nat.le_trans (size_le_size_behind [name] _) (hsegments ▸ longer.fits)
      exact ⟨⟨path.anchor, _, hroom⟩, ih.2 ⟨rfl, rfl⟩, prepend_eq_ok_iff.2 ⟨hanchor, hsegments⟩⟩

/-- A row of names can be put in front of a path exactly if all levels together are short enough. -/
theorem exists_prependAll_iff (names : List Name) (path : Path) :
    (∃ longer, prependAll names path = .ok longer)
      ↔ (behind names path.segments).utf8ByteSize ≤ maxPath := by
  constructor
  · rintro ⟨longer, made⟩
    rw [← (prependAll_eq_ok_iff.1 made).2]
    exact longer.fits
  · intro room
    exact ⟨⟨path.anchor, _, room⟩, prependAll_eq_ok_iff.2 ⟨rfl, rfl⟩⟩

/-- A path that spells names spells more of them, if it has room for all. -/
theorem Spells.prependAll {front back : List Name} (h : path.Spells back)
    (room : (Name.join (front ++ back)).utf8ByteSize ≤ maxPath) :
    ∃ longer, Path.prependAll front path = .ok longer ∧ longer.anchor = path.anchor ∧
      longer.Spells (front ++ back) := by
  have hlevels : behind front path.segments = Name.join (front ++ back) := by
    rw [h, behind_join]
  rw [← hlevels] at room
  obtain ⟨longer, hlonger⟩ := (exists_prependAll_iff front path).2 room
  obtain ⟨hanchor, hsegments⟩ := prependAll_eq_ok_iff.1 hlonger
  exact ⟨longer, hlonger, hanchor, hsegments.trans hlevels⟩

/-- The first levels of a path with a row of names in front are the names, and behind them is the
path. -/
theorem leaves_of_prependAll (made : prependAll names path = .ok longer) :
    longer.Leaves names path := by
  induction names generalizing longer with
  | nil =>
    cases made
    exact .nil path
  | cons name names ih =>
    obtain ⟨mid, hmid, hlonger⟩ := bind_eq_ok.1 made
    refine .cons (first_of_prepend hlonger) ?_
    rw [dropFirst_of_prepend hlonger]
    exact ih hmid

/-- First levels that are names are taken off as such, one by one. -/
theorem Leaves.takeLevels_eq {rest : Path} (h : path.Leaves names rest) :
    path.takeLevels names.length = .ok (names.map fun name => some name.text, rest) := by
  induction h with
  | nil => rfl
  | cons first more ih =>
    simp only [List.length_cons, takeLevels, first, ih, ok_bind, List.map_cons]
    rfl

/-- When a row of names has been put in front of a path, the last name first, the names come off
again as its first levels, in order, and what is left is the path, with its anchor and all its
levels. A row of names can be put in front of a path without levels exactly if the names, joined
with slashes, are short enough for a path. -/
theorem names_in_front_come_off_again :
    (∀ names path longer, prependAll names path = .ok longer →
      longer.takeLevels names.length = .ok (names.map fun name => some name.text, path)) ∧
    ∀ names anchor, (∃ longer, prependAll names (empty anchor) = .ok longer)
      ↔ (Name.join names).utf8ByteSize ≤ maxPath := by
  constructor
  · intro names path longer made
    exact (leaves_of_prependAll made).takeLevels_eq
  · intro names anchor
    rw [exists_prependAll_iff, empty, behind_empty]

/-- Two names come off again from in front of levels that begin and end with a slash. Three names as
long as a name can be leave room for one of 29 bytes in a path, and for none of 30. -/
theorem doors_are_passed_again :
    let greenhouse : Name := ⟨"gewächshaus", by decide, by decide, by decide⟩
    let door : Name := ⟨"tür", by decide, by decide, by decide⟩
    let path : Path := ⟨.far, "/lamp/", by decide⟩
    let longer : Path := ⟨.far, "gewächshaus/tür//lamp/", by decide⟩
    let wide : Name := ⟨"éééééééééééééééé", by decide, by decide, by decide⟩
    let snug : Name := ⟨"ééééééééééééééi", by decide, by decide, by decide⟩
    let tight : Name := ⟨"ééééééééééééééé", by decide, by decide, by decide⟩
    prependAll [greenhouse, door] path = .ok longer ∧
      longer.takeLevels 2 = .ok ([some "gewächshaus", some "tür"], path) ∧
      (∃ full, prependAll [wide, wide, wide, snug] (empty .top) = .ok full) ∧
      ¬∃ full, prependAll [wide, wide, wide, tight] (empty .top) = .ok full := by
  intro greenhouse door path longer wide snug tight
  have hmade : prependAll [greenhouse, door] path = .ok longer := by decide
  exact ⟨hmade, names_in_front_come_off_again.1 [greenhouse, door] path longer hmade,
    (names_in_front_come_off_again.2 [wide, wide, wide, snug] .top).2 (by decide +kernel),
    mt (names_in_front_come_off_again.2 [wide, wide, wide, tight] .top).1 (by decide +kernel)⟩

end TopicTree.Path
