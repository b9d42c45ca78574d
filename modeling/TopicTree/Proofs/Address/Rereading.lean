import TopicTree.Proofs.Buffers
import TopicTree.Proofs.Address.Leads

/-!
# Paths that are written out and read again

A text that spells a path is the text of that path. The text of a path may spell another one, since a
lead and the levels behind it can begin with a longer lead. Levels are joined to a path as they are,
and only their length is looked at.
-/

namespace TopicTree

/-- What follows a lead is found in the texts that begin with the lead. -/
theorem Level.isSome_after?_iff {lead text : List Char} :
    (after? lead text).isSome ↔ lead <+: text := by
  simp only [Option.isSome_iff_exists, after?_eq_some_iff]
  exact exists_congr fun rest => eq_comm

namespace Path

variable {path : Path} {joined : String}

/-- Which paths do not mislead: those from across the link, those from the local root whose levels do
not begin with `../`, and those from the top whose levels do not begin with `~/`. -/
theorem misleads_eq_false_iff : path.misleads = false ↔
    path.anchor = .far ∨
    path.anchor = .near ∧ ¬"../".toList <+: path.segments.toList ∨
    path.anchor = .top ∧ ¬"~/".toList <+: path.segments.toList := by
  cases hanchor : path.anchor <;>
    simp [misleads, hanchor, ← Level.isSome_after?_iff]

/-- What joining a level to a path comes to. -/
inductive Joins (path : Path) (joined : String) : EStateM.Result Error Path Unit → Prop
  /-- The levels fit. -/
  | made {longer : Path} (fits : joined.utf8ByteSize ≤ maxPath)
      (anchor : longer.anchor = path.anchor) (segments : longer.segments = joined) :
      Joins path joined (.ok () longer)
  /-- They are too long, and the path is as it was. -/
  | refused (exceeds : maxPath < joined.utf8ByteSize) :
      Joins path joined (.error (.pathTooLong joined.utf8ByteSize maxPath) path)

/-- Making a path with other levels, or leaving the path as it was, joins them. -/
theorem joins_ofSegments (path : Path) (joined : String) :
    Joins path joined (asWritten path (ofSegments path.anchor joined)) := by
  by_cases fits : joined.utf8ByteSize ≤ maxPath
  · rw [ofSegments, dif_pos fits]
    exact .made fits rfl rfl
  · rw [ofSegments, dif_neg fits]
    exact .refused (Nat.lt_of_not_le fits)

/-- A level in front is written as a whole or not at all. -/
theorem joins_writeFirst (path : Path) (name : String) :
    Joins path (path.withFirst name) ((writeFirst name).run path) := by
  rw [run_writeFirst]
  exact joins_ofSegments path _

/-- A level at the end is written as a whole or not at all. -/
theorem joins_writeLast (path : Path) (name : String) :
    Joins path (path.withLast name) ((writeLast name).run path) := by
  rw [run_writeLast]
  exact joins_ofSegments path _

/-- The text of a path that was read is the text it was read from. A path is read back from its own
text exactly if its lead and its levels do not begin with a longer lead. A level is joined to a path
in front or at its end unless all levels together are too long for a path, and then the path is as it
was. -/
theorem reread_unless_misleading :
    (∀ text path, ofText text = .ok path → path.toText = text) ∧
    (∀ path, ofText path.toText = .ok path ↔
      path.anchor = .far ∨
      path.anchor = .near ∧ ¬"../".toList <+: path.segments.toList ∨
      path.anchor = .top ∧ ¬"~/".toList <+: path.segments.toList) ∧
    ∀ path name,
      ((writeFirst name).run path = asWritten path (prepend name path) ∧
        Joins path (path.withFirst name) ((writeFirst name).run path)) ∧
      (writeLast name).run path = asWritten path (path.push name) ∧
        Joins path (path.withLast name) ((writeLast name).run path) :=
  ⟨fun _ _ => toText_of_ofText, fun _ => reads_iff.trans misleads_eq_false_iff, fun path name =>
    ⟨⟨run_writeFirst path name, joins_writeFirst path name⟩,
      run_writeLast path name, joins_writeLast path name⟩⟩

/-- With `..` joined in front, a path from the local root is read as one from across the link. -/
theorem dots_in_front_cross_the_link :
    let lamp : Path := ⟨.near, "lamp", by decide⟩
    let far : Path := ⟨.far, "lamp", by decide⟩
    let near : Path := ⟨.near, "../lamp", by decide⟩
    Joins lamp near.segments ((writeFirst "..").run lamp) ∧
      ofText near.toText = .ok far ∧ far.toText = near.toText ∧ ofText near.toText ≠ .ok near :=
  ⟨(reread_unless_misleading.2.2 ⟨.near, "lamp", by decide⟩ "..").1.2, by decide,
    reread_unless_misleading.1 "~/../lamp" _ (by decide),
    mt (reread_unless_misleading.2.1 _).1 (by decide)⟩

end Path
end TopicTree
