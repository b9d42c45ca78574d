import TopicTree.Address.Name

/-!
# Paths

A path names a node by the names on the way to it, joined with slashes, from one of three starting
points: the top of everything, the local root, or the local root across the link above. Only the
length of a path is checked when it is made. Its levels are looked at one at a time, by the node
that consumes them, so that a bad level is reported along the way back.
-/

namespace TopicTree

/-- Where a path starts. -/
inductive Anchor
  /-- The entry with no parent. -/
  | top
  /-- The root of the tree in which the path is used. -/
  | near
  /-- The root of the tree across the link above. -/
  | far
  deriving DecidableEq, Repr

/-- How an anchor is written in front of a path. -/
def Anchor.lead : Anchor → String
  | top => ""
  | near => "~/"
  | far => "~/../"

/-- A route to a node. -/
structure Path where
  anchor : Anchor
  /-- The levels joined with slashes. -/
  segments : String
  /-- The levels are short together. -/
  fits : segments.utf8ByteSize ≤ maxPath
  deriving DecidableEq, Repr

namespace Path

/-- The path without levels. -/
def empty (anchor : Anchor) : Path :=
  ⟨anchor, "", by decide⟩

instance : Inhabited Path := ⟨empty .top⟩

/-- The path with given levels, if they are short enough. -/
def ofSegments (anchor : Anchor) (segments : String) : Except Error Path :=
  if fits : segments.utf8ByteSize ≤ maxPath then .ok ⟨anchor, segments, fits⟩
  else .error (.pathTooLong segments.utf8ByteSize maxPath)

/-- The anchor that a text starts with, and the rest. The longer lead is tried first. -/
def splitAnchor (text : String) : Anchor × String :=
  match Level.after? Anchor.far.lead.toList text.toList with
  | some rest => (.far, String.ofList rest)
  | none =>
    match Level.after? Anchor.near.lead.toList text.toList with
    | some rest => (.near, String.ofList rest)
    | none => (.top, text)

/-- The path that a text spells. -/
def ofText (text : String) : Except Error Path :=
  ofSegments (splitAnchor text).1 (splitAnchor text).2

/-- The text of a path. -/
def toText (path : Path) : String :=
  path.anchor.lead ++ path.segments

/-- The same levels from another starting point. -/
def withAnchor (path : Path) (anchor : Anchor) : Path :=
  { path with anchor }

/-- Whether no level is left. -/
def isEmpty (path : Path) : Bool :=
  path.segments = ""

/-- The first level, if there is one and it can be a name. -/
def first (path : Path) : Except Error (Option String) :=
  if path.isEmpty then .ok none
  else
    let level := String.ofList (Level.first path.segments.toList)
    if level = "" then .error (.invalidName path.segments)
    else if maxName < level.utf8ByteSize then .error (.nameTooLong level.utf8ByteSize maxName)
    else .ok (some level)

/-- The path without its first level. -/
def dropFirst (path : Path) : Path :=
  ⟨path.anchor, String.ofList (Level.afterFirst path.segments.toList),
    Nat.le_trans (Text.size_afterFirst_le _) path.fits⟩

/-- The path with one more level in front. An empty path has nothing to put a slash before. -/
def prepend (name : String) (path : Path) : Except Error Path :=
  ofSegments path.anchor
    (if path.isEmpty then name else name ++ "/" ++ path.segments)

/-- The path with one more level at its end. -/
def push (path : Path) (name : String) : Except Error Path :=
  ofSegments path.anchor
    (if path.isEmpty then name else path.segments ++ "/" ++ name)

/-- A path without levels has the empty text of levels. -/
theorem segments_of_isEmpty {path : Path} (h : path.isEmpty) : path.segments = "" :=
  of_decide_eq_true h

/-- Paths with the same anchor and the same levels are the same. -/
theorem eq_of_segments {left right : Path} (anchor : left.anchor = right.anchor)
    (segments : left.segments = right.segments) : left = right := by
  rw [Path.mk.injEq]
  exact ⟨anchor, segments⟩

/-- Making a path with given levels gives the path that has them, if there is one. -/
theorem ofSegments_eq_ok_iff {anchor : Anchor} {segments : String} {path : Path} :
    ofSegments anchor segments = .ok path ↔ path.anchor = anchor ∧ path.segments = segments := by
  constructor
  · intro h
    unfold ofSegments at h
    split at h
    · cases h
      exact ⟨rfl, rfl⟩
    · cases h
  · rintro ⟨rfl, rfl⟩
    exact dif_pos path.fits

end Path
end TopicTree
