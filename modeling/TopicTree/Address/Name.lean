import TopicTree.Error
import TopicTree.Limits
import TopicTree.Text.Bounded

/-!
# Node names

A name is one level of a path: not empty, free of slashes, and short. A name can also be put
together from parts, each cut where the room ends.
-/

namespace TopicTree

/-- The name of a node among its siblings. -/
structure Name where
  text : String
  /-- A name is there. -/
  nonempty : text ≠ ""
  /-- A name is a single level. -/
  oneLevel : Level.slash ∉ text.toList
  /-- A name is short. -/
  fits : text.utf8ByteSize ≤ maxName
  deriving DecidableEq, Repr

namespace Name

/-- The name that a text is. Of two faults, an empty or divided text is reported before a long
one. -/
def ofText (text : String) : Except Error Name :=
  if nonempty : text = "" then .error (.invalidName text)
  else if divided : Level.slash ∈ text.toList then .error (.invalidName text)
  else if fits : text.utf8ByteSize ≤ maxName then .ok ⟨text, nonempty, divided, fits⟩
  else .error (.nameTooLong text.utf8ByteSize maxName)

/-- The name put together from parts. Characters that do not fit end the part they stand in, and a
later part goes on behind them. -/
def ofParts (parts : List String) : Except Error Name :=
  ofText (parts.foldl (fun text part => Text.pushFitting maxName text part.toList) "")

/-- The text of a name is that name. -/
@[simp]
theorem ofText_text (name : Name) : ofText name.text = .ok name := by
  simp [ofText, name.nonempty, name.oneLevel, name.fits]

/-- A text that is a name is the text of that name. -/
theorem text_of_ofText {text : String} {name : Name} (h : ofText text = .ok name) :
    name.text = text := by
  unfold ofText at h
  split at h
  · cases h
  · split at h
    · cases h
    · split at h
      · cases h
        rfl
      · cases h

end Name
end TopicTree
