import TopicTree.Text.Level
import TopicTree.Text.Utf8

/-!
# The room a text takes

Bounds on texts count UTF-8 bytes. The size of a text is the sum of the sizes of its characters, so
a part of a text never takes more room than the whole.
-/

namespace TopicTree.Text

/-- The size of a text made of two runs of characters is the sum of theirs. -/
theorem size_ofList_append (left right : List Char) :
    (String.ofList (left ++ right)).utf8ByteSize
      = (String.ofList left).utf8ByteSize + (String.ofList right).utf8ByteSize := by
  rw [String.ofList_append, String.utf8ByteSize_append]

/-- The end of a text takes no more room than the text. -/
theorem size_le_of_suffix {part whole : List Char} (h : part <:+ whole) :
    (String.ofList part).utf8ByteSize ≤ (String.ofList whole).utf8ByteSize := by
  obtain ⟨front, rfl⟩ := h
  rw [size_ofList_append]
  exact Nat.le_add_left _ _

/-- What follows the first slash takes no more room than the text. -/
theorem size_afterFirst_le (text : String) :
    (String.ofList (Level.afterFirst text.toList)).utf8ByteSize ≤ text.utf8ByteSize := by
  have h : Level.afterFirst text.toList <:+ text.toList :=
    (List.drop_suffix _ _).trans (List.dropWhile_suffix _)
  simpa using size_le_of_suffix h

/-- Adds the characters of `part` to `text` as long as they fit into `room` bytes; the first one
that does not fit ends the part. -/
def pushFitting (room : Nat) (text : String) : List Char → String
  | [] => text
  | c :: rest =>
    if text.utf8ByteSize + c.utf8Size ≤ room then pushFitting room (text.push c) rest else text

end TopicTree.Text
