/-!
# Text as bytes

Text crosses every wire as UTF-8. The two directions are inverse to each other: a text is read back
from its own bytes, and bytes that read as a text are exactly the bytes of that text.
-/

namespace TopicTree

/-- A run of bytes, first byte first. -/
abbrev Bytes := List UInt8

namespace Text

/-- The UTF-8 bytes of a text. -/
def toBytes (text : String) : Bytes :=
  text.toByteArray.data.toList

/-- The text that `bytes` spell, if they are valid UTF-8. -/
def ofBytes? (bytes : Bytes) : Option String :=
  String.fromUTF8? ⟨bytes.toArray⟩

/-- A text takes as many bytes as its size says. -/
@[simp]
theorem length_toBytes (text : String) : (toBytes text).length = text.utf8ByteSize :=
  Array.length_toList

/-- The bytes of a text put back into an array are the array of the text. -/
theorem toArray_toBytes (text : String) :
    (⟨(toBytes text).toArray⟩ : ByteArray) = text.toByteArray := by
  rw [toBytes, Array.toArray_toList]

/-- Every text is read back from its bytes. -/
@[simp]
theorem ofBytes?_toBytes (text : String) : ofBytes? (toBytes text) = some text := by
  rw [ofBytes?, toArray_toBytes, String.fromUTF8?, dif_pos text.isValidUTF8]
  rfl

/-- Bytes that read as a text are the bytes of that text. -/
theorem toBytes_of_ofBytes? {bytes : Bytes} {text : String} (h : ofBytes? bytes = some text) :
    toBytes text = bytes := by
  simp only [ofBytes?, String.fromUTF8?] at h
  split at h
  · cases h
    rfl
  · cases h

end Text
end TopicTree
