import TopicTree.Address.Path
import TopicTree.Message.Params
import TopicTree.Proofs.Outcome

/-!
# Buffers that are written in place

A path and parameters each live in a buffer of fixed room. A level or a field goes into the buffer in
several writes, none of which tells whether it found room, and a refusal leaves written what was
written before it. Here the operations are such rows of writes. They come to the same as making the
whole anew or refusing to, because the room for all writes is looked at before the first.
-/

namespace TopicTree

/-- The outcome of a row of writes that writes all or nothing: the new state, or the refusal and the
state as it was. -/
def asWritten {σ : Type} (before : σ) : Except Error σ → EStateM.Result Error σ Unit
  | .ok after => .ok () after
  | .error e => .error e before

@[simp]
theorem asWritten_ok {σ : Type} (before after : σ) : asWritten before (.ok after) = .ok () after :=
  rfl

@[simp]
theorem asWritten_error {σ : Type} (before : σ) (e : Error) :
    asWritten before (.error e) = .error e before :=
  rfl

/-! ## Parameters -/

namespace Params

variable {params : Params} {bytes field : Bytes}

/-- A field behind the byte that tells its length. -/
def fieldBytes (field : Bytes) : Bytes :=
  field.length.toUInt8 :: field

/-- Writes bytes behind those that are there. If there is no room for all of them, none is
written. -/
def write (bytes : Bytes) (params : Params) : Params :=
  if fits : (params.bytes ++ bytes).length ≤ maxParams then ⟨params.bytes ++ bytes, fits⟩ else params

/-- Writes a field, first its length and then what it holds. -/
def writeField (field : Bytes) : EStateM Error Params Unit := do
  if maxField < field.length then throw (.paramsTooLong field.length maxField)
  let len := (← get).bytes.length + 1 + field.length
  if maxParams < len then throw (.paramsTooLong len maxParams)
  modify (write [field.length.toUInt8])
  modify (write field)

/-- A field adds its own bytes and one for its length. -/
theorem length_append_fieldBytes (params : Params) (field : Bytes) :
    (params.bytes ++ fieldBytes field).length = params.bytes.length + 1 + field.length := by
  rw [fieldBytes, List.length_append, List.length_cons, Nat.add_comm field.length, Nat.add_assoc]

/-- A field that a length byte can announce is added where it fits. -/
theorem addField_of_short (short : ¬maxField < field.length) :
    params.addField field = ofBytes (params.bytes ++ fieldBytes field) :=
  if_neg short

/-- Bytes that fit are written. -/
theorem bytes_write (fits : (params.bytes ++ bytes).length ≤ maxParams) :
    (params.write bytes).bytes = params.bytes ++ bytes := by
  rw [write, dif_pos fits]

/-- Bytes that are written in two parts are written as a whole, if there is room for both. -/
theorem write_write {more : Bytes} (fits : (params.bytes ++ (bytes ++ more)).length ≤ maxParams) :
    ((params.write bytes).write more) = ⟨params.bytes ++ (bytes ++ more), fits⟩ := by
  have hfirst : (params.write bytes).bytes = params.bytes ++ bytes := by
    apply bytes_write
    rw [← List.append_assoc, List.length_append] at fits
    exact Nat.le_of_add_right_le fits
  rw [Params.mk.injEq, bytes_write, hfirst, List.append_assoc]
  rwa [hfirst, List.append_assoc]

/-- Writing a field comes to the same as adding it. -/
theorem run_writeField (params : Params) (field : Bytes) :
    (writeField field).run params = asWritten params (params.addField field) := by
  have hsize := length_append_fieldBytes params field
  by_cases hlong : maxField < field.length
  case pos => simp [writeField, addField, hlong]
  rw [addField_of_short hlong, ofBytes]
  by_cases hfull : maxParams < params.bytes.length + 1 + field.length
  · rw [dif_neg (by omega), hsize, asWritten_error]
    simp [writeField, hlong, hfull]
  · have hfits : (params.bytes ++ fieldBytes field).length ≤ maxParams := by omega
    have hrun : (writeField field).run params
        = .ok () ((params.write [field.length.toUInt8]).write field) := by
      simp [writeField, hlong, hfull]
    have hwritten : (params.write [field.length.toUInt8]).write field
        = ⟨params.bytes ++ fieldBytes field, hfits⟩ := write_write hfits
    rw [dif_pos hfits, asWritten_ok, hrun, hwritten]

end Params

/-! ## Paths -/

namespace Path

variable {path : Path} {text : String}

/-- The levels of a path with one more in front. An empty path has nothing to put a slash before. -/
def withFirst (path : Path) (name : String) : String :=
  if path.isEmpty then name else name ++ "/" ++ path.segments

/-- The levels of a path with one more at their end. -/
def withLast (path : Path) (name : String) : String :=
  if path.isEmpty then name else path.segments ++ "/" ++ name

/-- The bytes that the levels of a path take with one more. -/
def lengthWith (path : Path) (name : String) : Nat :=
  name.utf8ByteSize + (if path.isEmpty then 0 else 1) + path.segments.utf8ByteSize

/-- Writes a text behind the levels that are there. If there is no room for all of it, none is
written. -/
def write (text : String) (path : Path) : Path :=
  if fits : (path.segments ++ text).utf8ByteSize ≤ maxPath then
    ⟨path.anchor, path.segments ++ text, fits⟩
  else path

/-- Joins a level to a path by some writes, if there is room for all of them. -/
def joining (name : String) (writes : EStateM Error Path Unit) : EStateM Error Path Unit := do
  let path ← get
  if maxPath < path.lengthWith name then throw (.pathTooLong (path.lengthWith name) maxPath)
  writes

/-- Writes a level and then those that are there into another buffer, which takes the place of the
first. -/
def writeFirst (name : String) : EStateM Error Path Unit :=
  joining name do
    let path ← get
    let joined := (empty path.anchor).write name
    let joined := if path.isEmpty then joined else joined.write "/"
    set (joined.write path.segments)

/-- Writes a level behind those that are there. -/
def writeLast (name : String) : EStateM Error Path Unit :=
  joining name do
    if !(← get).isEmpty then modify (write "/")
    modify (write name)

/-- The levels with one more in front take as many bytes as were counted. -/
theorem size_withFirst (path : Path) (name : String) :
    (path.withFirst name).utf8ByteSize = path.lengthWith name := by
  unfold withFirst lengthWith
  split
  · next hempty =>
    rw [segments_of_isEmpty hempty]
    rfl
  · rw [String.utf8ByteSize_append, String.utf8ByteSize_append]
    rfl

/-- The levels with one more at their end take as many bytes as were counted. -/
theorem size_withLast (path : Path) (name : String) :
    (path.withLast name).utf8ByteSize = path.lengthWith name := by
  unfold withLast lengthWith
  split
  · next hempty =>
    rw [segments_of_isEmpty hempty]
    rfl
  · rw [String.utf8ByteSize_append, String.utf8ByteSize_append]
    have hslash : ("/" : String).utf8ByteSize = 1 := by decide
    omega

/-- A text that fits is written. -/
theorem write_of_fits (fits : (path.segments ++ text).utf8ByteSize ≤ maxPath) :
    path.write text = ⟨path.anchor, path.segments ++ text, fits⟩ :=
  dif_pos fits

/-- A text that is written in two parts is written as a whole, if there is room for both. -/
theorem write_write {more : String} (fits : (path.segments ++ (text ++ more)).utf8ByteSize ≤ maxPath) :
    (path.write text).write more = ⟨path.anchor, path.segments ++ (text ++ more), fits⟩ := by
  have hfirst : (path.segments ++ text).utf8ByteSize ≤ maxPath := by
    rw [← String.append_assoc, String.utf8ByteSize_append] at fits
    exact Nat.le_of_add_right_le fits
  rw [write_of_fits hfirst, write_of_fits (by rwa [String.append_assoc])]
  simp only [String.append_assoc]

/-- Writes that join a level where there is room come to the same as making the path with it. -/
theorem run_joining {name joined : String} {writes : EStateM Error Path Unit}
    (size : joined.utf8ByteSize = path.lengthWith name)
    (written : joined.utf8ByteSize ≤ maxPath → ∃ longer, writes.run path = .ok () longer ∧
      longer.anchor = path.anchor ∧ longer.segments = joined) :
    (joining name writes).run path = asWritten path (ofSegments path.anchor joined) := by
  by_cases hfull : maxPath < path.lengthWith name
  · rw [ofSegments, dif_neg (by rw [size]; omega), size, asWritten_error]
    simp [joining, hfull]
  · have hfits : joined.utf8ByteSize ≤ maxPath := size ▸ Nat.le_of_not_lt hfull
    obtain ⟨longer, hrun, hanchor, hsegments⟩ := written hfits
    have hlonger : longer = ⟨path.anchor, joined, hfits⟩ := eq_of_segments hanchor hsegments
    rw [ofSegments, dif_pos hfits, asWritten_ok, ← hlonger, ← hrun]
    simp [joining, hfull]

/-- Writing a level in front comes to the same as making the path with it. -/
theorem run_writeFirst (path : Path) (name : String) :
    (writeFirst name).run path = asWritten path (prepend name path) := by
  have hmade : prepend name path = ofSegments path.anchor (path.withFirst name) := rfl
  rw [hmade]
  refine run_joining (size_withFirst path name) fun fits => ?_
  by_cases hempty : path.isEmpty
  · have hlevels : (empty path.anchor).segments ++ (name ++ path.segments) = path.withFirst name := by
      rw [withFirst, if_pos hempty, segments_of_isEmpty hempty, String.append_empty]
      exact String.empty_append
    have hwritten : ((empty path.anchor).write name).write path.segments
        = ⟨path.anchor, _, hlevels ▸ fits⟩ := write_write (hlevels ▸ fits)
    exact ⟨_, by simp [hempty], (congrArg Path.anchor hwritten).trans rfl,
      (congrArg Path.segments hwritten).trans hlevels⟩
  · have hlevels : (empty path.anchor).segments ++ (name ++ "/") ++ path.segments
        = path.withFirst name := by
      rw [withFirst, if_neg hempty]
      exact congrArg (· ++ path.segments) String.empty_append
    have hfirst : ((empty path.anchor).segments ++ (name ++ "/")).utf8ByteSize ≤ maxPath := by
      rw [← hlevels, String.utf8ByteSize_append] at fits
      exact Nat.le_of_add_right_le fits
    have hwritten : (((empty path.anchor).write name).write "/").write path.segments
        = ⟨path.anchor, _, hlevels ▸ fits⟩ := by
      rw [write_write hfirst]
      exact write_of_fits (hlevels ▸ fits)
    exact ⟨_, by simp [hempty], (congrArg Path.anchor hwritten).trans rfl,
      (congrArg Path.segments hwritten).trans hlevels⟩

/-- Writing a level at the end comes to the same as making the path with it. -/
theorem run_writeLast (path : Path) (name : String) :
    (writeLast name).run path = asWritten path (path.push name) := by
  have hmade : path.push name = ofSegments path.anchor (path.withLast name) := rfl
  rw [hmade]
  refine run_joining (size_withLast path name) fun fits => ?_
  by_cases hempty : path.isEmpty
  · have hlevels : path.segments ++ name = path.withLast name := by
      rw [withLast, if_pos hempty, segments_of_isEmpty hempty, String.empty_append]
    have hwritten := write_of_fits (hlevels ▸ fits)
    exact ⟨path.write name, by simp [hempty], (congrArg Path.anchor hwritten).trans rfl,
      (congrArg Path.segments hwritten).trans hlevels⟩
  · have hlevels : path.segments ++ ("/" ++ name) = path.withLast name := by
      rw [withLast, if_neg hempty, String.append_assoc]
    have hwritten := write_write (hlevels ▸ fits)
    exact ⟨(path.write "/").write name, by simp [hempty], (congrArg Path.anchor hwritten).trans rfl,
      (congrArg Path.segments hwritten).trans hlevels⟩

end Path
end TopicTree
