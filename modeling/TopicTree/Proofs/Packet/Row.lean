import TopicTree.Proofs.Packet.Publish

/-!
# Rows of parts

What a packet puts into its frame is a row of parts: bytes as they are, and blocks behind their
length words. A row goes into a frame whole or not at all. It goes in exactly if the payload has room
for it, and a refusal tells of a block that no length word can announce or of a payload that would
grow too large.
-/

namespace TopicTree

/-- One part of what a packet puts into its frame. -/
inductive Part
  /-- Bytes as they are. -/
  | plain (bytes : Bytes)
  /-- A block behind its length word, with the name under which it is refused. -/
  | block (field : String) (block : Bytes)
  deriving DecidableEq, Repr

namespace Part

/-- The bytes of a part in the payload. -/
def bytes : Part → Bytes
  | plain bytes => bytes
  | block _ inner => Field.blockBytes inner

/-- The bytes of a row of parts in the payload. -/
def row (parts : List Part) : Bytes :=
  parts.flatMap bytes

@[simp]
theorem row_nil : row [] = [] :=
  rfl

@[simp]
theorem row_cons (part : Part) (parts : List Part) : row (part :: parts) = part.bytes ++ row parts :=
  List.flatMap_cons

@[simp]
theorem row_append (parts more : List Part) : row (parts ++ more) = row parts ++ row more :=
  List.flatMap_append

/-- Why a row of parts is refused behind a payload of some length. -/
inductive Refusal (before : Nat) (parts : List Part) : WireError → Prop
  /-- The length of a block is more than its length word can say. -/
  | tooLong {field : String} {block : Bytes} (there : Part.block field block ∈ parts)
      (long : Field.maxBlock < block.length) :
      Refusal before parts (.fieldTooLong field block.length Field.maxBlock)
  /-- The payload would grow too large on the way. -/
  | tooLarge {size : Nat} (large : frameCapacity < size)
      (reached : size ≤ before + (row parts).length) :
      Refusal before parts (.frameTooLarge size frameCapacity)

/-- A reason to refuse the front of a row is one to refuse all of it. -/
theorem Refusal.front {before : Nat} {parts more : List Part} {e : WireError}
    (h : Refusal before parts e) : Refusal before (parts ++ more) e := by
  cases h with
  | tooLong there long => exact .tooLong (List.mem_append_left more there) long
  | tooLarge large reached =>
    refine .tooLarge large ?_
    rw [row_append, List.length_append]
    omega

/-- A reason to refuse the rest of a row is one to refuse all of it. -/
theorem Refusal.cons {before : Nat} {part : Part} {parts : List Part} {e : WireError}
    (h : Refusal (before + part.bytes.length) parts e) : Refusal before (part :: parts) e := by
  cases h with
  | tooLong there long => exact .tooLong (List.mem_cons_of_mem part there) long
  | tooLarge large reached =>
    refine .tooLarge large ?_
    rw [row_cons, List.length_append]
    omega

end Part

namespace Frame

variable {frame next : Frame} {part : Part} {parts : List Part} {e : WireError}

/-- Adds one part. -/
def addPart (frame : Frame) : Part → Except WireError Frame
  | .plain bytes => frame.append bytes
  | .block field block => frame.addBlock field block

/-- Adds parts in order. -/
def addParts (frame : Frame) : List Part → Except WireError Frame
  | [] => .ok frame
  | part :: parts => do
    let frame ← frame.addPart part
    addParts frame parts

/-- A row is added part by part. -/
theorem addParts_cons (frame : Frame) (part : Part) (parts : List Part) :
    frame.addParts (part :: parts) = frame.addPart part >>= fun next => next.addParts parts :=
  rfl

/-- Parts that are added one row after the other are added as one row. -/
theorem addParts_append (frame : Frame) (parts more : List Part) :
    frame.addParts (parts ++ more) = frame.addParts parts >>= fun next => next.addParts more := by
  induction parts generalizing frame with
  | nil => rfl
  | cons part parts ih =>
    rw [List.cons_append, addParts_cons, addParts_cons]
    cases frame.addPart part with
    | error e => rfl
    | ok next => exact ih next

/-- A row of one part is added as that part. -/
theorem addParts_singleton (frame : Frame) (part : Part) :
    frame.addParts [part] = frame.addPart part := by
  rw [addParts_cons]
  cases frame.addPart part <;> rfl

/-- A part is added at the end of the payload, if that fits. -/
theorem addPart_eq_ok :
    frame.addPart part = .ok next
      ↔ next.header = frame.header ∧ next.payload = frame.payload ++ part.bytes := by
  cases part with
  | plain bytes =>
    change frame.append bytes = .ok next ↔ _
    exact append_eq_ok
  | block field inner =>
    change frame.addBlock field inner = .ok next ↔ _
    exact addBlock_eq_ok

/-- A row of parts is added at the end of the payload, if that fits. -/
theorem addParts_eq_ok :
    frame.addParts parts = .ok next
      ↔ next.header = frame.header ∧ next.payload = frame.payload ++ Part.row parts := by
  induction parts generalizing frame with
  | nil =>
    simp only [addParts, Except.ok.injEq, Part.row_nil, List.append_nil]
    exact ⟨fun h => h ▸ ⟨rfl, rfl⟩, fun h => eq_of_parts h.1.symm h.2.symm⟩
  | cons part parts ih =>
    simp only [addParts_cons, bind_eq_ok, addPart_eq_ok, ih, Part.row_cons]
    constructor
    · rintro ⟨mid, ⟨hheader, hpayload⟩, hheader', hpayload'⟩
      refine ⟨hheader'.trans hheader, ?_⟩
      rw [hpayload', hpayload, List.append_assoc]
    · rintro ⟨hheader, hpayload⟩
      have hfits := next.fits
      simp only [hpayload, List.length_append] at hfits
      have hroom : (frame.payload ++ part.bytes).length ≤ frameCapacity := by
        rw [List.length_append]
        omega
      refine ⟨⟨frame.header, frame.payload ++ part.bytes, hroom⟩, ⟨rfl, rfl⟩, hheader, ?_⟩
      rw [hpayload, List.append_assoc]

/-- Bytes are refused if they would make the payload too large. -/
theorem append_eq_error {bytes : Bytes} (h : frame.append bytes = .error e) :
    e = .frameTooLarge (frame.payload.length + bytes.length) frameCapacity ∧
      frameCapacity < frame.payload.length + bytes.length := by
  unfold append ofPayload at h
  split at h
  · cases h
  · next hfull =>
    cases h
    rw [List.length_append] at hfull ⊢
    exact ⟨rfl, Nat.lt_of_not_le hfull⟩

/-- A part is refused for one of the two reasons. -/
theorem addPart_eq_error (h : frame.addPart part = .error e) :
    Part.Refusal frame.payload.length [part] e := by
  cases part with
  | plain bytes =>
    obtain ⟨rfl, hlarge⟩ := append_eq_error h
    apply Part.Refusal.tooLarge hlarge
    simp [Part.bytes]
  | block field block =>
    change frame.addBlock field block = .error e at h
    unfold addBlock at h
    split at h
    · next hlong =>
      cases h
      exact .tooLong List.mem_cons_self hlong
    · unfold addWord at h
      cases hword : frame.append (Field.wordBytes block.length.toUInt16) with
      | error cause =>
        rw [hword, error_bind] at h
        cases h
        obtain ⟨rfl, hlarge⟩ := append_eq_error hword
        apply Part.Refusal.tooLarge hlarge
        simp only [Part.row_cons, Part.row_nil, Part.bytes, List.append_nil,
          Field.length_wordBytes, Field.length_blockBytes]
        omega
      | ok mid =>
        rw [hword, ok_bind] at h
        obtain ⟨rfl, hlarge⟩ := append_eq_error h
        apply Part.Refusal.tooLarge hlarge
        rw [(append_eq_ok.1 hword).2]
        simp only [Part.row_cons, Part.row_nil, Part.bytes, List.append_nil, List.length_append,
          Field.length_wordBytes, Field.length_blockBytes]
        omega

/-- A row of parts is refused for one of the two reasons. -/
theorem addParts_eq_error (h : frame.addParts parts = .error e) :
    Part.Refusal frame.payload.length parts e := by
  induction parts generalizing frame with
  | nil => cases h
  | cons part parts ih =>
    rw [addParts_cons] at h
    cases hpart : frame.addPart part with
    | error cause =>
      rw [hpart, error_bind] at h
      cases h
      exact (addPart_eq_error hpart).front
    | ok mid =>
      rw [hpart, ok_bind] at h
      have hrest := ih h
      rw [(addPart_eq_ok.1 hpart).2, List.length_append] at hrest
      exact hrest.cons

end Frame

end TopicTree
