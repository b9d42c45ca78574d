import TopicTree.Proofs.Buffers

/-!
# Rows of fields

Parameters are written field by field, each behind its length, and a field that does not fit is
refused before the first byte of it is written. They are read field by field, up to the first one
that is cut short. So what was taken is what is read, and what is read of any bytes can be written
again.
-/

namespace TopicTree.Params

variable {params : Params} {field rest : Bytes} {fields : List Bytes}

/-! ## Writing -/

/-- Fields one after the other. -/
def row (fields : List Bytes) : Bytes :=
  fields.flatMap fieldBytes

/-- The row of no fields. -/
@[simp]
theorem row_nil : row [] = [] :=
  rfl

/-- The first field of a row. -/
@[simp]
theorem row_cons (field : Bytes) (fields : List Bytes) :
    row (field :: fields) = fieldBytes field ++ row fields :=
  rfl

/-- Writes fields one after the other, passing over those that are refused. Tells which were taken,
and what the parameters were in the end. -/
def writeFields : List Bytes → Params → List Bytes × Params
  | [], params => ([], params)
  | field :: fields, params =>
    match (writeField field).run params with
    | .ok () after =>
      let (taken, last) := writeFields fields after
      (field :: taken, last)
    | .error _ after => writeFields fields after

/-- What writing a field comes to. -/
inductive Writes (params : Params) (field : Bytes) : EStateM.Result Error Params Unit → Prop
  /-- It is written as a whole. -/
  | taken {after : Params} (short : field.length ≤ maxField)
      (room : params.bytes.length + 1 + field.length ≤ maxParams)
      (bytes : after.bytes = params.bytes ++ fieldBytes field) :
      Writes params field (.ok () after)
  /-- It is refused, and the parameters are as they were. -/
  | refused {len max : Nat}
      (full : maxField < field.length ∨ maxParams < params.bytes.length + 1 + field.length)
      (exceeds : max < len) :
      Writes params field (.error (.paramsTooLong len max) params)

/-- A field is written as a whole, or it is refused and nothing is written. -/
theorem writes_writeField (params : Params) (field : Bytes) :
    Writes params field ((writeField field).run params) := by
  have hsize := length_append_fieldBytes params field
  rw [run_writeField]
  by_cases hlong : maxField < field.length
  · rw [addField, if_pos hlong]
    exact .refused (.inl hlong) hlong
  · rw [addField_of_short hlong, ofBytes]
    by_cases hfits : (params.bytes ++ fieldBytes field).length ≤ maxParams
    · rw [dif_pos hfits]
      exact .taken (Nat.le_of_not_lt hlong) (hsize ▸ hfits) rfl
    · rw [dif_neg hfits]
      have hfull := Nat.lt_of_not_le hfits
      exact .refused (.inr (hsize ▸ hfull)) hfull

/-! ## Reading -/

/-- Takes the next field off some bytes. Nothing is left behind one that is cut short. -/
def next : Bytes → Option Bytes × Bytes
  | [] => (none, [])
  | len :: rest =>
    if rest.length < len.toNat then (none, [])
    else (some (rest.take len.toNat), rest.drop len.toNat)

/-- The fields that are taken off some bytes, one after the other, until no field comes. -/
inductive Yields : Bytes → List Bytes → Prop
  | nil {bytes : Bytes} (ends : (next bytes).1 = none) : Yields bytes []
  | cons {bytes field rest : Bytes} {fields : List Bytes} (first : next bytes = (some field, rest))
      (more : Yields rest fields) : Yields bytes (field :: fields)

/-- What is left behind the last field that is read: nothing, or a length with fewer bytes behind it
than it tells. -/
def IsCutShort (rest : Bytes) : Prop :=
  rest = [] ∨ ∃ len tail, rest = len :: tail ∧ tail.length < UInt8.toNat len

/-- The fields come to an end, and they are those that the bytes hold. -/
theorem yields_splitFields (bytes : Bytes) : Yields bytes (splitFields bytes) := by
  fun_induction splitFields bytes with
  | case1 => exact .nil rfl
  | case2 len rest short => exact .nil (by rw [next, if_pos short])
  | case3 len rest whole ih => exact .cons (if_neg whole) ih

/-- The length byte of a field that is not too long tells its length. -/
theorem toNat_length (short : field.length ≤ maxField) : field.length.toUInt8.toNat = field.length :=
  Nat.mod_eq_of_lt (Nat.lt_succ_of_le short)

/-- A field that is not too long is read where it stands. -/
theorem splitFields_fieldBytes (short : field.length ≤ maxField) (rest : Bytes) :
    splitFields (fieldBytes field ++ rest) = field :: splitFields rest := by
  rw [fieldBytes, List.cons_append, splitFields, toNat_length short, if_neg, List.take_left,
    List.drop_left]
  rw [List.length_append]
  omega

/-- Fields that are not too long are read from their row. -/
theorem splitFields_row (short : ∀ field ∈ fields, field.length ≤ maxField) :
    splitFields (row fields) = fields := by
  induction fields with
  | nil => rw [row_nil, splitFields]
  | cons field fields ih =>
    obtain ⟨hfirst, hmore⟩ := List.forall_mem_cons.1 short
    rw [row_cons, splitFields_fieldBytes hfirst, ih hmore]

/-- The fields that some bytes hold are not too long, and the bytes are their row up to one that is
cut short. -/
theorem exists_row (bytes : Bytes) :
    (∀ field ∈ splitFields bytes, field.length ≤ maxField) ∧
      ∃ rest, bytes = row (splitFields bytes) ++ rest ∧ IsCutShort rest := by
  fun_induction splitFields bytes with
  | case1 => exact ⟨by simp, [], rfl, .inl rfl⟩
  | case2 len rest short => exact ⟨by simp, len :: rest, rfl, .inr ⟨len, rest, rfl, short⟩⟩
  | case3 len rest whole ih =>
    obtain ⟨hshort, last, hbytes, hlast⟩ := ih
    have hlength : (rest.take len.toNat).length = len.toNat :=
      List.length_take_of_le (Nat.le_of_not_lt whole)
    have hlen : len.toNat ≤ maxField := Nat.le_of_lt_succ len.toNat_lt
    refine ⟨List.forall_mem_cons.2 ⟨Nat.le_trans (Nat.le_of_eq hlength) hlen, hshort⟩, last, ?_, hlast⟩
    have hfirst : len :: rest = fieldBytes (rest.take len.toNat) ++ rest.drop len.toNat := by
      rw [fieldBytes, hlength, List.cons_append, List.take_append_drop]
      congr 1
      exact UInt8.ofNat_toNat.symm
    rw [row_cons, List.append_assoc, hfirst, ← hbytes]

/-! ## Both ways -/

/-- Fields that are taken add to the row. -/
theorem bytes_writeFields (added : List Bytes) (params : Params) :
    (∀ field ∈ (writeFields added params).1, field.length ≤ maxField) ∧
      (writeFields added params).2.bytes = params.bytes ++ row (writeFields added params).1 := by
  induction added generalizing params with
  | nil => exact ⟨by simp [writeFields], by simp [writeFields, row]⟩
  | cons field added ih =>
    have hwrites := writes_writeField params field
    rw [writeFields]
    generalize (writeField field).run params = outcome at hwrites
    cases hwrites with
    | @taken after short room bytes =>
      obtain ⟨hshort, hbytes⟩ := ih after
      refine ⟨List.forall_mem_cons.2 ⟨short, hshort⟩, ?_⟩
      change (writeFields added after).2.bytes = _ ++ row (field :: (writeFields added after).1)
      rw [hbytes, bytes, row_cons, List.append_assoc]
    | refused full exceeds => exact ih params

/-- Fields whose row fits behind what is there are all taken. -/
theorem writeFields_of_room (short : ∀ field ∈ fields, field.length ≤ maxField)
    (room : (params.bytes ++ row fields).length ≤ maxParams) :
    (writeFields fields params).1 = fields := by
  induction fields generalizing params with
  | nil => rfl
  | cons field fields ih =>
    obtain ⟨hfirst, hmore⟩ := List.forall_mem_cons.1 short
    rw [row_cons, List.length_append, List.length_append, fieldBytes, List.length_cons] at room
    have hwrites := writes_writeField params field
    rw [writeFields]
    generalize (writeField field).run params = outcome at hwrites
    cases hwrites with
    | @taken after short' room' bytes =>
      refine congrArg (field :: ·) (ih hmore ?_)
      rw [bytes, List.length_append, List.length_append, fieldBytes, List.length_cons]
      omega
    | refused full exceeds => omega

/-- The fields of parameters are those that were taken, one after the other, when they were written:
each was taken as a whole, or refused because it or the whole would be too long, and then nothing was
written. Of any parameters the fields that are read come to an end, in front of nothing or of a field
that is cut short, and written again they are all taken and give the same bytes up to there. -/
theorem fields_are_what_was_taken :
    (∀ params field, (writeField field).run params = asWritten params (params.addField field) ∧
      Writes params field ((writeField field).run params)) ∧
    (∀ added, let (taken, params) := writeFields added empty
      params.fields = taken ∧ ∀ i, params.field? i = taken[i]?) ∧
    ∀ params : Params, Yields params.bytes params.fields ∧
      ∃ rest again, params.bytes = row params.fields ++ rest ∧ IsCutShort rest ∧
        writeFields params.fields empty = (params.fields, again) ∧
        again.bytes = row params.fields := by
  refine ⟨fun params field => ⟨run_writeField params field, writes_writeField params field⟩,
    fun added => ?_, fun params => ⟨yields_splitFields _, ?_⟩⟩
  · obtain ⟨hshort, hbytes⟩ := bytes_writeFields added empty
    have hfields : (writeFields added empty).2.fields = (writeFields added empty).1 := by
      rw [fields, hbytes]
      exact splitFields_row hshort
    exact ⟨hfields, fun i => by rw [field?, hfields]⟩
  · obtain ⟨hshort, rest, hbytes, hrest⟩ := exists_row params.bytes
    have hroom : (empty.bytes ++ row params.fields).length ≤ maxParams := by
      have hfits := params.fits
      rw [hbytes, List.length_append] at hfits
      exact Nat.le_of_add_right_le hfits
    have htaken : (writeFields params.fields empty).1 = params.fields :=
      writeFields_of_room hshort hroom
    obtain ⟨-, hagain⟩ := bytes_writeFields params.fields empty
    rw [htaken] at hagain
    exact ⟨rest, (writeFields params.fields empty).2, hbytes, hrest, Prod.ext htaken rfl, hagain⟩

end TopicTree.Params
