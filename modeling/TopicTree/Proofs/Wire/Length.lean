import Mathlib.Data.Nat.Bitwise
import Mathlib.Data.Nat.Digits.Lemmas
import TopicTree.Proofs.Wire.Sink
import TopicTree.Wire.Length

/-!
# Length fields are numbers to the base 128

The seven low bits of each byte of a length field are a digit to the base 128, lowest first, and the
high bit tells whether another byte follows. Every row of bytes begins with a whole field, or goes
on to its end within four bytes, or goes on for four bytes and is longer; reading tells these three
apart and nothing else.

Written with shifts and masks, as machines do it, fields are the same; and so are those that are
written into a buffer byte by byte, where a number that is too large is refused before the first.
-/

namespace TopicTree.Length

/-- The digit in a byte: its seven low bits. -/
def digit (byte : UInt8) : Nat :=
  byte.toNat % 128

/-- The number that the digits of some bytes spell to the base 128, lowest first. -/
def spelled (bytes : Bytes) : Nat :=
  Nat.ofDigits 128 (bytes.map digit)

/-- Whether each of some bytes says that another one follows. -/
def GoesOn (bytes : Bytes) : Prop :=
  ∀ byte ∈ bytes, 128 ≤ byte.toNat

/-- A whole field: bytes that go on, fewer than four, and one that does not. -/
inductive IsField : Bytes → Prop
  | mk {front : Bytes} {last : UInt8} (few : front.length < maxBytes) (goesOn : GoesOn front)
      (ends : last.toNat < 128) : IsField (front ++ [last])

/-! ## Digits -/

theorem digit_lt (byte : UInt8) : digit byte < 128 :=
  Nat.mod_lt _ (by decide)

@[simp]
theorem spelled_nil : spelled [] = 0 :=
  rfl

theorem spelled_cons (byte : UInt8) (bytes : Bytes) :
    spelled (byte :: bytes) = digit byte + 128 * spelled bytes := by
  rw [spelled, List.map_cons, Nat.ofDigits_cons]
  rfl

/-- The number spelled is the sum of the digits times the powers of the base. -/
theorem spelled_eq_sum (bytes : Bytes) :
    spelled bytes = (bytes.mapIdx fun index byte => byte.toNat % 128 * 128 ^ index).sum := by
  rw [spelled, Nat.ofDigits_eq_sum_mapIdx]
  congr 1
  exact List.ext_getElem (by simp) fun index _ _ => by simp [digit]

/-- So many digits spell a number below the power of the base. -/
theorem spelled_lt (bytes : Bytes) : spelled bytes < 128 ^ bytes.length := by
  have hdigits : ∀ d ∈ bytes.map digit, d < 128 := by
    intro d hd
    obtain ⟨byte, -, rfl⟩ := List.mem_map.1 hd
    exact digit_lt byte
  simpa [spelled] using Nat.ofDigits_lt_base_pow_length (by decide) hdigits

theorem goesOn_nil : GoesOn [] :=
  List.forall_mem_nil _

theorem GoesOn.cons {byte : UInt8} {bytes : Bytes} (first : 128 ≤ byte.toNat)
    (rest : GoesOn bytes) : GoesOn (byte :: bytes) :=
  List.forall_mem_cons.2 ⟨first, rest⟩

theorem goesOn_cons {byte : UInt8} {bytes : Bytes} :
    GoesOn (byte :: bytes) ↔ 128 ≤ byte.toNat ∧ GoesOn bytes :=
  List.forall_mem_cons

/-- A field has one byte at least and four at most. -/
theorem IsField.length_mem {field : Bytes} (h : IsField field) :
    1 ≤ field.length ∧ field.length ≤ maxBytes := by
  obtain ⟨few, -, -⟩ := h
  rw [List.length_append, List.length_singleton]
  exact ⟨Nat.le_add_left 1 _, few⟩

/-- All bytes of a field but the last go on. -/
theorem IsField.goesOn_dropLast {field : Bytes} (h : IsField field) : GoesOn field.dropLast := by
  obtain ⟨-, goesOn, -⟩ := h
  rwa [List.dropLast_concat]

/-- The last byte of a field does not. -/
theorem IsField.getLast?_lt {field : Bytes} (h : IsField field) :
    ∀ byte ∈ field.getLast?, byte.toNat < 128 := by
  obtain ⟨-, -, ends⟩ := h
  simpa using ends

/-- A field spells a number that four bytes can carry. -/
theorem IsField.spelled_le {field : Bytes} (h : IsField field) : spelled field ≤ maxValue := by
  have hlt := Nat.lt_of_lt_of_le (spelled_lt field)
    (Nat.pow_le_pow_right (by decide) h.length_mem.2)
  exact Nat.le_of_lt_succ hlt

/-! ## Reading byte by byte -/

namespace Partial

variable {state : Partial} {byte : UInt8}

/-- A byte without the high bit ends a field. -/
theorem push_ends (room : state.count < maxBytes) (ends : byte.toNat < 128) :
    state.push byte = .ok (.finished (state.value + digit byte * 128 ^ state.count)) := by
  have hpower : 2 ^ (7 * state.count) = 128 ^ state.count := Nat.pow_mul 2 7 state.count
  simp only [push, if_neg (Nat.ne_of_lt room), if_pos ends, Nat.shiftLeft_eq, hpower, digit]

/-- A byte with the high bit does not. -/
theorem push_goesOn (room : state.count < maxBytes) (goesOn : 128 ≤ byte.toNat) :
    state.push byte
      = .ok (.unfinished ⟨state.value + digit byte * 128 ^ state.count, state.count + 1⟩) := by
  have hpower : 2 ^ (7 * state.count) = 128 ^ state.count := Nat.pow_mul 2 7 state.count
  simp only [push, if_neg (Nat.ne_of_lt room), if_neg (Nat.not_lt_of_le goesOn), Nat.shiftLeft_eq,
    hpower, digit]

/-- The rest of a field is read, with the digits before it counted in. -/
theorem read_field {front rest : Bytes} {last : UInt8}
    (room : state.count + front.length < maxBytes) (goesOn : GoesOn front)
    (ends : last.toNat < 128) :
    state.read (front ++ last :: rest)
      = .ok (some (state.value + spelled (front ++ [last]) * 128 ^ state.count,
          state.count + front.length + 1)) := by
  induction front generalizing state with
  | nil =>
    simp only [List.nil_append, read, push_ends room ends, spelled_cons, spelled_nil,
      List.length_nil]
    rfl
  | cons byte front ih =>
    obtain ⟨hbyte, hfront⟩ := goesOn_cons.1 goesOn
    rw [List.length_cons] at room
    have hrest := @ih ⟨state.value + digit byte * 128 ^ state.count, state.count + 1⟩
      (by simp only; omega) hfront
    simp only [List.cons_append, read, push_goesOn (by omega : state.count < maxBytes) hbyte, hrest,
      spelled_cons, List.length_cons]
    congr 3
    · ring
    · omega

/-- Bytes that all go on within the room of a field leave it unfinished. -/
theorem read_goesOn {bytes : Bytes} (room : state.count + bytes.length ≤ maxBytes)
    (goesOn : GoesOn bytes) : state.read bytes = .ok none := by
  induction bytes generalizing state with
  | nil => rfl
  | cons byte bytes ih =>
    obtain ⟨hbyte, hbytes⟩ := goesOn_cons.1 goesOn
    rw [List.length_cons] at room
    simp only [read, push_goesOn (by omega : state.count < maxBytes) hbyte]
    exact ih (by simp only; omega) hbytes

/-- Bytes that go on until the room of a field is full are refused with the next one. -/
theorem read_overlong {front rest : Bytes} {byte : UInt8}
    (full : state.count + front.length = maxBytes) (goesOn : GoesOn front) :
    state.read (front ++ byte :: rest) = .error .lengthOverflow := by
  induction front generalizing state with
  | nil => simp only [List.nil_append, read, push, if_pos (show state.count = maxBytes from full)]
  | cons next front ih =>
    obtain ⟨hnext, hfront⟩ := goesOn_cons.1 goesOn
    rw [List.length_cons] at full
    simp only [List.cons_append, read, push_goesOn (by omega : state.count < maxBytes) hnext]
    exact ih (by simp only; omega) hfront

end Partial

/-! ## Reading at once -/

/-- Bytes hold a whole field within some room, go on to their end within it, or go on until it is
full and are longer. -/
theorem field_cases (room : Nat) (bytes : Bytes) :
    (∃ front last rest, bytes = front ++ last :: rest ∧ front.length < room ∧ GoesOn front ∧
      last.toNat < 128) ∨
    (bytes.length ≤ room ∧ GoesOn bytes) ∨
    ∃ front byte rest, bytes = front ++ byte :: rest ∧ front.length = room ∧ GoesOn front := by
  induction bytes generalizing room with
  | nil => exact .inr (.inl ⟨Nat.zero_le room, goesOn_nil⟩)
  | cons byte bytes ih =>
    cases room with
    | zero => exact .inr (.inr ⟨[], byte, bytes, rfl, rfl, goesOn_nil⟩)
    | succ room =>
      by_cases hends : byte.toNat < 128
      · exact .inl ⟨[], byte, bytes, rfl, Nat.succ_pos room, goesOn_nil, hends⟩
      · have hgoes : 128 ≤ byte.toNat := Nat.le_of_not_lt hends
        rcases ih room with ⟨front, last, rest, rfl, hroom, hfront, hlast⟩ | ⟨hroom, hbytes⟩ |
          ⟨front, next, rest, rfl, hroom, hfront⟩
        · exact .inl ⟨byte :: front, last, rest, rfl, Nat.succ_lt_succ hroom, .cons hgoes hfront,
            hlast⟩
        · exact .inr (.inl ⟨Nat.succ_le_succ hroom, .cons hgoes hbytes⟩)
        · exact .inr (.inr ⟨byte :: front, next, rest, rfl, congrArg Nat.succ hroom,
            .cons hgoes hfront⟩)

/-- A field is read, whatever follows it. -/
theorem decode_field {field : Bytes} (h : IsField field) (rest : Bytes) :
    decode (field ++ rest) = .ok (some (spelled field, field.length)) := by
  obtain @⟨front, last, few, goesOn, ends⟩ := h
  have hread := @Partial.read_field Partial.start front rest last
    ((Nat.zero_add _).symm ▸ few) goesOn ends
  rw [List.append_assoc, List.singleton_append, decode, hread]
  simp [Partial.start]

/-- Bytes that go on and are no more than a field may have are waited for. -/
theorem decode_goesOn {bytes : Bytes} (few : bytes.length ≤ maxBytes) (goesOn : GoesOn bytes) :
    decode bytes = .ok none :=
  Partial.read_goesOn ((Nat.zero_add _).symm ▸ few) goesOn

/-- Four bytes that go on are refused if another one follows. -/
theorem decode_overlong {front rest : Bytes} {byte : UInt8} (full : front.length = maxBytes)
    (goesOn : GoesOn front) : decode (front ++ byte :: rest) = .error .lengthOverflow :=
  Partial.read_overlong ((Nat.zero_add _).trans full) goesOn

/-- Any bytes begin with a field, which is read, or go on and are waited for, or go on for too long
and are refused. -/
theorem decode_cases (bytes : Bytes) :
    (∃ field rest, bytes = field ++ rest ∧ IsField field ∧
      decode bytes = .ok (some (spelled field, field.length))) ∨
    (bytes.length ≤ maxBytes ∧ GoesOn bytes ∧ decode bytes = .ok none) ∨
    (maxBytes < bytes.length ∧ GoesOn (bytes.take maxBytes) ∧
      decode bytes = .error .lengthOverflow) := by
  rcases field_cases maxBytes bytes with ⟨front, last, rest, rfl, few, goesOn, ends⟩ |
    ⟨few, goesOn⟩ | ⟨front, byte, rest, rfl, full, goesOn⟩
  · have hfield : IsField (front ++ [last]) := ⟨few, goesOn, ends⟩
    have hsplit : front ++ last :: rest = front ++ [last] ++ rest := by simp
    rw [hsplit]
    exact .inl ⟨front ++ [last], rest, rfl, hfield, decode_field hfield rest⟩
  · exact .inr (.inl ⟨few, goesOn, decode_goesOn few goesOn⟩)
  · refine .inr (.inr ⟨?_, ?_, decode_overlong full goesOn⟩)
    · rw [List.length_append, full, List.length_cons]
      omega
    · rwa [← full, List.take_left]

/-- A number is read exactly from bytes that begin with a field for it. -/
theorem decode_eq_some {bytes : Bytes} {value used : Nat} :
    decode bytes = .ok (some (value, used)) ↔
      ∃ field rest, bytes = field ++ rest ∧ IsField field ∧ spelled field = value ∧
        field.length = used := by
  constructor
  · intro h
    rcases decode_cases bytes with ⟨field, rest, hbytes, hfield, hread⟩ | ⟨-, -, hread⟩ |
      ⟨-, -, hread⟩
    · cases h.symm.trans hread
      exact ⟨field, rest, hbytes, hfield, rfl, rfl⟩
    · cases h.symm.trans hread
    · cases h.symm.trans hread
  · rintro ⟨field, rest, rfl, hfield, rfl, rfl⟩
    exact decode_field hfield rest

/-- More bytes are waited for exactly if there are four at most and all of them go on. -/
theorem decode_eq_none {bytes : Bytes} :
    decode bytes = .ok none ↔ bytes.length ≤ maxBytes ∧ GoesOn bytes := by
  refine ⟨fun h => ?_, fun ⟨few, goesOn⟩ => decode_goesOn few goesOn⟩
  rcases decode_cases bytes with ⟨_, _, -, -, hread⟩ | ⟨few, goesOn, -⟩ | ⟨-, -, hread⟩
  · cases h.symm.trans hread
  · exact ⟨few, goesOn⟩
  · cases h.symm.trans hread

/-- Bytes are refused exactly if there are more than four and the first four go on. -/
theorem decode_eq_error {bytes : Bytes} {e : WireError} :
    decode bytes = .error e ↔
      e = .lengthOverflow ∧ maxBytes < bytes.length ∧ GoesOn (bytes.take maxBytes) := by
  constructor
  · intro h
    rcases decode_cases bytes with ⟨_, _, -, -, hread⟩ | ⟨-, -, hread⟩ | ⟨long, goesOn, hread⟩
    · cases h.symm.trans hread
    · cases h.symm.trans hread
    · cases h.symm.trans hread
      exact ⟨rfl, long, goesOn⟩
  · rintro ⟨rfl, hlong, hgoes⟩
    obtain ⟨byte, rest, hrest⟩ := List.exists_cons_of_ne_nil
      (List.drop_eq_nil_iff.not.2 (Nat.not_le_of_lt hlong))
    rw [← List.take_append_drop maxBytes bytes, hrest]
    exact decode_overlong (by rw [List.length_take]; omega) hgoes

/-! ## Writing -/

/-- The digits of a number that so many digits can spell are a row of bytes that go on and one that
does not, and spell the number. -/
theorem exists_digits {more value : Nat} (small : value < 128 ^ (more + 1)) :
    ∃ front last, digits more value = front ++ [last] ∧ front.length ≤ more ∧ GoesOn front ∧
      last.toNat < 128 ∧ spelled (front ++ [last]) = value := by
  have hlast : ∀ {rest : Nat}, rest < 128 → rest.toUInt8.toNat = rest := fun h =>
    Nat.mod_eq_of_lt (by omega)
  have hone : ∀ {rest : Nat}, rest < 128 → spelled [rest.toUInt8] = rest := by
    intro rest h
    rw [spelled_cons, spelled_nil, digit, hlast h, Nat.mod_eq_of_lt h]
    rfl
  induction more generalizing value with
  | zero =>
    rw [zero_add, pow_one] at small
    rw [digits, Nat.mod_eq_of_lt small]
    exact ⟨[], _, rfl, Nat.le_refl 0, goesOn_nil, (hlast small).symm ▸ small, hone small⟩
  | succ more ih =>
    rw [digits]
    split
    · next hsmall =>
      exact ⟨[], _, rfl, Nat.zero_le _, goesOn_nil, (hlast hsmall).symm ▸ hsmall, hone hsmall⟩
    · have hbyte : (value % 128 + 128).toUInt8.toNat = value % 128 + 128 :=
        Nat.mod_eq_of_lt (by omega)
      have hdigit : digit (value % 128 + 128).toUInt8 = value % 128 := by
        rw [digit, hbyte]
        omega
      have hrest : value / 128 < 128 ^ (more + 1) := by
        rw [pow_succ] at small
        exact Nat.div_lt_of_lt_mul (by omega)
      obtain ⟨front, last, hdigits, hlength, hgoes, hends, hspelled⟩ := ih hrest
      refine ⟨_ :: front, last, by rw [hdigits]; rfl, Nat.succ_le_succ hlength,
        .cons (by omega) hgoes, hends, ?_⟩
      rw [List.cons_append, spelled_cons, hspelled, hdigit]
      exact Nat.mod_add_div value 128

/-- The digits of a number that four bytes can carry are a field for it. -/
theorem isField_digits {value : Nat} (small : value ≤ maxValue) :
    IsField (digits (maxBytes - 1) value) ∧ spelled (digits (maxBytes - 1) value) = value := by
  obtain ⟨front, last, hdigits, hlength, hgoes, hends, hspelled⟩ :=
    @exists_digits (maxBytes - 1) value (Nat.lt_succ_of_le small)
  rw [hdigits]
  exact ⟨⟨Nat.lt_succ_of_le hlength, hgoes, hends⟩, hspelled⟩

/-- A number takes as many digits as its size says. -/
theorem length_digits (value : Nat) : (digits (maxBytes - 1) value).length = size value := by
  change (digits 3 value).length = size value
  have hsecond : value / 128 < 128 ↔ value < 16384 := by omega
  have hthird : value / 128 / 128 < 128 ↔ value < 2097152 := by omega
  simp only [digits, size, hsecond, hthird]
  split
  · rfl
  · split
    · rfl
    · split <;> rfl

/-! ## Shifts and masks -/

/-- The field for a number, seven bits at a time until none is left; the high bit is set while some
are. -/
def shiftOut (value : Nat) : Bytes :=
  if value >>> 7 = 0 then [(value &&& 0x7f).toUInt8]
  else ((value &&& 0x7f).toUInt8 ||| 0x80) :: shiftOut (value >>> 7)
termination_by value
decreasing_by
  rw [Nat.shiftRight_eq_div_pow] at *
  omega

/-- Takes the next byte of a field: its seven low bits are set above those of the bytes before. -/
def Partial.shiftIn (state : Partial) (byte : UInt8) : Except WireError Progress :=
  if state.count = maxBytes then .error .lengthOverflow
  else
    let value := state.value ||| (byte &&& 0x7f).toNat <<< (7 * state.count)
    if byte &&& 0x80 = 0 then .ok (.finished value)
    else .ok (.unfinished ⟨value, state.count + 1⟩)

/-- Reads on from a partial field by setting bits. -/
def Partial.readBits (state : Partial) : Bytes → Except WireError (Option (Nat × Nat))
  | [] => .ok none
  | byte :: rest =>
    match state.shiftIn byte with
    | .error e => .error e
    | .ok (.finished value) => .ok (some (value, state.count + 1))
    | .ok (.unfinished next) => next.readBits rest

/-- The masks of a byte are its digit and its high bit. -/
theorem masks_eq (byte : UInt8) :
    (byte &&& 0x7f).toNat = digit byte ∧ (byte &&& 0x80 = 0 ↔ byte.toNat < 128) := by
  have hlt := byte.toNat_lt
  constructor
  · rw [UInt8.toNat_and]
    exact Nat.and_two_pow_sub_one_eq_mod byte.toNat 7
  · have hbit : byte.toNat &&& 128 = (byte.toNat.testBit 7).toNat * 2 ^ 7 := Nat.and_two_pow _ 7
    rw [← UInt8.toNat_inj, UInt8.toNat_and]
    change byte.toNat &&& 128 = 0 ↔ _
    rw [hbit, Nat.testBit_eq_decide_div_mod_eq]
    by_cases hodd : byte.toNat / 2 ^ 7 % 2 = 1
    · simp only [hodd, decide_true, Bool.toNat_true]
      omega
    · simp only [hodd, decide_false, Bool.toNat_false]
      omega

/-- Bits set above a number are added to it. -/
theorem or_shiftLeft {value count : Nat} (below : value < 128 ^ count) (more : Nat) :
    value ||| more <<< (7 * count) = value + more <<< (7 * count) := by
  have hpower : 2 ^ (7 * count) = 128 ^ count := Nat.pow_mul 2 7 count
  rw [Nat.shiftLeft_eq, Nat.or_comm, Nat.mul_comm more,
    ← Nat.two_pow_add_eq_or_of_lt (hpower.symm ▸ below), Nat.add_comm]

/-- Bytes of a field are taken alike by setting bits and by adding. -/
theorem Partial.shiftIn_eq {state : Partial} (below : state.value < 128 ^ state.count)
    (byte : UInt8) : state.shiftIn byte = state.push byte := by
  obtain ⟨hlow, hhigh⟩ := masks_eq byte
  simp only [shiftIn, push, hlow, hhigh, or_shiftLeft below, digit]

/-- Fields are read alike by setting bits and by adding. -/
theorem Partial.readBits_eq {state : Partial} (below : state.value < 128 ^ state.count)
    (bytes : Bytes) : state.readBits bytes = state.read bytes := by
  induction bytes generalizing state with
  | nil => rfl
  | cons byte bytes ih =>
    rw [readBits, read, shiftIn_eq below]
    by_cases hfull : state.count = maxBytes
    · simp only [push, if_pos hfull]
    · by_cases hends : byte.toNat < 128
      · simp only [push, if_neg hfull, if_pos hends]
      · simp only [push, if_neg hfull, if_neg hends]
        refine ih ?_
        have hdigit := digit_lt byte
        have hpower : 2 ^ (7 * state.count) = 128 ^ state.count := Nat.pow_mul 2 7 state.count
        have hmul : digit byte * 128 ^ state.count ≤ 127 * 128 ^ state.count :=
          Nat.mul_le_mul_right _ (by omega)
        simp only [Nat.shiftLeft_eq, hpower, pow_succ]
        rw [digit] at hmul
        omega

/-- The digits of a number are its bits, seven at a time. -/
theorem digits_eq_shiftOut {more value : Nat} (small : value < 128 ^ (more + 1)) :
    digits more value = shiftOut value := by
  have hlow : ∀ number : Nat, (number &&& 0x7f) = number % 128 := fun number =>
    Nat.and_two_pow_sub_one_eq_mod number 7
  induction more generalizing value with
  | zero =>
    have hnone : value / 2 ^ 7 = 0 := Nat.div_eq_of_lt (by simpa using small)
    rw [digits, shiftOut, Nat.shiftRight_eq_div_pow, if_pos hnone, hlow]
  | succ more ih =>
    rw [digits, shiftOut, Nat.shiftRight_eq_div_pow, hlow]
    by_cases hsmall : value < 128
    · rw [if_pos hsmall, if_pos (Nat.div_eq_of_lt hsmall), Nat.mod_eq_of_lt hsmall]
    · have hrest : value / 128 < 128 ^ (more + 1) := by
        rw [pow_succ] at small
        exact Nat.div_lt_of_lt_mul (by omega)
      have hbyte : (value % 128 + 128).toUInt8 = (value % 128).toUInt8 ||| 0x80 := by
        rw [← UInt8.toNat_inj, UInt8.toNat_or]
        change (value % 128 + 128) % 256 = value % 128 % 256 ||| 2 ^ 7 * 1
        rw [Nat.mod_eq_of_lt (by omega : value % 128 < 256), Nat.or_comm,
          ← Nat.two_pow_add_eq_or_of_lt (Nat.mod_lt value (by decide))]
        omega
      rw [if_neg hsmall, if_neg (by omega : ¬value / 2 ^ 7 = 0), ih hrest, hbyte]

/-! ## In place -/

/-- Writes the field for a number into a buffer, seven bits at a time until none is left. -/
def putDigits (value : Nat) : Sink.Writer := do
  let rest := value >>> 7
  let byte := (value &&& 0x7f).toUInt8
  Sink.put (if 0 < rest then byte ||| 0x80 else byte)
  if rest = 0 then return
  putDigits rest
termination_by value
decreasing_by
  rw [Nat.shiftRight_eq_div_pow] at *
  omega

/-- Writes the field for a number into a buffer, if four bytes can carry it. -/
def write (value : Nat) : Sink.Writer := do
  if maxValue < value then throw (.refused (.frameTooLarge value maxValue))
  putDigits value

/-- What is written byte by byte is the field. -/
theorem emits_putDigits (value : Nat) : Sink.Emits (putDigits value) (shiftOut value) := by
  induction value using shiftOut.induct with
  | case1 value hnone =>
    rw [putDigits, shiftOut, if_pos hnone]
    simpa [hnone] using Sink.emits_put (value &&& 0x7f).toUInt8
  | case2 value hmore ih =>
    have hpos : 0 < value >>> 7 := Nat.pos_of_ne_zero hmore
    rw [putDigits, shiftOut, if_neg hmore]
    simpa [hmore, hpos] using (Sink.emits_put ((value &&& 0x7f).toUInt8 ||| 0x80)).append ih

/-- A number that four bytes can carry is written into a buffer as its field. -/
theorem emits_write {value : Nat} (small : value ≤ maxValue) :
    Sink.Emits (write value) (digits (maxBytes - 1) value) := by
  intro sink room
  have hcheck : ¬maxValue < value := Nat.not_lt_of_le small
  have hsame : digits (maxBytes - 1) value = shiftOut value :=
    digits_eq_shiftOut (Nat.lt_succ_of_le small)
  rw [hsame] at room ⊢
  simpa [write, hcheck] using emits_putDigits value sink room

/-- A larger number is refused, and the buffer is as it was. -/
theorem run_write_of_lt {value : Nat} (large : maxValue < value) (sink : Sink) :
    (write value).run sink = .error (.refused (.frameTooLarge value maxValue)) sink := by
  simp [write, large]

/-! ## Fields and numbers -/

/-- A number that four bytes can carry is written in as many bytes as its size says, the high bit
set on all but the last, and is read back from them, whatever follows; a larger one is refused.
Written into a buffer, the first goes over so many bytes and leaves those behind them as they were,
and the second leaves the whole buffer so. From any bytes a number is read that four bytes can
carry: it is the sum of the digits of the one to four bytes used, of which all but the last have the
high bit, times the powers of 128. Otherwise more bytes are waited for if there are four at most,
all with the high bit, and the bytes are refused if the first four have it and a fifth exists. With
shifts and masks the same is written and read. -/
theorem fields_are_numbers (value : Nat) (bytes : Bytes) :
    (value ≤ maxValue → ∃ field, encode value = .ok field ∧ field = shiftOut value ∧
      field.length = size value ∧ (∀ byte ∈ field.dropLast, 128 ≤ byte.toNat) ∧
      (∀ byte ∈ field.getLast?, byte.toNat < 128) ∧
      (∀ rest, decode (field ++ rest) = .ok (some (value, size value))) ∧
      ∀ sink : Sink, size value ≤ sink.ahead.length →
        (write value).run sink
          = .ok () ⟨sink.written ++ field, sink.ahead.drop (size value)⟩) ∧
    (maxValue < value → encode value = .error (.frameTooLarge value maxValue) ∧
      ∀ sink, (write value).run sink = .error (.refused (.frameTooLarge value maxValue)) sink) ∧
    decode bytes = Partial.start.readBits bytes ∧
    (∀ number used, decode bytes = .ok (some (number, used)) →
      number ≤ maxValue ∧ 1 ≤ used ∧ used ≤ 4 ∧ used ≤ bytes.length ∧
      (∀ byte ∈ bytes.take (used - 1), 128 ≤ byte.toNat) ∧
      (∀ byte ∈ bytes[used - 1]?, byte.toNat < 128) ∧
      number = ((bytes.take used).mapIdx fun index byte => byte.toNat % 128 * 128 ^ index).sum) ∧
    (decode bytes = .ok none ↔ bytes.length ≤ 4 ∧ ∀ byte ∈ bytes, 128 ≤ byte.toNat) ∧
    ∀ e, decode bytes = .error e ↔
      e = .lengthOverflow ∧ 4 < bytes.length ∧ ∀ byte ∈ bytes.take 4, 128 ≤ byte.toNat := by
  refine ⟨fun small => ?_, fun large => ⟨if_pos large, run_write_of_lt large⟩,
    (Partial.readBits_eq (by decide) bytes).symm, ?_, decode_eq_none, fun e => decode_eq_error⟩
  · obtain ⟨hfield, hspelled⟩ := isField_digits small
    have hlength := length_digits value
    refine ⟨digits (maxBytes - 1) value, if_neg (Nat.not_lt_of_le small),
      digits_eq_shiftOut (Nat.lt_succ_of_le small), hlength, hfield.goesOn_dropLast,
      hfield.getLast?_lt, fun rest => ?_, fun sink room => ?_⟩
    · rw [decode_field hfield, hspelled, hlength]
    · rw [← hlength] at room ⊢
      exact emits_write small sink room
  · intro number used reads
    obtain ⟨field, rest, rfl, hfield, rfl, rfl⟩ := decode_eq_some.1 reads
    obtain ⟨hone, hfour⟩ := hfield.length_mem
    refine ⟨hfield.spelled_le, hone, hfour, ?_, ?_, ?_, ?_⟩
    · rw [List.length_append]
      exact Nat.le_add_right _ _
    · rw [List.take_append_of_le_length (Nat.sub_le _ _), ← List.dropLast_eq_take]
      exact hfield.goesOn_dropLast
    · rw [List.getElem?_append_left (by omega), ← List.getLast?_eq_getElem?]
      exact hfield.getLast?_lt
    · rw [List.take_left, spelled_eq_sum]

/-- The largest number takes four full bytes, the next one none, and 1 may be spelled in three. -/
theorem one_in_three_bytes :
    encode 268435455 = .ok [0xff, 0xff, 0xff, 0x7f] ∧
      (∀ rest, decode ([0xff, 0xff, 0xff, 0x7f] ++ rest) = .ok (some (268435455, 4))) ∧
      (write 268435455).run ⟨[9], [1, 2, 3, 4, 5]⟩ = .ok () ⟨[9, 0xff, 0xff, 0xff, 0x7f], [5]⟩ ∧
      encode 268435456 = .error (.frameTooLarge 268435456 268435455) ∧
      (write 268435456).run ⟨[9], [1, 2, 3, 4, 5]⟩
        = .error (.refused (.frameTooLarge 268435456 268435455)) ⟨[9], [1, 2, 3, 4, 5]⟩ ∧
      decode [0x81, 0x80, 0x00, 0xff] = .ok (some (1, 3)) ∧
      1 = 1 * 128 ^ 0 + 0 * 128 ^ 1 + 0 * 128 ^ 2 := by
  obtain ⟨hsmall, -, -, hread, -⟩ := fields_are_numbers 268435455 [0x81, 0x80, 0x00, 0xff]
  obtain ⟨-, hlarge, -⟩ := fields_are_numbers 268435456 []
  obtain ⟨field, hfield, -, -, -, -, hback, hwritten⟩ := hsmall (by decide)
  obtain ⟨hrefused, hkept⟩ := hlarge (by decide)
  have hdigits : encode 268435455 = .ok [0xff, 0xff, 0xff, 0x7f] := rfl
  obtain rfl : field = [0xff, 0xff, 0xff, 0x7f] := Except.ok.inj (hfield.symm.trans hdigits)
  exact ⟨hfield, hback, hwritten _ (by decide), hrefused, hkept _, rfl,
    (hread 1 3 rfl).2.2.2.2.2.2⟩

end TopicTree.Length
