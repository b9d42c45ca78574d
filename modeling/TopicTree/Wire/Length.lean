import TopicTree.Text.Utf8
import TopicTree.Wire.Error

/-!
# The remaining-length field

A frame announces the size of its payload in one to four bytes: seven bits of the number per byte,
lowest bits first, the high bit set on every byte but the last. A reader takes one byte at a time
and refuses a fifth one. Longer spellings of a small number, padded with zero bits, are read as
well.
-/

namespace TopicTree.Length

/-- The largest number that four bytes can carry. -/
abbrev maxValue : Nat := 268435455

/-- The most bytes a field may have. -/
abbrev maxBytes : Nat := 4

/-- The bytes that a number takes. -/
def size (value : Nat) : Nat :=
  if value < 128 then 1 else if value < 16384 then 2 else if value < 2097152 then 3 else maxBytes

/-- The digits of a number to the base 128, lowest first, all but the last marked by the high bit;
at most `more + 1` of them. -/
def digits : (more : Nat) → Nat → Bytes
  | 0, value => [(value % 128).toUInt8]
  | more + 1, value =>
    if value < 128 then [value.toUInt8]
    else (value % 128 + 128).toUInt8 :: digits more (value / 128)

/-- The field for a number, if four bytes can carry it. -/
def encode (value : Nat) : Except WireError Bytes :=
  if maxValue < value then .error (.frameTooLarge value maxValue)
  else .ok (digits (maxBytes - 1) value)

/-- A field of which some bytes have arrived, all of them with the high bit set. -/
structure Partial where
  /-- The number spelled by the bytes so far. -/
  value : Nat
  /-- How many bytes there have been. -/
  count : Nat
  deriving DecidableEq, Repr

/-- A field of which nothing has arrived. -/
def Partial.start : Partial := ⟨0, 0⟩

/-- What the next byte makes of a partial field. -/
inductive Progress
  | unfinished (state : Partial)
  | finished (value : Nat)
  deriving DecidableEq, Repr

/-- Takes the next byte of a field: its seven low bits stand above those of the bytes before. A byte
after the fourth is refused. -/
def Partial.push (state : Partial) (byte : UInt8) : Except WireError Progress :=
  if state.count = maxBytes then .error .lengthOverflow
  else
    let value := state.value + (byte.toNat % 128) <<< (7 * state.count)
    if byte.toNat < 128 then .ok (.finished value)
    else .ok (.unfinished ⟨value, state.count + 1⟩)

/-- Reads on from a partial field: the number and how many bytes it took in all, or nothing if the
bytes end inside the field. -/
def Partial.read (state : Partial) : Bytes → Except WireError (Option (Nat × Nat))
  | [] => .ok none
  | byte :: rest =>
    match state.push byte with
    | .error e => .error e
    | .ok (.finished value) => .ok (some (value, state.count + 1))
    | .ok (.unfinished next) => next.read rest

/-- Reads a field from the front of `bytes`. -/
def decode (bytes : Bytes) : Except WireError (Option (Nat × Nat)) :=
  Partial.start.read bytes

end TopicTree.Length
