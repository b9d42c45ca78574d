import TopicTree.Sim.ChaCha
import TopicTree.Sim.Chance

/-!
# Draws from a stream

A generator may be a stream of words and how far it has been read. Draws take words from the front:
one for a draw of 32 bits, two for one of 64. A number below a bound comes from multiplying a draw
by the bound and taking the high half; draws whose low half is too high would favour some numbers,
and are thrown away.
-/

namespace TopicTree

/-- A stream of words, read so far. -/
structure Draws where
  words : Nat → UInt32
  /-- The number of words that have been taken. -/
  taken : Nat

namespace Draws

/-- The stream of a seed, from its start. -/
def ofSeed (seed : UInt64) : Draws :=
  ⟨ChaCha.stream seed, 0⟩

/-- The number of words. -/
abbrev wordSpan : Nat := 0x100000000

/-- The number of pairs of words. -/
abbrev longSpan : Nat := 0x10000000000000000

/-- A draw of 32 bits. -/
def word (draws : Draws) : Nat × Draws :=
  ((draws.words draws.taken).toNat, { draws with taken := draws.taken + 1 })

/-- A draw of 64 bits, low word first. -/
def long (draws : Draws) : Nat × Draws :=
  let (low, draws) := draws.word
  let (high, draws) := draws.word
  (high * wordSpan + low, draws)

/-- Whether something of a given rate happens this time. What always happens needs no draw. -/
def chance (draws : Draws) : Rate → Bool × Draws
  | .always => (true, draws)
  | .below bound =>
    let (value, draws) := draws.long
    (value < bound.toNat, draws)

/-- Draws until the low half of a draw times `bound` is at most `zone`, and gives the high half. A
draw has `span` values. After `tries` draws without success the answer is 0: there are streams on
which no draw succeeds, and a search that goes on for ever has no answer. -/
def search (draw : Draws → Nat × Draws) (span bound zone : Nat) :
    (tries : Nat) → Draws → Nat × Draws
  | 0, draws => (0, draws)
  | tries + 1, draws =>
    let (value, draws) := draw draws
    if value * bound % span ≤ zone then (value * bound / span, draws)
    else search draw span bound zone tries draws

/-- The draws after which a search is given up. Of all words at least half are a success. -/
abbrev maxTries : Nat := 256

/-- A number below `bound`, which is not 0. -/
def below (draws : Draws) (bound : Nat) : Nat × Draws :=
  draws.search long longSpan bound (bound <<< (63 - bound.log2) - 1) maxTries

/-- The highest low half of a draw for a flip: so many values are a multiple of 255. -/
abbrev flipZone : Nat := wordSpan - 1 - (wordSpan - 255) % 255

/-- A byte that is not 0. -/
def flip (draws : Draws) : UInt8 × Draws :=
  let (value, draws) := draws.search word wordSpan 255 flipZone maxTries
  ((value + 1).toUInt8, draws)

/-- A draw of 32 bits is a word. -/
theorem word_lt (draws : Draws) : draws.word.1 < wordSpan :=
  (draws.words draws.taken).toNat_lt

/-- A draw of 64 bits is a pair of words. -/
theorem long_lt (draws : Draws) : draws.long.1 < longSpan := by
  have hlow := word_lt draws
  have hhigh := word_lt draws.word.2
  simp only [long, wordSpan, longSpan] at *
  omega

/-- What a search finds is below its bound. -/
theorem search_lt {draw : Draws → Nat × Draws} {span bound zone : Nat}
    (hdraw : ∀ draws, (draw draws).1 < span) (hbound : 0 < bound) (tries : Nat) (draws : Draws) :
    (search draw span bound zone tries draws).1 < bound := by
  induction tries generalizing draws with
  | zero => exact hbound
  | succ tries ih =>
    simp only [search]
    split
    · rw [Nat.div_lt_iff_lt_mul (Nat.zero_lt_of_lt (hdraw draws)), Nat.mul_comm]
      exact Nat.mul_lt_mul_of_pos_left (hdraw draws) hbound
    · exact ih _

/-- A number drawn below a bound is below it. -/
theorem below_lt (draws : Draws) {bound : Nat} (h : 0 < bound) : (draws.below bound).1 < bound :=
  search_lt long_lt h maxTries draws

/-- A byte drawn for a flip is not 0. -/
theorem flip_ne_zero (draws : Draws) : draws.flip.1 ≠ 0 := by
  have h : (draws.search word wordSpan 255 flipZone maxTries).1 < 255 :=
    search_lt word_lt (by decide) maxTries draws
  simp only [flip]
  generalize (draws.search word wordSpan 255 flipZone maxTries).1 = value at h
  intro hzero
  have := congrArg UInt8.toNat hzero
  simp only [Nat.toUInt8, UInt8.toNat_ofNat, UInt8.toNat_ofNat'] at this
  omega

/-- What has no chance to happen does not happen. -/
theorem chance_never (draws : Draws) : (draws.chance (.below 0)).1 = false := by
  simp [chance]

instance : Chance Draws where
  happens rate draws := draws.chance rate
  below bound draws := draws.below bound
  flip := flip
  happens_never := chance_never
  below_lt draws := below_lt draws
  flip_ne_zero := flip_ne_zero

end Draws
end TopicTree
