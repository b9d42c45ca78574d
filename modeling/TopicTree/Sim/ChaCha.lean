/-!
# The ChaCha stream

A 64-bit seed determines an endless stream of 32-bit words. The seed is stretched into eight key
words by a congruential generator with a permuted output; the words of the stream are those of the
ChaCha blocks of that key with twenty rounds, in the order of their block numbers.
-/

namespace TopicTree.ChaCha

/-- The sixteen words that a block is made from. -/
abbrev State := Vector UInt32 16

/-- Turns a word to the left. -/
def turnLeft (word count : UInt32) : UInt32 :=
  (word <<< count) ||| (word >>> (32 - count))

/-- Turns a word to the right; a turn by nothing leaves it alone. -/
def turnRight (word count : UInt32) : UInt32 :=
  if count = 0 then word else (word >>> count) ||| (word <<< (32 - count))

/-! ## Keys -/

/-- The next state of the generator that stretches a seed. -/
def nextSeed (seed : UInt64) : UInt64 :=
  seed * 6364136223846793005 + 11634580027462260723

/-- The output of a state of the generator: its middle bits, turned by its highest ones. -/
def seedWord (seed : UInt64) : UInt32 :=
  turnRight (((seed >>> 18) ^^^ seed) >>> 27).toUInt32 (seed >>> 59).toUInt32

/-- The first `count` outputs after a seed. -/
def stretch : (count : Nat) → UInt64 → List UInt32
  | 0, _ => []
  | count + 1, seed => seedWord (nextSeed seed) :: stretch count (nextSeed seed)

/-- The words in front of every block. -/
def constants : List UInt32 :=
  [0x61707865, 0x3320646e, 0x79622d32, 0x6b206574]

/-- The words of a list, as many as a state has; missing ones are 0. -/
def ofWords (words : List UInt32) : State :=
  Vector.ofFn fun i => words.getD i.val 0

/-- What a block is made from: constants, key, block number, and nothing else. -/
def start (key : List UInt32) (number : UInt64) : State :=
  ofWords (constants ++ key ++ [number.toUInt32, (number >>> 32).toUInt32])

/-! ## Rounds -/

/-- Adds word `b` to word `a`, and mixes the sum into word `d`. -/
def mix (state : State) (a b d : Fin 16) (count : UInt32) : State :=
  let sum := state[a] + state[b]
  let state := state.set a sum
  state.set d (turnLeft (state[d] ^^^ sum) count)

/-- Mixes four words. -/
def quarterRound (state : State) (a b c d : Fin 16) : State :=
  mix (mix (mix (mix state a b d 16) c d b 12) a b d 8) c d b 7

/-- Mixes the columns and then the diagonals. -/
def doubleRound (state : State) : State :=
  let state := quarterRound state 0 4 8 12
  let state := quarterRound state 1 5 9 13
  let state := quarterRound state 2 6 10 14
  let state := quarterRound state 3 7 11 15
  let state := quarterRound state 0 5 10 15
  let state := quarterRound state 1 6 11 12
  let state := quarterRound state 2 7 8 13
  quarterRound state 3 4 9 14

/-- A number of double rounds. -/
def rounds : (count : Nat) → State → State
  | 0, state => state
  | count + 1, state => rounds count (doubleRound state)

/-- The block that a state gives. -/
def block (state : State) : State :=
  Vector.zipWith (· + ·) (rounds 10 state) state

/-- The words of the stream of a seed. -/
def stream (seed : UInt64) : Nat → UInt32 :=
  let key := stretch 8 seed
  fun index =>
    (block (start key (index / 16).toUInt64)).get ⟨index % 16, Nat.mod_lt index (by decide)⟩

end TopicTree.ChaCha
