import TopicTree.Channel.Medium
import TopicTree.Sim.Draws

/-!
# Faulty wires

A wire has two ends. What is written at one end queues up at the other. A run of bytes that is
written arrives as it is, arrives with one byte changed, is lost, or is refused, as chance decides
at that end. A byte is changed where it waits, behind all that waited there before.
-/

namespace TopicTree

/-- What has become of the writes at one end. -/
structure WireCounts where
  /-- Writes that arrived, corrupted or not. -/
  written : Nat
  dropped : Nat
  corrupted : Nat
  refused : Nat
  deriving DecidableEq, Repr

/-- Nothing was written. -/
def WireCounts.none : WireCounts :=
  ⟨0, 0, 0, 0⟩

/-- One end of a wire. -/
structure WireEnd (G : Type := Draws) where
  /-- The bytes that wait to be received here. -/
  inbox : Bytes
  /-- The generator that decides on the writes made here. -/
  draws : G
  dropRate : Rate
  corruptRate : Rate
  /-- Every write made here is refused. -/
  refuses : Bool
  counts : WireCounts

/-- An end without faults on which nothing has happened. -/
def WireEnd.fresh {G : Type} (draws : G) : WireEnd G :=
  ⟨[], draws, .below 0, .below 0, false, .none⟩

/-- Queues bytes that have arrived. -/
def WireEnd.accept {G : Type} (receiver : WireEnd G) (bytes : Bytes) : WireEnd G :=
  { receiver with inbox := receiver.inbox ++ bytes }

/-- The two ends of a wire. -/
inductive Side
  | left
  | right
  deriving DecidableEq, Repr

/-- The end across. -/
def Side.across : Side → Side
  | left => right
  | right => left

/-- The streams of a seed: each end has one of its own. -/
def Draws.ofSeeds (seed : UInt64) : Side → Draws
  | .left => ofSeed seed
  | .right => ofSeed (seed + 1)

/-- A wire. -/
structure FaultyWire (G : Type := Draws) where
  left : WireEnd G
  right : WireEnd G

namespace FaultyWire

variable {G : Type}

/-- A wire without faults, with a generator for each end. -/
def fresh (draws : Side → G) : FaultyWire G :=
  ⟨WireEnd.fresh (draws .left), WireEnd.fresh (draws .right)⟩

/-- A wire without faults, with the streams of a seed. -/
def ofSeed (seed : UInt64) : FaultyWire :=
  fresh (Draws.ofSeeds seed)

/-- One end. -/
def get (wire : FaultyWire G) : Side → WireEnd G
  | .left => wire.left
  | .right => wire.right

/-- Changes one end. -/
def modify (wire : FaultyWire G) (side : Side) (change : WireEnd G → WireEnd G) : FaultyWire G :=
  match side with
  | .left => { wire with left := change wire.left }
  | .right => { wire with right := change wire.right }

/-- The number of bytes that wait to be received at an end. -/
def pending (wire : FaultyWire G) (side : Side) : Nat :=
  (wire.get side).inbox.length

/-- Delivers bytes to the end across from `side`, past all faults. -/
def inject (wire : FaultyWire G) (side : Side) (bytes : Bytes) : FaultyWire G :=
  wire.modify side.across (·.accept bytes)

/-- Takes the first byte that waits at an end. -/
def read (wire : FaultyWire G) (side : Side) : Option UInt8 × FaultyWire G :=
  match (wire.get side).inbox with
  | [] => (none, wire)
  | byte :: inbox => (some byte, wire.modify side fun e => { e with inbox })

/-- Takes every byte that waits at an end. -/
def drain (wire : FaultyWire G) (side : Side) : Bytes × FaultyWire G :=
  ((wire.get side).inbox, wire.modify side fun e => { e with inbox := [] })

/-- Changes one of the bytes that wait at an end. -/
def flipAt (wire : FaultyWire G) (side : Side) (index : Nat) (flip : UInt8) : FaultyWire G :=
  wire.modify side fun e => { e with inbox := e.inbox.modify index (· ^^^ flip) }

/-- An end that was changed. -/
@[simp]
theorem get_modify (wire : FaultyWire G) (side : Side) (change : WireEnd G → WireEnd G) :
    (wire.modify side change).get side = change (wire.get side) := by
  cases side <;> rfl

/-- Every byte read leaves a shorter queue. -/
theorem pending_lt {wire after : FaultyWire G} {side : Side} {byte : UInt8}
    (h : wire.read side = (some byte, after)) : after.pending side < wire.pending side := by
  unfold read at h
  split at h
  · simp at h
  · next inbox hinbox =>
    rw [← (Prod.mk.inj h).2]
    simp [pending, hinbox]

end FaultyWire

/-! ## Writing -/

/-- Reads and writes of a wire. A failure comes with the wire as it was written so far. -/
abbrev Wiring (G α : Type) :=
  EStateM TransportError (FaultyWire G) α

namespace Wiring

variable {G : Type}

/-- Changes the counts of an end. -/
def count (side : Side) (change : WireCounts → WireCounts) : Wiring G Unit :=
  modify fun wire => wire.modify side fun e => { e with counts := change e.counts }

/-- Draws from the generator of an end. -/
def draw {α : Type} (side : Side) (next : G → α × G) : Wiring G α := do
  let (result, draws) := next ((← get).get side).draws
  modify fun wire => wire.modify side fun e => { e with draws }
  return result

variable [Chance G]

/-- Changes one of the `length` bytes that wait across from `start` on, if chance has it so. -/
def corrupt (side : Side) (rate : Rate) (start length : Nat) : Wiring G Unit := do
  if ← draw side (Chance.happens rate) then
    let index := start + (← draw side (Chance.below length))
    let flip ← draw side Chance.flip
    modify fun wire => wire.flipAt side.across index flip
    count side fun counts => { counts with corrupted := counts.corrupted + 1 }

/-- Queues a run of bytes across. Where there are none, none is changed. -/
def deliver (side : Side) (rate : Rate) (bytes : Bytes) : Wiring G Unit := do
  let start := (← get).pending side.across
  modify fun wire => wire.inject side bytes
  if bytes ≠ [] then corrupt side rate start bytes.length
  count side fun counts => { counts with written := counts.written + 1 }

/-- Writes a run of bytes at an end: it is refused, lost, or queued across. -/
def write (side : Side) (bytes : Bytes) : Wiring G Unit := do
  let sender := (← get).get side
  if sender.refuses then
    count side fun counts => { counts with refused := counts.refused + 1 }
    throw (.failed "injected write failure")
  if ← draw side (Chance.happens sender.dropRate) then
    count side fun counts => { counts with dropped := counts.dropped + 1 }
  else deliver side sender.corruptRate bytes

end Wiring

/-- Writes a run of bytes at an end. -/
def FaultyWire.write {G : Type} [Chance G] (wire : FaultyWire G) (side : Side) (bytes : Bytes) :
    Except TransportError Unit × FaultyWire G :=
  match (Wiring.write side bytes).run wire with
  | .ok () after => (.ok (), after)
  | .error e after => (.error e, after)

end TopicTree
