import TopicTree.Error
import TopicTree.Wire.Frame

/-!
# Message pools

A pool has a fixed number of slots for frames. A slot is free or has holders; several holders share
its frame, and the slot is free again, its frame cleared, when the last one lets go. There is no
waiting: when no slot is free, a claim is refused.
-/

namespace TopicTree

/-- A place for one frame. -/
structure Slot where
  /-- How many hold the frame. -/
  holders : Nat
  frame : Frame
  deriving DecidableEq, Repr

/-- A slot that nobody holds. -/
def Slot.free : Slot :=
  ⟨0, Frame.cleared⟩

/-- A fixed row of slots. -/
structure Pool where
  slots : List Slot
  deriving DecidableEq, Repr

namespace Pool

/-- A pool of free slots. -/
def ofSize (capacity : Nat) : Pool :=
  ⟨List.replicate capacity Slot.free⟩

/-- The number of slots. -/
def capacity (pool : Pool) : Nat :=
  pool.slots.length

/-- The number of free slots. -/
def available (pool : Pool) : Nat :=
  pool.slots.countP (·.holders = 0)

/-- Changes one slot. -/
def modify (pool : Pool) (slot : Nat) (change : Slot → Slot) : Pool :=
  ⟨pool.slots.modify slot change⟩

/-- Claims the first free slot. -/
def acquire (pool : Pool) : Except Error (Nat × Pool) :=
  match pool.slots.findIdx? (·.holders = 0) with
  | some slot => .ok (slot, pool.modify slot fun s => { s with holders := 1 })
  | none => .error (.poolExhausted pool.capacity)

/-- Replaces the frame of a slot. -/
def write (pool : Pool) (slot : Nat) (frame : Frame) : Pool :=
  pool.modify slot fun s => { s with frame }

/-- Claims the first free slot for a frame. -/
def bind (pool : Pool) (frame : Frame) : Except Error (Nat × Pool) := do
  let (slot, pool) ← pool.acquire
  return (slot, pool.write slot frame)

/-- Adds a holder to a slot. -/
def retain (pool : Pool) (slot : Nat) : Pool :=
  pool.modify slot fun s => { s with holders := s.holders + 1 }

/-- Takes a holder away from a slot; without holders its frame is cleared. -/
def release (pool : Pool) (slot : Nat) : Pool :=
  pool.modify slot fun s => if s.holders ≤ 1 then Slot.free else { s with holders := s.holders - 1 }

/-- Claims slots until `count` are claimed or none is free. -/
def acquireUpTo : (count : Nat) → Pool → List Nat × Pool
  | 0, pool => ([], pool)
  | count + 1, pool =>
    match pool.acquire with
    | .error _ => ([], pool)
    | .ok (slot, pool) =>
      let (slots, pool) := acquireUpTo count pool
      (slot :: slots, pool)

/-- Takes one holder away from each of some slots. -/
def releaseAll (pool : Pool) (slots : List Nat) : Pool :=
  slots.foldl release pool

/-- The slot at an index. -/
def slotAt (pool : Pool) (slot : Nat) : Slot :=
  pool.slots.getD slot Slot.free

/-- The summary of a pool for logs. -/
def summary (pool : Pool) : String :=
  "MessagePool \x7b capacity: " ++ toString pool.capacity ++ ", available: "
    ++ toString pool.available ++ " \x7d"

/-- The summary of one holder's message for logs. -/
def messageSummary (pool : Pool) (slot : Nat) : String :=
  "Message \x7b slot: " ++ toString slot ++ ", refs: " ++ toString (pool.slotAt slot).holders
    ++ ", header: " ++ toString (pool.slotAt slot).frame.header.toNat ++ " \x7d"

end Pool

namespace Frame

/-- The delivery class of a frame. Only a PUBLISH chooses one. -/
def qos (frame : Frame) : Except WireError Qos := do
  let type ← frame.packetType
  if type = .publish then frame.flags.qos else .ok .atMostOnce

/-- Whether a frame is a PUBLISH to be retained. -/
def isRetained (frame : Frame) : Bool :=
  match frame.packetType with
  | .ok type => type = .publish && frame.flags.retain
  | .error _ => false

end Frame
end TopicTree
