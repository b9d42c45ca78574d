import TopicTree.Sim.FaultyWire

/-!
# The fate of a write

A write draws, queues bytes, changes one of those that wait and counts, one after the other, in a
wire that stands in between as it was left. What comes of all that is said in one word, which
depends on nothing but the bytes and the draws: the fate of the write.
-/

namespace TopicTree

open EStateM (Result run_bind run_get run_modify run_throw)

/-- Whether bytes are as many as others and differ from them in exactly one place. -/
def DiffersOnce (bytes arriving : Bytes) : Prop :=
  ∃ front old new back, bytes = front ++ old :: back ∧ arriving = front ++ new :: back ∧ new ≠ old

/-- A byte that is flipped is another one. -/
theorem xor_ne_self (byte : UInt8) {flip : UInt8} (h : flip ≠ 0) : byte ^^^ flip ≠ byte := by
  intro heq
  refine h ?_
  calc flip = byte ^^^ (byte ^^^ flip) := by rw [← UInt8.xor_assoc, UInt8.xor_self, UInt8.zero_xor]
    _ = 0 := by rw [heq, UInt8.xor_self]

/-- Bytes of which one is flipped differ in that place. -/
theorem differsOnce_modify {bytes : Bytes} {index : Nat} {flip : UInt8}
    (inside : index < bytes.length) (flips : flip ≠ 0) :
    DiffersOnce bytes (bytes.modify index (· ^^^ flip)) :=
  ⟨bytes.take index, bytes[index], bytes[index] ^^^ flip, bytes.drop (index + 1), by simp,
    List.modify_eq_take_cons_drop inside, xor_ne_self _ flips⟩

/-- What becomes of a run of bytes that is written. -/
inductive Fate
  /-- The write fails. -/
  | refused
  /-- The bytes are lost. -/
  | dropped
  /-- The bytes arrive. -/
  | intact
  /-- The bytes arrive, the one at `index` changed by `flip`. -/
  | corrupted (index : Nat) (flip : UInt8)
  deriving DecidableEq, Repr

namespace Fate

/-- The bytes that arrive. -/
def arriving (bytes : Bytes) : Fate → Bytes
  | refused => []
  | dropped => []
  | intact => bytes
  | corrupted index flip => bytes.modify index (· ^^^ flip)

/-- The result of a write. -/
def outcome : Fate → Except TransportError Unit
  | refused => .error (.failed "injected write failure")
  | _ => .ok ()

end Fate

/-- Counts one more write. -/
def WireCounts.add (counts : WireCounts) : Fate → WireCounts
  | .refused => { counts with refused := counts.refused + 1 }
  | .dropped => { counts with dropped := counts.dropped + 1 }
  | .intact => { counts with written := counts.written + 1 }
  | .corrupted .. =>
    { counts with written := counts.written + 1, corrupted := counts.corrupted + 1 }

variable {G : Type}

/-- Counts a write, after which chance stands at `draws`. -/
def WireEnd.record (sender : WireEnd G) (fate : Fate) (draws : G) : WireEnd G :=
  { sender with draws, counts := sender.counts.add fate }

/-- Counts a write of bytes at an end, and queues across what arrives of them. -/
def FaultyWire.settle (wire : FaultyWire G) (side : Side) (bytes : Bytes) (fate : Fate)
    (draws : G) : FaultyWire G :=
  (wire.modify side (·.record fate draws)).inject side (fate.arriving bytes)

/-- A byte behind a queue is changed as it would be changed in front of it. -/
theorem modify_append (queue bytes : Bytes) (index : Nat) (change : UInt8 → UInt8) :
    (queue ++ bytes).modify (queue.length + index) change = queue ++ bytes.modify index change := by
  induction queue with
  | nil => simp
  | cons first rest ih => simpa [Nat.add_right_comm] using ih

section Draw

variable [Chance G]

/-- Whether a run of bytes that is not lost is changed, and where and how. Where there are no bytes,
none is changed. -/
def Fate.drawArrival (rate : Rate) (bytes : Bytes) (draws : G) : Fate × G :=
  if bytes = [] then (.intact, draws)
  else
    let (changed, draws) := Chance.happens rate draws
    if changed then
      let (index, draws) := Chance.below bytes.length draws
      let (flip, draws) := Chance.flip draws
      (.corrupted index flip, draws)
    else (.intact, draws)

/-- What chance decides for a run of bytes. -/
def WireEnd.drawFate (sender : WireEnd G) (bytes : Bytes) : Fate × G :=
  if sender.refuses then (.refused, sender.draws)
  else
    let (lost, draws) := Chance.happens sender.dropRate sender.draws
    if lost then (.dropped, draws) else Fate.drawArrival sender.corruptRate bytes draws

/-- What arrives changed is changed in one of its bytes. -/
theorem Fate.index_lt_of_drawArrival {rate : Rate} {bytes : Bytes} {start draws : G} {index : Nat}
    {flip : UInt8} (drawn : Fate.drawArrival rate bytes start = (.corrupted index flip, draws)) :
    index < bytes.length ∧ flip ≠ 0 := by
  unfold drawArrival at drawn
  split at drawn
  · cases drawn
  · next hsome =>
    simp only at drawn
    split at drawn
    · simp only [Prod.mk.injEq, Fate.corrupted.injEq] at drawn
      obtain ⟨⟨rfl, rfl⟩, -⟩ := drawn
      exact ⟨Chance.below_lt _ (List.length_pos_iff.2 hsome), Chance.flip_ne_zero _⟩
    · cases drawn

/-- What is not lost arrives. -/
theorem Fate.outcome_drawArrival (rate : Rate) (bytes : Bytes) (draws : G) :
    (drawArrival rate bytes draws).1.outcome = .ok () := by
  simp only [drawArrival]
  split
  · rfl
  · split <;> rfl

/-- Where a write is changed, it is changed in one of its bytes. -/
theorem WireEnd.index_lt_of_drawFate {sender : WireEnd G} {bytes : Bytes} {draws : G} {index : Nat}
    {flip : UInt8} (drawn : sender.drawFate bytes = (.corrupted index flip, draws)) :
    index < bytes.length ∧ flip ≠ 0 := by
  unfold drawFate at drawn
  split at drawn
  · cases drawn
  · simp only at drawn
    split at drawn
    · cases drawn
    · exact Fate.index_lt_of_drawArrival drawn

end Draw

/-! ## Writing in place -/

namespace FaultyWire

section Modify

variable (wire : FaultyWire G) (side : Side)

/-- The end across from the one that was changed. -/
@[simp]
theorem get_modify_across (change : WireEnd G → WireEnd G) :
    (wire.modify side change).get side.across = wire.get side.across := by
  cases side <;> rfl

/-- The end across from which something was changed. -/
@[simp]
theorem get_across_modify (change : WireEnd G → WireEnd G) :
    (wire.modify side.across change).get side = wire.get side := by
  cases side <;> rfl

variable {wire side} in
/-- Changes that come to the same on an end come to the same on the wire. -/
theorem modify_congr {first second : WireEnd G → WireEnd G}
    (h : first (wire.get side) = second (wire.get side)) :
    wire.modify side first = wire.modify side second := by
  cases side
  · exact congrArg (FaultyWire.mk · wire.right) h
  · exact congrArg (FaultyWire.mk wire.left) h

variable {wire side} in
/-- Changes that come to the same on an end come to the same before bytes are queued across. -/
theorem inject_congr {first second : WireEnd G → WireEnd G} {bytes : Bytes}
    (h : first (wire.get side) = second (wire.get side)) :
    (wire.modify side first).inject side bytes = (wire.modify side second).inject side bytes :=
  congrArg (inject · side bytes) (modify_congr h)

/-- What is changed twice is changed once by both. -/
theorem modify_modify (first second : WireEnd G → WireEnd G) :
    (wire.modify side first).modify side second = wire.modify side fun e => second (first e) := by
  cases side <;> rfl

/-- Whether bytes are queued across before or after an end is changed makes no difference. -/
theorem modify_inject (bytes : Bytes) (change : WireEnd G → WireEnd G) :
    (wire.inject side bytes).modify side change = (wire.modify side change).inject side bytes := by
  cases side <;> rfl

/-- Bytes that are queued across make no difference to an end. -/
@[simp]
theorem get_inject (bytes : Bytes) : (wire.inject side bytes).get side = wire.get side :=
  get_across_modify wire side _

/-- No bytes are queued. -/
theorem inject_nil : wire.inject side [] = wire := by
  obtain ⟨left, right⟩ := wire
  cases side <;> simp [inject, modify, Side.across, WireEnd.accept]

/-- Bytes that were queued are changed behind all that waited before. -/
theorem flipAt_inject (bytes : Bytes) (index : Nat) (flip : UInt8) {start : Nat}
    (hstart : wire.pending side.across = start) :
    (wire.inject side bytes).flipAt side.across (start + index) flip
      = wire.inject side (bytes.modify index (· ^^^ flip)) := by
  subst hstart
  simp only [flipAt, inject, modify_modify]
  refine modify_congr ?_
  simp only [WireEnd.accept, pending, modify_append]

end Modify

end FaultyWire

namespace Wiring

open FaultyWire

theorem run_count (side : Side) (change : WireCounts → WireCounts) (wire : FaultyWire G) :
    (count side change).run wire
      = .ok () (wire.modify side fun e => { e with counts := change e.counts }) :=
  rfl

theorem run_draw {α : Type} (side : Side) (next : G → α × G) (wire : FaultyWire G) :
    (draw side next).run wire = .ok (next (wire.get side).draws).1
      (wire.modify side fun e => { e with draws := (next (wire.get side).draws).2 }) :=
  rfl

variable [Chance G]

/-- Bytes that are queued and then changed where they wait are queued as they arrive. -/
theorem run_deliver (side : Side) (rate : Rate) (bytes : Bytes) (wire : FaultyWire G) :
    (deliver side rate bytes).run wire
      = .ok () (wire.settle side bytes (Fate.drawArrival rate bytes (wire.get side).draws).1
          (Fate.drawArrival rate bytes (wire.get side).draws).2) := by
  by_cases hsome : bytes = []
  case pos =>
    simp only [deliver, hsome, ne_eq, not_true_eq_false, ↓reduceIte, run_bind, run_get,
      run_modify, run_count, modify_inject, settle, Fate.drawArrival, Fate.arriving, Result.ok.injEq,
      true_and]
    exact inject_congr rfl
  case neg =>
    cases hchanged : (Chance.happens rate (wire.get side).draws).1 with
    | false =>
      simp only [deliver, ne_eq, hsome, not_false_eq_true, ↓reduceIte, corrupt, bind_assoc,
        run_bind, run_get, run_modify, run_draw, get_inject, hchanged, modify_inject,
        Bool.false_eq_true, pure_bind, run_count, modify_modify, settle, Fate.drawArrival,
        Fate.arriving, Result.ok.injEq, true_and]
      exact inject_congr rfl
    | true =>
      simp only [deliver, ne_eq, hsome, not_false_eq_true, ↓reduceIte, corrupt, bind_assoc,
        run_bind, run_get, run_modify, run_draw, get_inject, hchanged, modify_inject, get_modify,
        modify_modify, run_count, settle, Fate.drawArrival, Fate.arriving, Result.ok.injEq,
        true_and]
      rw [flipAt_inject, modify_inject, modify_modify]
      · exact inject_congr rfl
      · simp [pending]

end Wiring

/-- A write in place comes to the same as settling what was drawn. -/
theorem FaultyWire.write_eq [Chance G] (wire : FaultyWire G) (side : Side) (bytes : Bytes) :
    wire.write side bytes
      = (((wire.get side).drawFate bytes).1.outcome,
          wire.settle side bytes ((wire.get side).drawFate bytes).1
            ((wire.get side).drawFate bytes).2) := by
  cases hrefuses : (wire.get side).refuses with
  | true =>
    simp only [write, Wiring.write, run_bind, run_get, hrefuses, ↓reduceIte, Wiring.run_count,
      run_throw, Fate.outcome, WireEnd.drawFate, settle, Fate.arriving, inject_nil, Prod.mk.injEq,
      true_and]
    exact modify_congr rfl
  | false =>
    cases hlost : (Chance.happens (wire.get side).dropRate (wire.get side).draws).1 with
    | true =>
      simp only [write, Wiring.write, run_bind, run_get, hrefuses, Bool.false_eq_true,
        ↓reduceIte, Wiring.run_draw, hlost, Wiring.run_count, modify_modify, Fate.outcome,
        WireEnd.drawFate, settle, Fate.arriving, inject_nil, Prod.mk.injEq, true_and]
      exact modify_congr rfl
    | false =>
      simp only [write, Wiring.write, run_bind, run_get, hrefuses, Bool.false_eq_true,
        ↓reduceIte, Wiring.run_draw, hlost, Wiring.run_deliver, settle, get_modify, modify_modify,
        WireEnd.drawFate, Fate.outcome_drawArrival, Prod.mk.injEq, true_and]
      exact inject_congr rfl

end TopicTree
