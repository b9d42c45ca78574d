import Mathlib.Data.List.Forall2
import TopicTree.Proofs.Sim.Fate

/-!
# What arrives over a faulty wire

Whatever chance decides and whoever reads when, an end receives what was sent at the other one, in
order: what was injected, and of each write what became of it by the account of the sender. A write
adds to the end of a queue. So a byte that waits is not touched by what is written behind it, even
if that arrives changed.
-/

namespace TopicTree

/-! ## One write -/

/-- Something sent at one end of a wire. -/
inductive Sending
  /-- Bytes that pass all faults. -/
  | injected (bytes : Bytes)
  /-- Bytes that were written, with the counts of the sender before and after. -/
  | written (bytes : Bytes) (before after : WireCounts)
  deriving DecidableEq, Repr

/-- What arrives of something sent: by the counts of the sender, a write arrives as it was, is lost or
refused and nothing arrives, or arrives with one byte changed. -/
inductive Sending.Arrives : Sending → Bytes → Prop
  | injected (bytes : Bytes) : Arrives (.injected bytes) bytes
  | intact (bytes : Bytes) (counts : WireCounts) :
      Arrives (.written bytes counts { counts with written := counts.written + 1 }) bytes
  | dropped (bytes : Bytes) (counts : WireCounts) :
      Arrives (.written bytes counts { counts with dropped := counts.dropped + 1 }) []
  | refused (bytes : Bytes) (counts : WireCounts) :
      Arrives (.written bytes counts { counts with refused := counts.refused + 1 }) []
  | corrupted {bytes arriving : Bytes} (counts : WireCounts) (once : DiffersOnce bytes arriving) :
      Arrives
        (.written bytes counts
          { counts with written := counts.written + 1, corrupted := counts.corrupted + 1 })
        arriving

variable {G : Type} [Chance G]

/-- What arrives of a write, by its counts. -/
theorem WireEnd.arrives_drawFate (sender : WireEnd G) (bytes : Bytes) (counts : WireCounts) :
    (Sending.written bytes counts (counts.add (sender.drawFate bytes).1)).Arrives
      ((sender.drawFate bytes).1.arriving bytes) := by
  cases hdrawn : sender.drawFate bytes with
  | mk fate draws =>
    cases fate with
    | refused => exact .refused bytes counts
    | dropped => exact .dropped bytes counts
    | intact => exact .intact bytes counts
    | corrupted index flip =>
      obtain ⟨inside, flips⟩ := index_lt_of_drawFate hdrawn
      exact .corrupted counts (differsOnce_modify inside flips)

/-- Whether the counts are those of so many writes, each of which arrived, was lost or was refused;
only writes that arrived are counted as changed. -/
structure WireCounts.Of (writes : Nat) (counts : WireCounts) : Prop where
  total : counts.written + counts.dropped + counts.refused = writes
  corrupted_le : counts.corrupted ≤ counts.written

/-- One more write is counted once. -/
theorem WireCounts.Of.add {writes : Nat} {counts : WireCounts} (h : counts.Of writes) (fate : Fate) :
    (counts.add fate).Of (writes + 1) := by
  obtain ⟨total, corrupted_le⟩ := h
  constructor <;> cases fate <;> simp only [WireCounts.add] <;> omega

/-! ## Everything done at a wire -/

/-- What can be done at one end of a wire. -/
inductive WireAct (G : Type)
  | write (bytes : Bytes)
  | read
  | drain
  | inject (bytes : Bytes)
  | dropRate (rate : Rate)
  | corruptRate (rate : Rate)
  | refuse (refuses : Bool)
  /-- From now on another generator decides. -/
  | chance (draws : G)

/-- Whether an act is a write. -/
def WireAct.isWrite {G : Type} : WireAct G → Bool
  | write _ => true
  | _ => false

namespace FaultyWire

/-- Does something at one end. The answer is what it takes out there, and the wire after it. -/
def act (wire : FaultyWire G) (side : Side) : WireAct G → Bytes × FaultyWire G
  | .write bytes => ([], (wire.write side bytes).2)
  | .read => ((wire.read side).1.toList, (wire.read side).2)
  | .drain => wire.drain side
  | .inject bytes => ([], wire.inject side bytes)
  | .dropRate dropRate => ([], wire.modify side fun e => { e with dropRate })
  | .corruptRate corruptRate => ([], wire.modify side fun e => { e with corruptRate })
  | .refuse refuses => ([], wire.modify side fun e => { e with refuses })
  | .chance draws => ([], wire.modify side fun e => { e with draws })

/-- The wire after acts at its two ends. -/
def acts (wire : FaultyWire G) : List (Side × WireAct G) → FaultyWire G
  | [] => wire
  | (side, act) :: rest => (wire.act side act).2.acts rest

/-- What acts at one end take out there. -/
def taken (wire : FaultyWire G) (side : Side) : List (Side × WireAct G) → Bytes
  | [] => []
  | (actor, act) :: rest =>
    (if actor = side then (wire.act actor act).1 else []) ++ (wire.act actor act).2.taken side rest

/-- What an act at an end sends, if it sends anything. -/
def sending? (wire : FaultyWire G) (side : Side) : WireAct G → Option Sending
  | .write bytes =>
    some (.written bytes (wire.get side).counts ((wire.write side bytes).2.get side).counts)
  | .inject bytes => some (.injected bytes)
  | _ => none

/-- What acts at one end send, in order. -/
def sendings (wire : FaultyWire G) (side : Side) : List (Side × WireAct G) → List Sending
  | [] => []
  | (actor, act) :: rest =>
    (if actor = side then (wire.sending? actor act).toList else [])
      ++ (wire.act actor act).2.sendings side rest

end FaultyWire

namespace Side

@[simp]
theorem across_across (side : Side) : side.across.across = side := by
  cases side <;> rfl

theorem ne_across (side : Side) : side ≠ side.across := by
  cases side <;> decide

/-- Of two ends one is the other one or across from it. -/
theorem eq_or_eq_across (side other : Side) : side = other ∨ side = other.across := by
  cases side <;> cases other <;> decide

/-- The number of writes at one end among some acts. -/
def writes (side : Side) (acts : List (Side × WireAct G)) : Nat :=
  acts.countP fun (actor, act) => actor = side && act.isWrite

end Side

namespace FaultyWire

/-! ## One act -/

section OneAct

variable (wire : FaultyWire G) (side : Side)

omit [Chance G] in
/-- A read takes the first byte that waits, if there is one. -/
theorem read_eq : wire.read side = ((wire.get side).inbox.head?,
    wire.modify side fun e => { e with inbox := e.inbox.tail }) := by
  obtain ⟨⟨left, _, _, _, _, _⟩, ⟨right, _, _, _, _, _⟩⟩ := wire
  cases side
  · cases left <;> rfl
  · cases right <;> rfl

/-- A write is counted where it is made, and makes no other difference there but for chance. -/
theorem get_write (bytes : Bytes) : (wire.write side bytes).2.get side
    = (wire.get side).record ((wire.get side).drawFate bytes).1
        ((wire.get side).drawFate bytes).2 := by
  rw [write_eq, settle, get_inject, get_modify]

/-- What arrives of a write is queued behind all that waits across. -/
theorem get_across_write (bytes : Bytes) : (wire.write side bytes).2.get side.across
    = (wire.get side.across).accept (((wire.get side).drawFate bytes).1.arriving bytes) := by
  rw [write_eq, settle, inject, get_modify, get_modify_across]

/-- What waits at an end where something is done is what is taken out and what waits then. -/
theorem taken_append_inbox (done : WireAct G) :
    (wire.act side done).1 ++ ((wire.act side done).2.get side).inbox = (wire.get side).inbox := by
  cases done with
  | write bytes => simp only [act, get_write, WireEnd.record, List.nil_append]
  | read =>
    simp only [act, read_eq, get_modify]
    cases (wire.get side).inbox <;> rfl
  | drain => simp [act, drain]
  | inject bytes => simp [act, inject]
  | dropRate | corruptRate | refuse | chance => simp [act]

/-- What is sent at the end across is queued behind all that waits, as far as it arrives. -/
theorem exists_arrival (done : WireAct G) :
    ∃ arrivals, List.Forall₂ Sending.Arrives (wire.sending? side done).toList arrivals ∧
      ((wire.act side done).2.get side.across).inbox
        = (wire.get side.across).inbox ++ arrivals.flatten := by
  cases done with
  | write bytes =>
    refine ⟨[((wire.get side).drawFate bytes).1.arriving bytes], ?_, ?_⟩
    · simp only [sending?, get_write, WireEnd.record, Option.toList_some]
      exact .cons (WireEnd.arrives_drawFate _ bytes _) .nil
    · simp [act, get_across_write, WireEnd.accept]
  | inject bytes =>
    exact ⟨[bytes], .cons (.injected bytes) .nil, by simp [act, inject, WireEnd.accept]⟩
  | read | drain | dropRate | corruptRate | refuse | chance =>
    exact ⟨[], .nil, by simp [act, read_eq, drain]⟩

/-- What is done at an end makes a difference to its counts only if it is a write. -/
theorem counts_act {writes : Nat} (h : (wire.get side).counts.Of writes) (done : WireAct G) :
    ((wire.act side done).2.get side).counts.Of (writes + done.isWrite.toNat) := by
  cases done with
  | write bytes =>
    simp only [act, get_write]
    exact h.add _
  | read | drain | inject | dropRate | corruptRate | refuse | chance =>
    simpa [act, read_eq, drain, inject, WireAct.isWrite] using h

/-- What is done at an end makes no difference to the counts of the other one. -/
theorem counts_act_across (done : WireAct G) :
    ((wire.act side done).2.get side.across).counts = (wire.get side.across).counts := by
  cases done with
  | write bytes => simp only [act, get_across_write, WireEnd.accept]
  | read | drain | inject | dropRate | corruptRate | refuse | chance =>
    simp [act, read_eq, drain, inject, WireEnd.accept]

end OneAct

/-! ## All acts -/

section AllActs

variable (wire : FaultyWire G) (side : Side) (acts : List (Side × WireAct G))

/-- What an end has received and what waits there are what waited there before and what was sent at
the end across since, as far as it arrived. -/
theorem taken_acts :
    ∃ arrivals, List.Forall₂ Sending.Arrives (wire.sendings side.across acts) arrivals ∧
      wire.taken side acts ++ ((wire.acts acts).get side).inbox
        = (wire.get side).inbox ++ arrivals.flatten := by
  induction acts generalizing wire with
  | nil => exact ⟨[], .nil, (List.append_nil _).symm⟩
  | cons first rest ih =>
    obtain ⟨actor, done⟩ := first
    obtain ⟨later, hlater, hrest⟩ := ih (wire.act actor done).2
    rcases actor.eq_or_eq_across side with rfl | rfl
    · refine ⟨later, ?_, ?_⟩
      · simpa [sendings, actor.ne_across] using hlater
      · rw [taken, if_pos rfl, acts, List.append_assoc, hrest, ← List.append_assoc,
          taken_append_inbox]
    · obtain ⟨now, hnow, hinbox⟩ := wire.exists_arrival side.across done
      rw [Side.across_across] at hinbox
      refine ⟨now ++ later, ?_, ?_⟩
      · rw [sendings, if_pos rfl]
        exact List.rel_append hnow hlater
      · rw [taken, if_neg side.ne_across.symm, acts, List.nil_append, hrest, hinbox,
          List.append_assoc, List.flatten_append]

/-- The counts of an end are those of the writes made there. -/
theorem counts_acts {writes : Nat} (h : (wire.get side).counts.Of writes) :
    ((wire.acts acts).get side).counts.Of (writes + side.writes acts) := by
  induction acts generalizing wire writes with
  | nil => exact h
  | cons first rest ih =>
    obtain ⟨actor, done⟩ := first
    rcases actor.eq_or_eq_across side with rfl | rfl
    · have hrest := ih _ (wire.counts_act actor h done)
      have hone : actor.writes ((actor, done) :: rest) = done.isWrite.toNat + actor.writes rest := by
        cases done <;> simp [Side.writes, WireAct.isWrite, Nat.add_comm]
      rw [hone, ← Nat.add_assoc]
      exact hrest
    · have hsame := wire.counts_act_across side.across done
      rw [Side.across_across] at hsame
      have hrest := ih (wire.act side.across done).2 (hsame ▸ h)
      simpa [acts, Side.writes, List.countP_cons, side.ne_across.symm] using hrest

end AllActs

/-- Whatever chance decides, and whatever is written, injected, read and set at the two ends of a
wire in whatever order: what one end has received, followed by what waits there, is all that was sent
at the other one, in order. Of that each injection arrived as it is, and each write as the counts
tell: as it was, with exactly one byte changed, or not at all where it was lost or refused. Every
write made at an end is counted once, as one of those that arrived, were lost or were refused, and
no more are counted as changed than arrived. A write leaves all bytes that wait at either end as
they are. -/
theorem bytes_arrive_in_order (draws : Side → G) (acts : List (Side × WireAct G)) (side : Side) :
    let start := fresh draws
    let wire := start.acts acts
    (∃ arrivals, List.Forall₂ Sending.Arrives (start.sendings side.across acts) arrivals ∧
      start.taken side acts ++ (wire.get side).inbox = arrivals.flatten) ∧
    (wire.get side).counts.written + (wire.get side).counts.dropped
      + (wire.get side).counts.refused = side.writes acts ∧
    (wire.get side).counts.corrupted ≤ (wire.get side).counts.written ∧
    ∀ writer bytes, (wire.get side).inbox <+: ((wire.write writer bytes).2.get side).inbox := by
  intro start wire
  have hfresh : (start.get side).inbox = [] ∧ (start.get side).counts = .none := by
    cases side <;> exact ⟨rfl, rfl⟩
  have hnone : (start.get side).counts.Of 0 := by
    rw [hfresh.2]
    exact ⟨rfl, Nat.le_refl 0⟩
  have hcounts := start.counts_acts side acts hnone
  refine ⟨?_, hcounts.total.trans (Nat.zero_add _), hcounts.corrupted_le, fun writer bytes => ?_⟩
  · simpa [hfresh.1] using start.taken_acts side acts
  · rcases writer.eq_or_eq_across side with rfl | rfl
    · rw [get_write]
      exact List.prefix_rfl
    · have hacross := wire.get_across_write side.across bytes
      rw [Side.across_across] at hacross
      rw [hacross]
      exact List.prefix_append _ _

end FaultyWire
end TopicTree
