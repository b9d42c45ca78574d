import TopicTree.Proofs.Slots
import Mathlib.Data.List.Dedup
import Mathlib.Data.List.GetD
import Mathlib.Data.List.Induction
import Mathlib.Data.List.Perm.Basic

/-!
# Pools and the handles to them

Those who use a pool hold handles to its slots. They claim a slot, copy a handle, change the frame
behind one and let one go, in any order. At every moment a slot is held by as many as there are
handles to it, its frame is the last one put there, and a slot without handles is cleared.

What is done with a pool is told for a pool of any make, because a pool can be kept in other ways
than as a row of slots. A pool is shared, not copied: all who have it claim the same slots.
-/

namespace TopicTree

/-! ## What is done with a pool -/

/-- What a pool does for those who use it. -/
class Lends (P : Type) where
  acquire : EStateM Error P Nat
  bind : Frame → EStateM Error P Nat
  write : P → Nat → Frame → P
  retain : P → Nat → P
  release : P → Nat → P

instance : Lends Pool :=
  ⟨fun pool => settled pool pool.acquire, fun frame pool => settled pool (pool.bind frame),
    Pool.write, Pool.retain, Pool.release⟩

/-- What a claim of a slot comes to, and the pool after it. -/
abbrev Claim (P : Type) :=
  EStateM.Result Error P Nat

/-- A pool and what was handed out of it. -/
structure Lending (P : Type) where
  pool : P
  /-- The slot behind each handle that somebody has. -/
  handles : List Nat
  /-- The frames put into slots, the last one first. A claim puts the frame it is for. -/
  puts : List (Nat × Frame)

/-- Something done with a pool. A handle is named by its place among those there are. -/
inductive Lending.Act
  /-- Claims a slot. -/
  | acquire
  /-- Claims a slot for a frame. -/
  | bind (frame : Frame)
  /-- Copies a handle. -/
  | copy (handle : Nat)
  /-- Changes the frame behind a handle to another. -/
  | write (handle : Nat) (frame : Frame)
  /-- Lets a handle go. -/
  | release (handle : Nat)
  deriving DecidableEq, Repr

namespace Lending

variable {P : Type} [Lends P]

/-- What is left after a claim for a frame. A claim that is refused hands out nothing. -/
def claimed (state : Lending P) (frame : Frame) : Claim P → Lending P
  | .ok slot pool => ⟨pool, state.handles ++ [slot], (slot, frame) :: state.puts⟩
  | .error _ pool => { state with pool }

/-- The claim that an act makes, and the frame it is for. -/
def claim? (state : Lending P) : Act → Option (Claim P × Frame)
  | .acquire => some (Lends.acquire.run state.pool, Frame.cleared)
  | .bind frame => some ((Lends.bind frame).run state.pool, frame)
  | _ => none

/-- The slot that an act reaches through a handle. -/
def slot? (state : Lending P) : Act → Option Nat
  | .copy handle => state.handles[handle]?
  | .write handle _ => state.handles[handle]?
  | .release handle => state.handles[handle]?
  | _ => none

/-- What is left after a handle is used. -/
def used (state : Lending P) (slot : Nat) : Act → Lending P
  | .copy _ => { state with
      pool := Lends.retain state.pool slot, handles := state.handles ++ [slot] }
  | .write _ frame => { state with
      pool := Lends.write state.pool slot frame, puts := (slot, frame) :: state.puts }
  | .release handle => { state with
      pool := Lends.release state.pool slot, handles := state.handles.eraseIdx handle }
  | _ => state

/-- What is left after an act. Nothing can be done through a handle that nobody has. -/
def after (state : Lending P) (act : Act) : Lending P :=
  match state.claim? act with
  | some (claim, frame) => state.claimed frame claim
  | none =>
    match state.slot? act with
    | some slot => state.used slot act
    | none => state

/-- A pool of which nothing is handed out. -/
def start (pool : P) : Lending P :=
  ⟨pool, [], []⟩

/-- What is left after one act after the other. -/
def run (pool : P) (acts : List Act) : Lending P :=
  acts.foldl after (start pool)

/-- One act more. -/
theorem run_concat (pool : P) (acts : List Act) (act : Act) :
    run pool (acts ++ [act]) = (run pool acts).after act := by
  simp [run]

end Lending

/-! ## Slots of a row -/

namespace Pool

/-- A change of one slot keeps the others. -/
theorem slotAt_modify {pool : Pool} {slot : Nat} (h : slot < pool.capacity) (change : Slot → Slot)
    (index : Nat) :
    (pool.modify slot change).slotAt index =
      if index = slot then change (pool.slotAt slot) else pool.slotAt index := by
  simp only [slotAt, modify, List.getD_eq_getElem?_getD, List.getElem?_modify]
  by_cases hindex : index = slot
  · subst hindex
    simp [List.getElem?_eq_getElem h]
  · simp [hindex, Ne.symm hindex]

/-- A change of one slot keeps their number. -/
@[simp]
theorem capacity_modify (pool : Pool) (slot : Nat) (change : Slot → Slot) :
    (pool.modify slot change).capacity = pool.capacity := by
  simp [capacity, modify]

/-- No slot stands behind the last one. -/
theorem slotAt_of_le {pool : Pool} {slot : Nat} (h : pool.capacity ≤ slot) :
    pool.slotAt slot = Slot.free := by
  rw [slotAt, List.getD_eq_default _ _ h]

/-- A slot that somebody holds is one of the row. -/
theorem lt_capacity {pool : Pool} {slot : Nat} (h : (pool.slotAt slot).holders ≠ 0) :
    slot < pool.capacity := by
  by_contra hge
  exact h (by rw [slotAt_of_le (Nat.le_of_not_lt hge)]; rfl)

/-- The row is that of its slots. -/
theorem map_slotAt (pool : Pool) : (List.range pool.capacity).map pool.slotAt = pool.slots := by
  apply List.ext_getElem
  · simp [capacity]
  · intro slot _ hslot
    simp [slotAt, hslot]

/-- A slot is claimed unless every one is held. -/
theorem acquire_cases (pool : Pool) :
    (pool.acquire = .error (.poolExhausted pool.capacity) ∧
        ∀ slot < pool.capacity, (pool.slotAt slot).holders ≠ 0) ∨
      ∃ slot < pool.capacity, (pool.slotAt slot).holders = 0 ∧
        pool.acquire = .ok (slot, pool.modify slot fun s => { s with holders := 1 }) := by
  cases hfound : pool.slots.findIdx? (·.holders = 0) with
  | none =>
    refine .inl ⟨by simp only [acquire, hfound], fun slot hslot hzero => ?_⟩
    have hheld := List.findIdx?_eq_none_iff.1 hfound pool.slots[slot] (List.getElem_mem hslot)
    rw [slotAt, List.getD_eq_getElem _ _ hslot] at hzero
    simp [hzero] at hheld
  | some slot =>
    obtain ⟨hslot, hzero, -⟩ := List.findIdx?_eq_some_iff_getElem.1 hfound
    refine .inr ⟨slot, hslot, ?_, by simp only [acquire, hfound]⟩
    rw [slotAt, List.getD_eq_getElem _ _ hslot]
    simpa using hzero

/-- A slot is claimed for a frame as it is claimed, and then written. -/
theorem bind_eq (pool : Pool) (frame : Frame) :
    pool.bind frame =
      pool.acquire.map fun (slot, next) => (slot, next.write slot frame) := by
  cases h : pool.acquire <;> simp only [bind, h] <;> rfl

end Pool

/-! ## Handles and slots -/

namespace Lending

/-- The slots of a pool tell of the handles to them. -/
structure Held (state : Lending Pool) : Prop where
  /-- A slot is held by as many as there are handles to it. -/
  counts : ∀ slot, (state.pool.slotAt slot).holders = state.handles.count slot
  /-- A slot without handles is cleared. -/
  cleared : ∀ slot ∉ state.handles, (state.pool.slotAt slot).frame = Frame.cleared
  /-- The frame behind a handle is the last one put there. -/
  frames : ∀ slot ∈ state.handles,
    state.puts.lookup slot = some (state.pool.slotAt slot).frame

variable {state next : Lending Pool}

/-- A slot behind a handle is one of the row. -/
theorem Held.lt_capacity (held : state.Held) {slot : Nat} (h : slot ∈ state.handles) :
    slot < state.pool.capacity := by
  apply Pool.lt_capacity
  rw [held.counts]
  exact Nat.ne_of_gt (List.count_pos_iff.2 h)

/-- The slots are divided into the free ones and those behind handles. -/
theorem Held.available_add (held : state.Held) :
    state.pool.available + state.handles.dedup.length = state.pool.capacity := by
  have hlive : ((List.range state.pool.capacity).filter (· ∈ state.handles)).Perm
      state.handles.dedup := by
    rw [List.perm_ext_iff_of_nodup (List.nodup_range.filter _) (List.nodup_dedup _)]
    intro slot
    simpa using held.lt_capacity
  have hfree : state.pool.available =
      (List.range state.pool.capacity).countP (· ∉ state.handles) := by
    rw [Pool.available, ← Pool.map_slotAt, List.countP_map]
    refine List.countP_congr fun slot _ => ?_
    simp [held.counts, List.count_eq_zero]
  rw [← hlive.length_eq, ← List.countP_eq_length_filter, hfree, Nat.add_comm]
  have hparts := List.length_eq_countP_add_countP (fun slot => decide (slot ∈ state.handles))
    (l := List.range state.pool.capacity)
  simpa using hparts.symm

/-- A frame put into a slot is not the last one put into another. -/
theorem lookup_of_ne {index slot : Nat} (h : index ≠ slot) (frame : Frame)
    (puts : List (Nat × Frame)) : ((slot, frame) :: puts).lookup index = puts.lookup index := by
  rw [List.lookup_cons, beq_false_of_ne h]

/-- What happens to one slot, its handles and its frame does not touch the others. -/
theorem Held.change (held : state.Held) {slot : Nat} (hslot : slot < state.pool.capacity)
    {change : Slot → Slot} (hpool : next.pool = state.pool.modify slot change)
    (hothers : ∀ index ≠ slot, next.handles.count index = state.handles.count index ∧
      next.puts.lookup index = state.puts.lookup index)
    (hcount : (change (state.pool.slotAt slot)).holders = next.handles.count slot)
    (hcleared : slot ∉ next.handles → (change (state.pool.slotAt slot)).frame = Frame.cleared)
    (hframe : slot ∈ next.handles →
      next.puts.lookup slot = some (change (state.pool.slotAt slot)).frame) :
    next.Held := by
  have hmem : ∀ index ≠ slot, (index ∈ next.handles ↔ index ∈ state.handles) := by
    intro index hindex
    rw [← List.count_pos_iff, ← List.count_pos_iff, (hothers index hindex).1]
  constructor
  all_goals
    intro index
    rw [hpool, Pool.slotAt_modify hslot]
    by_cases hindex : index = slot
  · rw [if_pos hindex, hindex, hcount]
  · rw [if_neg hindex, (hothers index hindex).1, held.counts]
  · rw [if_pos hindex, hindex]
    exact hcleared
  · rw [if_neg hindex, hmem index hindex]
    exact held.cleared index
  · rw [if_pos hindex, hindex]
    exact hframe
  · rw [if_neg hindex, hmem index hindex, (hothers index hindex).2]
    exact held.frames index

/-- A claim is refused when every slot is held. Else it takes a slot that nobody holds, for its
frame. -/
theorem claim_cases {act : Act} {claim : Claim Pool} {frame : Frame}
    (h : state.claim? act = some (claim, frame)) :
    (claim = .error (.poolExhausted state.pool.capacity) state.pool ∧
        ∀ slot < state.pool.capacity, (state.pool.slotAt slot).holders ≠ 0) ∨
      ∃ slot < state.pool.capacity, (state.pool.slotAt slot).holders = 0 ∧
        ∃ change : Slot → Slot, claim = .ok slot (state.pool.modify slot change) ∧
          ∀ found, (change found).holders = 1 ∧
            (found.frame = Frame.cleared → (change found).frame = frame) := by
  have hacquire := state.pool.acquire_cases
  cases act with
  | acquire =>
    obtain ⟨rfl, rfl⟩ : settled state.pool state.pool.acquire = claim ∧ Frame.cleared = frame :=
      Prod.mk.inj (Option.some.inj h)
    rcases hacquire with ⟨hnone, hheld⟩ | ⟨slot, hslot, hzero, hsome⟩
    · exact .inl ⟨by rw [hnone, settled_error], hheld⟩
    · exact .inr ⟨slot, hslot, hzero, fun found => { found with holders := 1 },
        by rw [hsome, settled_ok], fun found => ⟨rfl, id⟩⟩
  | bind put =>
    obtain ⟨rfl, rfl⟩ : settled state.pool (state.pool.bind put) = claim ∧ put = frame :=
      Prod.mk.inj (Option.some.inj h)
    rcases hacquire with ⟨hnone, hheld⟩ | ⟨slot, hslot, hzero, hsome⟩
    · refine .inl ⟨?_, hheld⟩
      rw [Pool.bind_eq, hnone]
      rfl
    · refine .inr ⟨slot, hslot, hzero, fun _ => ⟨1, put⟩, ?_, fun found => ⟨rfl, fun _ => rfl⟩⟩
      rw [Pool.bind_eq, hsome]
      simp only [Except.map, settled_ok, Pool.write, Pool.modify, List.modify_modify_eq]
      rfl
  | copy => simp [claim?] at h
  | write => simp [claim?] at h
  | release => simp [claim?] at h

/-- After a claim the slots tell of the handles, the new one among them. -/
theorem Held.claimed (held : state.Held) {act : Act} {claim : Claim Pool} {frame : Frame}
    (h : state.claim? act = some (claim, frame)) :
    (state.claimed frame claim).Held := by
  rcases claim_cases h with ⟨rfl, -⟩ | ⟨slot, hslot, hzero, change, rfl, hchange⟩
  · exact held
  · have hnone : state.handles.count slot = 0 := by rw [← held.counts, hzero]
    have hcleared := held.cleared slot (List.count_eq_zero.1 hnone)
    apply held.change hslot rfl
    · intro index hindex
      simp [Lending.claimed, List.count_append, Ne.symm hindex, lookup_of_ne hindex]
    · simp [Lending.claimed, List.count_append, hnone, hchange]
    · simp [Lending.claimed]
    · simp [Lending.claimed, (hchange _).2 hcleared]

/-- Without one handle there is one less to its slot. -/
theorem count_eraseIdx {handles : List Nat} {handle : Nat} (h : handle < handles.length)
    (slot : Nat) :
    (handles.eraseIdx handle).count slot =
      handles.count slot - if slot = handles[handle] then 1 else 0 := by
  have hcount := (List.getElem_cons_eraseIdx_perm h).count_eq slot
  rw [List.count_cons] at hcount
  by_cases hslot : slot = handles[handle]
  · rw [if_pos (beq_iff_eq.2 hslot.symm)] at hcount
    rw [if_pos hslot]
    omega
  · rw [if_neg fun hbeq => hslot (beq_iff_eq.1 hbeq).symm] at hcount
    rw [if_neg hslot]
    omega

/-- A slot that is reached has a handle. -/
theorem mem_of_slot? {P : Type} {state : Lending P} {act : Act} {slot : Nat}
    (h : state.slot? act = some slot) : slot ∈ state.handles := by
  cases act with
  | acquire => cases h
  | bind => cases h
  | copy => exact List.mem_of_getElem? h
  | write => exact List.mem_of_getElem? h
  | release => exact List.mem_of_getElem? h

/-- After a handle is used the slots tell of the handles. -/
theorem Held.used (held : state.Held) {act : Act} {slot : Nat} (h : state.slot? act = some slot) :
    (state.used slot act).Held := by
  have hmem := mem_of_slot? h
  have hslot := held.lt_capacity hmem
  cases act with
  | acquire => cases h
  | bind => cases h
  | copy handle =>
    apply held.change hslot rfl
    · intro index hindex
      simp [Lending.used, List.count_append, Ne.symm hindex]
    · simp [Lending.used, List.count_append, held.counts]
    · simp [Lending.used]
    · simpa [Lending.used] using held.frames slot hmem
  | write handle frame =>
    apply held.change hslot rfl
    · intro index hindex
      simp [Lending.used, lookup_of_ne hindex]
    · exact held.counts slot
    · exact fun hnone => absurd hmem hnone
    · simp [Lending.used]
  | release handle =>
    obtain ⟨hhandle, rfl⟩ := List.getElem?_eq_some_iff.1 h
    have hleft := count_eraseIdx hhandle
    apply held.change hslot rfl
    · intro index hindex
      simp [Lending.used, hleft, hindex]
    · by_cases hlast : state.handles.count state.handles[handle] ≤ 1
      · simp [Lending.used, hleft, held.counts, hlast, Slot.free]
      · simp [Lending.used, hleft, held.counts, hlast]
    · intro hnone
      have hlast : state.handles.count state.handles[handle] ≤ 1 := by
        have hcount := List.count_eq_zero.2 hnone
        rw [Lending.used, hleft, if_pos rfl] at hcount
        omega
      rw [held.counts, if_pos hlast]
      rfl
    · intro hsome
      have hmore : ¬state.handles.count state.handles[handle] ≤ 1 := by
        have hcount := List.count_pos_iff.2 hsome
        rw [Lending.used, hleft, if_pos rfl] at hcount
        omega
      rw [held.counts, if_neg hmore]
      exact held.frames _ hmem

/-- The slots tell of the handles after any act. -/
theorem Held.after (held : state.Held) (act : Act) : (state.after act).Held := by
  simp only [Lending.after]
  split
  next claim frame h => exact held.claimed h
  next =>
    split
    next slot h => exact held.used h
    next => exact held

/-- No act changes the number of slots. -/
theorem capacity_after (state : Lending Pool) (act : Act) :
    (state.after act).pool.capacity = state.pool.capacity := by
  simp only [Lending.after]
  split
  next claim frame hclaim =>
    rcases claim_cases hclaim with ⟨rfl, -⟩ | ⟨slot, -, -, change, rfl, -⟩
    · rfl
    · exact Pool.capacity_modify _ _ _
  next =>
    split
    next slot hslot =>
      cases act with
      | acquire => rfl
      | bind => rfl
      | copy => exact Pool.capacity_modify _ _ _
      | write => exact Pool.capacity_modify _ _ _
      | release => exact Pool.capacity_modify _ _ _
    next => rfl

/-- The number of slots stays what it was at first. -/
theorem capacity_run (capacity : Nat) (acts : List Act) :
    (run (Pool.ofSize capacity) acts).pool.capacity = capacity := by
  induction acts using List.reverseRecOn with
  | nil => simp [run, start, Pool.ofSize, Pool.capacity]
  | append_singleton acts act ih => rw [run_concat, capacity_after, ih]

/-- Nothing is handed out at first. -/
theorem held_start (capacity : Nat) : (start (Pool.ofSize capacity)).Held := by
  have hfree : ∀ slot, (Pool.ofSize capacity).slotAt slot = Slot.free := by
    intro slot
    simp [Pool.slotAt, Pool.ofSize, List.getD_eq_getElem?_getD, List.getElem?_replicate]
    split <;> rfl
  constructor
  · intro slot
    rw [start, hfree]
    rfl
  · intro slot _
    rw [start, hfree]
    rfl
  · intro slot hslot
    cases hslot

end Lending

/-! ## Many handles at once -/

namespace Pool

/-- A pool of a given size, of which some slots are held, each through one handle, and no others. -/
structure Lent (pool : Pool) (size : Nat) (handles : List Nat) : Prop where
  held : ∃ puts, (⟨pool, handles, puts⟩ : Lending Pool).Held
  nodup : handles.Nodup
  capacity : pool.capacity = size

/-- Nothing of a new pool is held. -/
theorem lent_ofSize (size : Nat) : (ofSize size).Lent size [] :=
  ⟨⟨[], Lending.held_start size⟩, List.nodup_nil, List.length_replicate⟩

namespace Lent

variable {pool after : Pool} {size : Nat} {handles slots : List Nat}

/-- The slots are divided into the free ones and those that are held. -/
theorem available_add (h : pool.Lent size handles) : pool.available + handles.length = size := by
  obtain ⟨puts, held⟩ := h.held
  have hparts := held.available_add
  rwa [h.nodup.dedup, h.capacity] at hparts

/-- One slot more is held that was free. -/
theorem acquire (h : pool.Lent size handles) {slot : Nat}
    (claims : pool.acquire = .ok (slot, after)) : after.Lent size (handles ++ [slot]) := by
  obtain ⟨puts, held⟩ := h.held
  have hafter : (⟨pool, handles, puts⟩ : Lending Pool).after .acquire
      = ⟨after, handles ++ [slot], (slot, Frame.cleared) :: puts⟩ := by
    simp only [Lending.after, Lending.claim?, Lends.acquire, EStateM.run, claims, settled_ok,
      Lending.claimed]
  have hcapacity := Lending.capacity_after ⟨pool, handles, puts⟩ .acquire
  rw [hafter] at hcapacity
  refine ⟨⟨_, hafter ▸ held.after .acquire⟩, ?_, hcapacity.trans h.capacity⟩
  have hfree : slot ∉ handles := by
    rcases pool.acquire_cases with ⟨hnone, -⟩ | ⟨found, -, hzero, hsome⟩
    · rw [hnone] at claims
      cases claims
    · rw [hsome] at claims
      cases claims
      rw [← List.count_eq_zero, ← hzero]
      exact (held.counts slot).symm
  rw [← List.concat_eq_append]
  exact h.nodup.concat hfree

/-- Slots more are held that were free. -/
theorem acquireUpTo {count : Nat} (h : pool.Lent size handles)
    (claims : Pool.acquireUpTo count pool = (slots, after)) :
    after.Lent size (handles ++ slots) := by
  induction count generalizing pool handles slots with
  | zero =>
    cases claims
    rwa [List.append_nil]
  | succ count ih =>
    cases hclaim : pool.acquire with
    | error e =>
      simp only [Pool.acquireUpTo, hclaim] at claims
      cases claims
      rwa [List.append_nil]
    | ok claim =>
      obtain ⟨slot, next⟩ := claim
      simp only [Pool.acquireUpTo, hclaim] at claims
      cases hmore : Pool.acquireUpTo count next with
      | mk more last =>
        rw [hmore] at claims
        cases claims
        have hlast := ih (h.acquire hclaim) hmore
        rwa [List.append_assoc] at hlast

/-- When all that is held is given back nothing is held. -/
theorem releaseAll (h : pool.Lent size handles) : (pool.releaseAll handles).Lent size [] := by
  induction handles generalizing pool with
  | nil => exact h
  | cons slot handles ih =>
    obtain ⟨puts, held⟩ := h.held
    have hcapacity := Lending.capacity_after ⟨pool, slot :: handles, puts⟩ (.release 0)
    exact ih ⟨⟨puts, held.after (.release 0)⟩, (List.nodup_cons.1 h.nodup).2,
      hcapacity.trans h.capacity⟩

end Lent

end Pool
end TopicTree
