import TopicTree.Proofs.Pool.Handles

/-!
# Pools as they were

What somebody does with a pool leaves it as it was if every slot that was claimed is free again and
every slot that others hold has the holders and the frame it had. A slot that was free before may
have been cleared on the way; in a pool whose free slots are cleared there is nothing to clear.
-/

namespace TopicTree.Pool

/-- A pool is as it was, but for free slots that were cleared. -/
structure Restored (before after : Pool) : Prop where
  capacity : after.capacity = before.capacity
  slots : ∀ slot, after.slotAt slot = before.slotAt slot ∨
    (before.slotAt slot).holders = 0 ∧ after.slotAt slot = Slot.free

/-- Whether every slot without holders is cleared. -/
def Tidy (pool : Pool) : Prop :=
  ∀ slot, (pool.slotAt slot).holders = 0 → pool.slotAt slot = Slot.free

/-- Pools with as many slots and the same ones are the same. -/
theorem eq_of_slotAt {pool other : Pool} (capacity : pool.capacity = other.capacity)
    (slots : ∀ slot, pool.slotAt slot = other.slotAt slot) : pool = other := by
  have hslots : pool.slots = other.slots := by
    rw [← map_slotAt pool, ← map_slotAt other, capacity]
    exact List.map_congr_left fun slot _ => slots slot
  cases pool
  cases other
  exact congrArg Pool.mk hslots

/-- A pool whose slots tell of the handles to them is tidy. -/
theorem tidy_of_held {state : Lending Pool} (held : state.Held) : state.pool.Tidy := by
  intro slot hzero
  have hnone : slot ∉ state.handles := by
    rw [← List.count_eq_zero, ← held.counts, hzero]
  have hcleared := held.cleared slot hnone
  cases hslot : state.pool.slotAt slot with
  | mk holders frame =>
    rw [hslot] at hzero hcleared
    cases hzero
    cases hcleared
    rfl

namespace Restored

variable {before mid after : Pool}

/-- A pool with which nothing was done is as it was. -/
theorem refl (pool : Pool) : Restored pool pool :=
  ⟨rfl, fun _ => .inl rfl⟩

/-- A pool that is as it was before is the same pool if nothing was to be cleared. -/
theorem eq_of_tidy (h : Restored before after) (tidy : before.Tidy) : after = before := by
  refine eq_of_slotAt h.capacity fun slot => ?_
  rcases h.slots slot with hsame | ⟨hzero, hfree⟩
  · exact hsame
  · rw [hfree, tidy slot hzero]

/-- A slot that somebody holds keeps its holders and its frame. -/
theorem slotAt_of_held (h : Restored before after) {slot : Nat}
    (held : (before.slotAt slot).holders ≠ 0) : after.slotAt slot = before.slotAt slot :=
  (h.slots slot).resolve_right fun hfree => held hfree.1

/-- Every slot has the holders it had. -/
theorem holders_slotAt (h : Restored before after) (slot : Nat) :
    (after.slotAt slot).holders = (before.slotAt slot).holders := by
  rcases h.slots slot with hsame | ⟨hzero, hfree⟩
  · rw [hsame]
  · rw [hfree, hzero]
    rfl

/-- As many slots are free as were. -/
theorem available_eq (h : Restored before after) : after.available = before.available := by
  rw [available, available, ← map_slotAt after, ← map_slotAt before, h.capacity, List.countP_map,
    List.countP_map]
  exact List.countP_congr fun slot _ => by simp [h.holders_slotAt slot]

/-- What leaves a pool as it was twice leaves it as it was. -/
theorem trans (first : Restored before mid) (second : Restored mid after) :
    Restored before after := by
  refine ⟨second.capacity.trans first.capacity, fun slot => ?_⟩
  rcases second.slots slot with hsame | ⟨hzero, hfree⟩
  · rw [hsame]
    exact first.slots slot
  · refine .inr ⟨?_, hfree⟩
    rw [← first.holders_slotAt slot, hzero]

end Restored

/-- A slot that is claimed for a frame was free, has one holder, and holds that frame; the others
are what they were. -/
theorem slotAt_of_bind {pool next : Pool} {frame : Frame} {slot : Nat}
    (claimed : pool.bind frame = .ok (slot, next)) :
    slot < pool.capacity ∧ (pool.slotAt slot).holders = 0 ∧ next.capacity = pool.capacity ∧
      ∀ index, next.slotAt index = if index = slot then ⟨1, frame⟩ else pool.slotAt index := by
  rw [bind_eq] at claimed
  rcases pool.acquire_cases with ⟨hfull, -⟩ | ⟨_, hslot, hzero, hacquire⟩
  · rw [hfull] at claimed
    cases claimed
  · rw [hacquire] at claimed
    cases claimed
    have hwrite : (pool.modify slot fun s => { s with holders := 1 }).write slot frame
        = pool.modify slot fun _ => ⟨1, frame⟩ := by
      simp [write, modify, List.modify_modify_eq, Function.comp_def]
    exact ⟨hslot, hzero, by simp [hwrite], fun index => by rw [hwrite, slotAt_modify hslot]⟩

/-- Whatever leaves the pool as it was while a slot is claimed leaves it as it was before the claim,
once the slot is given back. -/
theorem Restored.release {before claimed after : Pool} {frame : Frame} {slot : Nat}
    (claim : before.bind frame = .ok (slot, claimed)) (h : Restored claimed after) :
    Restored before (after.release slot) := by
  obtain ⟨hslot, hzero, hcapacity, hothers⟩ := slotAt_of_bind claim
  have hlast : after.slotAt slot = ⟨1, frame⟩ := by
    have hclaimed : claimed.slotAt slot = ⟨1, frame⟩ := by rw [hothers, if_pos rfl]
    rw [h.slotAt_of_held (by simp [hclaimed]), hclaimed]
  have hroom : slot < after.capacity := by rwa [h.capacity, hcapacity]
  refine ⟨?_, fun index => ?_⟩
  · rw [Pool.release, capacity_modify, h.capacity, hcapacity]
  · rw [Pool.release, slotAt_modify hroom]
    by_cases hindex : index = slot
    · rw [if_pos hindex, hindex, hlast]
      exact .inr ⟨hzero, rfl⟩
    · rw [if_neg hindex]
      have hkept := h.slots index
      rwa [hothers, if_neg hindex] at hkept

/-- A holder more and a holder less leave a held slot as it was. -/
theorem release_retain {pool : Pool} {slot : Nat} (held : (pool.slotAt slot).holders ≠ 0) :
    (pool.retain slot).release slot = pool := by
  have hslot := lt_capacity held
  refine eq_of_slotAt (by simp [release, retain]) fun index => ?_
  rw [release, slotAt_modify (by simpa [retain] using hslot), retain, slotAt_modify hslot]
  by_cases hindex : index = slot
  · rw [if_pos hindex, if_pos rfl, if_neg (by simpa using held), hindex]
    rfl
  · rw [if_neg hindex, slotAt_modify hslot, if_neg hindex]

end TopicTree.Pool
