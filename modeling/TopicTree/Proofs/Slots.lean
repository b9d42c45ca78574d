import TopicTree.Pool
import TopicTree.Proofs.Outcome

/-!
# Slots and their holders

Whether a pool has a slot for a frame, and which one, is told by how many hold each slot; the frames
do not matter. A slot that is claimed and let go again leaves every slot held by as many as before.
-/

namespace TopicTree.Pool

/-- How many hold each slot. -/
def holders (pool : Pool) : List Nat :=
  pool.slots.map (·.holders)

/-- A pool with a free slot is one in which nobody holds some slot. -/
theorem zero_mem_holders {pool : Pool} : 0 ∈ pool.holders ↔ pool.available ≠ 0 := by
  rw [holders, List.mem_map, available, Nat.ne_zero_iff_zero_lt, List.countP_pos_iff]
  simp

/-- As many slots are free as have no holders. -/
theorem count_holders (pool : Pool) : pool.holders.count 0 = pool.available := by
  rw [holders, available, List.count, List.countP_map]
  refine List.countP_congr fun slot _ => ?_
  simp

/-- A change of a slot that changes how many hold it. -/
theorem holders_modify {change : Slot → Slot} {count : Nat → Nat}
    (h : ∀ slot, (change slot).holders = count slot.holders) (pool : Pool) (slot : Nat) :
    (pool.modify slot change).holders = pool.holders.modify slot count := by
  apply List.ext_getElem?
  intro index
  simp only [holders, modify, List.getElem?_map, List.getElem?_modify]
  cases pool.slots[index]? with
  | none => rfl
  | some found => by_cases hindex : slot = index <;> simp [hindex, h]

/-- A slot is let go by one holder. -/
theorem holders_release (pool : Pool) (slot : Nat) :
    (pool.release slot).holders = pool.holders.modify slot (· - 1) := by
  refine holders_modify (fun found => ?_) pool slot
  by_cases hlast : found.holders ≤ 1
  · simp only [if_pos hlast, Slot.free]
    omega
  · simp only [if_neg hlast]

/-- Another frame in a slot is held by as many. -/
theorem holders_write (pool : Pool) (slot : Nat) (frame : Frame) :
    (pool.write slot frame).holders = pool.holders := by
  have hsame : (pool.write slot frame).holders = pool.holders.modify slot id :=
    holders_modify (fun _ => rfl) pool slot
  rwa [List.modify_id] at hsame

/-- The first free slot is claimed for a frame. -/
theorem bind_cases (pool : Pool) (frame : Frame) :
    (0 ∉ pool.holders ∧ ∃ e, pool.bind frame = .error e) ∨
      ∃ slot next, pool.holders.findIdx? (· = 0) = some slot ∧ pool.bind frame = .ok (slot, next) ∧
        next.holders = pool.holders.modify slot fun _ => 1 := by
  have hindex : pool.holders.findIdx? (· = 0) = pool.slots.findIdx? (·.holders = 0) := by
    rw [holders, List.findIdx?_map]
    rfl
  rw [hindex]
  cases hfound : pool.slots.findIdx? (·.holders = 0) with
  | none =>
    refine .inl ⟨?_, .poolExhausted pool.capacity, ?_⟩
    · rw [hfound, List.findIdx?_eq_none_iff] at hindex
      exact fun hmem => by simpa using hindex 0 hmem
    · simp only [bind, acquire, hfound]
      rfl
  | some slot =>
    refine .inr ⟨slot, _, rfl, by simp only [bind, acquire, hfound, ok_bind, pure_def]; rfl, ?_⟩
    rw [holders_write]
    exact holders_modify (fun _ => rfl) pool slot

/-- The first free slot is free. -/
theorem zero_mem_of_findIdx? {holders : List Nat} {slot : Nat}
    (free : holders.findIdx? (· = 0) = some slot) : 0 ∈ holders := by
  obtain ⟨hlt, hzero, -⟩ := List.findIdx?_eq_some_iff_getElem.1 free
  have hslot : holders[slot] = 0 := by simpa using hzero
  exact hslot ▸ List.getElem_mem hlt

/-- A pool that has a slot for a frame has a free slot. -/
theorem available_ne_zero {pool next : Pool} {frame : Frame} {slot : Nat}
    (claimed : pool.bind frame = .ok (slot, next)) : pool.available ≠ 0 := by
  rcases pool.bind_cases frame with ⟨-, e, hbind⟩ | ⟨_, _, hfree, -, -⟩
  · rw [hbind] at claimed
    cases claimed
  · exact zero_mem_holders.1 (zero_mem_of_findIdx? hfree)

/-- A pool with a free slot has one for a frame. -/
theorem exists_bind {pool : Pool} (free : pool.available ≠ 0) (frame : Frame) :
    ∃ slot next, pool.bind frame = .ok (slot, next) := by
  rcases pool.bind_cases frame with ⟨hfull, -⟩ | ⟨slot, next, -, hbind, -⟩
  · exact absurd (zero_mem_holders.2 free) hfull
  · exact ⟨slot, next, hbind⟩

/-- A slot that is claimed and let go again has as many holders as before. -/
theorem modify_modify_of_findIdx? {holders : List Nat} {slot : Nat}
    (free : holders.findIdx? (· = 0) = some slot) :
    (holders.modify slot fun _ => 1).modify slot (· - 1) = holders := by
  obtain ⟨hlt, hzero, -⟩ := List.findIdx?_eq_some_iff_getElem.1 free
  apply List.ext_getElem?
  intro index
  simp only [List.getElem?_modify]
  by_cases hindex : slot = index
  · subst hindex
    have hslot : holders[slot] = 0 := by simpa using hzero
    simp [List.getElem?_eq_getElem hlt, hslot]
  · simp [hindex]

/-- A change of one slot of a row changes how many pass a test by that slot alone. -/
theorem countP_modify {α : Type} (test : α → Bool) {row : List α} {slot : Nat} {found : α}
    (h : row[slot]? = some found) (change : α → α) :
    (row.modify slot change).countP test + (test found).toNat =
      row.countP test + (test (change found)).toNat := by
  induction row generalizing slot with
  | nil => simp at h
  | cons first rest ih =>
    cases slot with
    | zero =>
      obtain rfl : first = found := by simpa using h
      rw [List.modify_zero_cons, List.countP_cons, List.countP_cons]
      cases test first <;> cases test (change first) <;> simp
    | succ slot =>
      have hrest := ih (by simpa using h)
      rw [List.modify_succ_cons, List.countP_cons, List.countP_cons]
      omega

/-- A slot that is claimed for a frame was free, and no other is claimed with it. -/
theorem available_of_bind {pool next : Pool} {frame : Frame} {slot : Nat}
    (claimed : pool.bind frame = .ok (slot, next)) : next.available + 1 = pool.available := by
  rcases pool.bind_cases frame with ⟨-, e, hbind⟩ | ⟨index, _, hfree, hbind, hholders⟩
  · rw [hbind] at claimed
    cases claimed
  · obtain ⟨rfl, rfl⟩ := Prod.mk.inj (Except.ok.inj (hbind.symm.trans claimed))
    obtain ⟨hlt, hzero, -⟩ := List.findIdx?_eq_some_iff_getElem.1 hfree
    have hslot : pool.holders[index]? = some 0 := by
      rw [List.getElem?_eq_getElem hlt]
      simpa using hzero
    have hcount := countP_modify (· == 0) hslot fun _ => 1
    rw [← count_holders, ← count_holders, hholders]
    simpa [List.count] using hcount

/-- A change of one slot takes one free slot at most. -/
theorem count_le_count_modify (holders : List Nat) (slot : Nat) (change : Nat → Nat) :
    holders.count 0 ≤ (holders.modify slot change).count 0 + 1 := by
  induction holders generalizing slot with
  | nil => simp
  | cons first rest ih =>
    cases slot with
    | zero =>
      rw [List.modify_zero_cons, List.count_cons, List.count_cons]
      split <;> split <;> omega
    | succ slot =>
      have hrest := ih slot
      rw [List.modify_succ_cons, List.count_cons, List.count_cons]
      omega

end TopicTree.Pool
