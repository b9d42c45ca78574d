import TopicTree.Proofs.Pool.Handles

/-!
# Pools with a tally

A pool need not look at its slots to tell how many are free: it can keep a tally of those in use
beside them. The count in a slot then has sixteen bits, and a count, the tally and a frame are
written one after the other. As long as no slot has more handles than its count can tell, all three
agree with the handles there are, and the pool is the plain row of slots.
-/

namespace TopicTree

/-- A slot with a count of sixteen bits. -/
structure Tally.Place where
  refs : UInt16
  frame : Frame
  deriving DecidableEq, Repr

/-- A pool that keeps a tally of the slots in use. -/
structure Tally where
  places : List Tally.Place
  inUse : Nat
  deriving DecidableEq, Repr

namespace Tally

/-- A slot that nobody holds. -/
def Place.free : Place :=
  ⟨0, Frame.cleared⟩

/-- A pool of free slots. -/
def ofSize (capacity : Nat) : Tally :=
  ⟨List.replicate capacity Place.free, 0⟩

/-- The number of slots. -/
def capacity (tally : Tally) : Nat :=
  tally.places.length

/-- The number of free slots. -/
def available (tally : Tally) : Nat :=
  tally.capacity - tally.inUse

/-- The slot at an index. -/
def placeAt (tally : Tally) (slot : Nat) : Place :=
  tally.places.getD slot Place.free

/-- Changes one slot. -/
def modify (tally : Tally) (slot : Nat) (change : Place → Place) : Tally :=
  { tally with places := tally.places.modify slot change }

/-- Claims the first slot whose count is zero. -/
def acquire : EStateM Error Tally Nat := do
  let tally ← get
  match tally.places.findIdx? (·.refs = 0) with
  | none => throw (.poolExhausted tally.capacity)
  | some slot =>
    set (tally.modify slot fun place => { place with refs := 1 })
    let tally ← get
    set { tally with inUse := tally.inUse + 1 }
    return slot

/-- Replaces the frame of a slot. -/
def write (tally : Tally) (slot : Nat) (frame : Frame) : Tally :=
  tally.modify slot fun place => { place with frame }

/-- Claims the first slot whose count is zero for a frame. -/
def bind (frame : Frame) : EStateM Error Tally Nat := do
  let slot ← acquire
  set ((← get).write slot frame)
  return slot

/-- Counts one holder more. The count begins again after 65535. -/
def retain (tally : Tally) (slot : Nat) : Tally :=
  tally.modify slot fun place => { place with refs := place.refs + 1 }

/-- Counts one holder less, if any is counted. At zero the frame is cleared and the slot is no
longer in use. -/
def release (tally : Tally) (slot : Nat) : Tally :=
  let refs := (tally.placeAt slot).refs
  let remaining := if refs = 0 then 0 else refs - 1
  let tally := tally.modify slot fun place => { place with refs := remaining }
  if remaining = 0 then
    let tally := tally.write slot Frame.cleared
    { tally with inUse := tally.inUse - 1 }
  else tally

instance : Lends Tally :=
  ⟨acquire, bind, write, retain, release⟩

/-! ## The row behind the tally -/

/-- A slot as it is held. -/
def Place.slot (place : Place) : Slot :=
  ⟨place.refs.toNat, place.frame⟩

/-- The row of slots alone. -/
def pool (tally : Tally) : Pool :=
  ⟨tally.places.map Place.slot⟩

variable {tally : Tally} {slot : Nat}

@[simp]
theorem capacity_pool (tally : Tally) : tally.pool.capacity = tally.capacity := by
  simp [pool, Pool.capacity, capacity]

/-- A slot is the same in the row. -/
theorem slotAt_pool (tally : Tally) (slot : Nat) :
    tally.pool.slotAt slot = (tally.placeAt slot).slot := by
  simp only [pool, Pool.slotAt, placeAt, List.getD_eq_getElem?_getD, List.getElem?_map]
  cases tally.places[slot]? <;> rfl

/-- A slot is told by what it is in the row. -/
theorem Place.slot_inj {place other : Place} : place.slot = other.slot ↔ place = other := by
  obtain ⟨refs, frame⟩ := place
  obtain ⟨refs', frame'⟩ := other
  simp only [Place.slot, Slot.mk.injEq, Place.mk.injEq, UInt16.toNat_inj]

/-- A change of one slot keeps the others. -/
theorem placeAt_modify_of_ne {index : Nat} (h : index ≠ slot) (change : Place → Place) :
    (tally.modify slot change).placeAt index = tally.placeAt index := by
  simp [placeAt, modify, List.getD_eq_getElem?_getD, Ne.symm h]

/-- No count is zero where somebody holds a slot. -/
theorem Place.refs_eq_zero {place : Place} : place.refs = 0 ↔ place.slot.holders = 0 := by
  rw [Place.slot, ← UInt16.toNat_inj]
  rfl

/-- A change of a slot is one of the row, when the slot changes in both in the same way. -/
theorem pool_modify {change : Place → Place} {change' : Slot → Slot}
    (h : (change (tally.placeAt slot)).slot = change' (tally.placeAt slot).slot) :
    (tally.modify slot change).pool = tally.pool.modify slot change' := by
  apply congrArg Pool.mk
  apply List.ext_getElem?
  intro index
  simp only [pool, modify, List.getElem?_map, List.getElem?_modify]
  by_cases hindex : slot = index
  · subst hindex
    cases hplace : tally.places[slot]? with
    | none => rfl
    | some place =>
      rw [placeAt, List.getD_eq_getElem?_getD, hplace] at h
      simpa using h
  · simp [hindex]

/-- How many counts are not zero. -/
def counted (tally : Tally) : Nat :=
  tally.places.countP (·.refs ≠ 0)

/-- A count is zero or it is not. -/
theorem counted_add (tally : Tally) : tally.counted + tally.pool.available = tally.capacity := by
  have hfree : tally.pool.available
      = tally.places.countP fun place => ¬decide (place.refs ≠ 0) := by
    rw [Pool.available, pool, List.countP_map]
    refine List.countP_congr fun place _ => ?_
    simp [Place.refs_eq_zero]
  rw [hfree, counted, capacity]
  exact (List.length_eq_countP_add_countP _).symm

/-- A change of one slot changes how many counts are not zero by that slot alone. -/
theorem counted_modify (h : slot < tally.capacity) (change : Place → Place) :
    (tally.modify slot change).counted + (decide ((tally.placeAt slot).refs ≠ 0)).toNat =
      tally.counted + (decide ((change (tally.placeAt slot)).refs ≠ 0)).toNat := by
  refine Pool.countP_modify (fun place => decide (place.refs ≠ 0)) ?_ change
  rw [placeAt, List.getD_eq_getElem _ _ h, List.getElem?_eq_getElem h]

/-! ## Step by step -/

/-- The tally is the number of slots in use. -/
def Right (tally : Tally) : Prop :=
  tally.inUse = tally.counted

/-- A claim as the row sees it. -/
def row : Claim Tally → Claim Pool
  | .ok slot next => .ok slot next.pool
  | .error e next => .error e next.pool

/-- Whether a claim that was granted leaves the tally right, and one that was refused leaves all as
it was. -/
def Sound (before : Tally) : Claim Tally → Prop
  | .ok slot next => slot < next.capacity ∧ next.Right
  | .error _ next => next = before

/-- A claim is one of the row, and is added to the tally. -/
theorem acquire_pool (right : tally.Right) :
    row (acquire.run tally) = settled tally.pool tally.pool.acquire ∧
      tally.Sound (acquire.run tally) := by
  have hfind : tally.pool.slots.findIdx? (·.holders = 0) = tally.places.findIdx? (·.refs = 0) := by
    rw [pool, List.findIdx?_map]
    congr 1
    funext place
    simp [Place.refs_eq_zero]
  rw [Pool.acquire, hfind, capacity_pool]
  cases hfound : tally.places.findIdx? (·.refs = 0) with
  | none =>
    have hrun : acquire.run tally = .error (.poolExhausted tally.capacity) tally := by
      simp [acquire, hfound]
    rw [hrun]
    exact ⟨rfl, rfl⟩
  | some slot =>
    obtain ⟨hslot, hzero, -⟩ := List.findIdx?_eq_some_iff_getElem.1 hfound
    have hplace : (tally.placeAt slot).refs = 0 := by
      rw [placeAt, List.getD_eq_getElem _ _ hslot]
      simpa using hzero
    have hpool : (tally.modify slot fun place => { place with refs := 1 }).pool =
        tally.pool.modify slot fun s => { s with holders := 1 } := pool_modify rfl
    have hrun : acquire.run tally = .ok slot
        { tally.modify slot fun place => { place with refs := 1 } with
          inUse := tally.inUse + 1 } := by
      simp [-bind_pure_comp, acquire, hfound, modify]
    rw [hrun]
    refine ⟨congrArg (EStateM.Result.ok slot) hpool, ?_⟩
    have hcount := counted_modify hslot fun place => { place with refs := 1 }
    simp only [hplace] at hcount
    refine ⟨?_, (congrArg (· + 1) right).trans hcount.symm⟩
    simpa [capacity, modify] using hslot

/-- A change of one slot that leaves it in use, or free, leaves the tally right. -/
theorem Right.modify (right : tally.Right) (h : slot < tally.capacity) {change : Place → Place}
    (hrefs : (change (tally.placeAt slot)).refs = 0 ↔ (tally.placeAt slot).refs = 0) :
    (tally.modify slot change).Right := by
  have hcount := counted_modify h change
  simp only [ne_eq, hrefs] at hcount
  exact right.trans (Nat.add_right_cancel hcount).symm

/-- Another frame leaves the tally right. -/
theorem write_pool (right : tally.Right) (h : slot < tally.capacity) (frame : Frame) :
    (tally.write slot frame).pool = tally.pool.write slot frame ∧
      (tally.write slot frame).Right :=
  ⟨pool_modify rfl, right.modify h Iff.rfl⟩

/-- A claim for a frame is one of the row, and is added to the tally. -/
theorem bind_pool (right : tally.Right) (frame : Frame) :
    row ((bind frame).run tally) = settled tally.pool (tally.pool.bind frame) ∧
      tally.Sound ((bind frame).run tally) := by
  obtain ⟨hacquire, hsound⟩ := acquire_pool right
  rw [Pool.bind_eq]
  cases hclaim : acquire.run tally with
  | error e next =>
    have hrun : (bind frame).run tally = .error e next := by simp [bind, hclaim]
    rw [hclaim] at hacquire hsound
    rw [hrun]
    cases hpool : tally.pool.acquire with
    | error refusal => exact ⟨hacquire.trans (by rw [hpool]; rfl), hsound⟩
    | ok claim =>
      rw [hpool] at hacquire
      cases hacquire
  | ok slot next =>
    rw [hclaim] at hacquire hsound
    obtain ⟨hwrite, hright⟩ := write_pool hsound.2 hsound.1 frame
    have hrun : (bind frame).run tally = .ok slot (next.write slot frame) := by
      simp [-bind_pure_comp, bind, hclaim]
    rw [hrun]
    cases hpool : tally.pool.acquire with
    | error refusal =>
      rw [hpool] at hacquire
      cases hacquire
    | ok claim =>
      obtain ⟨found, after⟩ := claim
      rw [hpool] at hacquire
      obtain ⟨rfl, rfl⟩ := EStateM.Result.ok.inj hacquire
      have hslot : slot < (next.write slot frame).capacity := by
        simpa [capacity, write, modify] using hsound.1
      exact ⟨congrArg (EStateM.Result.ok slot) hwrite, hslot, hright⟩

/-- One holder more is one of the row, unless the count begins again. -/
theorem retain_pool (right : tally.Right) (h : slot < tally.capacity)
    (hheld : (tally.placeAt slot).refs ≠ 0) (hroom : (tally.placeAt slot).refs.toNat < 65535) :
    (tally.retain slot).pool = tally.pool.retain slot ∧ (tally.retain slot).Right := by
  have hmore : ((tally.placeAt slot).refs + 1).toNat = (tally.placeAt slot).refs.toNat + 1 := by
    rw [UInt16.toNat_add]
    exact Nat.mod_eq_of_lt (Nat.succ_lt_succ hroom)
  constructor
  · apply pool_modify
    simp only [Place.slot, hmore]
  · refine right.modify h (iff_of_false ?_ hheld)
    rw [← UInt16.toNat_inj, hmore]
    exact Nat.succ_ne_zero _

/-- One holder less is one of the row, and the last one is taken off the tally. -/
theorem release_pool (right : tally.Right) (h : slot < tally.capacity)
    (hheld : (tally.placeAt slot).refs ≠ 0) :
    (tally.release slot).pool = tally.pool.release slot ∧ (tally.release slot).Right := by
  obtain ⟨refs, hrefs⟩ : ∃ refs, (tally.placeAt slot).refs = refs := ⟨_, rfl⟩
  rw [hrefs] at hheld
  have hpos : 0 < refs.toNat := Nat.pos_of_ne_zero fun hzero => hheld (UInt16.toNat_inj.1 hzero)
  have hless : (refs - 1).toNat = refs.toNat - 1 :=
    UInt16.toNat_sub_of_le _ _ (UInt16.le_iff_toNat_le.2 hpos)
  have hlast : refs - 1 = 0 ↔ refs.toNat ≤ 1 := by
    rw [← UInt16.toNat_inj, hless]
    change refs.toNat - 1 = 0 ↔ _
    omega
  simp only [release, hrefs, if_neg hheld, Pool.release]
  by_cases h1 : refs.toNat ≤ 1
  · have hfree : (tally.modify slot fun place => { place with refs := 0 }).write slot Frame.cleared
        = tally.modify slot fun _ => Place.free := by
      simp only [write, modify, List.modify_modify_eq]
      rfl
    rw [if_pos (hlast.2 h1), hlast.2 h1, hfree]
    constructor
    · apply pool_modify
      simp [Place.slot, hrefs, h1, Place.free, Slot.free]
    · have hcount := counted_modify h fun _ => Place.free
      simp [hrefs, hheld, Place.free] at hcount
      exact (congrArg (· - 1) right).trans (Nat.sub_eq_of_eq_add hcount.symm)
  · rw [if_neg (mt hlast.1 h1)]
    constructor
    · apply pool_modify
      simp [Place.slot, hrefs, h1, hless]
    · refine right.modify h (iff_of_false ?_ ?_)
      · exact mt hlast.1 h1
      · rwa [hrefs]

end Tally

/-! ## A run of a pool with a tally -/

namespace Lending

variable {state : Lending Tally}

/-- What is left in the row behind a tally. -/
def plain (state : Lending Tally) : Lending Pool :=
  ⟨state.pool.pool, state.handles, state.puts⟩

/-- A pool with a tally that is the row of slots. -/
structure Tallied (state : Lending Tally) : Prop where
  held : state.plain.Held
  right : state.pool.Right

/-- A claim of a pool with a tally is one of the row. -/
theorem Tallied.claim? (tallied : state.Tallied) {act : Act} {claim : Claim Tally}
    {frame : Frame} (h : state.claim? act = some (claim, frame)) :
    state.plain.claim? act = some (Tally.row claim, frame) ∧ state.pool.Sound claim := by
  cases act with
  | acquire =>
    obtain ⟨rfl, rfl⟩ : Tally.acquire.run state.pool = claim ∧ Frame.cleared = frame :=
      Prod.mk.inj (Option.some.inj h)
    obtain ⟨hclaim, hsound⟩ := Tally.acquire_pool tallied.right
    exact ⟨congrArg (fun claim => some (claim, Frame.cleared)) hclaim.symm, hsound⟩
  | bind put =>
    obtain ⟨rfl, rfl⟩ : (Tally.bind put).run state.pool = claim ∧ put = frame :=
      Prod.mk.inj (Option.some.inj h)
    obtain ⟨hclaim, hsound⟩ := Tally.bind_pool tallied.right put
    exact ⟨congrArg (fun claim => some (claim, put)) hclaim.symm, hsound⟩
  | copy => cases h
  | write => cases h
  | release => cases h

/-- The count of a slot tells of the handles to it. -/
theorem Tallied.toNat_refs (tallied : state.Tallied) (slot : Nat) :
    (state.pool.placeAt slot).refs.toNat = state.handles.count slot := by
  have hcount := tallied.held.counts slot
  rwa [plain, Tally.slotAt_pool] at hcount

/-- What is done through a handle is done in the row, unless a count begins again. -/
theorem Tallied.used (tallied : state.Tallied) {act : Act} {slot : Nat}
    (h : state.slot? act = some slot) (counted : (state.used slot act).handles.count slot ≤ 65535) :
    (state.used slot act).plain = state.plain.used slot act ∧
      (state.used slot act).pool.Right := by
  have hmem := mem_of_slot? h
  have hslot : slot < state.pool.capacity := by
    simpa [plain] using tallied.held.lt_capacity hmem
  have hheld : (state.pool.placeAt slot).refs ≠ 0 := by
    rw [Ne, ← UInt16.toNat_inj, tallied.toNat_refs]
    exact Nat.ne_of_gt (List.count_pos_iff.2 hmem)
  cases act with
  | acquire => cases h
  | bind => cases h
  | copy handle =>
    have hroom : (state.pool.placeAt slot).refs.toNat < 65535 := by
      rw [Lending.used, List.count_append, List.count_singleton_self] at counted
      rw [tallied.toNat_refs]
      exact counted
    obtain ⟨hpool, hright⟩ := Tally.retain_pool tallied.right hslot hheld hroom
    exact ⟨congrArg (Lending.mk · _ _) hpool, hright⟩
  | write handle frame =>
    obtain ⟨hpool, hright⟩ := Tally.write_pool tallied.right hslot frame
    exact ⟨congrArg (Lending.mk · _ _) hpool, hright⟩
  | release handle =>
    obtain ⟨hpool, hright⟩ := Tally.release_pool tallied.right hslot hheld
    exact ⟨congrArg (Lending.mk · _ _) hpool, hright⟩

/-- An act at a pool with a tally is one at the row, unless a count begins again. -/
theorem Tallied.after (tallied : state.Tallied) {act : Act}
    (counted : ∀ slot, (state.after act).handles.count slot ≤ 65535) :
    (state.after act).plain = state.plain.after act ∧ (state.after act).Tallied := by
  suffices hplain : (state.after act).plain = state.plain.after act ∧
      (state.after act).pool.Right by
    refine ⟨hplain.1, ?_, hplain.2⟩
    rw [hplain.1]
    exact tallied.held.after act
  simp only [Lending.after] at counted ⊢
  cases hclaim : state.claim? act with
  | some claimed =>
    obtain ⟨claim, frame⟩ := claimed
    obtain ⟨hplain, hsound⟩ := tallied.claim? hclaim
    rw [hplain]
    cases claim with
    | error e next =>
      obtain rfl : next = state.pool := hsound
      exact ⟨rfl, tallied.right⟩
    | ok slot next => exact ⟨rfl, hsound.2⟩
  | none =>
    have hnone : state.plain.claim? act = none := by
      cases act <;> first | rfl | cases hclaim
    have hplain : state.plain.slot? act = state.slot? act := by
      cases act <;> rfl
    rw [hclaim] at counted
    rw [hnone, hplain]
    cases hslot : state.slot? act with
    | none => exact ⟨rfl, tallied.right⟩
    | some slot =>
      rw [hslot] at counted
      exact tallied.used hslot (counted slot)

/-- Free slots are free in the row. -/
theorem plain_start (capacity : Nat) :
    (start (Tally.ofSize capacity)).plain = start (Pool.ofSize capacity) := by
  simp only [start, plain, Tally.pool, Tally.ofSize, Pool.ofSize, List.map_replicate]
  rfl

/-- Nothing is in use at first. -/
theorem tallied_start (capacity : Nat) : (start (Tally.ofSize capacity)).Tallied := by
  constructor
  · rw [plain_start]
    exact held_start capacity
  · simp [start, Tally.Right, Tally.ofSize, Tally.counted, List.countP_replicate, Tally.Place.free]

/-- A run of a pool with a tally is one of the row, as long as no slot has more handles than its
count can tell. -/
theorem tallied_run (capacity : Nat) (acts : List Act)
    (counted : ∀ before, before <+: acts →
      ∀ slot, (run (Tally.ofSize capacity) before).handles.count slot ≤ 65535) :
    (run (Tally.ofSize capacity) acts).plain = run (Pool.ofSize capacity) acts ∧
      (run (Tally.ofSize capacity) acts).Tallied := by
  induction acts using List.reverseRecOn with
  | nil => exact ⟨plain_start capacity, tallied_start capacity⟩
  | append_singleton acts act ih =>
    obtain ⟨hplain, htallied⟩ :=
      ih fun before h => counted before (h.trans (List.prefix_append _ _))
    rw [run_concat, run_concat, ← hplain]
    apply htallied.after
    rw [← run_concat]
    exact counted _ (List.prefix_refl _)

/-- What the counts, the tally and the frames of a pool with so many slots tell of its handles, and
what can be claimed. -/
structure Accounts (capacity : Nat) (state : Lending Tally) : Prop where
  size : state.pool.capacity = capacity
  within : ∀ slot ∈ state.handles, slot < capacity
  /-- A count is the number of handles to its slot. -/
  counts : ∀ slot < capacity, (state.pool.placeAt slot).refs.toNat = state.handles.count slot
  /-- The tally is the number of slots with handles. -/
  inUse : state.pool.inUse = state.handles.dedup.length
  /-- All other slots are free. -/
  available : state.pool.available + state.handles.dedup.length = capacity
  /-- A slot without handles is cleared. -/
  cleared : ∀ slot < capacity, slot ∉ state.handles →
    (state.pool.placeAt slot).frame = Frame.cleared
  /-- The frame behind a handle is the last one put there. -/
  frames : ∀ slot ∈ state.handles,
    state.puts.lookup slot = some (state.pool.placeAt slot).frame
  /-- A claim is refused when every slot has handles, and then nothing is done. -/
  refused : ∀ {act claim frame}, state.claim? act = some (claim, frame) →
    (∀ slot < capacity, slot ∈ state.handles) →
      claim = .error (.poolExhausted capacity) state.pool ∧ state.after act = state
  /-- Else it gives the only handle to a slot that had none. -/
  granted : ∀ {act claim frame}, state.claim? act = some (claim, frame) →
    (∃ slot < capacity, slot ∉ state.handles) →
      ∃ slot next, claim = .ok slot next ∧ slot < capacity ∧ slot ∉ state.handles ∧
        (next.placeAt slot).refs = 1 ∧
        state.after act = ⟨next, state.handles ++ [slot], (slot, frame) :: state.puts⟩
  /-- A slot with handles stays what it is as long as nothing is done through one of them. -/
  others : ∀ act, ∀ slot ∈ state.handles, state.slot? act ≠ some slot →
    (state.after act).pool.placeAt slot = state.pool.placeAt slot

/-- A claim is refused when every slot has handles. Else it gives the only handle to a slot that had
none, and keeps the other slots. -/
theorem Tallied.claim_cases (tallied : state.Tallied) {act : Act} {claim : Claim Tally}
    {frame : Frame} (h : state.claim? act = some (claim, frame)) :
    (claim = .error (.poolExhausted state.pool.capacity) state.pool ∧
        ∀ slot < state.pool.capacity, slot ∈ state.handles) ∨
      ∃ slot < state.pool.capacity, slot ∉ state.handles ∧
        ∃ next, claim = .ok slot next ∧ (next.placeAt slot).refs = 1 ∧
          ∀ index ≠ slot, next.placeAt index = state.pool.placeAt index := by
  have hmem : ∀ slot, (state.plain.pool.slotAt slot).holders ≠ 0 ↔ slot ∈ state.handles := by
    intro slot
    rw [tallied.held.counts]
    exact Nat.ne_zero_iff_zero_lt.trans List.count_pos_iff
  have hsize : state.plain.pool.capacity = state.pool.capacity := Tally.capacity_pool _
  obtain ⟨hplain, hsound⟩ := tallied.claim? h
  rcases Lending.claim_cases hplain with
    ⟨hclaim, hheld⟩ | ⟨slot, hslot, hzero, change, hclaim, hchange⟩
  · refine .inl ⟨?_, fun slot hslot => (hmem slot).1 (hheld slot (hsize ▸ hslot))⟩
    cases claim with
    | ok slot next => cases hclaim
    | error e next =>
      obtain rfl : next = state.pool := hsound
      obtain ⟨rfl, -⟩ := EStateM.Result.error.inj hclaim
      rw [hsize]
  · refine .inr ⟨slot, hsize ▸ hslot, fun hmem' => (hmem slot).2 hmem' hzero, ?_⟩
    cases claim with
    | error e next => cases hclaim
    | ok slot' next =>
      obtain ⟨rfl, hnext⟩ := EStateM.Result.ok.inj hclaim
      have hplace : ∀ index, (next.placeAt index).slot = _ := fun index =>
        (Tally.slotAt_pool next index).symm.trans
          (hnext ▸ Pool.slotAt_modify hslot change index)
      refine ⟨next, rfl, ?_, fun index hindex => ?_⟩
      · have hone := congrArg Slot.holders (hplace slot')
        rw [if_pos rfl, (hchange _).1] at hone
        exact UInt16.toNat_inj.1 hone
      · have hkept := hplace index
        rw [if_neg hindex, plain, Tally.slotAt_pool] at hkept
        exact Tally.Place.slot_inj.1 hkept

/-- What is done through a handle keeps the slots behind the others. -/
theorem placeAt_used {slot index : Nat} (h : index ≠ slot) (act : Act) :
    (state.used slot act).pool.placeAt index = state.pool.placeAt index := by
  cases act with
  | acquire => rfl
  | bind => rfl
  | copy => exact Tally.placeAt_modify_of_ne h _
  | write => exact Tally.placeAt_modify_of_ne h _
  | release =>
    simp only [Lending.used, Lends.release, Tally.release]
    generalize (if (state.pool.placeAt slot).refs = 0 then 0
      else (state.pool.placeAt slot).refs - 1) = remaining
    split
    · exact (Tally.placeAt_modify_of_ne h _).trans (Tally.placeAt_modify_of_ne h _)
    · exact Tally.placeAt_modify_of_ne h _

/-- A pool with a tally that is the row of slots tells of its handles. -/
theorem Tallied.accounts (tallied : state.Tallied) : state.Accounts state.pool.capacity := by
  have hlt : ∀ slot ∈ state.handles, slot < state.pool.capacity := fun slot h => by
    simpa [plain] using tallied.held.lt_capacity h
  have hfree := tallied.held.available_add
  have hinUse : state.pool.inUse = state.handles.dedup.length := by
    have hadd := state.pool.counted_add
    have hright := tallied.right
    simp only [plain, Tally.capacity_pool, Tally.Right] at hfree hright
    omega
  have hplace : ∀ slot, (state.plain.pool.slotAt slot).frame = (state.pool.placeAt slot).frame :=
    fun slot => congrArg Slot.frame (Tally.slotAt_pool state.pool slot)
  exact {
    size := rfl
    within := hlt
    counts := fun slot _ => tallied.toNat_refs slot
    inUse := hinUse
    available := by
      simp only [plain, Tally.capacity_pool] at hfree
      simp only [Tally.available]
      omega
    cleared := fun slot _ hnone => (hplace slot).symm.trans (tallied.held.cleared slot hnone)
    frames := fun slot hmem => hplace slot ▸ tallied.held.frames slot hmem
    refused := by
      intro act claim frame h hall
      rcases tallied.claim_cases h with ⟨rfl, -⟩ | ⟨slot, hslot, hnone, -⟩
      · exact ⟨rfl, by simp only [Lending.after, h, claimed]⟩
      · exact absurd (hall slot hslot) hnone
    granted := by
      intro act claim frame h hsome
      rcases tallied.claim_cases h with ⟨-, hall⟩ | ⟨slot, hslot, hnone, next, rfl, hone, -⟩
      · obtain ⟨slot, hslot, hnone⟩ := hsome
        exact absurd (hall slot hslot) hnone
      · exact ⟨slot, next, rfl, hslot, hnone, hone, by simp only [Lending.after, h, claimed]⟩
    others := by
      intro act slot hmem hact
      simp only [Lending.after]
      split
      next claim frame h =>
        rcases tallied.claim_cases h with ⟨rfl, -⟩ | ⟨other, -, hnone, next, rfl, -, hkept⟩
        · rfl
        · exact hkept slot fun heq => hnone (heq ▸ hmem)
      next =>
        split
        next other hslot =>
          have hne : slot ≠ other := fun heq => hact (heq ▸ hslot)
          exact placeAt_used hne act
        next => rfl }

/-- There are no more handles than acts. -/
theorem length_handles_run {P : Type} [Lends P] (pool : P) (acts : List Act) :
    (run pool acts).handles.length ≤ acts.length := by
  induction acts using List.reverseRecOn with
  | nil => exact Nat.le_refl _
  | append_singleton acts act ih =>
    have hafter : ((run pool acts).after act).handles.length
        ≤ (run pool acts).handles.length + 1 := by
      simp only [Lending.after]
      split
      next claim frame _ => cases claim <;> simp [claimed]
      next =>
        split
        next slot _ =>
          cases act with
          | release => exact Nat.le_succ_of_le (List.eraseIdx_sublist _ _).length_le
          | _ => simp [Lending.used]
        next => exact Nat.le_succ _
    rw [run_concat, List.length_append, List.length_singleton]
    omega

/-- At every moment of a run in which no slot has more handles than its count can tell, the counts,
the tally and the frames of a pool tell of its handles, and the pool is the plain row of slots after
the same acts. -/
theorem accounts_run (capacity : Nat) (acts : List Act)
    (counted : ∀ before, before <+: acts →
      ∀ slot, (run (Tally.ofSize capacity) before).handles.count slot ≤ 65535) :
    (run (Tally.ofSize capacity) acts).Accounts capacity ∧
      (run (Tally.ofSize capacity) acts).plain = run (Pool.ofSize capacity) acts ∧
      (run (Tally.ofSize capacity) acts).pool.available =
        (run (Pool.ofSize capacity) acts).pool.available := by
  obtain ⟨hplain, htallied⟩ := tallied_run capacity acts counted
  have hrow := capacity_run capacity acts
  rw [← hplain] at hrow
  have hsize : (run (Tally.ofSize capacity) acts).pool.capacity = capacity :=
    (Tally.capacity_pool _).symm.trans hrow
  have haccounts := htallied.accounts
  rw [hsize] at haccounts
  refine ⟨haccounts, hplain, ?_⟩
  have hfree := htallied.held.available_add
  rw [hrow] at hfree
  rw [← hplain]
  exact Nat.add_right_cancel (haccounts.available.trans hfree.symm)

/-- A pool of two slots of which one is shared, both are claimed, and one is let go and claimed
again. -/
theorem accounts_run_shared :
    let acts : List Act :=
      [.bind (Frame.empty 0x30), .copy 0, .acquire, .bind (Frame.empty 0xC0), .release 0,
        .write 0 (Frame.empty 0xE0), .release 1, .bind (Frame.empty 0xD0), .release 0]
    (∀ before, before <+: acts →
        ∀ slot, (run (Tally.ofSize 2) before).handles.count slot ≤ 65535) ∧
      (run (Tally.ofSize 2) acts).handles = [1] ∧
      (run (Tally.ofSize 2) acts).Accounts 2 ∧
      (run (Tally.ofSize 2) acts).plain = run (Pool.ofSize 2) acts ∧
      (run (Tally.ofSize 2) acts).pool.available = (run (Pool.ofSize 2) acts).pool.available := by
  intro acts
  have counted : ∀ before, before <+: acts →
      ∀ slot, (run (Tally.ofSize 2) before).handles.count slot ≤ 65535 := fun before h slot =>
    calc (run (Tally.ofSize 2) before).handles.count slot
      _ ≤ (run (Tally.ofSize 2) before).handles.length := List.count_le_length
      _ ≤ before.length := length_handles_run _ before
      _ ≤ acts.length := h.length_le
      _ ≤ 65535 := by decide
  exact ⟨counted, by decide, accounts_run 2 acts counted⟩

end Lending
end TopicTree
