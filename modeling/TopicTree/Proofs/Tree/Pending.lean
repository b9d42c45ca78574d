import TopicTree.Proofs.Outcome
import TopicTree.Tree.Endpoint

/-!
# Tables of awaited requests

Ending a wait and ending all overdue ones reorder a table, so what they do is told up to order: the
rows before are the rows taken and the rows kept. A new row is the last one, under an id that no
other row has. In a sound table the ids are different and none is 0, and there is room for few rows;
everything that an endpoint does keeps its table sound.
-/

namespace TopicTree

namespace Endpoint

/-! ## Rows up to order -/

/-- Putting the last row first only reorders a table. -/
theorem lastFirst_perm {α : Type} (rows : List α) : (lastFirst rows).Perm rows := by
  unfold lastFirst
  split
  · next last h =>
    obtain ⟨front, rfl⟩ := List.getLast?_eq_some_iff.1 h
    rw [List.dropLast_concat]
    exact (List.perm_append_singleton last front).symm
  · next h => rw [List.getLast?_eq_none_iff.1 h]

/-- The row taken has the id asked for, and the others stay. -/
theorem settleIn_eq_some {id : UInt16} {rows kept : List Pending} {row : Pending}
    (h : settleIn id rows = some (row, kept)) : row.id = id ∧ rows.Perm (row :: kept) := by
  induction rows generalizing kept with
  | nil => cases h
  | cons first rest ih =>
    unfold settleIn at h
    split at h
    · next hid =>
      cases h
      exact ⟨hid, (lastFirst_perm rest).symm.cons row⟩
    · obtain ⟨⟨found, rows⟩, hfound, heq⟩ := Option.map_eq_some_iff.1 h
      cases heq
      obtain ⟨hid, hperm⟩ := ih hfound
      exact ⟨hid, (hperm.cons first).trans (List.Perm.swap row first rows)⟩

/-- Settling takes one row with the id out of the table. -/
theorem settle?_eq_some {endpoint after : Endpoint} {id : UInt16} {row : Pending}
    (h : endpoint.settle? id = some (row, after)) :
    row.id = id ∧ endpoint.pending.Perm ([row] ++ after.pending) := by
  obtain ⟨⟨found, kept⟩, hfound, heq⟩ := Option.map_eq_some_iff.1 h
  cases heq
  exact settleIn_eq_some hfound

/-- No row is taken only if none has the id. -/
theorem settleIn_eq_none {id : UInt16} {rows : List Pending} :
    settleIn id rows = none ↔ ∀ row ∈ rows, row.id ≠ id := by
  induction rows with
  | nil => simp [settleIn]
  | cons first rest ih =>
    by_cases hid : first.id = id
    · simp [settleIn, hid]
    · simp [settleIn, hid, ih]

/-- A last row whose id no other row has is taken without any reordering. -/
theorem settleIn_concat {rows : List Pending} {row : Pending}
    (h : ∀ other ∈ rows, other.id ≠ row.id) :
    settleIn row.id (rows ++ [row]) = some (row, rows) := by
  induction rows with
  | nil => simp [settleIn, lastFirst]
  | cons first rest ih =>
    have hrest := ih fun other hother => h other (List.mem_cons_of_mem first hother)
    simp [settleIn, h first List.mem_cons_self, hrest]

/-- A row that is the only one with its id is taken. -/
theorem exists_settle? {endpoint : Endpoint} {row : Pending} (mem : row ∈ endpoint.pending)
    (unique : ∀ other ∈ endpoint.pending, other.id = row.id → other = row) :
    ∃ after, endpoint.settle? row.id = some (row, after) := by
  cases hfound : endpoint.settle? row.id with
  | none =>
    rw [settle?, Option.map_eq_none_iff, settleIn_eq_none] at hfound
    exact absurd rfl (hfound row mem)
  | some found =>
    obtain ⟨found, after⟩ := found
    obtain ⟨hsame, hperm⟩ := settle?_eq_some hfound
    have hmem : found ∈ endpoint.pending := hperm.mem_iff.2 List.mem_cons_self
    exact ⟨after, by rw [unique found hmem hsame]⟩

/-- The rows before are those taken and those kept. -/
theorem expireIn_perm (now : Nat) (rows : List Pending) :
    rows.Perm ((expireIn now rows).1 ++ (expireIn now rows).2) := by
  induction rows using expireIn.induct now with
  | case1 => simp [expireIn]
  | case2 row rest due expired kept h ih =>
    rw [expireIn, if_pos due, h]
    rw [h] at ih
    exact ((lastFirst_perm rest).symm.trans ih).cons row
  | case3 row rest due expired kept h ih =>
    rw [expireIn, if_neg due, h]
    rw [h] at ih
    exact (ih.cons row).trans List.perm_middle.symm

/-- Every row taken is overdue, and no row kept is. -/
theorem deadlines_expireIn (now : Nat) (rows : List Pending) :
    (∀ row ∈ (expireIn now rows).1, row.deadline ≤ now) ∧
      ∀ row ∈ (expireIn now rows).2, now < row.deadline := by
  induction rows using expireIn.induct now with
  | case1 => simp [expireIn]
  | case2 first rest due expired kept hrest ih =>
    rw [expireIn, if_pos due, hrest]
    rw [hrest] at ih
    exact ⟨List.forall_mem_cons.2 ⟨due, ih.1⟩, ih.2⟩
  | case3 first rest due expired kept hrest ih =>
    rw [expireIn, if_neg due, hrest]
    rw [hrest] at ih
    exact ⟨ih.1, List.forall_mem_cons.2 ⟨Nat.lt_of_not_le due, ih.2⟩⟩

/-- The rows kept are those that are not overdue. -/
theorem mem_expireIn {now : Nat} {rows : List Pending} {row : Pending} :
    row ∈ (expireIn now rows).2 ↔ row ∈ rows ∧ now < row.deadline := by
  have hrows : row ∈ rows ↔ row ∈ (expireIn now rows).1 ∨ row ∈ (expireIn now rows).2 :=
    (expireIn_perm now rows).mem_iff.trans List.mem_append
  obtain ⟨hdue, hearly⟩ := deadlines_expireIn now rows
  constructor
  · intro h
    exact ⟨hrows.2 (.inr h), hearly row h⟩
  · rintro ⟨h, early⟩
    exact (hrows.1 h).resolve_left fun due => Nat.not_lt_of_le (hdue row due) early

/-! ## Ids -/

/-- The search gives out a free id if it gives out one. -/
theorem searchId_eq_some {used : List UInt16} {tries : Nat} {last id : UInt16}
    (h : searchId used tries last = some id) : id ≠ 0 ∧ id ∉ used := by
  induction tries generalizing last with
  | zero => cases h
  | succ tries ih =>
    unfold searchId at h
    split at h
    · next hfree =>
      cases h
      exact hfree
    · exact ih h

/-- A search that fails has met only 0 and ids in use. -/
theorem searchId_eq_none {used : List UInt16} {tries : Nat} {last : UInt16}
    (h : searchId used tries last = none) :
    ∀ step < tries, last + UInt16.ofNat (step + 1) ∈ 0 :: used := by
  induction tries generalizing last with
  | zero => simp
  | succ tries ih =>
    unfold searchId at h
    split at h
    · cases h
    · next htaken =>
      intro step hstep
      cases step with
      | zero =>
        by_cases hzero : last + 1 = 0
        · simp [hzero]
        · exact List.mem_cons_of_mem 0 (Classical.not_not.1 fun hfree => htaken ⟨hzero, hfree⟩)
      | succ step =>
        have hlater := ih h step (Nat.lt_of_succ_lt_succ hstep)
        have hsum : last + 1 + UInt16.ofNat (step + 1) = last + UInt16.ofNat (step + 1 + 1) := by
          rw [UInt16.add_assoc, UInt16.add_comm 1]
          simp [UInt16.ofNat_add]
        rwa [hsum] at hlater

/-- Candidates of a search are all different. -/
theorem nodup_candidates (last : UInt16) {tries : Nat} (h : tries < UInt16.size) :
    ((List.range tries).map fun step => last + UInt16.ofNat (step + 1)).Nodup := by
  rw [List.Nodup, List.pairwise_map]
  refine List.pairwise_lt_range.imp_of_mem ?_
  intro left right hleft hright hlt hsame
  have hleft := List.mem_range.1 hleft
  have hright := List.mem_range.1 hright
  have heq := congrArg UInt16.toNat ((UInt16.add_right_inj last).1 hsame)
  rw [UInt16.toNat_ofNat', UInt16.toNat_ofNat'] at heq
  simp only [UInt16.size] at h
  omega

/-- A search with two more steps than there are ids in use finds one. -/
theorem isSome_searchId {used : List UInt16} (few : used.length + 2 < UInt16.size) (last : UInt16) :
    (searchId used (used.length + 2) last).isSome := by
  cases h : searchId used (used.length + 2) last with
  | some id => rfl
  | none =>
    have hmet : ((List.range (used.length + 2)).map fun step => last + UInt16.ofNat (step + 1))
        ⊆ 0 :: used := by
      intro id hid
      obtain ⟨step, hstep, rfl⟩ := List.mem_map.1 hid
      exact searchId_eq_none h step (List.mem_range.1 hstep)
    have hlength := (nodup_candidates last few).length_le_of_subset hmet
    simp only [List.length_map, List.length_range, List.length_cons] at hlength
    omega

/-- An id that is given out is neither 0 nor in use while the table is no longer than it may be. -/
theorem allocateId_fresh {endpoint : Endpoint} (room : endpoint.pending.length ≤ maxPending) :
    endpoint.allocateId.1 ≠ 0 ∧ endpoint.allocateId.1 ∉ endpoint.usedIds := by
  have few : endpoint.usedIds.length + 2 < UInt16.size := by
    simp only [usedIds, List.length_map]
    exact Nat.lt_of_le_of_lt (Nat.add_le_add_right room 2) (by decide)
  have hlength : endpoint.pending.length = endpoint.usedIds.length := by simp [usedIds]
  obtain ⟨id, hid⟩ := Option.isSome_iff_exists.1 (isSome_searchId few endpoint.lastId)
  simp only [allocateId, hlength, hid, Option.getD_some]
  exact searchId_eq_some hid

/-- A request begins as the last row, under an id that is neither 0 nor in use. -/
theorem beginRequest_eq_ok {endpoint after : Endpoint} {method : String} {deadline : Nat}
    {requester : Requester} {id : UInt16}
    (h : endpoint.beginRequest method deadline requester = .ok (id, after)) :
    id ≠ 0 ∧ (∀ row ∈ endpoint.pending, row.id ≠ id) ∧
      after = { endpoint with
        lastId := id
        pending := endpoint.pending ++ [⟨id, deadline, requester⟩] } := by
  simp only [beginRequest, error_bind, check_eq_ok, bind_eq_ok, pure_eq_ok, Prod.mk.injEq] at h
  obtain ⟨hroom, _, _, rfl, rfl⟩ := h
  have room : endpoint.pending.length ≤ maxPending := Nat.le_of_lt (Nat.lt_of_not_le hroom)
  obtain ⟨hzero, hfree⟩ := allocateId_fresh room
  refine ⟨hzero, ?_, rfl⟩
  intro row hrow hid
  exact hfree (List.mem_map.2 ⟨row, hrow, hid⟩)

/-- A request that begins asks for a method with a short name. -/
theorem size_le_of_beginRequest {endpoint after : Endpoint} {method : String} {deadline : Nat}
    {requester : Requester} {id : UInt16}
    (h : endpoint.beginRequest method deadline requester = .ok (id, after)) :
    method.utf8ByteSize ≤ maxMethodName := by
  simp only [beginRequest, checkMethodName, error_bind, check_eq_ok, bind_eq_ok] at h
  obtain ⟨_, _, ⟨hshort, _⟩, _⟩ := h
  exact Nat.le_of_not_lt hshort

/-! ## Calls -/

/-- A call changes nothing but the method called. -/
theorem pending_of_call? {endpoint after : Endpoint} {name : String} {params : Params}
    {reply : Reply} (h : endpoint.call? name params = some (reply, after)) :
    after.pending = endpoint.pending := by
  obtain ⟨⟨_, methods⟩, _, heq⟩ := Option.map_eq_some_iff.1 h
  cases heq
  rfl

/-- A method put on offer begins no request and ends none. -/
theorem pending_of_addMethod {endpoint after : Endpoint} {name : String} {handler : Handler}
    (h : endpoint.addMethod name handler = .ok after) : after.pending = endpoint.pending := by
  simp only [addMethod, error_bind, check_eq_ok, bind_eq_ok, pure_eq_ok] at h
  obtain ⟨_, _, _, _, _, rfl⟩ := h
  rfl

end Endpoint
end TopicTree
