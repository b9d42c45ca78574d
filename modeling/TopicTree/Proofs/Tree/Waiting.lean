import Mathlib.Data.List.Nodup
import TopicTree.Proofs.Tree.Growth
import TopicTree.Proofs.Tree.Pending

/-!
# The requests that a tree awaits

The tables of all entries, taken together. A change of one table exchanges its rows and no others.
Naming a link and building leave the whole as it is, because an entry that is new awaits nothing.
-/

namespace TopicTree.Tree

/-- The requests that an entry awaits. -/
def awaited (tree : Tree) (id : Nat) : List Pending :=
  ((tree.endpoint? id).map (·.pending)).getD []

/-- The requests that the entries of a tree await. -/
def waiting (tree : Tree) : List Pending :=
  (List.range tree.size).flatMap tree.awaited

variable {tree : Tree}

/-- An entry with an endpoint awaits what is in its table. -/
theorem awaited_of_endpoint? {id : Nat} {endpoint : Endpoint}
    (h : tree.endpoint? id = some endpoint) : tree.awaited id = endpoint.pending := by
  rw [awaited, h]
  rfl

/-- Only an entry with an endpoint awaits anything. -/
theorem exists_endpoint?_of_mem_awaited {id : Nat} {row : Pending} (h : row ∈ tree.awaited id) :
    ∃ endpoint, tree.endpoint? id = some endpoint ∧ row ∈ endpoint.pending := by
  cases hendpoint : tree.endpoint? id with
  | none => simp [awaited, hendpoint] at h
  | some endpoint => exact ⟨endpoint, rfl, awaited_of_endpoint? hendpoint ▸ h⟩

/-- As many responses are awaited as there are rows. -/
theorem pendingCount_eq (tree : Tree) (id : Nat) :
    tree.pendingCount id = (tree.awaited id).length := by
  rw [pendingCount, awaited]
  cases tree.endpoint? id <;> rfl

/-- An entry that is not there awaits nothing. -/
theorem awaited_eq_nil {id : Nat} (h : tree.size ≤ id) : tree.awaited id = [] := by
  have hget : tree.get? id = none := List.getElem?_eq_none h
  simp [awaited, endpoint?, hget]

/-- An entry with an endpoint is there. -/
theorem lt_size_of_endpoint? {id : Nat} {endpoint : Endpoint}
    (h : tree.endpoint? id = some endpoint) : id < tree.size := by
  obtain ⟨entry, hentry, _⟩ := Option.bind_eq_some_iff.1 h
  exact (List.getElem?_eq_some_iff.1 hentry).1

/-- A request is awaited by a tree when it is by one of its entries. -/
theorem mem_waiting {row : Pending} : row ∈ tree.waiting ↔ ∃ id, row ∈ tree.awaited id := by
  rw [waiting, List.mem_flatMap]
  constructor
  · rintro ⟨id, _, hrow⟩
    exact ⟨id, hrow⟩
  · rintro ⟨id, hrow⟩
    refine ⟨id, List.mem_range.2 (Nat.lt_of_not_le fun hsize => ?_), hrow⟩
    rw [awaited_eq_nil hsize] at hrow
    cases hrow

/-- Looking at entries that are not there finds nothing more that is awaited. -/
theorem flatMap_awaited {bound : Nat} (h : tree.size ≤ bound) :
    (List.range bound).flatMap tree.awaited = tree.waiting := by
  obtain ⟨extra, rfl⟩ := Nat.exists_eq_add_of_le h
  have hnone : (List.range extra).flatMap (fun id => tree.awaited (tree.size + id)) = [] :=
    List.flatMap_eq_nil_iff.2 fun id _ => awaited_eq_nil (Nat.le_add_right _ _)
  rw [List.range_add, List.flatMap_append, List.flatMap_map, hnone, List.append_nil, waiting]

/-- Trees whose entries await the same await the same. -/
theorem waiting_congr {left right : Tree} (awaits : ∀ id, left.awaited id = right.awaited id) :
    left.waiting = right.waiting := by
  rw [← flatMap_awaited (Nat.le_max_left left.size right.size),
    ← flatMap_awaited (Nat.le_max_right left.size right.size), funext awaits]

/-- Trees that are alike await the same. -/
theorem Alike.waiting_eq {left right : Tree} (h : left.Alike right) :
    left.waiting = right.waiting := by
  refine waiting_congr fun id => ?_
  rw [awaited, awaited, h.endpoint? id]

/-- A change of one table exchanges its rows and no others. -/
theorem waiting_setEndpoint {id : Nat} {old : Endpoint} (h : tree.endpoint? id = some old) :
    ∃ others, tree.waiting.Perm (old.pending ++ others) ∧
      ∀ new, (tree.setEndpoint id new).waiting.Perm (new.pending ++ others) := by
  obtain ⟨front, back, hrange⟩ :=
    List.append_of_mem (List.mem_range.2 (lt_size_of_endpoint? h))
  have hnodup : (front ++ id :: back).Nodup := hrange ▸ List.nodup_range
  have hfresh : id ∉ front ++ back := (List.nodup_cons.1 (List.nodup_middle.1 hnodup)).1
  refine ⟨front.flatMap tree.awaited ++ back.flatMap tree.awaited, ?_, fun new => ?_⟩
  · rw [waiting, hrange, List.flatMap_append, List.flatMap_cons, awaited_of_endpoint? h]
    exact List.perm_append_comm_assoc _ _ _
  · have hsame : ∀ other, other ≠ id → (tree.setEndpoint id new).awaited other
        = tree.awaited other := by
      intro other hne
      rw [awaited, awaited, endpoint?_setEndpoint_of_ne (Ne.symm hne)]
    have hfront : front.flatMap (tree.setEndpoint id new).awaited = front.flatMap tree.awaited :=
      List.flatMap_congr fun other hother =>
        hsame other fun heq => hfresh (List.mem_append_left back (heq ▸ hother))
    have hback : back.flatMap (tree.setEndpoint id new).awaited = back.flatMap tree.awaited :=
      List.flatMap_congr fun other hother =>
        hsame other fun heq => hfresh (List.mem_append_right front (heq ▸ hother))
    rw [waiting, size_congr (outline_setEndpoint tree id new), hrange, List.flatMap_append,
      List.flatMap_cons, awaited_of_endpoint? (endpoint?_setEndpoint_self h new), hfront, hback]
    exact List.perm_append_comm_assoc _ _ _

/-- A table that keeps its rows changes nothing of what is awaited. -/
theorem awaited_setEndpoint {id : Nat} {old new : Endpoint} (h : tree.endpoint? id = some old)
    (hsame : new.pending = old.pending) (other : Nat) :
    (tree.setEndpoint id new).awaited other = tree.awaited other := by
  rw [awaited, map_endpoint?_setEndpoint h hsame, awaited]

/-- Giving an entry a name changes nothing of what is awaited. -/
theorem waiting_setName (tree : Tree) (id : Nat) (name : Name) :
    (tree.setName id name).waiting = tree.waiting := by
  refine waiting_congr fun other => ?_
  rw [awaited, endpoint?_setName, awaited]

/-! ## Building -/

/-- Building changes nothing of what an entry awaits. -/
theorem awaited_construct {after : Tree} {construction : Construction}
    (hbuilt : tree.construct construction = .ok after) (id : Nat) :
    after.awaited id = tree.awaited id := by
  cases hentry : after.get? id with
  | none =>
    have hsize := List.getElem?_eq_none_iff.1 hentry
    rw [awaited_eq_nil hsize, awaited_eq_nil (Nat.le_trans (size_le_construct hbuilt) hsize)]
  | some entry =>
    simp only [awaited, endpoint?, hentry, Option.bind_some]
    rcases settled_construct hbuilt hentry with ⟨old, hold, -, -, hrole | hfits⟩ | ⟨hnone, hfounds⟩
    · rw [hold, Option.bind_some, hrole]
    · rw [hold, Option.bind_some]
      generalize old.role = before at hfits
      generalize entry.role = role at hfits
      cases hfits with
      | method there offered =>
        rw [Role.endpoint?_withEndpoint, there]
        exact Endpoint.pending_of_addMethod offered
      | listener => rfl
      | guard => rfl
    · rw [hnone]
      generalize entry.name = name at hfounds
      generalize entry.role = role at hfounds
      cases hfounds <;> rfl

/-- Building changes nothing of what is awaited. -/
theorem waiting_construct {after : Tree} {construction : Construction}
    (hbuilt : tree.construct construction = .ok after) : after.waiting = tree.waiting :=
  waiting_congr (awaited_construct hbuilt)

end TopicTree.Tree
