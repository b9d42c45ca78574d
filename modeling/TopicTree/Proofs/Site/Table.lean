import Mathlib.Data.List.Induction
import Mathlib.Data.List.Nodup
import TopicTree.Site.Client

/-!
# Tables of filters

A session holds the first few filters that its client has sought, each once, and none that is too
long. A filter that is already there is granted again and takes no room. So what is granted for a
filter is told by the table right behind it: it is granted if it is in there, and refused if not.
-/

namespace TopicTree

/-- What is granted for a filter, told by the table behind it. -/
def Grant.told (table : List String) (filter : String) : Grant :=
  if filter ∈ table then .granted .atMostOnce else .refused

namespace Session

variable {sought more filters : List String} {filter client : String}

/-- The filters that a session holds once some were sought, in the order in which they first were. -/
def table (sought : List String) : List String :=
  ((sought.filter (·.utf8ByteSize ≤ maxPath)).eraseDups).take maxFilters

/-- What is granted for some filters, one after the other, once others were sought. -/
def grants (sought filters : List String) : List Grant :=
  filters.mapIdx fun place filter => .told (table (sought ++ filters.take (place + 1))) filter

/-- An element behind a list is kept if it has not been there. -/
theorem eraseDups_concat (front : List String) (last : String) :
    (front ++ [last]).eraseDups
      = if last ∈ front then front.eraseDups else front.eraseDups ++ [last] := by
  rw [List.eraseDups_append]
  split
  · next hold => simp [List.removeAll, hold]
  · next hnew => simp [List.removeAll, hnew, List.eraseDups_cons]

/-- A filter joins a table if it is new, not too long and finds room. -/
theorem table_concat (sought : List String) (filter : String) :
    table (sought ++ [filter]) =
      if filter ∈ table sought ∨ maxPath < filter.utf8ByteSize ∨ (table sought).length = maxFilters
      then table sought
      else table sought ++ [filter] := by
  unfold table
  generalize hshort : sought.filter (·.utf8ByteSize ≤ maxPath) = short
  rw [List.filter_append, hshort]
  by_cases hlong : maxPath < filter.utf8ByteSize
  · have hnone : [filter].filter (·.utf8ByteSize ≤ maxPath) = [] := by
      simp [Nat.not_le_of_lt hlong]
    rw [hnone, List.append_nil, if_pos (.inr (.inl hlong))]
  · have hone : [filter].filter (·.utf8ByteSize ≤ maxPath) = [filter] := by
      simp [Nat.le_of_not_lt hlong]
    rw [hone, eraseDups_concat]
    by_cases hfull : maxFilters ≤ short.eraseDups.length
    · have hlast : ((short.eraseDups).take maxFilters).length = maxFilters :=
        List.length_take_of_le hfull
      have hlate : (if filter ∈ short then short.eraseDups else short.eraseDups ++ [filter]).take
          maxFilters = (short.eraseDups).take maxFilters := by
        split
        · rfl
        · exact List.take_append_of_le_length hfull
      rw [hlate, if_pos (.inr (.inr hlast))]
    · have hroom := Nat.lt_of_not_le hfull
      rw [List.take_of_length_le (Nat.le_of_lt hroom)]
      by_cases hold : filter ∈ short
      · rw [if_pos hold, if_pos (.inl (List.mem_eraseDups.2 hold)),
          List.take_of_length_le (Nat.le_of_lt hroom)]
      · rw [if_neg hold, List.take_of_length_le (by rwa [List.length_append]), if_neg]
        rintro (hmem | hlong' | hlast)
        · exact hold (List.mem_eraseDups.1 hmem)
        · exact hlong hlong'
        · exact Nat.ne_of_lt hroom hlast

/-- There is never more in a table than it has room for. -/
theorem length_table_le (sought : List String) : (table sought).length ≤ maxFilters :=
  List.length_take_le _ _

/-- No filter is in a table twice. -/
theorem nodup_table (sought : List String) : (table sought).Nodup := by
  induction sought using List.reverseRecOn with
  | nil => exact List.nodup_nil
  | append_singleton sought filter ih =>
    rw [table_concat]
    split
    · exact ih
    · next hnew =>
      refine List.nodup_append.2 ⟨ih, List.nodup_singleton filter, fun old hold last hlast => ?_⟩
      rw [List.mem_singleton.1 hlast]
      exact fun heq => hnew (.inl (heq ▸ hold))

/-- A filter is not in the table behind it exactly if it is new, and too long or one too many. -/
theorem notMem_table_concat : filter ∉ table (sought ++ [filter]) ↔
    filter ∉ table sought ∧
      (maxPath < filter.utf8ByteSize ∨ (table sought).length = maxFilters) := by
  rw [table_concat]
  split
  · next hsame =>
    exact ⟨fun hnew => ⟨hnew, hsame.resolve_left hnew⟩, And.left⟩
  · next hadded =>
    exact ⟨fun hnew => absurd (List.mem_append_right _ (List.mem_singleton_self filter)) hnew,
      fun hnew => absurd (.inr hnew.2) hadded⟩

/-- What is granted for a filter is told by the table right behind it. -/
theorem getElem?_grants {place : Nat} (there : filters[place]? = some filter) :
    (grants sought filters)[place]?
      = some (.told (table (sought ++ filters.take (place + 1))) filter) := by
  rw [grants, List.getElem?_mapIdx, there, Option.map_some]

/-- A filter is granted exactly if it is in the table right behind it. -/
theorem grants_eq_granted {place : Nat} (there : filters[place]? = some filter) :
    (grants sought filters)[place]? = some (.granted .atMostOnce)
      ↔ filter ∈ table (sought ++ filters.take (place + 1)) := by
  rw [getElem?_grants there, Option.some_inj, Grant.told]
  split <;> simp_all

/-- A filter is refused exactly if it is new, and too long or one too many. -/
theorem grants_eq_refused {place : Nat} (there : filters[place]? = some filter) :
    (grants sought filters)[place]? = some .refused
      ↔ filter ∉ table (sought ++ filters.take place) ∧ (maxPath < filter.utf8ByteSize ∨
        (table (sought ++ filters.take place)).length = maxFilters) := by
  have hplace : sought ++ filters.take (place + 1) = sought ++ filters.take place ++ [filter] := by
    rw [List.take_add_one, there, Option.toList_some, List.append_assoc]
  rw [getElem?_grants there, Option.some_inj, ← notMem_table_concat, ← hplace, Grant.told]
  split <;> simp_all

/-- Subscribing to one filter seeks it. -/
theorem subscribe_table : (Session.mk client (table sought)).subscribe filter
    = (.told (table (sought ++ [filter])) filter, ⟨client, table (sought ++ [filter])⟩) := by
  have hroom := length_table_le sought
  have hadded := table_concat sought filter
  unfold Session.subscribe Grant.told
  dsimp only
  split
  · next hold =>
    rw [if_pos (.inl hold)] at hadded
    rw [hadded, if_pos hold]
  · next hnew =>
    split
    · next hrefused =>
      have hfull := hrefused.imp_right (Nat.le_antisymm hroom)
      rw [if_pos (.inr hfull)] at hadded
      rw [hadded, if_neg hnew]
    · next hfits =>
      rw [if_neg] at hadded
      · rw [hadded, if_pos (List.mem_append_right _ (List.mem_singleton_self filter))]
      · rintro (hold | hlong | hfull)
        · exact hnew hold
        · exact hfits (.inl hlong)
        · exact hfits (.inr (Nat.le_of_eq hfull.symm))

/-- Subscribing to filters seeks one after the other. -/
theorem subscribeAll_table (client : String) (sought filters : List String) :
    (Session.mk client (table sought)).subscribeAll filters
      = (grants sought filters, ⟨client, table (sought ++ filters)⟩) := by
  induction filters generalizing sought with
  | nil => rw [List.append_nil]; rfl
  | cons filter filters ih =>
    rw [subscribeAll, subscribe_table]
    simp only [ih, grants, List.mapIdx_cons, List.take_succ_cons, List.take_zero, List.append_assoc,
      List.singleton_append]

/-- Subscribing takes no filter away. -/
theorem prefix_subscribeAll (session : Session) (filters : List String) :
    session.filters <+: (session.subscribeAll filters).2.filters := by
  induction filters generalizing session with
  | nil => exact List.prefix_rfl
  | cons filter filters ih =>
    have hone : session.filters <+: (session.subscribe filter).2.filters := by
      unfold Session.subscribe
      split
      · exact List.prefix_rfl
      · split
        · exact List.prefix_rfl
        · exact List.prefix_append _ _
    exact hone.trans (ih _)

end Session
end TopicTree
