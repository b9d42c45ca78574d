import TopicTree.Proofs.Tree.Build
import TopicTree.Proofs.Tree.Update

/-!
# What building does to entries

An entry keeps its name and its place whatever is built later. What it does changes only when
something is built at it: a method is put on offer, a listener or a guard is posted. An entry that
is new has a role in which nothing has happened, and which the building it comes from tells.
-/

namespace TopicTree

/-- What a construction makes of the role of the entry that it is about. -/
inductive Construction.Fits (id : Nat) : Construction → Role → Role → Prop
  | method {name : String} {handler : Handler} {role : Role} {old new : Endpoint}
      (there : role.endpoint? = some old) (offered : old.addMethod name handler = .ok new) :
      Fits id (.addMethod id name handler) role (role.withEndpoint new)
  | listener (tag : String) (link : Link) :
      Fits id (.addListener id tag) (.link link)
        (.link { link with listeners := link.listeners ++ [tag] })
  | guard (guard : Guard) (bridge : Bridge) :
      Fits id (.setGuard id guard) (.bridge bridge)
        (.bridge { bridge with guard := some guard, seen := [] })

namespace Tree

variable {tree after : Tree}

/-- An entry of a tree that was built on: it was there, and only its role may be another one now, or
it is new. -/
def Settled (construction : Construction) (tree : Tree) (id : Nat) (entry : Entry) : Prop :=
  (∃ old, tree.get? id = some old ∧ entry.name = old.name ∧ entry.parent = old.parent ∧
    (entry.role = old.role ∨ construction.Fits id old.role entry.role)) ∨
  tree.get? id = none ∧ construction.Founds entry.name entry.role

/-- An entry added below another one. -/
theorem settled_below {construction : Construction} {parent id : Nat} {name : Option Name}
    {role : Role} {entry : Entry} (there : parent < tree.size)
    (founds : construction.Founds name role)
    (h : (tree.below parent name role).get? id = some entry) :
    Settled construction tree id entry := by
  rw [get?_below there] at h
  split at h
  · next hid =>
    cases h
    exact .inr ⟨hid ▸ get?_size tree, founds⟩
  · split at h
    · obtain ⟨old, hold, rfl⟩ := Option.map_eq_some_iff.1 h
      exact .inl ⟨old, hold, rfl, rfl, .inl rfl⟩
    · exact .inl ⟨entry, h, rfl, rfl, .inl rfl⟩

/-- An entry of which only the role was changed. -/
theorem settled_setRole {construction : Construction} {id other : Nat} {change : Role → Role}
    {entry : Entry}
    (fits : ∀ old, tree.get? id = some old → construction.Fits id old.role (change old.role))
    (h : (tree.setRole id change).get? other = some entry) :
    Settled construction tree other entry := by
  rw [setRole, get?_modify] at h
  split at h
  · next hid =>
    subst hid
    obtain ⟨old, hold, rfl⟩ := Option.map_eq_some_iff.1 h
    exact .inl ⟨old, hold, rfl, rfl, .inr (fits old hold)⟩
  · exact .inl ⟨entry, h, rfl, rfl, .inl rfl⟩

/-- Every entry of a tree that was built on was there or is new. -/
theorem settled_construct {construction : Construction} {id : Nat} {entry : Entry}
    (hbuilt : tree.construct construction = .ok after) (h : after.get? id = some entry) :
    Settled construction tree id entry := by
  cases built_construct hbuilt with
  | top name free =>
    rw [get?_add] at h
    split at h
    · next hid =>
      cases h
      exact .inr ⟨hid ▸ get?_size tree, .root _ name⟩
    · exact .inl ⟨entry, h, rfl, rfl, .inl rfl⟩
  | below there unused room founds notDevice named =>
    exact settled_below (lt_size_of_form? there) founds h
  | @downlink socket text interval name free =>
    rw [get?_modify, get?_add, size_add, get?_add] at h
    by_cases hlink : id = tree.size
    · subst hlink
      simp only [↓reduceIte, Nat.ne_of_lt (Nat.lt_succ_self _), Option.map_some,
        Option.some.injEq] at h
      subst h
      exact .inr ⟨get?_size tree, .deviceEnd socket text interval⟩
    · rw [if_neg (Ne.symm hlink), if_neg hlink] at h
      split at h
      · next hroot =>
        cases h
        refine .inr ⟨?_, .localRoot socket text interval name⟩
        exact List.getElem?_eq_none (hroot ▸ Nat.le_succ _)
      · exact .inl ⟨entry, h, rfl, rfl, .inl rfl⟩
  | method there offered =>
    refine settled_setRole (fun found hfound => .method ?_ offered) h
    simpa [endpoint?, hfound] using there
  | @listener _ tag link there =>
    refine settled_setRole (fun found hfound => ?_) h
    obtain hrole : found.role = .link link := by
      cases hrole : found.role <;> simp_all [link?, Role.link?]
    exact hrole ▸ .listener tag link
  | @guard _ guard bridge there =>
    refine settled_setRole (fun found hfound => ?_) h
    obtain hrole : found.role = .bridge bridge := by
      cases hrole : found.role <;> simp_all [bridge?, Role.bridge?]
    exact hrole ▸ .guard guard bridge

/-- Building at an entry leaves its session as it is. -/
theorem session_of_fits {construction : Construction} {id : Nat} {old new : Role}
    (h : construction.Fits id old new) :
    new.bridge?.bind (·.session) = old.bridge?.bind (·.session) := by
  cases h with
  | method there offered =>
    rw [Role.bridge?_withEndpoint, Option.bind_map]
    rfl
  | listener tag link => rfl
  | guard guard bridge => rfl

/-- A new entry has no session. -/
theorem session_of_founds {construction : Construction} {name : Option Name} {role : Role}
    (h : construction.Founds name role) : role.bridge?.bind (·.session) = none := by
  cases h <;> rfl

/-- Building changes no session. -/
theorem session?_construct {construction : Construction}
    (hbuilt : tree.construct construction = .ok after) (id : Nat) :
    after.session? id = tree.session? id := by
  rw [session?, session?]
  cases hentry : after.get? id with
  | none =>
    have hnone : tree.get? id = none := by
      rw [get?, List.getElem?_eq_none_iff] at hentry ⊢
      exact Nat.le_trans (size_le_construct hbuilt) hentry
    simp [bridge?, hentry, hnone]
  | some entry =>
    rw [bridge?, bridge?, hentry, Option.bind_some]
    rcases settled_construct hbuilt hentry with
      ⟨old, hold, -, -, hrole | hfits⟩ | ⟨hnone, hfounds⟩
    · rw [hold, Option.bind_some, hrole]
    · rw [hold, Option.bind_some, session_of_fits hfits]
    · rw [hnone, Option.bind_none, Option.bind_none, session_of_founds hfounds]

/-- Building opens and closes no session. -/
theorem client?_construct {construction : Construction}
    (hbuilt : tree.construct construction = .ok after) (id : Nat) :
    after.client? id = tree.client? id := by
  rw [client?_eq_map, session?_construct hbuilt, client?_eq_map]

end Tree
end TopicTree
