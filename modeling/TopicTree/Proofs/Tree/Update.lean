import TopicTree.Proofs.Tree.Outline

/-!
# Reading a tree after a change

What each accessor sees of each change of one entry. A change of an endpoint is seen by nobody who
looks for links, and so on: every law here either names the place that changed or says that nothing
is seen.
-/

namespace TopicTree

namespace Role

@[simp]
theorem endpoint?_withChannel (channel : Channel) (role : Role) :
    (role.withChannel channel).endpoint? = role.endpoint? := by
  cases role <;> rfl

@[simp]
theorem channel?_withEndpoint (endpoint : Endpoint) (role : Role) :
    (role.withEndpoint endpoint).channel? = role.channel? := by
  cases role <;> rfl

@[simp]
theorem endpoint?_withEndpoint (endpoint : Endpoint) (role : Role) :
    (role.withEndpoint endpoint).endpoint? = role.endpoint?.map fun _ => endpoint := by
  cases role <;> rfl

@[simp]
theorem channel?_withChannel (channel : Channel) (role : Role) :
    (role.withChannel channel).channel? = role.channel?.map fun _ => channel := by
  cases role <;> rfl

@[simp]
theorem link?_withEndpoint (endpoint : Endpoint) (role : Role) :
    (role.withEndpoint endpoint).link? = role.link? := by
  cases role <;> rfl

@[simp]
theorem link?_withChannel (channel : Channel) (role : Role) :
    (role.withChannel channel).link? = role.link?.map fun link => { link with channel } := by
  cases role <;> rfl

/-- Putting back the endpoint that is there changes nothing. -/
theorem withEndpoint_of_endpoint? {role : Role} {endpoint : Endpoint}
    (h : role.endpoint? = some endpoint) : role.withEndpoint endpoint = role := by
  cases role <;> cases h <;> rfl

/-- A link has no endpoint. -/
theorem endpoint?_of_link? {role : Role} {link : Link} (h : role.link? = some link) :
    role.endpoint? = none := by
  cases role <;> simp_all [link?, endpoint?]

/-- The channel of a link is the channel of its entry. -/
theorem channel?_of_link? {role : Role} {link : Link} (h : role.link? = some link) :
    role.channel? = some link.channel := by
  cases role <;> simp_all [link?, channel?]

/-- The endpoint of a bridge is the endpoint of its entry. -/
theorem endpoint?_of_bridge? {role : Role} {bridge : Bridge} (h : role.bridge? = some bridge) :
    role.endpoint? = some bridge.endpoint := by
  cases role <;> simp_all [bridge?, endpoint?]

@[simp]
theorem bridge?_withEndpoint (endpoint : Endpoint) (role : Role) :
    (role.withEndpoint endpoint).bridge?
      = role.bridge?.map fun bridge => { bridge with endpoint } := by
  cases role <;> rfl

@[simp]
theorem bridge?_withChannel (channel : Channel) (role : Role) :
    (role.withChannel channel).bridge?
      = role.bridge?.map fun bridge => { bridge with channel } := by
  cases role <;> rfl

/-- A bridge is an entry with a channel. -/
theorem channel?_of_bridge? {role : Role} {bridge : Bridge} (h : role.bridge? = some bridge) :
    role.channel? = some bridge.channel := by
  cases role <;> simp_all [bridge?, channel?]

/-- A bridge is no link. -/
theorem link?_of_bridge? {role : Role} {bridge : Bridge} (h : role.bridge? = some bridge) :
    role.link? = none := by
  cases role <;> simp_all [bridge?, link?]

/-- A link is no bridge. -/
theorem bridge?_of_link? {role : Role} {link : Link} (h : role.link? = some link) :
    role.bridge? = none := by
  cases role <;> simp_all [bridge?, link?]

end Role

namespace Tree

/-- A change of one entry is told by what it does to the entry that is there. -/
theorem modify_congr {tree : Tree} {id : Nat} {found : Entry} {left right : Entry → Entry}
    (there : tree.get? id = some found) (same : left found = right found) :
    tree.modify id left = tree.modify id right := by
  have hget : ∀ other, (tree.modify id left).get? other = (tree.modify id right).get? other := by
    intro other
    rw [get?_modify, get?_modify]
    split
    · next hid => rw [← hid, there, Option.map_some, Option.map_some, same]
    · rfl
  exact congrArg (mk · tree.timeout) (List.ext_getElem? hget)

/-- What is read of roles after one of them has changed. -/
theorem bind_get?_setRole {α : Type} (tree : Tree) (id : Nat) (change : Role → Role)
    (read : Role → Option α) (other : Nat) :
    ((tree.setRole id change).get? other).bind (fun entry => read entry.role)
      = if id = other then (tree.get? other).bind fun entry => read (change entry.role)
        else (tree.get? other).bind fun entry => read entry.role := by
  rw [setRole, get?_modify]
  split
  · rw [Option.bind_map]
    rfl
  · rfl

/-- A reading that a change of a role leaves alone is the same everywhere. -/
theorem bind_get?_setRole_eq {α : Type} {tree : Tree} {id : Nat} {change : Role → Role}
    {read : Role → Option α}
    (h : ∀ entry, tree.get? id = some entry → read (change entry.role) = read entry.role)
    (other : Nat) :
    ((tree.setRole id change).get? other).bind (fun entry => read entry.role)
      = (tree.get? other).bind fun entry => read entry.role := by
  rw [bind_get?_setRole]
  split
  · next hid =>
    subst hid
    cases hentry : tree.get? id with
    | none => rfl
    | some entry => simp [h entry hentry]
  · rfl

/-! ## Endpoints -/

/-- A changed endpoint is seen at its own place. -/
theorem endpoint?_setEndpoint (tree : Tree) (id : Nat) (endpoint : Endpoint) (other : Nat) :
    (tree.setEndpoint id endpoint).endpoint? other
      = if id = other then (tree.endpoint? other).map fun _ => endpoint
        else tree.endpoint? other := by
  rw [endpoint?, setEndpoint, bind_get?_setRole]
  split
  · simp only [Role.endpoint?_withEndpoint, endpoint?]
    rw [Option.map_bind]
    rfl
  · rfl

/-- An endpoint that was there is replaced. -/
theorem endpoint?_setEndpoint_self {tree : Tree} {id : Nat} {old : Endpoint}
    (h : tree.endpoint? id = some old) (endpoint : Endpoint) :
    (tree.setEndpoint id endpoint).endpoint? id = some endpoint := by
  rw [endpoint?_setEndpoint, if_pos rfl, h, Option.map_some]

/-- Putting back the endpoint that is there changes nothing. -/
theorem setEndpoint_of_endpoint? {tree : Tree} {id : Nat} {endpoint : Endpoint}
    (there : tree.endpoint? id = some endpoint) : tree.setEndpoint id endpoint = tree := by
  obtain ⟨entry, hentry, hrole⟩ := Option.bind_eq_some_iff.1 there
  have hsame : { entry with role := entry.role.withEndpoint endpoint } = entry := by
    rw [Role.withEndpoint_of_endpoint? hrole]
  calc tree.setEndpoint id endpoint
      = tree.modify id fun entry => entry := modify_congr hentry hsame
    _ = tree := congrArg (mk · tree.timeout) (List.modify_id id tree.entries)

/-- No other endpoint is replaced. -/
theorem endpoint?_setEndpoint_of_ne {id other : Nat} (h : id ≠ other) (tree : Tree)
    (endpoint : Endpoint) :
    (tree.setEndpoint id endpoint).endpoint? other = tree.endpoint? other := by
  rw [endpoint?_setEndpoint, if_neg h]

/-- What an endpoint keeps is kept at every entry of the tree. -/
theorem map_endpoint?_setEndpoint {α : Type} {part : Endpoint → α} {tree : Tree} {id : Nat}
    {old new : Endpoint} (there : tree.endpoint? id = some old) (same : part new = part old)
    (other : Nat) :
    ((tree.setEndpoint id new).endpoint? other).map part = (tree.endpoint? other).map part := by
  rw [endpoint?_setEndpoint]
  split
  · next hid =>
    subst hid
    simp [there, same]
  · rfl

@[simp]
theorem endpoint?_setChannel (tree : Tree) (id : Nat) (channel : Channel) (other : Nat) :
    (tree.setChannel id channel).endpoint? other = tree.endpoint? other :=
  bind_get?_setRole_eq (fun entry _ => Role.endpoint?_withChannel channel entry.role) other

/-- A link that stays a link has no endpoint to be seen. -/
theorem endpoint?_setLink {tree : Tree} {id : Nat} {old link : Link}
    (h : tree.link? id = some old) (other : Nat) :
    (tree.setLink id link).endpoint? other = tree.endpoint? other := by
  refine bind_get?_setRole_eq (fun entry hentry => ?_) other
  rw [link?, hentry] at h
  exact (Role.endpoint?_of_link? h).symm ▸ rfl

/-- A bridge that keeps its endpoint shows no other one. -/
theorem endpoint?_setBridge {tree : Tree} {id : Nat} {old bridge : Bridge}
    (h : tree.bridge? id = some old) (hsame : bridge.endpoint = old.endpoint) (other : Nat) :
    (tree.setBridge id bridge).endpoint? other = tree.endpoint? other := by
  refine bind_get?_setRole_eq (fun entry hentry => ?_) other
  rw [bridge?, hentry] at h
  rw [Role.endpoint?_of_bridge? h, ← hsame]
  rfl

/-- A new name changes nothing but the name. -/
theorem get?_setName (tree : Tree) (id : Nat) (name : Name) (other : Nat) :
    (tree.setName id name).get? other
      = (tree.get? other).map fun entry => { entry with
          name := if id = other then some name else entry.name } := by
  rw [setName, get?_modify]
  split
  · rfl
  · exact Option.map_id'.symm

/-- To give an entry the name that it has changes nothing. -/
theorem setName_of_name? {tree : Tree} {id : Nat} {name : Name} (h : tree.name? id = some name) :
    tree.setName id name = tree := by
  obtain ⟨entry, hentry, hname⟩ := Option.bind_eq_some_iff.1 h
  have hsame : ∀ other, (tree.setName id name).get? other = tree.get? other := by
    intro other
    rw [get?_setName]
    by_cases heq : id = other
    · subst heq
      simp [hentry, ← hname]
    · simp [heq]
  have hentries : (tree.setName id name).entries = tree.entries := List.ext_getElem? hsame
  exact congrArg (fun entries => { tree with entries }) hentries

@[simp]
theorem endpoint?_setName (tree : Tree) (id : Nat) (name : Name) (other : Nat) :
    (tree.setName id name).endpoint? other = tree.endpoint? other := by
  rw [endpoint?, get?_setName, Option.bind_map]
  rfl

/-- The endpoint of a bridge is the endpoint of its entry. -/
theorem endpoint?_of_bridge? {tree : Tree} {id : Nat} {bridge : Bridge}
    (h : tree.bridge? id = some bridge) : tree.endpoint? id = some bridge.endpoint := by
  obtain ⟨entry, hentry, hbridge⟩ := Option.bind_eq_some_iff.1 h
  rw [endpoint?, hentry]
  exact Role.endpoint?_of_bridge? hbridge

/-! ## Channels -/

@[simp]
theorem channel?_setEndpoint (tree : Tree) (id : Nat) (endpoint : Endpoint) (other : Nat) :
    (tree.setEndpoint id endpoint).channel? other = tree.channel? other :=
  bind_get?_setRole_eq (fun entry _ => Role.channel?_withEndpoint endpoint entry.role) other

/-- A changed channel is seen at its own place. -/
theorem channel?_setChannel (tree : Tree) (id : Nat) (channel : Channel) (other : Nat) :
    (tree.setChannel id channel).channel? other
      = if id = other then (tree.channel? other).map fun _ => channel
        else tree.channel? other := by
  rw [channel?, setChannel, bind_get?_setRole]
  split
  · simp only [Role.channel?_withChannel, channel?]
    rw [Option.map_bind]
    rfl
  · rfl

/-- A channel that is replaced twice is replaced once. -/
theorem setChannel_setChannel (tree : Tree) (id : Nat) (first second : Channel) :
    (tree.setChannel id first).setChannel id second = tree.setChannel id second := by
  have hrole : ∀ role : Role, (role.withChannel first).withChannel second = role.withChannel second :=
    fun role => by cases role <;> rfl
  simp [setChannel, setRole, modify, List.modify_modify_eq, Function.comp_def, hrole]

/-- The channel of a link is the channel of its entry. -/
theorem channel?_of_link? {tree : Tree} {id : Nat} {link : Link}
    (h : tree.link? id = some link) : tree.channel? id = some link.channel := by
  obtain ⟨entry, hentry, hlink⟩ := Option.bind_eq_some_iff.1 h
  rw [channel?, hentry]
  exact Role.channel?_of_link? hlink

/-! ## Links and bridges -/

@[simp]
theorem link?_setEndpoint (tree : Tree) (id : Nat) (endpoint : Endpoint) (other : Nat) :
    (tree.setEndpoint id endpoint).link? other = tree.link? other :=
  bind_get?_setRole_eq (fun entry _ => Role.link?_withEndpoint endpoint entry.role) other

/-- A changed channel of a link is seen at its own place. -/
theorem link?_setChannel (tree : Tree) (id : Nat) (channel : Channel) (other : Nat) :
    (tree.setChannel id channel).link? other
      = if id = other then (tree.link? other).map fun link => { link with channel }
        else tree.link? other := by
  rw [link?, setChannel, bind_get?_setRole]
  split
  · simp only [Role.link?_withChannel, link?]
    rw [Option.map_bind]
    rfl
  · rfl

/-- A changed channel of a bridge is seen at its own place. -/
theorem bridge?_setChannel (tree : Tree) (id : Nat) (channel : Channel) (other : Nat) :
    (tree.setChannel id channel).bridge? other
      = if id = other then (tree.bridge? other).map fun bridge => { bridge with channel }
        else tree.bridge? other := by
  rw [bridge?, setChannel, bind_get?_setRole]
  split
  · simp only [Role.bridge?_withChannel, bridge?]
    rw [Option.map_bind]
    rfl
  · rfl

/-- The channel of a bridge is the channel of its entry. -/
theorem channel?_of_bridge? {tree : Tree} {id : Nat} {bridge : Bridge}
    (h : tree.bridge? id = some bridge) : tree.channel? id = some bridge.channel := by
  obtain ⟨entry, hentry, hbridge⟩ := Option.bind_eq_some_iff.1 h
  rw [channel?, hentry]
  exact Role.channel?_of_bridge? hbridge

/-- An entry that is neither a link nor a bridge has no channel. -/
theorem channel?_eq_none {tree : Tree} {id : Nat} (link : tree.link? id = none)
    (bridge : tree.bridge? id = none) : tree.channel? id = none := by
  rw [link?, bridge?, channel?] at *
  cases hentry : tree.get? id with
  | none => rfl
  | some entry =>
    rw [hentry, Option.bind_some] at link bridge
    rw [Option.bind_some]
    cases hrole : entry.role <;> simp_all [Role.link?, Role.bridge?, Role.channel?]

/-- No entry is both a link and a bridge. -/
theorem link?_eq_none_of_bridge? {tree : Tree} {id : Nat} {bridge : Bridge}
    (h : tree.bridge? id = some bridge) : tree.link? id = none := by
  obtain ⟨entry, hentry, hbridge⟩ := Option.bind_eq_some_iff.1 h
  rw [link?, hentry]
  exact Role.link?_of_bridge? hbridge

/-- The session that is open at a bridge, if one is. -/
def session? (tree : Tree) (id : Nat) : Option Session :=
  (tree.bridge? id).bind (·.session)

/-- A client is the one whose session is open. -/
theorem client?_eq_map (tree : Tree) (id : Nat) :
    tree.client? id = (tree.session? id).map (·.clientId) :=
  rfl

/-- The session at a bridge is the bridge's. -/
theorem session?_of_bridge? {tree : Tree} {id : Nat} {bridge : Bridge}
    (there : tree.bridge? id = some bridge) : tree.session? id = bridge.session := by
  rw [session?, there, Option.bind_some]

section

variable {tree : Tree} {id : Nat} {old link : Link} (there : tree.link? id = some old)
include there

/-- A link that keeps its channel changes no channel. -/
theorem channel?_setLink (same : link.channel = old.channel) (other : Nat) :
    (tree.setLink id link).channel? other = tree.channel? other := by
  refine bind_get?_setRole_eq (fun entry hentry => ?_) other
  rw [Tree.link?, hentry, Option.bind_some] at there
  rw [Role.channel?_of_link? there, ← same]
  rfl

/-- A changed link is seen at its own place. -/
theorem link?_setLink (other : Nat) :
    (tree.setLink id link).link? other = if id = other then some link else tree.link? other := by
  rw [link?, setLink, bind_get?_setRole]
  split
  · next hid =>
    subst hid
    obtain ⟨entry, hentry, _⟩ := Option.bind_eq_some_iff.1 there
    simp [hentry, Role.link?]
  · rfl

/-- A changed link changes no bridge. -/
theorem bridge?_setLink (other : Nat) :
    (tree.setLink id link).bridge? other = tree.bridge? other := by
  refine bind_get?_setRole_eq (fun entry hentry => ?_) other
  rw [Tree.link?, hentry, Option.bind_some] at there
  rw [Role.bridge?_of_link? there]
  rfl

/-- A changed link changes no session. -/
theorem session?_setLink (other : Nat) :
    (tree.setLink id link).session? other = tree.session? other := by
  rw [session?, bridge?_setLink there, session?]

/-- A changed link changes no client. -/
theorem client?_setLink (other : Nat) :
    (tree.setLink id link).client? other = tree.client? other := by
  rw [client?_eq_map, session?_setLink there, client?_eq_map]

end

section

variable {tree : Tree} {id : Nat} {old bridge : Bridge} (there : tree.bridge? id = some old)
include there

/-- A bridge that keeps its channel changes no channel. -/
theorem channel?_setBridge (same : bridge.channel = old.channel) (other : Nat) :
    (tree.setBridge id bridge).channel? other = tree.channel? other := by
  refine bind_get?_setRole_eq (fun entry hentry => ?_) other
  rw [Tree.bridge?, hentry, Option.bind_some] at there
  rw [Role.channel?_of_bridge? there, ← same]
  rfl

/-- A changed bridge is seen at its own place. -/
theorem bridge?_setBridge (other : Nat) :
    (tree.setBridge id bridge).bridge? other
      = if id = other then some bridge else tree.bridge? other := by
  rw [bridge?, setBridge, bind_get?_setRole]
  split
  · next hid =>
    subst hid
    obtain ⟨entry, hentry, _⟩ := Option.bind_eq_some_iff.1 there
    simp [hentry, Role.bridge?]
  · rfl

/-- A changed bridge has its own session. -/
theorem session?_setBridge (other : Nat) :
    (tree.setBridge id bridge).session? other
      = if id = other then bridge.session else tree.session? other := by
  rw [session?, bridge?_setBridge there]
  split <;> rfl

/-- A changed bridge changes no link. -/
theorem link?_setBridge (other : Nat) :
    (tree.setBridge id bridge).link? other = tree.link? other := by
  refine bind_get?_setRole_eq (fun entry hentry => ?_) other
  rw [Tree.bridge?, hentry, Option.bind_some] at there
  rw [Role.link?_of_bridge? there]
  rfl

end

/-- A name changes no channel. -/
theorem channel?_setName (tree : Tree) (id : Nat) (name : Name) (other : Nat) :
    (tree.setName id name).channel? other = tree.channel? other := by
  rw [channel?, get?_setName, Option.bind_map]
  rfl

/-- A name changes no link. -/
theorem link?_setName (tree : Tree) (id : Nat) (name : Name) (other : Nat) :
    (tree.setName id name).link? other = tree.link? other := by
  rw [link?, get?_setName, Option.bind_map]
  rfl

/-- A name changes no bridge. -/
theorem bridge?_setName (tree : Tree) (id : Nat) (name : Name) (other : Nat) :
    (tree.setName id name).bridge? other = tree.bridge? other := by
  rw [bridge?, get?_setName, Option.bind_map]
  rfl

/-- A name changes no session. -/
theorem session?_setName (tree : Tree) (id : Nat) (name : Name) (other : Nat) :
    (tree.setName id name).session? other = tree.session? other := by
  rw [session?, bridge?_setName, session?]

/-! ## Trees that are alike -/

/-- Trees of one outline with the same endpoints: they differ in their channels, in the state of
their links, and in the sessions of their bridges. -/
structure Alike (left right : Tree) : Prop where
  outline : left.outline = right.outline
  timeout : left.timeout = right.timeout
  endpoint? : ∀ id, left.endpoint? id = right.endpoint? id

namespace Alike

@[refl]
protected theorem refl (tree : Tree) : tree.Alike tree :=
  ⟨rfl, rfl, fun _ => rfl⟩

protected theorem trans {first second third : Tree} (h : first.Alike second)
    (h' : second.Alike third) : first.Alike third :=
  ⟨h.outline.trans h'.outline, h.timeout.trans h'.timeout,
    fun id => (h.endpoint? id).trans (h'.endpoint? id)⟩

end Alike

/-- A tree whose channel has changed is like the one before. -/
theorem alike_setChannel (tree : Tree) (id : Nat) (channel : Channel) :
    (tree.setChannel id channel).Alike tree :=
  ⟨outline_setChannel tree id channel, rfl, endpoint?_setChannel tree id channel⟩

/-- A tree with a link in another state is like the one before. -/
theorem alike_setLink {tree : Tree} {id : Nat} {old link : Link} (h : tree.link? id = some old)
    (hplace : link.place = old.place) : (tree.setLink id link).Alike tree :=
  ⟨outline_setLink h hplace, rfl, endpoint?_setLink h⟩

/-- A tree with a bridge in another state is like the one before. -/
theorem alike_setBridge {tree : Tree} {id : Nat} {old bridge : Bridge}
    (h : tree.bridge? id = some old) (hsame : bridge.endpoint = old.endpoint) :
    (tree.setBridge id bridge).Alike tree :=
  ⟨outline_setBridge h, rfl, endpoint?_setBridge h hsame⟩

end Tree
end TopicTree
