import TopicTree.Proofs.Tree.Update
import TopicTree.Site.FanOut

/-!
# The core of a tree

What a tree is apart from what passes through it: methods, awaited requests, half-read frames and
counters come and go while messages are carried, and the core of a tree is the tree without them.
Names, links, bridges, guards and sessions are read from the core, so they are the same wherever the
core is.
-/

namespace TopicTree

/-- A channel on which nothing has happened, at the same socket. -/
def Channel.core (channel : Channel) : Channel :=
  .ofSocket channel.socket

/-- A link without what passes through it. -/
def Link.core (link : Link) : Link :=
  { link with channel := link.channel.core }

/-- A bridge without what passes through it. -/
def Bridge.core (bridge : Bridge) : Bridge :=
  { bridge with endpoint := Endpoint.empty, channel := bridge.channel.core }

/-- A role without what passes through it. -/
def Role.core : Role → Role
  | .node _ => .node Endpoint.empty
  | .link inner => .link inner.core
  | .bridge inner => .bridge inner.core

/-- An entry without what passes through it. -/
def Entry.core (entry : Entry) : Entry :=
  { entry with role := entry.role.core }

/-- A tree without what passes through it. -/
def Tree.core (tree : Tree) : Tree :=
  { tree with entries := tree.entries.map Entry.core }

/-- A poll leaves a channel at its socket. -/
@[simp]
theorem Channel.socket_poll {M : Type} [Medium M] (channel : Channel) (medium : M) :
    (channel.poll medium).2.1.socket = channel.socket := by
  fun_induction poll channel medium with
  | case1 => rfl
  | case2 => rfl
  | case3 => rfl
  | case4 _ _ _ _ _ _ _ ih => exact ih
  | case5 _ _ _ _ _ _ _ _ ih => exact ih

/-- A send leaves a channel at its socket. -/
@[simp]
theorem Channel.socket_send {M : Type} [Medium M] (channel : Channel) (frame : Frame) (medium : M) :
    (channel.send frame medium).2.1.socket = channel.socket := by
  unfold send
  split <;> rfl

/-! ## Reading from the core -/

namespace Role

@[simp]
theorem link?_core (role : Role) : role.core.link? = role.link?.map Link.core := by
  cases role <;> rfl

@[simp]
theorem bridge?_core (role : Role) : role.core.bridge? = role.bridge?.map Bridge.core := by
  cases role <;> rfl

@[simp]
theorem channel?_core (role : Role) : role.core.channel? = role.channel?.map Channel.core := by
  cases role <;> rfl

@[simp]
theorem form_core (role : Role) : role.core.form = role.form := by
  cases role <;> rfl

end Role

namespace Tree

variable (tree : Tree) (id : Nat)

/-- The entries of a core are the cores of the entries. -/
@[simp]
theorem get?_core : tree.core.get? id = (tree.get? id).map Entry.core := by
  simp [core, get?]

@[simp]
theorem size_core : tree.core.size = tree.size := by
  simp [core, size]

@[simp]
theorem timeout_core : tree.core.timeout = tree.timeout :=
  rfl

/-- The core has the outline of its tree. -/
@[simp]
theorem outline_core : tree.core.outline = tree.outline := by
  simp [core, outline, Entry.core, Entry.outline]

/-- Links are read from the core. -/
theorem link?_core : tree.core.link? id = (tree.link? id).map Link.core := by
  rw [link?, get?_core, Option.bind_map, link?, Option.map_bind]
  congr 1
  funext entry
  exact Role.link?_core entry.role

/-- Bridges are read from the core. -/
theorem bridge?_core : tree.core.bridge? id = (tree.bridge? id).map Bridge.core := by
  rw [bridge?, get?_core, Option.bind_map, bridge?, Option.map_bind]
  congr 1
  funext entry
  exact Role.bridge?_core entry.role

/-- Sockets are read from the core. -/
theorem channel?_core : tree.core.channel? id = (tree.channel? id).map Channel.core := by
  rw [channel?, get?_core, Option.bind_map, channel?, Option.map_bind]
  congr 1
  funext entry
  exact Role.channel?_core entry.role

/-- Sessions are read from the core. -/
theorem session?_core : tree.core.session? id = tree.session? id := by
  rw [session?, bridge?_core, Option.bind_map, session?]
  rfl

/-- Clients are read from the core. -/
theorem client?_core : tree.core.client? id = tree.client? id := by
  rw [client?_eq_map, session?_core, client?_eq_map]

/-- Subscribers are read from the core. -/
theorem subscribers_core (topic : String) :
    tree.core.subscribers topic = tree.subscribers topic := by
  have hwants : ∀ entry : Entry, entry.core.wants topic = entry.wants topic := by
    intro entry
    simp only [Entry.wants, Entry.core, Role.bridge?_core, Option.bind_map]
    rfl
  simp only [subscribers, size_core, get?_core, Option.any_map, hwants]

variable {tree id} {left right : Tree}

section

variable (same : left.core = right.core)
include same

theorem outline_eq_of_core : left.outline = right.outline := by
  rw [← outline_core, same, outline_core]

theorem session?_eq_of_core (id : Nat) : left.session? id = right.session? id := by
  rw [← session?_core, same, session?_core]

theorem client?_eq_of_core (id : Nat) : left.client? id = right.client? id := by
  rw [← client?_core, same, client?_core]

theorem map_link?_of_core (id : Nat) :
    (left.link? id).map Link.core = (right.link? id).map Link.core := by
  rw [← link?_core, same, link?_core]

theorem map_channel?_of_core (id : Nat) :
    (left.channel? id).map Channel.core = (right.channel? id).map Channel.core := by
  rw [← channel?_core, same, channel?_core]

/-- The channel of an entry is at the same socket. -/
theorem exists_channel?_of_core {id : Nat} {channel : Channel}
    (there : left.channel? id = some channel) :
    ∃ other, right.channel? id = some other ∧ other.socket = channel.socket := by
  have h := map_channel?_of_core same id
  rw [there] at h
  obtain ⟨other, hother, hcore⟩ := Option.map_eq_some_iff.1 h.symm
  have hsocket : other.core.socket = channel.core.socket := congrArg Channel.socket hcore
  exact ⟨other, hother, hsocket⟩

end

/-! ## Changes that leave the core alone -/

/-- A change of one role that keeps its core keeps the core of the tree. -/
theorem core_setRole_eq {change : Role → Role}
    (h : ∀ entry, tree.get? id = some entry → (change entry.role).core = entry.role.core) :
    (tree.setRole id change).core = tree.core := by
  have hentries : (tree.setRole id change).core.entries = tree.core.entries := by
    apply List.ext_getElem?
    intro other
    change (tree.setRole id change).core.get? other = tree.core.get? other
    rw [get?_core, get?_core, setRole, get?_modify]
    split
    · next hid =>
      subst hid
      cases hentry : tree.get? id with
      | none => rfl
      | some entry => simp [Entry.core, h entry hentry]
    · rfl
  rw [core, core, Tree.mk.injEq]
  exact ⟨hentries, rfl⟩

@[simp]
theorem core_setEndpoint (tree : Tree) (id : Nat) (endpoint : Endpoint) :
    (tree.setEndpoint id endpoint).core = tree.core := by
  apply core_setRole_eq
  intro entry _
  cases entry.role <;> rfl

/-- A channel that stays at its socket leaves the core alone. -/
theorem core_setChannel {old channel : Channel} (there : tree.channel? id = some old)
    (socket : channel.socket = old.socket) : (tree.setChannel id channel).core = tree.core := by
  apply core_setRole_eq
  intro entry hentry
  rw [channel?, hentry, Option.bind_some] at there
  cases hrole : entry.role with
  | node endpoint => rfl
  | link link =>
    obtain rfl : link.channel = old := by simpa [hrole, Role.channel?] using there
    simp [Role.withChannel, Role.core, Link.core, Channel.core, socket]
  | bridge bridge =>
    obtain rfl : bridge.channel = old := by simpa [hrole, Role.channel?] using there
    simp [Role.withChannel, Role.core, Bridge.core, Channel.core, socket]

end Tree
end TopicTree
