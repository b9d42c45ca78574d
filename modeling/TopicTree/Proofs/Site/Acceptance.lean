import TopicTree.Proofs.Network.Sockets
import TopicTree.Proofs.Site.Gate

/-!
# Sockets that take what is written

A site meets its medium only by writing frames and polling channels. So what these two keep it keeps
whatever it does by itself, unless it depends on more of the tree than where the channels are.

A kind of media may be such that a socket takes every run of bytes that is written there, whatever
has been read and written there before. Where all channels of a site are at such sockets, it stays
so whatever the site does by itself, and every frame that it writes is taken.
-/

namespace TopicTree

variable {M : Type} [Medium M]

/-- In media of a kind every write at a socket is taken, and reads and writes there lead to media of
the kind. -/
structure Accepts (kind : M → Prop) (socket : String) : Prop where
  receive : ∀ {medium after : M} {outcome : Except TransportError (Option UInt8)}, kind medium →
    Medium.receive socket medium = (outcome, after) → kind after
  transmit : ∀ {medium : M} (bytes : Bytes), kind medium → ∃ after,
    Medium.transmit socket bytes medium = (.ok (), after) ∧ kind after

/-- A poll reads only at the socket of its channel. -/
theorem Accepts.poll {kind : M → Prop} {channel : Channel} {medium : M}
    (takes : Accepts kind channel.socket) (start : kind medium) :
    kind (channel.poll medium).2.2 :=
  Channel.poll_keeps takes.receive start

/-- No write fails at any socket of a cabling. -/
def Cabling.Faultless (cabling : Cabling) : Prop :=
  ∀ label, (cabling.socket label).writeFault = none

/-- In a cabling where no write fails every socket takes whatever is written. -/
theorem Cabling.accepts (socket : String) : Accepts Cabling.Faultless socket where
  receive sound received := by
    simp only [Medium.receive, Cabling.receive] at received
    split at received <;> cases received
    · exact sound
    · exact sound
    · intro label
      rw [socket_set]
      split
      · exact sound socket
      · exact sound label
  transmit bytes sound := by
    simp only [Medium.transmit, Cabling.transmit, sound socket]
    split
    · next hfault => cases hfault
    · exact ⟨_, rfl, sound⟩
    · next peer _ _ =>
      refine ⟨_, rfl, fun label => ?_⟩
      rw [feed, socket_set]
      split
      · exact sound peer
      · exact sound label

/-- The sockets that channels are at are the same in two trees. -/
def Tree.SameSockets (before after : Tree) : Prop :=
  ∀ id, (after.channel? id).map (·.socket) = (before.channel? id).map (·.socket)

namespace Tree.SameSockets

variable {before after : Tree}

/-- A channel was at its socket before. -/
theorem exists_channel? (same : before.SameSockets after) {id : Nat} {channel : Channel}
    (there : after.channel? id = some channel) :
    ∃ old, before.channel? id = some old ∧ old.socket = channel.socket := by
  have hsame := same id
  rw [there] at hsame
  exact Option.map_eq_some_iff.1 hsame.symm

/-- Channels that are the same are at the same sockets. -/
theorem of_channel? (same : ∀ id, after.channel? id = before.channel? id) :
    before.SameSockets after :=
  fun id => congrArg _ (same id)

/-- Sockets are told by the core. -/
theorem of_core (same : after.core = before.core) : before.SameSockets after := by
  intro id
  have hmap := congrArg (Option.map Channel.socket) (Tree.map_channel?_of_core same id)
  simpa [Function.comp_def, Channel.core, Channel.ofSocket] using hmap

end Tree.SameSockets

namespace Site

/-! ## What writing and polling keep -/

/-- Something that is kept by writing frames and by polling channels, and that does not depend on
anything else than the sockets of the channels, what was written, and the medium. -/
structure Steady (P : Site M → Prop) : Prop where
  pool : ∀ {site : Site M} (pool : Pool), P site → P { site with pool }
  tree : ∀ {site : Site M} {tree : Tree}, site.tree.SameSockets tree → P site →
    P (site.withTree tree)
  note : ∀ {site : Site M} {event : Event}, (∀ socket bytes, event ≠ .wrote socket bytes) →
    P site → P (site.note event)
  write : ∀ {site : Site M} (id : Nat) (frame : Frame), P site → P (site.write id frame)
  poll : ∀ {site : Site M} {id : Nat} {channel : Channel}, site.tree.channel? id = some channel →
    P site → P (site.polled id channel)

namespace Steady

variable {P : Site M → Prop} {site after : Site M}

/-- What is kept while a slot is held is kept. -/
theorem holding (steady : Steady P) {act : Site M → Site M}
    (acts : ∀ {site : Site M}, P site → P (act site)) (frame : Frame) (h : P site) :
    P (site.holding frame act) := by
  unfold Site.holding
  split
  · exact h
  · next slot pool _ => exact steady.pool _ (acts (steady.pool pool h))

/-- Sending keeps it. -/
theorem sendPacket {ε : Type} (steady : Steady P) (id : Nat) (packet : Except ε Frame) (h : P site) :
    P (site.sendPacket id packet) := by
  cases packet with
  | error e => exact h
  | ok frame => exact steady.holding (steady.write id frame) frame h

/-- Telling a requester keeps it. -/
theorem tell (steady : Steady P) (id : Nat) (requester : Requester) (code : ReturnCode)
    (params : Params) (h : P site) : P (site.tell id requester code params) := by
  cases requester with
  | caller tag => exact steady.note nofun h
  | client topic =>
    simp only [Site.tell, answerClient]
    split
    · exact h
    · exact steady.sendPacket id _ h

/-- Another endpoint keeps it. -/
theorem setEndpoint (steady : Steady P) (id : Nat) (endpoint : Endpoint) (h : P site) :
    P (site.withTree (site.tree.setEndpoint id endpoint)) :=
  steady.tree (.of_core (Tree.core_setEndpoint site.tree id endpoint)) h

/-- Whatever a site does by itself keeps it. -/
theorem change (steady : Steady P) (change : Change site after) (h : P site) : P after := by
  cases change with
  | pool pool => exact steady.pool pool h
  | write id frame => exact steady.write id frame h
  | poll there => exact steady.poll there h
  | call there called => exact steady.note nofun (steady.setEndpoint _ _ h)
  | settle there settled => exact steady.tell _ _ _ _ (steady.setEndpoint _ _ h)
  | expire now id =>
    cases hendpoint : site.tree.endpoint? id with
    | none => rwa [expireAt_eq_self hendpoint]
    | some endpoint =>
      rw [expireAt_eq hendpoint, tellExpired]
      have hset := steady.setEndpoint id (endpoint.takeExpired now).2 h
      generalize site.withTree _ = start at hset ⊢
      induction (endpoint.takeExpired now).1 generalizing start with
      | nil => exact hset
      | cons row rest ih => exact ih _ (steady.tell id row.requester .timeout Params.empty hset)
  | begin there begun => exact steady.setEndpoint _ _ h
  | number there => exact steady.setEndpoint _ _ h
  | adopt there place below free =>
    exact steady.tree (.of_channel? (Tree.channel?_setName site.tree _ _)) h
  | attempt there due => exact steady.tree (.of_channel? (Tree.channel?_setLink there (by rfl))) h
  | confirm there place =>
    exact steady.tree (.of_channel? (Tree.channel?_setLink there (by rfl))) h
  | linkUp tag => exact steady.note nofun h
  | ask there who session =>
    exact steady.tree (.of_channel? (Tree.channel?_setBridge there (by rfl)))
      (steady.note nofun h)
  | session there session =>
    exact steady.tree (.of_channel? (Tree.channel?_setBridge there (by rfl))) h

/-- A chain of changes keeps it. -/
theorem changes (steady : Steady P) (changes : Changes site after) (h : P site) : P after :=
  changes.induction (P := P) steady.change h

/-- A request that is accepted keeps it. -/
theorem execute (steady : Steady P) {node : Nat} {method path tag : String} {params : Params}
    {now : Nat} {number : UInt16}
    (accepted : site.execute node method path params now tag = .ok (number, after)) (h : P site) :
    P after := by
  obtain ⟨_, request, _, new, -, -, -, -, rfl⟩ := execute_eq_ok accepted
  exact steady.changes (changes_route _ _) (steady.setEndpoint node new h)

end Steady

/-! ## Sites at which every write is taken -/

/-- A site whose medium is of a kind in which its sockets take whatever is written. -/
structure Accepting (kind : M → Prop) (site : Site M) : Prop where
  medium : kind site.medium
  takes : ∀ {id channel}, site.tree.channel? id = some channel → Accepts kind channel.socket

namespace Accepting

variable {kind : M → Prop} {site after : Site M} {id : Nat} {channel : Channel} {frame : Frame}

/-- What leaves the sockets where they are and the medium of its kind leaves the site accepting. -/
theorem of_same (h : Accepting kind site) (same : site.tree.SameSockets after.tree)
    (medium : kind after.medium) : Accepting kind after where
  medium := medium
  takes there := by
    obtain ⟨old, hold, hsocket⟩ := same.exists_channel? there
    exact hsocket ▸ h.takes hold

/-- A frame that is written is taken. -/
theorem exists_write (h : Accepting kind site) (there : site.tree.channel? id = some channel)
    (frame : Frame) : ∃ medium, kind medium ∧ site.write id frame
      = ⟨site.tree.setChannel id channel.countSent, site.pool, medium,
          site.log ++ [.wrote channel.socket frame.encode]⟩ := by
  obtain ⟨medium, hsent, hkind⟩ := (h.takes there).transmit frame.encode h.medium
  refine ⟨medium, hkind, ?_⟩
  simp only [Site.write, there, Channel.send, hsent]
  rfl

/-- Writing leaves a site accepting. -/
theorem write (h : Accepting kind site) (id : Nat) (frame : Frame) :
    Accepting kind (site.write id frame) := by
  cases hchannel : site.tree.channel? id with
  | none => simpa only [Site.write, hchannel] using h
  | some channel =>
    obtain ⟨medium, hkind, heq⟩ := h.exists_write hchannel frame
    rw [heq]
    exact h.of_same (.of_core (Tree.core_setChannel hchannel rfl)) hkind

/-- Writing and polling leave a site accepting. -/
theorem steady (kind : M → Prop) : Steady (Accepting kind) where
  pool _ h := ⟨h.medium, h.takes⟩
  tree same h := h.of_same same h.medium
  note _ h := ⟨h.medium, h.takes⟩
  write id frame h := h.write id frame
  poll there h := h.of_same
    (.of_core (Tree.core_setChannel there (Channel.socket_poll _ _))) ((h.takes there).poll h.medium)

end Accepting

end Site
end TopicTree
