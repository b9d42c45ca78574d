import TopicTree.Sim.FaultyWire

/-!
# The wires of a world

A world has one wire between its two trees, and maybe one between the bridge of the hub and its
client. The trees know the ends of the wires by labels.
-/

namespace TopicTree

/-- The wires of a world. -/
structure Media (G : Type := Draws) where
  /-- From the hub, on the left, to the device. -/
  link : FaultyWire G
  /-- From the bridge, on the left, to its client. -/
  client : Option (FaultyWire G)

namespace Media

/-- The label of the hub's end of the link. -/
abbrev hubSocket : String := "hub"

/-- The label of the device's end of the link. -/
abbrev deviceSocket : String := "device"

/-- The label of the bridge's end of the wire to the client. -/
abbrev bridgeSocket : String := "bridge"

/-- The end of a wire that a tree holds. -/
inductive Plug
  | link (side : Side)
  | client
  deriving DecidableEq, Repr

/-- The end of a wire with a given label. -/
def plug? (label : String) : Option Plug :=
  if label = hubSocket then some (.link .left)
  else if label = deviceSocket then some (.link .right)
  else if label = bridgeSocket then some .client
  else none

variable {G : Type}

/-- Takes the first byte that waits at a socket. -/
def receive (label : String) (media : Media G) : Except TransportError (Option UInt8) × Media G :=
  match plug? label, media.client with
  | some (.link side), _ =>
    let (byte, link) := media.link.read side
    (.ok byte, { media with link })
  | some .client, some client =>
    let (byte, client) := client.read .left
    (.ok byte, { media with client := some client })
  | _, _ => (.ok none, media)

/-- Writes a run of bytes at a socket. -/
def transmit [Chance G] (label : String) (bytes : Bytes) (media : Media G) :
    Except TransportError Unit × Media G :=
  match plug? label, media.client with
  | some (.link side), _ =>
    let (outcome, link) := media.link.write side bytes
    (outcome, { media with link })
  | some .client, some client =>
    let (outcome, client) := client.write .left bytes
    (outcome, { media with client := some client })
  | _, _ => (.ok (), media)

/-- The number of bytes that wait at a socket. -/
def backlog (label : String) (media : Media G) : Nat :=
  match plug? label, media.client with
  | some (.link side), _ => media.link.pending side
  | some .client, some client => client.pending .left
  | _, _ => 0

/-- Every byte received leaves a smaller backlog. -/
theorem backlog_receive_lt {label : String} {before after : Media G} {byte : UInt8}
    (h : receive label before = (.ok (some byte), after)) :
    backlog label after < backlog label before := by
  unfold receive at h
  split at h
  · next side hplug =>
    obtain ⟨hbyte, rfl⟩ := Prod.mk.inj h
    simp only [backlog, hplug]
    exact FaultyWire.pending_lt (Prod.ext (Except.ok.inj hbyte) rfl)
  · next client hplug hclient =>
    obtain ⟨hbyte, rfl⟩ := Prod.mk.inj h
    simp only [backlog, hplug, hclient]
    exact FaultyWire.pending_lt (Prod.ext (Except.ok.inj hbyte) rfl)
  · simp at h

instance [Chance G] : Medium (Media G) where
  receive := receive
  transmit := transmit
  backlog := backlog
  backlog_lt := backlog_receive_lt

end Media
end TopicTree
