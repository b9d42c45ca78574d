import TopicTree.Site.Client
import TopicTree.Site.Provision

/-!
# Ticks

Time passes for a site in ticks. A tick first ends every wait whose deadline has come, then attempts
to have links named, and then handles at most one frame per link and bridge. Each of the three goes
through all entries in order.
-/

namespace TopicTree.Site

variable {M : Type} [Medium M]

/-- Does something at every entry in order. -/
def forEntries (act : Site M → Nat → Site M) (site : Site M) : Site M :=
  (List.range site.tree.size).foldl act site

/-- Ends the waits of an entry whose deadlines have come, in failure. -/
def expireAt (now : Nat) (site : Site M) (id : Nat) : Site M :=
  match site.tree.endpoint? id with
  | none => site
  | some endpoint =>
    let (expired, endpoint) := endpoint.takeExpired now
    expired.foldl (fun site row => site.tell id row.requester .timeout Params.empty)
      (site.withTree (site.tree.setEndpoint id endpoint))

/-- Handles a frame that came in at an entry. A bridge keeps the frame's slot until it is done; a
link gives it back as soon as the message is read. Without a free slot the frame is dropped. -/
def receive (now : Nat) (site : Site M) (id : Nat) (frame : Frame) : Site M :=
  match site.tree.link? id, site.tree.bridge? id with
  | some link, _ => if site.pool.available = 0 then site else site.receiveLink id link frame
  | _, some bridge => site.holding frame (·.receiveBridge id bridge now frame)
  | _, _ => site

/-- Polls the channel of an entry once. -/
def pollAt (now : Nat) (site : Site M) (id : Nat) : Site M :=
  match site.tree.channel? id with
  | none => site
  | some channel =>
    match channel.poll site.medium with
    | (frame, channel, medium) =>
      let after := { site with tree := site.tree.setChannel id channel, medium }
      match frame with
      | none => after
      | some frame => after.receive now id frame

/-- Advances a site to a time. -/
def tick (site : Site M) (now : Nat) : Site M :=
  ((site.forEntries (expireAt now)).forEntries (provisionAt now)).forEntries (pollAt now)

end TopicTree.Site
