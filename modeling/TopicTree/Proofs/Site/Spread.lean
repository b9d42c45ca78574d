import Mathlib.Data.List.Forall2
import TopicTree.Proofs.Packet.Publish
import TopicTree.Proofs.Site.Traffic
import TopicTree.Proofs.Slots

/-!
# Spreading notifications

A notification at the top is written once at every bridge whose client listens to its topic,
whatever becomes of the writes at other bridges, and nowhere else. The shared frame always has room
for it.
-/

namespace TopicTree

namespace Tree

/-- Whether the client of a bridge has a filter that matches a topic. -/
def Listens (tree : Tree) (topic : String) (id : Nat) : Prop :=
  ∃ bridge session, tree.bridge? id = some bridge ∧ bridge.session = some session ∧
    ∃ filter ∈ session.filters, Filter.accepts filter topic

/-- The subscribers are the bridges whose clients listen. -/
theorem mem_subscribers {tree : Tree} {topic : String} {id : Nat} :
    id ∈ tree.subscribers topic ↔ tree.Listens topic id := by
  have hmem : id ∈ tree.subscribers topic ↔
      ∃ entry, tree.get? id = some entry ∧ entry.wants topic := by
    rw [subscribers, List.mem_filter, List.mem_range, Option.any_eq_true]
    refine and_iff_right_of_imp ?_
    rintro ⟨entry, hentry, -⟩
    exact (List.getElem?_eq_some_iff.1 hentry).1
  rw [hmem]
  constructor
  · rintro ⟨entry, hentry, hwants⟩
    rw [Entry.wants, Option.any_eq_true] at hwants
    obtain ⟨session, hsession, hany⟩ := hwants
    obtain ⟨bridge, hbridge, hopen⟩ := Option.bind_eq_some_iff.1 hsession
    refine ⟨bridge, session, ?_, hopen, List.any_eq_true.1 hany⟩
    rw [bridge?, hentry, Option.bind_some, hbridge]
  · rintro ⟨bridge, session, hbridge, hopen, hany⟩
    obtain ⟨entry, hentry, hrole⟩ := Option.bind_eq_some_iff.1 hbridge
    refine ⟨entry, hentry, ?_⟩
    rw [Entry.wants, hrole, Option.bind_some, hopen]
    exact List.any_eq_true.2 hany

/-- Every subscriber is listed once. -/
theorem nodup_subscribers (tree : Tree) (topic : String) : (tree.subscribers topic).Nodup :=
  List.nodup_range.filter _

/-- Listening is told by the core. -/
theorem listens_congr {left right : Tree} (same : left.core = right.core) {topic : String}
    {id : Nat} : left.Listens topic id ↔ right.Listens topic id := by
  rw [← mem_subscribers, ← mem_subscribers, ← subscribers_core, same, subscribers_core]

end Tree

namespace Site

variable {M : Type} [Medium M]

/-! ## Writing once -/

/-- One attempt to write a frame at an entry, as its channel counts it and as it is noted. -/
inductive Attempt (M : Type) [Medium M] (frame : Frame) (before after : Tree) (id : Nat) :
    Event → Prop
  | took {channel : Channel} (there : before.channel? id = some channel)
      (counted : after.channel? id = some channel.countSent) :
      Attempt M frame before after id (.wrote channel.socket frame.encode)
  /-- Only the socket of the entry itself makes an attempt fail. -/
  | refused {channel : Channel} {medium : M} (there : before.channel? id = some channel)
      (refuses : (Medium.transmit channel.socket frame.encode medium).1 ≠ .ok ())
      (counted : after.channel? id = some channel.countTransportError) :
      Attempt M frame before after id (.writeFailed channel.socket frame.encode)

/-- An attempt is told by the channel of its entry. -/
theorem Attempt.congr {frame : Frame} {before after before' after' : Tree} {id : Nat}
    {event : Event} (h : Attempt M frame before after id event)
    (same : before'.channel? id = before.channel? id)
    (same' : after'.channel? id = after.channel? id) : Attempt M frame before' after' id event := by
  cases h with
  | took there counted => exact .took (same.trans there) (same'.trans counted)
  | refused there refuses counted => exact .refused (same.trans there) refuses (same'.trans counted)

/-- Attempts are told by the channels of their entries. -/
theorem Attempt.forall_congr {frame : Frame} {before after before' after' : Tree} {ids : List Nat}
    {events : List Event} (h : List.Forall₂ (Attempt M frame before after) ids events)
    (same : ∀ id ∈ ids, before'.channel? id = before.channel? id)
    (same' : ∀ id ∈ ids, after'.channel? id = after.channel? id) :
    List.Forall₂ (Attempt M frame before' after') ids events := by
  induction h with
  | nil => exact .nil
  | cons first _ ih =>
    refine .cons (first.congr (same _ List.mem_cons_self) (same' _ List.mem_cons_self)) (ih ?_ ?_)
    · exact fun id hid => same id (List.mem_cons_of_mem _ hid)
    · exact fun id hid => same' id (List.mem_cons_of_mem _ hid)

/-- A frame has been written once at each of some entries, and at no other. -/
structure Writes (frame : Frame) (ids : List Nat) (before after : Site M) : Prop where
  core : after.tree.core = before.tree.core
  pool : after.pool = before.pool
  others : ∀ id ∉ ids, after.tree.channel? id = before.tree.channel? id
  once : ∃ events, after.log = before.log ++ events ∧
    List.Forall₂ (Attempt M frame before.tree after.tree) ids events

/-- A write is one attempt. -/
theorem write_writes {site : Site M} {id : Nat} {channel : Channel}
    (there : site.tree.channel? id = some channel) (frame : Frame) :
    Writes frame [id] site (site.write id frame) := by
  have hset : ∀ counted : Channel, counted.socket = channel.socket →
      (site.tree.setChannel id counted).core = site.tree.core ∧
      (∀ other ∉ [id], (site.tree.setChannel id counted).channel? other =
        site.tree.channel? other) ∧
      (site.tree.setChannel id counted).channel? id = some counted := by
    intro counted socket
    refine ⟨Tree.core_setChannel there socket, fun other hother => ?_, ?_⟩
    · rw [Tree.channel?_setChannel,
        if_neg fun heq : id = other => hother (List.mem_singleton.2 heq.symm)]
    · rw [Tree.channel?_setChannel, if_pos rfl, there]
      rfl
  cases htransmit : Medium.transmit channel.socket frame.encode site.medium with
  | mk outcome medium =>
    cases outcome with
    | ok _ =>
      obtain ⟨hcore, hothers, hcounted⟩ := hset channel.countSent rfl
      have htook : Attempt M frame site.tree (site.tree.setChannel id channel.countSent) id
          (.wrote channel.socket frame.encode) := .took there hcounted
      simp only [write, there, Channel.send, htransmit]
      exact ⟨hcore, rfl, hothers, [_], rfl, .cons htook .nil⟩
    | error e =>
      obtain ⟨hcore, hothers, hcounted⟩ := hset channel.countTransportError rfl
      have hrefuses : (Medium.transmit channel.socket frame.encode site.medium).1 ≠ .ok () := by
        rw [htransmit]
        exact fun h => by cases h
      have hrefused : Attempt M frame site.tree
          (site.tree.setChannel id channel.countTransportError) id
          (.writeFailed channel.socket frame.encode) := .refused there hrefuses hcounted
      simp only [write, there, Channel.send, htransmit]
      exact ⟨hcore, rfl, hothers, [_], rfl, .cons hrefused .nil⟩

/-- Writing at several entries is one attempt at each of them. -/
theorem writeAll_writes {ids : List Nat} (nodup : ids.Nodup) (frame : Frame) {site : Site M}
    (there : ∀ id ∈ ids, (site.tree.channel? id).isSome) :
    Writes frame ids site (site.writeAll frame ids) := by
  induction ids generalizing site with
  | nil => exact ⟨rfl, rfl, fun _ _ => rfl, [], by simp [writeAll], .nil⟩
  | cons id rest ih =>
    obtain ⟨hfresh, hrest⟩ := List.nodup_cons.1 nodup
    obtain ⟨channel, hchannel⟩ := Option.isSome_iff_exists.1 (there id List.mem_cons_self)
    have hfirst := write_writes hchannel frame
    have hkept : ∀ other ≠ id,
        (site.write id frame).tree.channel? other = site.tree.channel? other := fun other hne =>
      hfirst.others other fun hmem => hne (List.mem_singleton.1 hmem)
    have hne : ∀ other ∈ rest, other ≠ id := fun other hother heq => hfresh (heq ▸ hother)
    have hlater : Writes frame rest (site.write id frame) _ := ih hrest fun other hother => by
      rw [hkept other (hne other hother)]
      exact there other (List.mem_cons_of_mem id hother)
    obtain ⟨first, hlog, hattempt⟩ := hfirst.once
    obtain ⟨events, hlogs, hattempts⟩ := hlater.once
    constructor
    · exact hlater.core.trans hfirst.core
    · exact hlater.pool.trans hfirst.pool
    · intro other hother
      rw [List.mem_cons, not_or] at hother
      exact (hlater.others other hother.2).trans (hkept other hother.1)
    · refine ⟨first ++ events, ?_, ?_⟩
      · rw [writeAll, List.foldl_cons, ← List.append_assoc, ← hlog]
        exact hlogs
      · obtain ⟨event, hfirst', rfl⟩ : ∃ event, Attempt M frame site.tree
            (site.write id frame).tree id event ∧ first = [event] := by
          cases hattempt with
          | cons h hnil =>
            cases hnil
            exact ⟨_, h, rfl⟩
        refine .cons (hfirst'.congr rfl (hlater.others id hfresh)) ?_
        exact Attempt.forall_congr hattempts
          (fun other hother => (hkept other (hne other hother)).symm) fun _ _ => rfl

/-! ## Spreading a notification -/

/-- The topic of a name behind levels: both with a slash between them, or the name alone where no
levels are. -/
def clientTopic (segments name : String) : String :=
  if segments = "" then name else segments ++ "/" ++ name

omit [Medium M] in
/-- Clients know a notification by the way it came and its name. -/
theorem fanOutTopic_eq (notification : Envelope) :
    fanOutTopic notification = clientTopic notification.source.segments notification.method := by
  by_cases hempty : notification.source.segments = "" <;>
    simp [fanOutTopic, clientTopic, Path.isEmpty, hempty]

/-- A notification on a topic has been spread in one frame. -/
structure Spread (topic : String) (data : Bytes) (frame : Frame) (before after : Site M) :
    Prop where
  /-- The topic fits its buffer. -/
  size : topic.utf8ByteSize ≤ fanOutCapacity
  /-- The frame is a plain PUBLISH of the data on the topic, and is read as that. -/
  made : (Publish.plain topic data).toFrame = .ok frame
  reads : Publish.ofFrame frame = .ok (Publish.plain topic data)
  /-- The core of the tree stays, and with it every session. -/
  core : after.tree.core = before.tree.core
  /-- The slot that the frame was in is given back. -/
  holders : after.pool.holders = before.pool.holders
  /-- Nothing is written where nobody listens. -/
  others : ∀ id, ¬before.tree.Listens topic id →
    after.tree.channel? id = before.tree.channel? id
  /-- Wherever somebody listens, there is one attempt to write the frame, and nothing else
  happens. -/
  once : ∃ bridges events, bridges.Nodup ∧ (∀ id, id ∈ bridges ↔ before.tree.Listens topic id) ∧
    after.log = before.log ++ events ∧
    List.Forall₂ (Attempt M frame before.tree after.tree) bridges events

/-- A topic that fits its buffer and data that fit parameters fit a frame. -/
theorem exists_toFrame_plain {topic : String} {data : Bytes}
    (size : topic.utf8ByteSize ≤ fanOutCapacity) (short : data.length ≤ maxParams) :
    ∃ frame, (Publish.plain topic data).toFrame = .ok frame := by
  apply Publish.exists_toFrame_plain
  simp only [fanOutCapacity, maxPath, maxTitle, maxParams, frameCapacity] at size short ⊢
  omega

/-- A topic of a name behind levels that fit a path fits its buffer. -/
theorem size_clientTopic_le {segments name : String} (short : segments.utf8ByteSize ≤ maxPath)
    (titled : name.utf8ByteSize ≤ maxTitle) :
    (clientTopic segments name).utf8ByteSize ≤ fanOutCapacity := by
  have hslash : ("/" : String).utf8ByteSize = 1 := by decide
  simp only [fanOutCapacity, maxPath, maxTitle] at short titled ⊢
  unfold clientTopic
  split
  · omega
  · rw [String.utf8ByteSize_append, String.utf8ByteSize_append, hslash]
    omega

/-- With a free slot a notification is spread. -/
theorem fanOut_spread {site : Site M} (free : site.pool.available ≠ 0) (notification : Envelope) :
    ∃ frame, Spread (clientTopic notification.source.segments notification.method)
      notification.params.bytes frame site (site.fanOut notification) := by
  have hsize := size_clientTopic_le notification.source.fits notification.methodFits
  rw [← fanOutTopic_eq] at hsize ⊢
  obtain ⟨frame, hframe⟩ := exists_toFrame_plain hsize notification.params.fits
  have hreads := Publish.ofFrame_eq_ok_iff_toFrame.2 hframe
  have hlisten : ∀ id, id ∈ site.tree.subscribers (fanOutTopic notification) ↔ _ := fun _ =>
    Tree.mem_subscribers
  have hnodup := site.tree.nodup_subscribers (fanOutTopic notification)
  refine ⟨frame, ?_⟩
  by_cases hnone : site.tree.subscribers (fanOutTopic notification) = []
  · rw [fanOut, if_pos (.inr hnone)]
    exact ⟨hsize, hframe, hreads, rfl, rfl, fun _ _ => rfl, [], [], .nil, hnone ▸ hlisten, by simp,
      .nil⟩
  · rw [fanOut, if_neg (not_or.2 ⟨Nat.not_lt_of_le hsize, hnone⟩)]
    simp only [hframe, holding]
    rcases site.pool.bind_cases frame with ⟨hheld, -⟩ | ⟨slot, pool, hslot, hbind, hholders⟩
    · exact absurd (Pool.zero_mem_holders.2 free) hheld
    · have hwrites : Writes frame _ { site with pool } _ :=
        writeAll_writes hnodup frame fun id hid => by
          obtain ⟨bridge, -, hbridge, -⟩ := Tree.mem_subscribers.1 hid
          simp [Tree.channel?_of_bridge? hbridge]
      obtain ⟨events, hlog, hattempts⟩ := hwrites.once
      have hback : (pool.release slot).holders = site.pool.holders := by
        rw [Pool.holders_release, hholders, Pool.modify_modify_of_findIdx? hslot]
      simp only [hbind]
      refine ⟨hsize, hframe, hreads, hwrites.core, ?_, ?_, _, events, hnodup, hlisten, hlog,
        hattempts⟩
      · rw [hwrites.pool]
        exact hback
      · exact fun id hid => hwrites.others id (mt Tree.mem_subscribers.1 hid)

end Site
end TopicTree
