import TopicTree.Network.Cabling
import TopicTree.Proofs.Routing.Crossing
import TopicTree.Proofs.Site.Ids
import TopicTree.Proofs.Site.Ledger
import TopicTree.Proofs.Site.Links
import TopicTree.Proofs.Site.Waits

/-!
# Responses that come in at a device end

A response that comes in at a device end goes down from the local root to the node that awaits it,
unless the device end takes it for the answer about its own name. It takes every response for that
whose destination begins with the level of the link manager, whatever its method and id, and no name
is kept free for that. So a node below the local root that has this name hears no response, nor does
anybody below that node.
-/

namespace TopicTree.Site

variable {M : Type} [Medium M] {site : Site M} {here : Nat} {row : Pending} {response : Envelope}

omit [Medium M] in
/-- What an act at every entry leaves alone is in the end what it was. -/
theorem forEntries_keeps {α : Type} {act : Site M → Nat → Site M} (read : Site M → α)
    (same : ∀ site id, read (act site id) = read site) (site : Site M) :
    read (site.forEntries act) = read site := by
  unfold forEntries
  induction List.range site.tree.size generalizing site with
  | nil => rfl
  | cons id rest ih => exact (ih (act site id)).trans (same site id)

/-! ## What a tick does before it polls -/

/-- The site when a tick begins to poll. -/
def beforePolls (now : Nat) (site : Site M) : Site M :=
  (site.forEntries (expireAt now)).forEntries (provisionAt now)

/-- What a tick does before it polls is a chain of changes. -/
theorem changes_beforePolls (now : Nat) (site : Site M) : Changes site (site.beforePolls now) :=
  (changes_forEntries (fun site id => .single (.expire site now id)) site).trans
    (changes_forEntries (changes_provisionAt now) _)

/-- Before a tick polls anything, the outline is what it was. -/
theorem outline_beforePolls (now : Nat) (site : Site M) :
    (site.beforePolls now).tree.outline = site.tree.outline := by
  have hexpire : ∀ (site : Site M) id, (expireAt now site id).tree.outline = site.tree.outline :=
    fun site id => by
      have hcarries : Carries (fun _ _ => True) site (expireAt now site id) :=
        .expireAt now site id
      exact Tree.outline_eq_of_core hcarries.core
  exact (forEntries_keeps (·.tree.outline) (fun site id => (alike_provisionAt now site id).outline)
    _).trans (forEntries_keeps (·.tree.outline) hexpire site)

/-- Before a tick polls anything, an entry awaits what it did that is not overdue. -/
theorem mem_awaited_beforePolls {now id : Nat} :
    row ∈ (site.beforePolls now).tree.awaited id
      ↔ row ∈ site.tree.awaited id ∧ now < row.deadline := by
  have hsame : (site.beforePolls now).tree.awaited id
      = (site.forEntries (expireAt now)).tree.awaited id :=
    forEntries_keeps (·.tree.awaited id)
      (fun site other => awaited_of_alike (alike_provisionAt now site other) id) _
  rw [hsame, mem_awaited_expire]

/-! ## Responses -/

/-- A response settles a request: the row of the request goes from its table, no other table changes,
and its requester is told the code and the params of the response. -/
structure Settles (here : Nat) (row : Pending) (response : Envelope) (before after : Site M) :
    Prop where
  rows : (before.tree.awaited here).Perm (row :: after.tree.awaited here)
  beside : ∀ other ≠ here, after.tree.awaited other = before.tree.awaited other
  told : ∃ mid : Site M, mid.log = before.log ∧ mid.pool = before.pool ∧
    mid.tree.core = before.tree.core ∧
    after = mid.tell here row.requester response.code response.params

/-- A device end that is polled handles the message that it is to handle. -/
theorem pollAt_of_message? {id : Nat} {link : Link} {message : Envelope}
    (there : site.tree.link? id = some link) (place : link.place = .device)
    (handles : site.message? id = some message) (now : Nat) :
    pollAt now site id = (site.polled id link.channel).receiveBelow id
      { link with channel := (link.channel.poll site.medium).2.1 } message := by
  rcases pollAt_of_link? there now with ⟨hnone, -⟩ | ⟨found, hfound, heq, -⟩
  · rw [hnone] at handles
    cases handles
  · obtain rfl : found = message := Option.some.inj (hfound.symm.trans handles)
    exact heq place

/-- Ending a wait in a sound table settles the request that was awaited. -/
theorem settles_settle {endpoint : Endpoint} (there : site.tree.endpoint? here = some endpoint)
    (sound : endpoint.Sound) (mem : row ∈ endpoint.pending) (same : response.id = row.id) :
    Settles here row response site (site.settle here endpoint response) := by
  obtain ⟨kept, hsettle⟩ := sound.exists_settle? mem
  let taken := site.withTree (site.tree.setEndpoint here kept)
  have heq : site.settle here endpoint response
      = taken.tell here row.requester response.code response.params := by
    simp only [settle, same, hsettle, taken]
  have hawaited : ∀ id, (site.settle here endpoint response).tree.awaited id
      = (site.tree.setEndpoint here kept).awaited id := fun id =>
    heq ▸ awaited_of_alike (alike_tell taken here row.requester response.code response.params) id
  refine ⟨?_, fun other hother => ?_, taken, rfl, rfl, Tree.core_setEndpoint _ _ _, heq⟩
  · rw [hawaited, Tree.awaited_of_endpoint? (Tree.endpoint?_setEndpoint_self there kept),
      Tree.awaited_of_endpoint? there]
    exact (Endpoint.settle?_eq_some hsettle).2
  · rw [hawaited, Tree.awaited, Tree.endpoint?_setEndpoint_of_ne (Ne.symm hother), Tree.awaited]

/-- A response that a device end does not take for the answer about its name settles the request that
is awaited at the end of its way. -/
theorem pollAt_settles {endpoint : Endpoint} (wellFormed : site.tree.WellFormed)
    (outer : site.tree.form? 0 = some .deviceEnd) (handles : site.message? 0 = some response)
    (answers : response.kind = .response) (unmanaged : response.dest.isManager = false)
    {names : List Name} (walk : site.tree.walk site.tree.localRoot names = some here)
    (spells : response.dest.Spells names) (there : site.tree.endpoint? here = some endpoint)
    (sound : endpoint.Sound) (mem : row ∈ endpoint.pending) (same : response.id = row.id)
    (now : Nat) : Settles here row response site (pollAt now site 0) := by
  obtain ⟨link, hlink, place⟩ := Tree.exists_deviceEnd outer
  have hpolled : (site.polled 0 link.channel).tree.Alike site.tree := Tree.alike_setChannel _ _ _
  have hsame := hpolled.outline.symm
  have hthere := (hpolled.endpoint? here).trans there
  rw [Tree.walk_congr hsame, Tree.localRoot_congr hsame] at walk
  rw [Tree.form?_congr hsame] at outer
  obtain ⟨last, hid, hcode, hparams, hreceive⟩ := receiveBelow_settles (wellFormed.congr hsame) outer
    answers unmanaged walk spells hthere
  obtain ⟨hrows, hbeside, mid, hlog, hpool, hcore, htold⟩ :=
    settles_settle hthere sound mem (hid.trans same)
  rw [pollAt_of_message? hlink place handles, hreceive]
  refine ⟨?_, fun other hother => ?_, mid, hlog, hpool, ?_, ?_⟩
  · rwa [awaited_of_alike hpolled] at hrows
  · rw [hbeside other hother, awaited_of_alike hpolled]
  · have hcarries : Carries (fun _ _ => True) site (site.polled 0 link.channel) :=
      carries_polled (Tree.channel?_of_link? hlink)
    exact hcore.trans hcarries.core
  · rw [htold, hcode, hparams]

/-- A response that a device end takes for the answer about its name settles nothing, and nobody but
listeners of the link is told anything. -/
theorem pollAt_intercepts {id : Nat} (outer : site.tree.form? id = some .deviceEnd)
    (handles : site.message? id = some response) (answers : response.kind = .response)
    (managed : response.dest.isManager) (now : Nat) :
    (∀ other, (pollAt now site id).tree.awaited other = site.tree.awaited other) ∧
      ∃ tags : List String, (pollAt now site id).log = site.log ++ tags.map Event.linkUp := by
  obtain ⟨link, hlink, place⟩ := Tree.exists_deviceEnd outer
  rw [pollAt_of_message? hlink place handles, receiveBelow, if_pos ⟨answers, managed⟩]
  constructor
  · intro other
    have hpolled : (site.polled id link.channel).tree.Alike site.tree := Tree.alike_setChannel _ _ _
    exact (awaited_confirm (link?_polled hlink) response other).trans
      (awaited_of_alike hpolled other)
  · unfold confirm
    split
    · exact ⟨[], by simp [polled]⟩
    · split
      · exact ⟨[], by simp [polled]⟩
      · exact ⟨link.listeners, by rw [announce_eq]; rfl⟩

/-- A tick of a reachable site with a device end at the top polls that end first. Let a response come
in there whose destination spells the way from the local root to an entry that awaits it, and let the
waiting time not be over. The request is settled with the code and the params of the response, unless
the first name of the way is that of the link manager. Then nobody's wait ends with that poll, and
nobody but listeners of the link is told anything. -/
theorem responses_reach_their_nodes (reached : site.Reachable)
    (outer : site.tree.form? 0 = some .deviceEnd) (now : Nat) :
    let ready := site.beforePolls now
    let after := pollAt now ready 0
    site.tick now = (List.range site.tree.size).tail.foldl (pollAt now) after ∧
      after.log <+: (site.tick now).log ∧
      ∀ response, ready.message? 0 = some response → response.kind = .response →
        ∀ names here row, response.dest.Spells names →
          site.tree.walk site.tree.localRoot names = some here →
          row ∈ site.tree.awaited here → response.id = row.id → now < row.deadline →
          if names.head?.any (·.text = linkManager) then
            (∀ other, after.tree.awaited other = ready.tree.awaited other) ∧
              ∃ tags : List String, after.log = ready.log ++ tags.map Event.linkUp
          else Settles here row response ready after := by
  intro ready after
  have hsame : site.tree.outline = ready.tree.outline := (outline_beforePolls now site).symm
  have wellFormed : ready.tree.WellFormed := reached.wellFormed.congr hsame
  have hready := outer
  rw [Tree.form?_congr hsame] at hready
  have htick : site.tick now = (List.range site.tree.size).tail.foldl (pollAt now) after := by
    have hsize : ready.tree.size = site.tree.size := (Tree.size_congr hsame).symm
    obtain ⟨count, hcount⟩ := Nat.exists_eq_succ_of_ne_zero
      (Nat.ne_of_gt (Nat.zero_lt_of_lt (Tree.lt_size_of_form? outer)))
    change ready.forEntries (pollAt now) = _
    rw [forEntries, hsize, hcount, List.range_succ_eq_map]
    rfl
  have hrest : Keeps "" after (site.tick now) := by
    rw [htick]
    exact .of_changes (changes_foldl (changes_pollAt now) _ after)
  refine ⟨htick, hrest.log, ?_⟩
  intro response handles answers names here row spells walk awaits same early
  split
  · next managed =>
    exact pollAt_intercepts hready handles answers (spells.isManager_eq.trans managed) now
  · next unmanaged =>
    rw [Tree.walk_congr hsame, Tree.localRoot_congr hsame] at walk
    have hrow : row ∈ ready.tree.awaited here := mem_awaited_beforePolls.2 ⟨awaits, early⟩
    obtain ⟨endpoint, hthere, hmem⟩ := Tree.exists_endpoint?_of_mem_awaited hrow
    have hgrown : endpoint.Grown :=
      (changes_beforePolls now site).grown (fun _ _ => reached.grown) here endpoint hthere
    have hother : response.dest.isManager = false :=
      spells.isManager_eq.trans (eq_false_of_ne_true unmanaged)
    exact pollAt_settles wellFormed hready handles answers hother walk spells hthere hgrown.sound hmem
      same now

/-- The moves after which a node of a given name, below a local root `shed`, awaits a response from
outside, and an answer has come in at the device end. -/
def awaiting (name : String) (answer : Bytes) : List (Move Cabling) :=
  [.call (.build (.addDownlink "wire" "shed" 1000)), .call (.build (.addNode 1 name)),
    .call (.tick 0), .call (.execute 2 "on" "~/../desk" Params.empty 5 "caller"),
    .around (Pool.ofSize 8) (Cabling.empty.feed "wire" answer)]

/-- The response to the request of a node `lamp` settles it. -/
theorem lamp_hears_the_response :
    let site := (start 2000 (Pool.ofSize 8) Cabling.empty).run (awaiting "lamp"
      [48, 17, 0, 6, 60, 45, 108, 97, 109, 112, 0, 1, 2, 111, 110, 0, 0, 1, 7])
    ∃ response row, row.requester = .caller "caller" ∧ response.params.bytes = [1, 7] ∧
      Settles 2 row response (site.beforePolls 10) (pollAt 10 (site.beforePolls 10) 0) := by
  let site := (start 2000 (Pool.ofSize 8) Cabling.empty).run (awaiting "lamp"
    [48, 17, 0, 6, 60, 45, 108, 97, 109, 112, 0, 1, 2, 111, 110, 0, 0, 1, 7])
  have reached : site.Reachable := ⟨2000, Pool.ofSize 8, Cabling.empty, _, rfl⟩
  have outer : site.tree.form? 0 = some .deviceEnd := by decide +kernel
  obtain ⟨-, -, hsettles⟩ := responses_reach_their_nodes reached outer 10
  have hheard : ((site.beforePolls 10).message? 0).map
      (fun response => (response.kind, response.dest.segments, response.id, response.params.bytes))
      = some (.response, "lamp", 1, [1, 7]) := by decide +kernel
  obtain ⟨response, handles, heq⟩ := Option.map_eq_some_iff.1 hheard
  simp only [Prod.mk.injEq] at heq
  obtain ⟨answers, hdest, hid, hparams⟩ := heq
  let lamp : Name := ⟨"lamp", by decide, by decide, by decide⟩
  have walk : site.tree.walk site.tree.localRoot [lamp] = some 2 := by decide +kernel
  have awaits : ⟨1, 2005, .caller "caller"⟩ ∈ site.tree.awaited 2 := by decide +kernel
  refine ⟨response, ⟨1, 2005, .caller "caller"⟩, rfl, hparams, ?_⟩
  exact hsettles response handles answers [lamp] 2 _ hdest walk awaits hid (by decide)

/-- A node with the name of the link manager is built and makes a request. The response to it comes in
in time, and is lost. -/
theorem manager_shadows_a_node :
    let site := (start 2000 (Pool.ofSize 8) Cabling.empty).run (awaiting "_linkMan"
      [48, 21, 0, 10, 60, 45, 95, 108, 105, 110, 107, 77, 97, 110, 0, 1, 2, 111, 110, 0, 0, 1, 7])
    site.Reachable ∧ site.tree.form? 0 = some .deviceEnd ∧
      ∃ response name row, (site.beforePolls 10).message? 0 = some response ∧
        response.kind = .response ∧ response.dest.Spells [name] ∧
        site.tree.walk site.tree.localRoot [name] = some 2 ∧ row ∈ site.tree.awaited 2 ∧
        response.id = row.id ∧ 10 < row.deadline ∧
        row ∈ (site.tick 10).tree.awaited 2 ∧ (site.tick 10).log = site.log := by
  let site := (start 2000 (Pool.ofSize 8) Cabling.empty).run (awaiting "_linkMan"
    [48, 21, 0, 10, 60, 45, 95, 108, 105, 110, 107, 77, 97, 110, 0, 1, 2, 111, 110, 0, 0, 1, 7])
  have hheard : ((site.beforePolls 10).message? 0).map
      (fun response => (response.kind, response.dest.segments, response.id))
      = some (.response, "_linkMan", 1) := by decide +kernel
  obtain ⟨response, handles, heq⟩ := Option.map_eq_some_iff.1 hheard
  simp only [Prod.mk.injEq] at heq
  obtain ⟨answers, hdest, hid⟩ := heq
  refine ⟨⟨2000, Pool.ofSize 8, Cabling.empty, _, rfl⟩, by decide +kernel, response,
    ⟨"_linkMan", by decide, by decide, by decide⟩, ⟨1, 2005, .caller "caller"⟩, handles, answers,
    hdest, by decide +kernel, by decide +kernel, hid, by decide, by decide +kernel, by decide +kernel⟩

end TopicTree.Site
