import TopicTree.Network.Cabling
import TopicTree.Proofs.Routing.Passage
import TopicTree.Proofs.Tree.Waiting

/-!
# Requests within one tree

A request goes up to the local root, turns around, goes down to the node that it names, becomes its
own response there, and comes back the same way. So whoever asks within one tree is told, before the
request is over, what a walk from the local root finds.
-/

namespace TopicTree

/-- What a method of an endpoint replies, if it is on offer. -/
def Endpoint.replyTo (endpoint : Endpoint) (method : String) (params : Params) : Option Reply :=
  (endpoint.methods.find? (·.name = method)).map fun found =>
    (found.handler found.calls params).delivered

/-- The reference for requests: what is called, and what is replied, when a method is asked for at
the end of a walk. -/
def Tree.consult (tree : Tree) (here : Nat) (names : List Name) (method : String)
    (params : Params) : List Event × Reply :=
  match tree.walk here names with
  | none => ([], Reply.bare .noSuchNode)
  | some target =>
    match (tree.endpoint? target).bind (·.replyTo method params) with
    | none => ([], Reply.bare .noSuchMethod)
    | some reply => ([.called target method params], reply)

namespace Endpoint

/-- The first method of a name is the one that replies. -/
theorem map_fst_callIn (name : String) (params : Params) (methods : List Method) :
    (callIn name params methods).map Prod.fst
      = (methods.find? (·.name = name)).map fun found =>
          (found.handler found.calls params).delivered := by
  induction methods with
  | nil => rfl
  | cons method rest ih =>
    by_cases hname : method.name = name
    · simp [callIn, hname]
    · rw [callIn, if_neg hname, Option.map_map, List.find?_cons_of_neg (by simpa using hname), ← ih]
      rfl

/-- A call replies what the method called replies. -/
theorem map_fst_call? (endpoint : Endpoint) (name : String) (params : Params) :
    (endpoint.call? name params).map Prod.fst = endpoint.replyTo name params := by
  rw [call?, Option.map_map, replyTo, ← map_fst_callIn]
  rfl

/-- A reply that is delivered is delivered as it is. -/
theorem delivered_of_replyTo {endpoint : Endpoint} {method : String} {params : Params}
    {reply : Reply} (h : endpoint.replyTo method params = some reply) :
    reply.delivered = reply := by
  obtain ⟨found, _, rfl⟩ := Option.map_eq_some_iff.1 h
  generalize found.handler found.calls params = given
  by_cases hcode : given.code = .success
  · simp [Reply.delivered, hcode]
  · simp [Reply.delivered, hcode, Reply.bare]

end Endpoint

namespace Site

variable {M : Type}

/-! ## Serving a request -/

/-- A site at which methods have been called, and nothing else has happened. -/
structure Serves (events : List Event) (before after : Site M) : Prop where
  outline : after.tree.outline = before.tree.outline
  timeout : after.tree.timeout = before.tree.timeout
  pending : ∀ id, (after.tree.endpoint? id).map (·.pending)
    = (before.tree.endpoint? id).map (·.pending)
  channel? : ∀ id, after.tree.channel? id = before.tree.channel? id
  link? : ∀ id, after.tree.link? id = before.tree.link? id
  log : after.log = before.log ++ events
  pool : after.pool = before.pool
  medium : after.medium = before.medium

/-- A site at which nothing has happened. -/
theorem Serves.refl (site : Site M) : Serves [] site site :=
  ⟨rfl, rfl, fun _ => rfl, fun _ => rfl, fun _ => rfl, by simp, rfl, rfl⟩

/-- The same requests are awaited. -/
theorem Serves.awaited_eq {events : List Event} {before after : Site M}
    (h : Serves events before after) (id : Nat) :
    after.tree.awaited id = before.tree.awaited id := by
  rw [Tree.awaited, h.pending, Tree.awaited]

/-- A call is served at its own endpoint. -/
theorem Serves.call {site : Site M} {here : Nat} {endpoint after : Endpoint} {method : String}
    {params : Params} {reply : Reply} (there : site.tree.endpoint? here = some endpoint)
    (called : endpoint.call? method params = some (reply, after)) :
    Serves [.called here method params] site
      ((site.withTree (site.tree.setEndpoint here after)).note (.called here method params)) where
  outline := Tree.outline_setEndpoint site.tree here after
  timeout := rfl
  pending := Tree.map_endpoint?_setEndpoint there (Endpoint.pending_of_call? called)
  channel? := Tree.channel?_setEndpoint site.tree here after
  link? := Tree.link?_setEndpoint site.tree here after
  log := rfl
  pool := rfl
  medium := rfl

variable {site : Site M} {here : Nat} {message : Envelope}

/-- What a node does with a request is what the reference says about a walk of no names. -/
theorem deliver_request {endpoint : Endpoint} (there : site.tree.endpoint? here = some endpoint)
    [Medium M] (asked : message.kind = .request) {calls : List Event} {reply : Reply}
    (consults : site.tree.consult here [] message.method message.params = (calls, reply)) :
    ∃ after, Serves calls site after ∧
      site.deliver here message
        = (some (.up here (message.response reply.code reply.params)), after) := by
  have hreply := endpoint.map_fst_call? message.method message.params
  simp only [Tree.consult, Tree.walk, there, Option.bind_some] at consults
  simp only [deliver, there, asked, handle]
  cases hcall : endpoint.call? message.method message.params with
  | none =>
    rw [hcall, Option.map_none] at hreply
    rw [← hreply] at consults
    obtain ⟨rfl, rfl⟩ := Prod.mk.inj consults
    simp only [reject, if_pos asked]
    exact ⟨site, .refl site, rfl⟩
  | some result =>
    obtain ⟨found, after⟩ := result
    rw [hcall, Option.map_some] at hreply
    rw [← hreply] at consults
    obtain ⟨rfl, rfl⟩ := Prod.mk.inj consults
    exact ⟨_, .call there hcall, rfl⟩

variable [Medium M]

/-- A request that goes down along names, and whose path ends behind them, calls the method that it
asks for at the node they lead to. -/
theorem goes_call (wellFormed : site.tree.WellFormed) {names : List Name} {rest : Path} {target : Nat}
    (inner : site.tree.form? here ≠ some .deviceEnd)
    (walk : site.tree.walk here names = some target)
    (there : site.tree.form? target = some .node ∨ site.tree.form? target = some .bridge)
    (asked : message.kind = .request) (leaves : message.dest.Leaves names rest)
    (ends : rest.Spells []) {calls : List Event} {reply : Reply}
    (consults : site.tree.consult here names message.method message.params = (calls, reply)) :
    ∃ after, Serves calls site after ∧
      Goes (.down here message) site (.up target (message.response reply.code reply.params))
        after := by
  obtain ⟨endpoint, hendpoint⟩ := Option.isSome_iff_exists.1
    ((Tree.isSome_endpoint?_iff _ _).2 there)
  have hasked : ({ message with dest := rest } : Envelope).kind = .request := asked
  have hconsults : site.tree.consult target [] message.method message.params = (calls, reply) := by
    rw [← consults]
    simp only [Tree.consult, walk, Tree.walk]
  obtain ⟨after, hserves, hdeliver⟩ := deliver_request hendpoint hasked hconsults
  have hstep := (stepDown_descend there).trans ((descend_arrive ends).trans hdeliver)
  exact ⟨after, hserves, (goes_along message wellFormed inner walk leaves).trans (.single hstep)⟩

/-- A request that goes down from a node, along names that lead to no link, is answered as the
reference says. The response starts where the walk has got, along the first of the names. -/
theorem goes_answer (wellFormed : site.tree.WellFormed) {names : List Name}
    (start : site.tree.form? here = some .node ∨ site.tree.form? here = some .bridge)
    (inside : site.tree.StaysInside here names) (asked : message.kind = .request)
    (spells : message.dest.Spells names) {calls : List Event} {reply : Reply}
    (consults : site.tree.consult here names message.method message.params = (calls, reply)) :
    ∃ front stop after, front <+: names ∧ site.tree.walk here front = some stop ∧
      Serves calls site after ∧
      Goes (.down here message) site (.up stop (message.response reply.code reply.params))
        after := by
  have inner : site.tree.form? here ≠ some .deviceEnd := by
    rcases start with start | start <;> simp [start]
  have hform : ∀ front back stop, names = front ++ back → site.tree.walk here front = some stop →
      site.tree.form? stop = some .node ∨ site.tree.form? stop = some .bridge := by
    intro front back stop hnames hwalk
    have hstart := start.elim Tree.lt_size_of_form? Tree.lt_size_of_form?
    exact Tree.form?_of_link?_eq_none (wellFormed.lt_size_of_walk hstart hwalk)
      (inside front back stop hnames hwalk)
  cases hwalk : site.tree.walk here names with
  | none =>
    obtain ⟨front, name, back, stuck, rfl, hfront, hstuck⟩ := Tree.walk_eq_none hwalk
    obtain ⟨dest, _, hdest, hgoes⟩ := goes_down message wellFormed inner hfront spells
    have hlost : site.descend stuck { message with dest }
        = (some (.up stuck (message.response .noSuchNode Params.empty)), site) :=
      descend_lost hdest asked hstuck
    have hstep := (stepDown_descend (hform front _ stuck rfl hfront)).trans hlost
    simp only [Tree.consult, hwalk] at consults
    obtain ⟨rfl, rfl⟩ := Prod.mk.inj consults
    exact ⟨front, stuck, site, List.prefix_append front _, hfront, .refl site,
      hgoes.trans (.single hstep)⟩
  | some target =>
    have hnames : names = names ++ [] := (List.append_nil names).symm
    obtain ⟨rest, hleaves, hends⟩ := (hnames ▸ spells).leaves
    obtain ⟨after, hserves, hgoes⟩ := goes_call wellFormed inner hwalk
      (hform names [] target hnames hwalk) asked hleaves hends consults
    exact ⟨names, target, after, List.prefix_rfl, hwalk, hserves, hgoes⟩

/-! ## There and back -/

/-- At the local root a message turns that goes somewhere from there, or from the top if that is
the same. -/
theorem stepUp_localRoot (wellFormed : site.tree.WellFormed)
    (start : site.tree.form? site.tree.localRoot = some .node ∨
      site.tree.form? site.tree.localRoot = some .bridge)
    (asks : message.kind ≠ .notification)
    (anchored : message.dest.anchor = .near ∨
      message.dest.anchor = .top ∧ site.tree.form? 0 ≠ some .deviceEnd) :
    site.step (.up site.tree.localRoot message)
      = (some (.down site.tree.localRoot
          { message with source := message.source.withAnchor message.dest.anchor }), site) := by
  obtain ⟨form, hform, hinner⟩ : ∃ form, site.tree.form? site.tree.localRoot = some form ∧
      form ≠ .deviceEnd := by
    rcases start with start | start
    · exact ⟨.node, start, by decide⟩
    · exact ⟨.bridge, start, by decide⟩
  refine stepUp_turn hform hinner asks ?_
  by_cases htop : site.tree.form? 0 = some .deviceEnd
  · rcases anchored with hnear | ⟨_, hnot⟩
    · exact .inr ⟨hnear, 0, wellFormed.parent?_localRoot htop, htop⟩
    · exact absurd htop hnot
  · refine .inl ⟨?_, by rcases anchored with h | ⟨h, _⟩ <;> simp [h]⟩
    rw [Tree.WellFormed.localRoot_eq_zero htop]
    exact wellFormed.parent?_zero

/-- A message that turns at the local root goes up there, collects the names of its way, and goes
down from there. -/
theorem goes_round (message : Envelope) (wellFormed : site.tree.WellFormed)
    (start : site.tree.form? site.tree.localRoot = some .node ∨
      site.tree.form? site.tree.localRoot = some .bridge) {own tail : List Name}
    (walk : site.tree.walk site.tree.localRoot own = some here)
    (spells : message.source.Spells tail) (room : (Name.join (own ++ tail)).utf8ByteSize ≤ maxPath)
    (asks : message.kind ≠ .notification)
    (anchored : message.dest.anchor = .near ∨
      message.dest.anchor = .top ∧ site.tree.form? 0 ≠ some .deviceEnd) :
    ∃ source, source.anchor = message.dest.anchor ∧ source.Spells (own ++ tail) ∧
      Goes (.up here message) site (.down site.tree.localRoot { message with source }) site := by
  obtain ⟨source, _, hsource, hup⟩ :=
    goes_up message wellFormed wellFormed.not_deviceEnd_localRoot walk spells room
  have hturn : site.step (.up site.tree.localRoot { message with source })
      = (some (.down site.tree.localRoot
          { message with source := source.withAnchor message.dest.anchor }), site) :=
    stepUp_localRoot wellFormed start asks anchored
  exact ⟨source.withAnchor message.dest.anchor, rfl, hsource, hup.trans (.single hturn)⟩

/-- Whether a request that goes down from the local root becomes its response there, once methods
have been called. The response starts where a walk along names has got that fit a path. -/
def Answers (site : Site M) (request : Envelope) (calls : List Event) (reply : Reply) : Prop :=
  ∃ front stop after, site.tree.walk site.tree.localRoot front = some stop ∧
    (Name.join front).utf8ByteSize ≤ maxPath ∧ Serves calls site after ∧
    Goes (.down site.tree.localRoot request) site
      (.up stop (request.response reply.code reply.params)) after

/-- A request along names that lead to no link is answered as the reference says. -/
theorem answers_of_consult (wellFormed : site.tree.WellFormed) {names : List Name}
    (start : site.tree.form? site.tree.localRoot = some .node ∨
      site.tree.form? site.tree.localRoot = some .bridge)
    (inside : site.tree.StaysInside site.tree.localRoot names) (asked : message.kind = .request)
    (spells : message.dest.Spells names) {calls : List Event} {reply : Reply}
    (consults : site.tree.consult site.tree.localRoot names message.method message.params
      = (calls, reply)) : site.Answers message calls reply := by
  obtain ⟨front, stop, after, ⟨rest, hrest⟩, hfront, hserves, hdown⟩ :=
    goes_answer wellFormed start inside asked spells consults
  have hroom := Nat.le_trans (hrest ▸ Name.size_join_append_le front rest) spells.size_le
  exact ⟨front, stop, after, hfront, hroom, hserves, hdown⟩

/-- A request from a node to somewhere within its tree ends as the response to that node, if it is
answered from the local root whatever way it has come there. The request goes up, turns around and
goes down; the response goes up, turns around where the request did, and goes down to where that
came from. -/
theorem goes_there_and_back (site : Site M) (message : Envelope)
    (wellFormed : site.tree.WellFormed) {here : Nat} {own : List Name}
    {endpoint : Endpoint} (there : site.tree.endpoint? here = some endpoint)
    (walk : site.tree.walk site.tree.localRoot own = some here)
    (room : (Name.join own).utf8ByteSize ≤ maxPath) (asked : message.kind = .request)
    (fresh : message.source.Spells [])
    (anchored : message.dest.anchor = .near ∨
      message.dest.anchor = .top ∧ site.tree.form? 0 ≠ some .deviceEnd)
    {calls : List Event} {reply : Reply}
    (answers : ∀ source, site.Answers { message with source } calls reply) :
    ∃ dest source after, Serves calls site after ∧ dest.Spells [] ∧
      Goes (.up here message) site
        (.down here { message.response reply.code reply.params with dest, source }) after := by
  have hinner := wellFormed.not_deviceEnd_localRoot
  have hhere := (Tree.isSome_endpoint?_iff site.tree here).1 (by rw [there]; rfl)
  have hstart := wellFormed.form_of_walk hinner walk hhere
  rw [← List.append_nil own] at room
  obtain ⟨source, hanchor, hsource, hround⟩ := goes_round message wellFormed hstart walk fresh room
    (by simp [asked]) anchored
  obtain ⟨front, stop, after, hfront, hroom, hserves, hdown⟩ := answers source
  rw [← List.append_nil front] at hroom
  have hsame := hserves.outline.symm
  have wellFormed' := wellFormed.congr hsame
  have hroot := Tree.localRoot_congr hsame
  rw [Tree.form?_congr hsame] at anchored
  rw [Tree.walk_congr hsame, hroot] at hfront walk
  rw [Tree.form?_congr hsame, hroot] at hinner hstart
  obtain ⟨source', _, _, hround'⟩ := goes_round
    ({ message with source }.response reply.code reply.params) wellFormed' hstart hfront
    (Path.spells_empty .top) hroom (by simp [Envelope.response])
    (by rw [← hanchor] at anchored; exact anchored)
  obtain ⟨dest, _, hdest, hdown'⟩ := goes_down
    { message.response reply.code reply.params with dest := source, source := source' }
    wellFormed' hinner walk hsource
  rw [← hroot] at hround' hdown'
  exact ⟨dest, source', after, hserves, hdest,
    hround.trans (hdown.trans (hround'.trans hdown'))⟩

/-! ## Who asks is told -/

/-- The response to the request in the last row of a table takes that row out and tells its
requester. -/
theorem settle_last {endpoint : Endpoint} {rows : List Pending} {row : Pending}
    (last : endpoint.pending = rows ++ [row]) (fresh : ∀ other ∈ rows, other.id ≠ row.id)
    (answers : message.id = row.id) :
    site.settle here endpoint message
      = (site.withTree (site.tree.setEndpoint here { endpoint with pending := rows })).tell here
          row.requester message.code message.params := by
  have hsettle : endpoint.settle? message.id = some (row, { endpoint with pending := rows }) := by
    rw [Endpoint.settle?, answers, last, Endpoint.settleIn_concat fresh, Option.map_some]
  simp only [settle, hsettle]

omit [Medium M] in
/-- What the reference says depends on the outline and the methods only. -/
theorem consult_congr {left right : Tree} (same : left.outline = right.outline)
    (methods : ∀ id, (left.endpoint? id).map (·.methods) = (right.endpoint? id).map (·.methods))
    (start : Nat) (names : List Name) (method : String) (params : Params) :
    left.consult start names method params = right.consult start names method params := by
  have hreply : ∀ tree : Tree, (fun id => (tree.endpoint? id).bind (·.replyTo method params))
      = fun id => ((tree.endpoint? id).map (·.methods)).bind fun methods =>
          (methods.find? (·.name = method)).map fun found =>
            (found.handler found.calls params).delivered := by
    intro tree
    funext id
    rw [Option.bind_map]
    rfl
  have hboth : (fun id => (left.endpoint? id).bind (·.replyTo method params))
      = fun id => (right.endpoint? id).bind (·.replyTo method params) := by
    rw [hreply, hreply]
    funext id
    rw [methods]
  simp only [Tree.consult, Tree.walk_congr same]
  split
  · rfl
  · next target _ => rw [congrFun hboth target]

omit [Medium M] in
/-- The output that the reference gives is output that comes with success. -/
theorem delivered_consult (tree : Tree) (start : Nat) (names : List Name) (method : String)
    (params : Params) : (tree.consult start names method params).2.delivered
      = (tree.consult start names method params).2 := by
  unfold Tree.consult
  split
  · rfl
  · split
    · rfl
    · next reply hreply =>
      obtain ⟨endpoint, _, hmethod⟩ := Option.bind_eq_some_iff.1 hreply
      exact Endpoint.delivered_of_replyTo hmethod

/-- A response carries the output of its reply. -/
theorem params_response (request : Envelope) {reply : Reply} (h : reply.delivered = reply) :
    (request.response reply.code reply.params).params = reply.params := by
  by_cases hcode : reply.code = .success
  · simp [Envelope.response, hcode]
  · rw [← h]
    simp [Envelope.response, Reply.delivered, hcode, Reply.bare]

/-- A request that has not moved yet. -/
structure Issued (dest : Path) (method : String) (params : Params) (id : UInt16)
    (request : Envelope) : Prop where
  kind : request.kind = .request
  dest : request.dest = dest
  source : request.source = Path.empty .top
  id : request.id = id
  method : request.method = method
  params : request.params = params
  code : request.code = .success

/-- An accepted request begins at its node and moves up from there. -/
theorem issued_of_execute {after : Site M} {node : Nat} {method path tag : String}
    {params : Params} {now : Nat} {id : UInt16} {dest : Path}
    (accepted : site.execute node method path params now tag = .ok (id, after))
    (parsed : Path.ofText path = .ok dest) :
    ∃ request old new, Issued dest method params id request ∧
      site.tree.endpoint? node = some old ∧
      old.beginRequest method (now + site.tree.timeout) (.caller tag) = .ok (id, new) ∧
      after = (site.withTree (site.tree.setEndpoint node new)).route (.up node request) := by
  obtain ⟨dest', request, old, new, hparsed, hrequest, there, begun, hroute⟩ :=
    execute_eq_ok accepted
  obtain rfl : dest = dest' := Except.ok.inj (parsed.symm.trans hparsed)
  refine ⟨{ request with id }, old, new, ?_, there, begun, hroute⟩
  simp only [Envelope.request, Envelope.outgoing] at hrequest
  split at hrequest
  · cases hrequest
    exact ⟨rfl, rfl, rfl, rfl, rfl, rfl, rfl⟩
  · cases hrequest

/-- A response that has arrived at its node ends the wait there. -/
theorem stepDown_settle {endpoint : Endpoint} (there : site.tree.endpoint? here = some endpoint)
    (answers : message.kind = .response) (spells : message.dest.Spells []) :
    site.step (.down here message) = (none, site.settle here endpoint message) := by
  have hform := (Tree.isSome_endpoint?_iff site.tree here).1 (by rw [there]; rfl)
  rw [stepDown_descend hform, descend_arrive spells]
  simp only [deliver, there, answers]

/-- A node whose request is accepted is a node or bridge. -/
theorem form_of_execute {after : Site M} {node : Nat} {method path tag : String} {params : Params}
    {now : Nat} {id : UInt16}
    (accepted : site.execute node method path params now tag = .ok (id, after)) :
    site.tree.form? node = some .node ∨ site.tree.form? node = some .bridge := by
  obtain ⟨_, _, _, _, _, _, there, _⟩ := execute_eq_ok accepted
  rw [← Tree.isSome_endpoint?_iff, there]
  rfl

/-- A node whose request is accepted stands at the end of a walk from the local root. -/
theorem exists_walk_of_execute {after : Site M} (wellFormed : site.tree.WellFormed)
    {node : Nat} {method path tag : String} {params : Params} {now : Nat} {id : UInt16}
    (accepted : site.execute node method path params now tag = .ok (id, after)) :
    ∃ own, site.tree.walk site.tree.localRoot own = some node :=
  wellFormed.exists_walk (form_of_execute accepted)

/-- Where a request is accepted, the local root is a node or bridge. -/
theorem form_localRoot_of_execute {after : Site M} (wellFormed : site.tree.WellFormed)
    {node : Nat} {method path tag : String} {params : Params} {now : Nat} {id : UInt16}
    (accepted : site.execute node method path params now tag = .ok (id, after)) :
    site.tree.form? site.tree.localRoot = some .node ∨
      site.tree.form? site.tree.localRoot = some .bridge := by
  obtain ⟨own, walk⟩ := exists_walk_of_execute wellFormed accepted
  exact wellFormed.form_of_walk wellFormed.not_deviceEnd_localRoot walk (form_of_execute accepted)

/-- A request that is answered within its tree is told to the caller who made it, before it is over,
and nothing else happens. It need only be answered by trees with the outline and the methods of the
tree in which it is made. -/
theorem told_of_answers {after : Site M} {node : Nat} {method path tag : String}
    {params : Params} {now : Nat} {id : UInt16} {dest : Path} (wellFormed : site.tree.WellFormed)
    (accepted : site.execute node method path params now tag = .ok (id, after))
    (parsed : Path.ofText path = .ok dest)
    (anchored : dest.anchor = .near ∨ dest.anchor = .top ∧ site.tree.form? 0 = some .node)
    {own : List Name} (walk : site.tree.walk site.tree.localRoot own = some node)
    (room : (Name.join own).utf8ByteSize ≤ maxPath) {calls : List Event} {reply : Reply}
    (output : reply.delivered = reply)
    (answers : ∀ (asking : Site M) (request : Envelope),
      asking.tree.outline = site.tree.outline →
      (∀ id, (asking.tree.endpoint? id).map (·.methods)
        = (site.tree.endpoint? id).map (·.methods)) →
      request.kind = .request → request.dest = dest → request.method = method →
      request.params = params → asking.Answers request calls reply) :
    after.log = site.log ++ calls ++ [.replied tag reply.code reply.params] ∧
      (∀ entry, after.tree.awaited entry = site.tree.awaited entry) ∧
      after.pool = site.pool ∧ after.medium = site.medium := by
  obtain ⟨request, old, new, hissued, there, begun, hroute⟩ := issued_of_execute accepted parsed
  obtain ⟨hkind, hdest, hsource, rfl, rfl, rfl, _⟩ := hissued
  obtain ⟨_, hfresh, hnew⟩ := Endpoint.beginRequest_eq_ok begun
  have hsame : site.tree.outline = (site.tree.setEndpoint node new).outline :=
    (Tree.outline_setEndpoint site.tree node new).symm
  have hmethods : new.methods = old.methods := by rw [hnew]
  have hanchored : request.dest.anchor = .near ∨
      request.dest.anchor = .top ∧ (site.tree.setEndpoint node new).form? 0 ≠ some .deviceEnd := by
    rw [← Tree.form?_congr hsame, hdest]
    exact anchored.imp_right fun ⟨htop, hform⟩ => ⟨htop, by simp [hform]⟩
  rw [Tree.walk_congr hsame, Tree.localRoot_congr hsame] at walk
  obtain ⟨dest', source', served, hserves, hdest', hgoes⟩ :=
    goes_there_and_back (site.withTree (site.tree.setEndpoint node new)) request
      (wellFormed.congr hsame) (Tree.endpoint?_setEndpoint_self there new) walk room hkind
      (by rw [hsource]; exact Path.spells_empty .top) hanchored
      fun source => answers _ _ hsame.symm (Tree.map_endpoint?_setEndpoint there hmethods) hkind hdest rfl
        rfl
  have hpending := hserves.pending node
  rw [tree_withTree, Tree.endpoint?_setEndpoint_self there, Option.map_some] at hpending
  obtain ⟨endpoint, hendpoint, hrows⟩ := Option.map_eq_some_iff.1 hpending
  have hlast : endpoint.pending
      = old.pending ++ [⟨request.id, now + site.tree.timeout, .caller tag⟩] := by
    rw [hrows, hnew]
  rw [hgoes.route_eq (wellFormed.congr hsame) (stepDown_settle hendpoint rfl hdest'),
    settle_last hlast hfresh (by rfl)] at hroute
  subst hroute
  refine ⟨?_, ?_, hserves.pool, hserves.medium⟩
  · have hparams' := params_response request output
    simp only [tell, note, log_withTree, hserves.log]
    rw [hparams']
    rfl
  · intro entry
    rw [tell, tree_note, tree_withTree]
    by_cases hentry : node = entry
    · subst hentry
      rw [Tree.awaited_of_endpoint? (Tree.endpoint?_setEndpoint_self hendpoint _),
        Tree.awaited_of_endpoint? there]
    · rw [Tree.awaited, Tree.endpoint?_setEndpoint_of_ne hentry, ← Tree.awaited,
        hserves.awaited_eq, tree_withTree, Tree.awaited,
        Tree.endpoint?_setEndpoint_of_ne hentry, Tree.awaited]

/-- A request whose path is a row of names that lead to no link is answered as the reference
says. -/
theorem told_of_consult {after : Site M} {node : Nat} {method path tag : String}
    {params : Params} {now : Nat} {id : UInt16} {dest : Path} {names : List Name}
    (wellFormed : site.tree.WellFormed)
    (accepted : site.execute node method path params now tag = .ok (id, after))
    (parsed : Path.ofText path = .ok dest) (spelled : dest.Spells names)
    (anchored : dest.anchor = .near ∨ dest.anchor = .top ∧ site.tree.form? 0 = some .node)
    (inside : site.tree.StaysInside site.tree.localRoot names) {own : List Name}
    (walk : site.tree.walk site.tree.localRoot own = some node)
    (room : (Name.join own).utf8ByteSize ≤ maxPath) :
    let (calls, reply) := site.tree.consult site.tree.localRoot names method params
    after.log = site.log ++ calls ++ [.replied tag reply.code reply.params] ∧
      (∀ entry, after.tree.awaited entry = site.tree.awaited entry) ∧
      after.pool = site.pool ∧ after.medium = site.medium := by
  have hstart := form_localRoot_of_execute wellFormed accepted
  refine told_of_answers wellFormed accepted parsed anchored walk room
    (delivered_consult site.tree site.tree.localRoot names method params) ?_
  rintro asking request same methods asked rfl rfl rfl
  have hroot := Tree.localRoot_congr same
  have hinside := inside.congr same.symm
  have hconsult := consult_congr same methods site.tree.localRoot names request.method
    request.params
  rw [← Tree.form?_congr same, ← hroot] at hstart
  rw [← hroot] at hinside hconsult ⊢
  exact answers_of_consult (wellFormed.congr same.symm) hstart hinside asked spelled hconsult

/-- In a reachable tree, let a request from a node or bridge be accepted whose path starts at the
local root, or at the top if that is a node, and whose levels are names that lead to no link. The
requester stands at the end of a walk from the local root; and whenever that walk fits a path, then
before the request is over the one method is called, once and with the given parameters, that a walk
along the names finds, no other one is, and the caller is told what that method replied, or that
there is no such node or method. Nothing else has happened then, and the same requests are awaited
as before. -/
theorem execute_answers_as_walk {after : Site M} {node : Nat} {method path tag : String}
    {params : Params} {now : Nat} {id : UInt16} {dest : Path} {names : List Name}
    (reachable : site.Reachable)
    (accepted : site.execute node method path params now tag = .ok (id, after))
    (parsed : Path.ofText path = .ok dest) (spelled : dest.Spells names)
    (anchored : dest.anchor = .near ∨ dest.anchor = .top ∧ site.tree.form? 0 = some .node)
    (inside : site.tree.StaysInside site.tree.localRoot names) :
    (∃ own, site.tree.walk site.tree.localRoot own = some node) ∧
      ∀ own, site.tree.walk site.tree.localRoot own = some node →
        (Name.join own).utf8ByteSize ≤ maxPath →
        let (calls, reply) := site.tree.consult site.tree.localRoot names method params
        after.log = site.log ++ calls ++ [.replied tag reply.code reply.params] ∧
          (∀ entry, after.tree.awaited entry = site.tree.awaited entry) ∧
          after.pool = site.pool ∧ after.medium = site.medium := by
  have wellFormed := reachable.wellFormed
  exact ⟨exists_walk_of_execute wellFormed accepted, fun own walk room =>
    told_of_consult wellFormed accepted parsed spelled anchored inside walk room⟩

/-- The moves that build two nodes below a top, one of which repeats what it is told. -/
def buildPair : List (Move Cabling) :=
  [.call (.build (.addRoot "house")), .call (.build (.addNode 0 "bell")),
    .call (.build (.addNode 0 "door")), .call (.build (.addMethod 2 "say" Handler.echo))]

/-- Two nodes below a top, one of which repeats what it is told. -/
def pair : Site Cabling :=
  (start 5 (Pool.ofSize 1) Cabling.empty).run buildPair

/-- The name of the node that asks. -/
def bell : Name :=
  ⟨"bell", by decide, by decide, by decide⟩

/-- The name of the node that repeats. -/
def door : Name :=
  ⟨"door", by decide, by decide, by decide⟩

/-- What one node of a pair asks of the other one is answered there, before the request is over. -/
theorem pair_answers : ∃ id after,
    pair.execute 1 "say" "~/door" Params.empty 3 "caller" = .ok (id, after) ∧
      after.log = [.called 2 "say" Params.empty, .replied "caller" .success Params.empty] := by
  have reachable : pair.Reachable := ⟨5, Pool.ofSize 1, Cabling.empty, buildPair, rfl⟩
  obtain ⟨⟨id, after⟩, accepted⟩ : ∃ result,
      pair.execute 1 "say" "~/door" Params.empty 3 "caller" = .ok result := ⟨_, rfl⟩
  have parsed : Path.ofText "~/door" = .ok ⟨.near, "door", by decide⟩ := rfl
  have spelled : (⟨.near, "door", by decide⟩ : Path).Spells [door] := rfl
  have walk : pair.tree.walk pair.tree.localRoot [door] = some 2 := by decide +kernel
  have inside := reachable.wellFormed.staysInside (by decide +kernel) walk rfl
  obtain ⟨_, hanswer⟩ :=
    execute_answers_as_walk reachable accepted parsed spelled (.inl rfl) inside
  obtain ⟨hlog, _⟩ := hanswer [bell] (by decide +kernel) (by decide +kernel)
  exact ⟨id, after, accepted, hlog⟩

end Site
end TopicTree
