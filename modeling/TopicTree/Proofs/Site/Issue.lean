import TopicTree.Proofs.Site.Change
import TopicTree.Proofs.Tree.Pending

/-!
# Requests that are issued in place

Issuing a request writes into the endpoint of its node where that stands: the counter of ids, as
often as the ids that it comes to are taken, and then the table. What was written is kept, whatever
comes of it. Every check is made before the first write, so a refusal leaves the whole site as it
was, and issuing in place comes to the same as issuing all or nothing.
-/

namespace TopicTree

/-! ## Endpoints -/

namespace Endpoint

variable {endpoint : Endpoint}

/-- Raises the counter until it stands at an id that can be given out, `tries` times at most. -/
def countUp : (tries : Nat) → EStateM Error Endpoint UInt16
  | 0 => return (← get).lastId
  | tries + 1 => do
    modify fun endpoint => { endpoint with lastId := endpoint.lastId + 1 }
    let endpoint ← get
    if endpoint.lastId ≠ 0 ∧ endpoint.lastId ∉ endpoint.usedIds then return endpoint.lastId
    countUp tries

/-- Writes a row at the end of the table. A full table is left as it is. -/
def pushPending (row : Pending) (endpoint : Endpoint) : Endpoint :=
  if endpoint.pending.length < maxPending then
    { endpoint with pending := endpoint.pending ++ [row] }
  else endpoint

/-- Starts waiting for the response to a request: writes the counter, and then the table. -/
def await (method : String) (deadline : Nat) (requester : Requester) :
    EStateM Error Endpoint UInt16 := do
  if maxPending ≤ (← get).pending.length then throw .requestsFull
  ofExcept (checkMethodName method)
  let id ← countUp ((← get).pending.length + 2)
  modify (pushPending ⟨id, deadline, requester⟩)
  return id

/-- The counter is raised to the id that a search finds. -/
theorem run_countUp {tries : Nat} {id : UInt16}
    (found : searchId endpoint.usedIds tries endpoint.lastId = some id) :
    (countUp tries).run endpoint = .ok id { endpoint with lastId := id } := by
  induction tries generalizing endpoint with
  | zero => cases found
  | succ tries ih =>
    have hused : ({ endpoint with lastId := endpoint.lastId + 1 } : Endpoint).usedIds
        = endpoint.usedIds := rfl
    rw [searchId] at found
    by_cases hfree : endpoint.lastId + 1 ≠ 0 ∧ endpoint.lastId + 1 ∉ endpoint.usedIds
    · rw [if_pos hfree] at found
      cases found
      simp [countUp, hused, hfree]
    · rw [if_neg hfree] at found
      have hrest := @ih { endpoint with lastId := endpoint.lastId + 1 } (hused ▸ found)
      simpa [countUp, hused, hfree] using hrest

/-- The counter is raised to the id that is given out. -/
theorem run_countUp_allocateId (room : endpoint.pending.length ≤ maxPending) :
    (countUp (endpoint.pending.length + 2)).run endpoint
      = .ok endpoint.allocateId.1 endpoint.allocateId.2 := by
  have hlength : endpoint.pending.length = endpoint.usedIds.length := by simp [usedIds]
  have few : endpoint.usedIds.length + 2 < UInt16.size := by
    rw [← hlength]
    exact Nat.lt_of_le_of_lt (Nat.add_le_add_right room 2) (by decide)
  obtain ⟨id, hid⟩ := Option.isSome_iff_exists.1 (isSome_searchId few endpoint.lastId)
  rw [← hlength] at hid
  rw [run_countUp hid, allocateId, hid]
  rfl

/-- Beginning a request in place comes to the same as beginning it or leaving all as it is. -/
theorem run_await (endpoint : Endpoint) (method : String) (deadline : Nat)
    (requester : Requester) :
    (await method deadline requester).run endpoint
      = settled endpoint (endpoint.beginRequest method deadline requester) := by
  by_cases hfull : maxPending ≤ endpoint.pending.length
  case pos => simp [-bind_pure_comp, await, beginRequest, hfull]
  have hroom : endpoint.pending.length < maxPending := Nat.lt_of_not_le hfull
  cases hname : checkMethodName method with
  | error e => simp [-bind_pure_comp, await, beginRequest, hfull, hname]
  | ok =>
    have hcount := run_countUp_allocateId (Nat.le_of_lt hroom)
    have hpending : endpoint.allocateId.2.pending = endpoint.pending := rfl
    simp [-bind_pure_comp, await, beginRequest, hfull, hname, hcount, pushPending, hpending,
      hroom, pure_def]

end Endpoint

/-! ## Sites -/

namespace Site

variable {M : Type} {site : Site M}

/-- Does something to the endpoint of a node where it stands. What was written is kept, whatever
comes of it. -/
def atEndpoint {α : Type} (node : Nat) (act : EStateM Error Endpoint α) :
    EStateM Error (Site M) α := do
  let endpoint ← ofExcept ((← get).tree.needEndpoint node)
  match act.run endpoint with
  | .ok result after =>
    modify fun site => site.withTree (site.tree.setEndpoint node after)
    return result
  | .error e after =>
    modify fun site => site.withTree (site.tree.setEndpoint node after)
    throw e

/-- What changes all of an endpoint or nothing changes all of the site or nothing. -/
theorem run_atEndpoint {α : Type} {act : EStateM Error Endpoint α}
    {outcome : Endpoint → Except Error (α × Endpoint)}
    (run : ∀ endpoint, act.run endpoint = settled endpoint (outcome endpoint)) (site : Site M)
    (node : Nat) :
    (atEndpoint node act).run site = settled site (do
      let endpoint ← site.tree.needEndpoint node
      let (result, after) ← outcome endpoint
      return (result, site.withTree (site.tree.setEndpoint node after))) := by
  refine run_ofExcept_bind fun endpoint hneed => ?_
  rw [run]
  cases outcome endpoint with
  | error e =>
    have hback : site.withTree (site.tree.setEndpoint node endpoint) = site := by
      rw [Tree.setEndpoint_of_endpoint? (endpoint?_of_needEndpoint hneed)]
      rfl
    exact congrArg (EStateM.Result.error e) hback
  | ok outcome => rfl

variable [Medium M]

/-- Sends a request of a caller from a node. -/
def issue (node : Nat) (method path : String) (params : Params) (now : Nat) (tag : String) :
    EStateM Error (Site M) UInt16 := do
  let dest ← ofExcept (Path.ofText path)
  let request ← ofExcept (Envelope.request dest method 0 params)
  let deadline := now + (← get).tree.timeout
  let id ← atEndpoint node (Endpoint.await method deadline (.caller tag))
  modify (·.route (.up node { request with id }))
  return id

/-- Sends the request that the client of a bridge asks for. -/
def issueFor (bridge : Nat) (target : String) (payload : Bytes) (now : Nat) (replyTopic : String) :
    EStateM Error (Site M) Unit := do
  let request ← ofExcept (clientRequest target payload)
  let deadline := now + (← get).tree.timeout
  let id ← atEndpoint bridge (Endpoint.await request.method deadline (.client replyTopic))
  modify (·.route (.up bridge { request with id }))

/-- Issuing a request in place comes to the same as issuing it or leaving all as it is. -/
theorem run_issue (site : Site M) (node : Nat) (method path : String) (params : Params) (now : Nat)
    (tag : String) :
    (issue node method path params now tag).run site
      = settled site (site.execute node method path params now tag) := by
  refine run_ofExcept_bind fun dest _ => run_ofExcept_bind fun request _ => ?_
  have hawait := run_atEndpoint
    (fun endpoint => endpoint.run_await method (now + site.tree.timeout) (.caller tag)) site node
  refine (run_bind_of_settled hawait (fun id waiting =>
    (id, waiting.route (.up node { request with id }))) fun _ _ _ => rfl).trans (congrArg _ ?_)
  cases site.tree.needEndpoint node with
  | error e => rfl
  | ok endpoint =>
    cases hbegun : endpoint.beginRequest method (now + site.tree.timeout) (.caller tag) <;>
      simp only [ok_bind, hbegun] <;> rfl

/-- Issuing a client's request in place comes to the same as beginning it and sending it, or leaving
all as it is. -/
theorem run_issueFor {id : Nat} {bridge : Bridge}
    (there : site.tree.bridge? id = some bridge) (target : String) (payload : Bytes) (now : Nat)
    (replyTopic : String) :
    (issueFor id target payload now replyTopic).run site
      = settled site
        ((beginClientRequest bridge target payload (now + site.tree.timeout) replyTopic).map
          fun (request, endpoint) =>
            ((), (site.withTree (site.tree.setEndpoint id endpoint)).route (.up id request))) := by
  have hneed := needEndpoint_of_endpoint? (Tree.endpoint?_of_bridge? there)
  cases hrequest : clientRequest target payload with
  | error e => simp [-bind_pure_comp, issueFor, beginClientRequest, hrequest, Except.map]
  | ok request =>
    have hbegin := run_atEndpoint
      (fun endpoint => endpoint.run_await request.method (now + site.tree.timeout)
        (.client replyTopic)) site id
    cases hbegun : bridge.endpoint.beginRequest request.method (now + site.tree.timeout)
        (.client replyTopic) with
    | error e =>
      simp [-bind_pure_comp, issueFor, beginClientRequest, hrequest, hbegin, hneed, hbegun,
        Except.map]
    | ok begun =>
      simp [-bind_pure_comp, issueFor, beginClientRequest, hrequest, hbegin, hneed, hbegun,
        Except.map, pure_def]

end Site
end TopicTree
