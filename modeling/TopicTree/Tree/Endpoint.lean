import TopicTree.Tree.Handler

/-!
# Endpoints

An endpoint is what a node does on its own account: it offers methods, and it remembers the requests
whose responses it awaits. Both tables are short. Every awaited request has its own id, taken from a
counter that wraps around and passes over 0 and the ids in use.
-/

namespace TopicTree

/-- A method on offer. -/
structure Method where
  name : String
  handler : Handler
  /-- The inputs of the calls so far, latest first. -/
  calls : List Params

/-- Who is told about a response. -/
inductive Requester
  /-- A caller in the program, known by a tag. -/
  | caller (tag : String)
  /-- The client of a bridge, told on a topic. -/
  | client (topic : String)
  deriving DecidableEq, Repr

/-- A request whose response is awaited. -/
structure Pending where
  id : UInt16
  /-- The time at which waiting ends. -/
  deadline : Nat
  requester : Requester
  deriving DecidableEq, Repr

/-- The methods and awaited requests of one node. -/
structure Endpoint where
  methods : List Method
  pending : List Pending
  /-- The id that was given out last. -/
  lastId : UInt16

namespace Endpoint

/-- An endpoint with nothing in its tables. -/
def empty : Endpoint :=
  ⟨[], [], 0⟩

/-- Refuses the name of a method that is too long. -/
def checkMethodName (name : String) : Except Error Unit :=
  if maxMethodName < name.utf8ByteSize then .error (.nameTooLong name.utf8ByteSize maxMethodName)
  else .ok ()

/-- Whether a method is on offer. -/
def offers (endpoint : Endpoint) (name : String) : Bool :=
  endpoint.methods.any (·.name = name)

/-- Puts a method on offer. -/
def addMethod (endpoint : Endpoint) (name : String) (handler : Handler) :
    Except Error Endpoint := do
  if name = "" then .error (.invalidName name)
  checkMethodName name
  if endpoint.offers name then .error (.duplicateName name)
  if maxMethods ≤ endpoint.methods.length then .error (.tableFull "method")
  return { endpoint with methods := endpoint.methods ++ [⟨name, handler, []⟩] }

/-- The reply of a method in a table, and the table after the call; nothing if it is not there. -/
def callIn (name : String) (params : Params) : List Method → Option (Reply × List Method)
  | [] => none
  | method :: rest =>
    if method.name = name then
      some ((method.handler method.calls params).delivered,
        { method with calls := params :: method.calls } :: rest)
    else (callIn name params rest).map fun (reply, methods) => (reply, method :: methods)

/-- Calls a method that is on offer. -/
def call? (endpoint : Endpoint) (name : String) (params : Params) : Option (Reply × Endpoint) :=
  (callIn name params endpoint.methods).map fun (reply, methods) =>
    (reply, { endpoint with methods })

/-- Calls a method; one that is not on offer is answered for. -/
def dispatch (endpoint : Endpoint) (name : String) (params : Params) : Reply × Endpoint :=
  (endpoint.call? name params).getD (Reply.bare .noSuchMethod, endpoint)

/-! ## Ids -/

/-- The first id after `last` that is not 0 and not in use, looked for in `tries` steps. -/
def searchId (used : List UInt16) : (tries : Nat) → (last : UInt16) → Option UInt16
  | 0, _ => none
  | tries + 1, last =>
    if last + 1 ≠ 0 ∧ last + 1 ∉ used then some (last + 1)
    else searchId used tries (last + 1)

/-- The ids in use. -/
def usedIds (endpoint : Endpoint) : List UInt16 :=
  endpoint.pending.map (·.id)

/-- Gives out an id. Of as many candidates as there are ids in use, and two more, one is free. -/
def allocateId (endpoint : Endpoint) : UInt16 × Endpoint :=
  let id := (searchId endpoint.usedIds (endpoint.pending.length + 2) endpoint.lastId).getD 0
  (id, { endpoint with lastId := id })

/-! ## Awaited requests -/

/-- Starts waiting for the response to a request, under a new id. -/
def beginRequest (endpoint : Endpoint) (method : String) (deadline : Nat) (requester : Requester) :
    Except Error (UInt16 × Endpoint) := do
  if maxPending ≤ endpoint.pending.length then .error .requestsFull
  checkMethodName method
  let (id, endpoint) := endpoint.allocateId
  return (id, { endpoint with pending := endpoint.pending ++ [⟨id, deadline, requester⟩] })

/-- A table with its last row put first. -/
def lastFirst {α : Type} (rows : List α) : List α :=
  match rows.getLast? with
  | some last => last :: rows.dropLast
  | none => []

/-- Putting the last row first changes the length of no table. -/
@[simp]
theorem length_lastFirst {α : Type} (rows : List α) : (lastFirst rows).length = rows.length := by
  unfold lastFirst
  split
  · next h =>
    have : rows ≠ [] := by
      rintro rfl
      simp at h
    have := List.length_pos_iff.2 this
    simp only [List.length_cons, List.length_dropLast]
    omega
  · next h => simp [List.getLast?_eq_none_iff.1 h]

/-- Takes the first request with an id out of a table; the last row fills the gap. -/
def settleIn (id : UInt16) : List Pending → Option (Pending × List Pending)
  | [] => none
  | row :: rest =>
    if row.id = id then some (row, lastFirst rest)
    else (settleIn id rest).map fun (found, rows) => (found, row :: rows)

/-- Stops waiting for the response with a given id, which has come. -/
def settle? (endpoint : Endpoint) (id : UInt16) : Option (Pending × Endpoint) :=
  (settleIn id endpoint.pending).map fun (found, pending) => (found, { endpoint with pending })

/-- Takes every request out of a table whose deadline has come; the last row fills each gap and is
looked at next. The requests taken come first in the answer, the table after them. -/
def expireIn (now : Nat) : List Pending → List Pending × List Pending
  | [] => ([], [])
  | row :: rest =>
    if row.deadline ≤ now then
      let (expired, kept) := expireIn now (lastFirst rest)
      (row :: expired, kept)
    else
      let (expired, kept) := expireIn now rest
      (expired, row :: kept)
termination_by rows => rows.length
decreasing_by all_goals simp

/-- Stops waiting for every response whose deadline has come. -/
def takeExpired (endpoint : Endpoint) (now : Nat) : List Pending × Endpoint :=
  let (expired, pending) := expireIn now endpoint.pending
  (expired, { endpoint with pending })

end Endpoint
end TopicTree
