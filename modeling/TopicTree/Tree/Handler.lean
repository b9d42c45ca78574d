import TopicTree.Message.Params

/-!
# Method handlers

A handler answers the calls of one method. What it answers may depend on the calls before, so a
handler is a function of the earlier inputs and the present one. A few handlers that serve many
nodes are defined here.
-/

namespace TopicTree

/-- The outcome of a call, with the output that goes with success. -/
structure Reply where
  code : ReturnCode
  params : Params
  deriving DecidableEq, Repr

namespace Reply

/-- An outcome without output. -/
def bare (code : ReturnCode) : Reply :=
  ⟨code, Params.empty⟩

/-- The reply as the requester sees it: output comes with success only. -/
def delivered (reply : Reply) : Reply :=
  if reply.code = .success then reply else bare reply.code

end Reply

/-- The answer to an input, given the inputs of the earlier calls, latest first. -/
abbrev Handler := List Params → Params → Reply

namespace Handler

/-- Answers with the input. -/
def echo : Handler := fun _ input => ⟨.success, input⟩

/-- The given fields in a row, if they fit. -/
def pack (fields : List Bytes) : Except Error Params :=
  fields.foldlM Params.addField Params.empty

/-- Answers with fixed fields and a fixed outcome, or with `internal` if the fields do not fit. -/
def constant (code : ReturnCode) (fields : List Bytes) : Handler := fun _ _ =>
  match pack fields with
  | .ok params => ⟨code, params⟩
  | .error _ => Reply.bare .internal

/-- Answers with one text field, or with `internal` if it does not fit. -/
def sayText (text : String) : Reply :=
  match Params.ofText text with
  | .ok params => ⟨.success, params⟩
  | .error _ => Reply.bare .internal

/-- Answers with the number of calls so far, this one included. -/
def count : Handler := fun earlier _ => sayText (toString (earlier.length + 1))

/-- Answers with the first field of the input, which has to be text. -/
def firstText : Handler := fun _ input =>
  match input.text? 0 with
  | some text => sayText text
  | none => Reply.bare .invalidParams

end Handler
end TopicTree
