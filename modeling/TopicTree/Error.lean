import TopicTree.Message.ReturnCode
import TopicTree.Text.Quoted
import TopicTree.Wire.Error

/-!
# Errors

Everything that can go wrong in building a tree, addressing a node or reading a message, one cause
per constructor. A cause that arises while a request is under way is reported to the requester as a
return code; `Error.returnCode` says which.
-/

namespace TopicTree

/-- Why an operation was refused. -/
inductive Error
  /-- A name is empty or holds a slash. -/
  | invalidName (name : String)
  /-- A name takes too many bytes. -/
  | nameTooLong (len max : Nat)
  /-- A sibling or a method of the same name is there already. -/
  | duplicateName (name : String)
  /-- A table has no room left. -/
  | tableFull (table : String)
  /-- The node awaits as many responses as it can. -/
  | requestsFull
  /-- No entry of the tree has this number. -/
  | unknownEntry (id : Nat)
  /-- The entry is of a kind that cannot do this. -/
  | wrongKind (id : Nat) (expected : String)
  /-- The tree has its top entry already. -/
  | rootExists
  /-- A path takes too many bytes. -/
  | pathTooLong (len max : Nat)
  /-- Parameters, or a field of them, take too many bytes. -/
  | paramsTooLong (len max : Nat)
  /-- A PUBLISH whose topic has no marker. -/
  | notEnvelope
  /-- Bytes and packets did not go together. -/
  | wire (cause : WireError)
  /-- Every slot of the message pool is taken. -/
  | poolExhausted (capacity : Nat)
  deriving DecidableEq, Repr

namespace Error

/-- The wording of each cause. -/
def message : Error → String
  | invalidName name => "invalid name " ++ Text.quoted name
  | nameTooLong len max => s!"name too long: {len} bytes exceeds {max}"
  | duplicateName name => "duplicate name " ++ Text.quoted name
  | tableFull table => s!"{table} table full"
  | requestsFull => "outstanding request table full"
  | unknownEntry id => s!"unknown node {id}"
  | wrongKind id expected => s!"entry {id} is not a {expected}"
  | rootExists => "tree already has a root"
  | pathTooLong len max => s!"path too long: {len} bytes exceeds {max}"
  | paramsTooLong len max => s!"params too long: {len} bytes exceeds {max}"
  | notEnvelope => "not an rpc message"
  | wire cause => cause.message
  | poolExhausted capacity => s!"message pool exhausted: all {capacity} slots in use"

/-- The code that tells a requester about a cause. -/
def returnCode : Error → ReturnCode
  | pathTooLong .. | invalidName _ | nameTooLong .. => .malformedPath
  | paramsTooLong .. => .invalidParams
  | unknownEntry _ => .noSuchNode
  | _ => .internal

/-- The result of a wire operation as the result of a larger one. -/
def ofWire {α : Type} : Except WireError α → Except Error α
  | .ok a => .ok a
  | .error cause => .error (.wire cause)

end Error
end TopicTree
