/-!
# Return codes

Every response says how the request went in one byte. Numbers that name no outcome of their own are
read as the catch-all `internal`.
-/

namespace TopicTree

/-- How a request went. -/
inductive ReturnCode
  /-- The method ran; its output comes with the response. -/
  | success
  /-- The destination path has a level that can be no name. -/
  | malformedPath
  /-- No node is at the destination path. -/
  | noSuchNode
  /-- The node does not offer the method. -/
  | noSuchMethod
  /-- The method, or the way there, refused the parameters. -/
  | invalidParams
  /-- The request does not suit the present state. -/
  | badState
  /-- No response came in time. -/
  | timeout
  /-- Anything else. -/
  | internal
  deriving DecidableEq, Repr

namespace ReturnCode

/-- The number of a code on the wire. -/
def toByte : ReturnCode → UInt8
  | success => 0
  | malformedPath => 1
  | noSuchNode => 2
  | noSuchMethod => 3
  | invalidParams => 4
  | badState => 5
  | timeout => 6
  | internal => 255

/-- The code that a number stands for. -/
def ofByte : UInt8 → ReturnCode
  | 0 => success
  | 1 => malformedPath
  | 2 => noSuchNode
  | 3 => noSuchMethod
  | 4 => invalidParams
  | 5 => badState
  | 6 => timeout
  | _ => internal

/-- The upper-case name used in logs. -/
def name : ReturnCode → String
  | success => "SUCCESS"
  | malformedPath => "MALFORMED_PATH"
  | noSuchNode => "NODE_DNE"
  | noSuchMethod => "METHOD_DNE"
  | invalidParams => "INVALID_PARAMS"
  | badState => "BAD_STATE"
  | timeout => "FAIL_TIMEOUT"
  | internal => "INTERNAL"

/-- Every code is read back from its number. -/
@[simp]
theorem ofByte_toByte (code : ReturnCode) : ofByte code.toByte = code := by
  cases code <;> rfl

end ReturnCode
end TopicTree
