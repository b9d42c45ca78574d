import TopicTree.Sim.World

/-!
# Expectations

What has to hold of a world when its scenario is over. An expectation that is not met says what it
found instead.
-/

namespace TopicTree

/-- What has to hold of a world. -/
inductive Expectation
  /-- Both ends of the link are up, and each listener was told once. -/
  | linkProvisioned
  /-- Nobody waits for a response. -/
  | nothingPending
  /-- Every slot that is not held is free. -/
  | poolsDrained
  /-- The requests of a tree had exactly these outcomes, in order. -/
  | codes (party : Party) (expected : List ReturnCode)
  /-- Each of some expectations. -/
  | all (parts : List Expectation)

/-- What was found instead. -/
inductive Shortfall
  | deviceNotProvisioned
  | hubUnnamed
  | listeners (device hub : Nat)
  | pending (count : Nat)
  | hubPool (free capacity : Nat)
  | devicePool (free capacity held : Nat)
  | codes (party : Party) (found expected : List ReturnCode)
  deriving DecidableEq, Repr

namespace Shortfall

/-- The name of a return code in a list of them. -/
def codeName : ReturnCode → String
  | .success => "Success"
  | .malformedPath => "MalformedPath"
  | .noSuchNode => "NodeDne"
  | .noSuchMethod => "MethodDne"
  | .invalidParams => "InvalidParams"
  | .badState => "BadState"
  | .timeout => "FailTimeout"
  | .internal => "Internal"

/-- A list of return codes. -/
def codeList (codes : List ReturnCode) : String :=
  "[" ++ ", ".intercalate (codes.map codeName) ++ "]"

/-- The name of a tree. -/
def partyName : Party → String
  | .hub => "hub"
  | .device => "device"

/-- The wording of each shortfall. -/
def message : Shortfall → String
  | deviceNotProvisioned => "device link is not provisioned"
  | hubUnnamed => "hub link has no name"
  | listeners device hub => s!"listeners fired device={device} hub={hub}, expected once each"
  | pending count => s!"{count} requests still outstanding"
  | hubPool free capacity => s!"hub pool leaked: {free} of {capacity} free"
  | devicePool free capacity held =>
    s!"device pool leaked: {free} of {capacity} free with {held} held"
  | codes party found expected =>
    partyName party ++ " reply codes " ++ codeList found ++ ", expected " ++ codeList expected

end Shortfall

namespace World

variable {G : Type}

/-- Checks that both ends of the link are up. -/
def checkLink (world : World G) : Except Shortfall Unit :=
  if ¬world.device.tree.isProvisioned Device.downlink then .error .deviceNotProvisioned
  else if world.hub.tree.name? Hub.uplink = none then .error .hubUnnamed
  else if world.device.linkEvents = 1 ∧ world.hub.linkEvents = 1 then .ok ()
  else .error (.listeners world.device.linkEvents world.hub.linkEvents)

/-- The number of responses that the two callers wait for. -/
def pendingCount (world : World G) : Nat :=
  world.hub.tree.pendingCount Hub.service + world.device.tree.pendingCount Device.sensor

/-- Checks that nobody waits for a response. -/
def checkPending (world : World G) : Except Shortfall Unit :=
  if world.pendingCount = 0 then .ok () else .error (.pending world.pendingCount)

/-- Checks that every slot that is not held is free. -/
def checkPools (world : World G) : Except Shortfall Unit :=
  let hub := world.hub.pool
  let device := world.device.pool
  if hub.available ≠ hub.capacity then .error (.hubPool hub.available hub.capacity)
  else if device.available + world.held.length ≠ device.capacity then
    .error (.devicePool device.available device.capacity world.held.length)
  else .ok ()

/-- Checks the outcomes of the requests of a tree. -/
def checkCodes (world : World G) (party : Party) (expected : List ReturnCode) :
    Except Shortfall Unit :=
  let found := (world.camp party).receipts.map (·.code)
  if found = expected then .ok () else .error (.codes party found expected)

mutual

/-- Checks an expectation. -/
def check (world : World G) : Expectation → Except Shortfall Unit
  | .linkProvisioned => world.checkLink
  | .nothingPending => world.checkPending
  | .poolsDrained => world.checkPools
  | .codes party expected => world.checkCodes party expected
  | .all parts => checkEach world parts

/-- Checks expectations in order; the first one that is not met decides. -/
def checkEach (world : World G) : List Expectation → Except Shortfall Unit
  | [] => .ok ()
  | part :: parts => do
    check world part
    checkEach world parts

end

end World
end TopicTree
