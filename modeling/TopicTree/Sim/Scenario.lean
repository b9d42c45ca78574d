import TopicTree.Sim.World

/-!
# Scenarios

A scenario is a list of steps to take in a world. After it the world is quiet only if a step made it
so: settling ticks both trees until no byte is in flight.
-/

namespace TopicTree

/-- Something done to a world. -/
inductive Step
  /-- Ticks both trees until no byte is in flight. -/
  | settle
  /-- Moves the clock, then settles. -/
  | advance (ms : Nat)
  /-- Makes a request. -/
  | request (party : Party) (method path argument : String)
  /-- Sends a notification from the sensor. -/
  | notify (name : String) (data : Bytes)
  /-- Sends a frame from the client of the bridge. -/
  | clientSend (frame : Frame)
  /-- Sends a frame to the device past the hub. -/
  | injectToDevice (frame : Frame)
  /-- Sets the rate at which the writes of a tree are lost. -/
  | dropRate (party : Party) (rate : Rate)
  /-- Sets the rate at which the writes of a tree are changed. -/
  | corruptRate (party : Party) (rate : Rate)
  /-- Holds slots of the device's pool. -/
  | hold (count : Nat)
  /-- Gives the held slots back. -/
  | release

/-- Why a step failed. -/
inductive StepFailure
  /-- Bytes were still in flight after all rounds. -/
  | unsettled
  /-- There is no bridge for a client. -/
  | noBridge
  /-- A tree refused. -/
  | refused (cause : Error)
  deriving DecidableEq, Repr

namespace World

variable {G : Type}

/-- The rounds in which a world has to settle. -/
abbrev maxRounds : Nat := 256

/-- The end of the link that a tree holds. -/
def sideOf : Party → Side
  | .hub => .left
  | .device => .right

/-- Changes the end of the link that a tree holds. -/
def modifyEnd (world : World G) (party : Party) (change : WireEnd G → WireEnd G) : World G :=
  { world with
    media := { world.media with link := world.media.link.modify (sideOf party) change } }

/-- Ticks both trees, the device first, in at most so many rounds. -/
def settleIn [Chance G] : (rounds : Nat) → World G → Except StepFailure (World G)
  | 0, _ => .error .unsettled
  | rounds + 1, world =>
    let after := ((world.tick .device).tick .hub).collect
    if after.isQuiet then .ok after else settleIn rounds after

/-- Ticks both trees until no byte is in flight. -/
def settle [Chance G] (world : World G) : Except StepFailure (World G) :=
  settleIn maxRounds world

/-- Sends a notification from the sensor, with the lowest delivery class. -/
def notify [Chance G] (world : World G) (name : String) (data : Bytes) :
    Except StepFailure (World G) :=
  match (world.siteOf .device).notify Device.sensor name .atMostOnce data with
  | (.error e, _) => .error (.refused e)
  | (.ok (), site) => .ok (world.putBack .device site)

/-- Sends a frame from the client of the bridge. -/
def clientSend (world : World G) (frame : Frame) : Except StepFailure (World G) :=
  match world.media.client with
  | none => .error .noBridge
  | some client =>
    let client := some (client.inject .right frame.encode)
    .ok { world with media := { world.media with client } }

/-- Sends a frame to the device past the hub. -/
def injectToDevice (world : World G) (frame : Frame) : World G :=
  { world with
    media := { world.media with link := world.media.link.inject .left frame.encode } }

/-- Takes one step. -/
def take [Chance G] (world : World G) : Step → Except StepFailure (World G)
  | .settle => world.settle
  | .advance ms => ({ world with clock := world.clock.advance ms }).settle
  | .request party method path argument => .ok (world.request party method path argument)
  | .notify name data => world.notify name data
  | .clientSend frame => world.clientSend frame
  | .injectToDevice frame => .ok (world.injectToDevice frame)
  | .dropRate party dropRate => .ok (world.modifyEnd party fun e => { e with dropRate })
  | .corruptRate party corruptRate => .ok (world.modifyEnd party fun e => { e with corruptRate })
  | .hold count => .ok (world.hold count)
  | .release => .ok world.letGo

end World

/-- The wording of each failure. -/
def StepFailure.message : StepFailure → String
  | unsettled => s!"world did not settle within {World.maxRounds} rounds"
  | noBridge => "scenario has no bridge"
  | refused cause => cause.message

/-- Why a scenario failed. -/
inductive ScenarioFailure
  /-- The world could not be built. -/
  | notBuilt (cause : Error)
  /-- A step failed; steps are counted from 0. -/
  | atStep (index : Nat) (cause : StepFailure)
  deriving DecidableEq, Repr

/-- The wording of each failure. -/
def ScenarioFailure.message : ScenarioFailure → String
  | notBuilt cause => cause.message
  | atStep index cause => s!"step {index}: {cause.message}"

/-- What to do in which world. -/
structure Scenario where
  config : WorldConfig
  steps : List Step

/-- Takes steps in order, the first of which has the number `index`. -/
def World.takeAll {G : Type} [Chance G] (world : World G) (index : Nat) :
    List Step → Except ScenarioFailure (World G)
  | [] => .ok world
  | step :: steps =>
    match world.take step with
    | .error cause => .error (.atStep index cause)
    | .ok after => after.takeAll (index + 1) steps

/-- Builds the world and takes all steps. -/
def Scenario.run (scenario : Scenario) : Except ScenarioFailure World :=
  match World.build scenario.config with
  | .error cause => .error (.notBuilt cause)
  | .ok world => world.takeAll 0 scenario.steps

end TopicTree
