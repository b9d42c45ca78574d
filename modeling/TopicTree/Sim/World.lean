import TopicTree.Sim.Clock
import TopicTree.Sim.Media
import TopicTree.Site.Tick

/-!
# Worlds

A world is two trees joined by one faulty wire. The hub has a service that echoes, the hub end of
the link, and maybe a bridge with a client. The device has a local root that answers pings and a
sensor below it. The world keeps account of all that the two trees report.
-/

namespace TopicTree

/-- What a world is made from. -/
structure WorldConfig where
  /-- The seed of all chance. -/
  seed : UInt64
  /-- The name that the device proposes for itself. -/
  localRoot : String
  /-- The number of slots in the pool of each tree. -/
  poolSize : Nat
  /-- How long requests wait for their responses. -/
  timeout : Nat
  /-- The time between two attempts to have the link named. -/
  interval : Nat
  /-- The longest client identifier that the bridge accepts, if there is a bridge. -/
  bridge : Option Nat

/-- The two trees of a world. -/
inductive Party
  | hub
  | device
  deriving DecidableEq, Repr

/-- How a request went, and when that was known. -/
structure Receipt where
  code : ReturnCode
  params : Params
  time : Nat
  deriving DecidableEq, Repr

/-- A tree of a world, and what it has reported. -/
structure Camp where
  tree : Tree
  pool : Pool
  /-- The outcomes of the requests made here, in order. -/
  receipts : List Receipt
  /-- How often the listener of the link was told that it came up. -/
  linkEvents : Nat
  /-- How often the guard of the bridge was asked. -/
  guardCalls : Nat

/-- Two trees and the wires between them. -/
structure World (G : Type := Draws) where
  clock : Clock
  media : Media G
  hub : Camp
  device : Camp
  /-- The requests that the trees refused to send. -/
  rejected : Nat
  /-- Bytes at the client that do not make a frame yet. -/
  clientBuffer : Bytes
  /-- The frames that the client has received. -/
  clientFrames : List Frame
  /-- Slots of the device's pool that are held from outside. -/
  held : List Nat

/-! ## The two trees -/

namespace Hub

/-- The place of the top. -/
abbrev root : Nat := 0

/-- The place of the service. -/
abbrev service : Nat := 1

/-- The place of the hub end of the link. -/
abbrev uplink : Nat := 2

/-- The place of the bridge, if there is one. -/
abbrev bridge : Nat := 3

/-- Adds the bridge of the hub, if it is to have one. Everybody may connect. -/
def addBridge (tree : Tree) : Option Nat → Except Error Tree
  | none => .ok tree
  | some maxClientId => do
    let (id, tree) ← tree.addBridge root "mqtt" Media.bridgeSocket maxClientId
    tree.setGuard id fun _ _ => true

/-- The tree of the hub. -/
def build (config : WorldConfig) : Except Error Tree := do
  let (top, tree) ← (Tree.empty config.timeout).addRoot "hub"
  let (service, tree) ← tree.addNode top "svc"
  let tree ← tree.addMethod service "echo" Handler.echo
  let (uplink, tree) ← tree.addUplink top Media.hubSocket config.interval
  let tree ← tree.addListener uplink "hub"
  addBridge tree config.bridge

end Hub

namespace Device

/-- The place of the device end of the link. -/
abbrev downlink : Nat := 0

/-- The place of the local root. -/
abbrev localRoot : Nat := 1

/-- The place of the sensor. -/
abbrev sensor : Nat := 2

/-- The tree of the device. -/
def build (config : WorldConfig) : Except Error Tree := do
  let (downlink, localRoot, tree) ←
    (Tree.empty config.timeout).addDownlink Media.deviceSocket config.localRoot config.interval
  let tree ← tree.addMethod localRoot "ping" fun _ _ => Handler.sayText "pong"
  let (sensor, tree) ← tree.addNode localRoot "sensor"
  let tree ← tree.addMethod sensor "read" fun _ _ => Handler.sayText "42"
  tree.addListener downlink "device"

end Device

namespace Camp

/-- A tree that has reported nothing. -/
def ofTree (tree : Tree) (poolSize : Nat) : Camp :=
  ⟨tree, Pool.ofSize poolSize, [], 0, 0⟩

/-- Takes account of one event. -/
def hear (time : Nat) (camp : Camp) : Event → Camp
  | .replied _ code params => { camp with receipts := camp.receipts ++ [⟨code, params, time⟩] }
  | .linkUp _ => { camp with linkEvents := camp.linkEvents + 1 }
  | .asked .. => { camp with guardCalls := camp.guardCalls + 1 }
  | .wrote .. => camp
  | .writeFailed .. => camp
  | .called .. => camp

end Camp

namespace World

/-- A world at its start, with a generator at each end of the link and of the wire to the client. -/
def buildWith {G : Type} (link client : Side → G) (config : WorldConfig) :
    Except Error (World G) := do
  let hub ← Hub.build config
  let device ← Device.build config
  let media := ⟨FaultyWire.fresh link, config.bridge.map fun _ => FaultyWire.fresh client⟩
  return ⟨Clock.start, media, Camp.ofTree hub config.poolSize,
    Camp.ofTree device config.poolSize, 0, [], [], []⟩

/-- The distance between the seeds of the link and of the wire to the client. -/
abbrev clientSeedOffset : UInt64 := 100

/-- A world at its start, with the streams of its seed. -/
def build (config : WorldConfig) : Except Error World :=
  buildWith (Draws.ofSeeds config.seed) (Draws.ofSeeds (config.seed + clientSeedOffset)) config

/-! ## Acting -/

variable {G : Type}

/-- One of the two trees. -/
def camp (world : World G) : Party → Camp
  | .hub => world.hub
  | .device => world.device

/-- Replaces one of the two trees. -/
def setCamp (world : World G) : Party → Camp → World G
  | .hub, hub => { world with hub }
  | .device, device => { world with device }

/-- A tree as a site at which nothing has happened yet. -/
def siteOf (world : World G) (party : Party) : Site (Media G) :=
  ⟨(world.camp party).tree, (world.camp party).pool, world.media, []⟩

/-- Puts a site back where its tree stands, and takes account of what happened there. -/
def putBack (world : World G) (party : Party) (site : Site (Media G)) : World G :=
  let camp := { world.camp party with tree := site.tree, pool := site.pool }
  ({ world with media := site.medium }).setCamp party
    (site.log.foldl (Camp.hear world.clock.now) camp)

/-- Advances a tree to the present. -/
def tick [Chance G] (world : World G) (party : Party) : World G :=
  world.putBack party ((world.siteOf party).tick world.clock.now)

/-- Takes in what has arrived at the client. -/
def collect (world : World G) : World G :=
  match world.media.client with
  | none => world
  | some client =>
    let (bytes, client) := client.drain .right
    let (frames, rest) := Frame.decodeAll (world.clientBuffer ++ bytes)
    { world with
      media := { world.media with client := some client }
      clientBuffer := rest
      clientFrames := world.clientFrames ++ frames }

/-- Whether no byte waits for one of the trees. -/
def isQuiet (world : World G) : Bool :=
  world.media.link.pending .left = 0 && world.media.link.pending .right = 0
    && world.media.client.all (·.pending .left = 0)

/-- The place from which a tree makes its requests. -/
def caller : Party → Nat
  | .hub => Hub.service
  | .device => Device.sensor

/-- Counts a request that was not sent. -/
def reject (world : World G) : World G :=
  { world with rejected := world.rejected + 1 }

/-- The parameters of a request: one text field, or nothing if the text is empty. -/
def requestParams (argument : String) : Except Error Params :=
  if argument = "" then .ok Params.empty else Params.ofText argument

/-- Makes a request. One that is refused is counted. -/
def request [Chance G] (world : World G) (party : Party) (method path argument : String) :
    World G :=
  match (do
    let params ← requestParams argument
    (world.siteOf party).execute (caller party) method path params world.clock.now "") with
  | .error _ => world.reject
  | .ok (_, site) => world.putBack party site

/-- Holds up to `count` more slots of the device's pool. -/
def hold (world : World G) (count : Nat) : World G :=
  let (slots, pool) := world.device.pool.acquireUpTo count
  { world with device := { world.device with pool }, held := world.held ++ slots }

/-- Gives back all slots that are held. -/
def letGo (world : World G) : World G :=
  { world with
    device := { world.device with pool := world.device.pool.releaseAll world.held }
    held := [] }

end World
end TopicTree
