import TopicTree.Address.Filter
import TopicTree.Address.Name
import TopicTree.Address.Path
import TopicTree.Channel.Basic
import TopicTree.Channel.ByteStream
import TopicTree.Channel.Medium
import TopicTree.Channel.Script
import TopicTree.Error
import TopicTree.Limits
import TopicTree.Message.Envelope
import TopicTree.Message.Params
import TopicTree.Message.ReturnCode
import TopicTree.Network.Basic
import TopicTree.Network.Cabling
import TopicTree.Packet.Bare
import TopicTree.Packet.ConnAck
import TopicTree.Packet.Connect
import TopicTree.Packet.Field
import TopicTree.Packet.Publish
import TopicTree.Packet.Subscribe
import TopicTree.Pool
import TopicTree.Proofs.Address.Filters
import TopicTree.Proofs.Address.Leads
import TopicTree.Proofs.Address.Names
import TopicTree.Proofs.Address.Parts
import TopicTree.Proofs.Address.Rereading
import TopicTree.Proofs.Address.Retracing
import TopicTree.Proofs.Address.Text
import TopicTree.Proofs.Buffers
import TopicTree.Proofs.Channel.Stream
import TopicTree.Proofs.Channel.Watch
import TopicTree.Proofs.Message.Capacity
import TopicTree.Proofs.Message.Fields
import TopicTree.Proofs.Message.Layout
import TopicTree.Proofs.Message.RoundTrip
import TopicTree.Proofs.Network.Aside
import TopicTree.Proofs.Network.Docking
import TopicTree.Proofs.Network.Exchange
import TopicTree.Proofs.Network.Joining
import TopicTree.Proofs.Network.Provisioning
import TopicTree.Proofs.Network.Sockets
import TopicTree.Proofs.Network.Transparency
import TopicTree.Proofs.Outcome
import TopicTree.Proofs.Packet.Connect
import TopicTree.Proofs.Packet.Publish
import TopicTree.Proofs.Packet.Rewriting
import TopicTree.Proofs.Packet.Row
import TopicTree.Proofs.Packet.Subscribe
import TopicTree.Proofs.Packet.Typed
import TopicTree.Proofs.Pool.Handles
import TopicTree.Proofs.Pool.Restored
import TopicTree.Proofs.Pool.Tally
import TopicTree.Proofs.Routing.Addressing
import TopicTree.Proofs.Routing.Answer
import TopicTree.Proofs.Routing.Bound
import TopicTree.Proofs.Routing.Crossing
import TopicTree.Proofs.Routing.Fidelity
import TopicTree.Proofs.Routing.Fitting
import TopicTree.Proofs.Routing.Graft
import TopicTree.Proofs.Routing.Homing
import TopicTree.Proofs.Routing.Journey
import TopicTree.Proofs.Routing.Malformed
import TopicTree.Proofs.Routing.Passage
import TopicTree.Proofs.Routing.Publication
import TopicTree.Proofs.Routing.Step
import TopicTree.Proofs.Routing.Walk
import TopicTree.Proofs.Sim.Accounts
import TopicTree.Proofs.Sim.ClientLog
import TopicTree.Proofs.Sim.Fate
import TopicTree.Proofs.Sim.Wires
import TopicTree.Proofs.Site.Acceptance
import TopicTree.Proofs.Site.Adoption
import TopicTree.Proofs.Site.Asking
import TopicTree.Proofs.Site.Attempts
import TopicTree.Proofs.Site.Beside
import TopicTree.Proofs.Site.Change
import TopicTree.Proofs.Site.Dues
import TopicTree.Proofs.Site.Gate
import TopicTree.Proofs.Site.Ids
import TopicTree.Proofs.Site.Interception
import TopicTree.Proofs.Site.Issue
import TopicTree.Proofs.Site.Lasting
import TopicTree.Proofs.Site.Ledger
import TopicTree.Proofs.Site.Links
import TopicTree.Proofs.Site.Listeners
import TopicTree.Proofs.Site.Lockstep
import TopicTree.Proofs.Site.Mirror
import TopicTree.Proofs.Site.Naming
import TopicTree.Proofs.Site.Pace
import TopicTree.Proofs.Site.Reachable
import TopicTree.Proofs.Site.Refusal
import TopicTree.Proofs.Site.Reply
import TopicTree.Proofs.Site.Reserve
import TopicTree.Proofs.Site.Run
import TopicTree.Proofs.Site.Session
import TopicTree.Proofs.Site.Shape
import TopicTree.Proofs.Site.Slots
import TopicTree.Proofs.Site.Spread
import TopicTree.Proofs.Site.Steps
import TopicTree.Proofs.Site.Subscriptions
import TopicTree.Proofs.Site.Succession
import TopicTree.Proofs.Site.Table
import TopicTree.Proofs.Site.Traffic
import TopicTree.Proofs.Site.Waits
import TopicTree.Proofs.Slots
import TopicTree.Proofs.Tree.Asker
import TopicTree.Proofs.Tree.Build
import TopicTree.Proofs.Tree.Core
import TopicTree.Proofs.Tree.Growth
import TopicTree.Proofs.Tree.Ids
import TopicTree.Proofs.Tree.InPlace
import TopicTree.Proofs.Tree.Outline
import TopicTree.Proofs.Tree.Pending
import TopicTree.Proofs.Tree.Update
import TopicTree.Proofs.Tree.Waiting
import TopicTree.Proofs.Tree.WellFormed
import TopicTree.Proofs.Wire.Frame
import TopicTree.Proofs.Wire.Length
import TopicTree.Proofs.Wire.OneShot
import TopicTree.Proofs.Wire.Sink
import TopicTree.Proofs.Wire.Stages
import TopicTree.Proofs.Wire.Stream
import TopicTree.Sim.ChaCha
import TopicTree.Sim.Chance
import TopicTree.Sim.Clock
import TopicTree.Sim.Draws
import TopicTree.Sim.Expectation
import TopicTree.Sim.FaultyWire
import TopicTree.Sim.Media
import TopicTree.Sim.Scenario
import TopicTree.Sim.World
import TopicTree.Site.Basic
import TopicTree.Site.Client
import TopicTree.Site.FanOut
import TopicTree.Site.Provision
import TopicTree.Site.Request
import TopicTree.Site.Route
import TopicTree.Site.Tick
import TopicTree.Text.Bounded
import TopicTree.Text.Level
import TopicTree.Text.Quoted
import TopicTree.Text.Utf8
import TopicTree.Tree.Basic
import TopicTree.Tree.Build
import TopicTree.Tree.Endpoint
import TopicTree.Tree.Handler
import TopicTree.Wire.Decoder
import TopicTree.Wire.Delivery
import TopicTree.Wire.Error
import TopicTree.Wire.Frame
import TopicTree.Wire.Length
import TopicTree.Wire.PacketType
