import ExchangeNode.Main
import ExchangeNode.Rehearsal.Command
import ExchangeNode.Rehearsal.Peer
import ExchangeNode.Rehearsal.Service
import ExchangeNode.Proofs.IdGenerator.Order
import ExchangeNode.Proofs.Session.Course
import ExchangeNode.Proofs.Session.Heartbeats
import ExchangeNode.Proofs.Session.Revocation
import ExchangeNode.Proofs.Session.Waiting
import ExchangeNode.Proofs.Node.Course
import ExchangeNode.Proofs.Session.Moving
import ExchangeNode.Proofs.Node.Tracking
import ExchangeNode.Proofs.Session.Lull
import ExchangeNode.Proofs.Node.Release
import ExchangeNode.Proofs.Json.Quoted
import ExchangeNode.Proofs.Json.RoundTrip
import ExchangeNode.Proofs.Json.Lawful
import ExchangeNode.Proofs.Timestamp.Calendar
import ExchangeNode.Proofs.IdGenerator.Clock
import ExchangeNode.Proofs.Timestamp.RoundTrip
import ExchangeNode.Proofs.Wire.Message
import ExchangeNode.Proofs.Wire.Framing
import ExchangeNode.Proofs.Wire.Hosting
import ExchangeNode.Proofs.Wire.Conversation
import ExchangeNode.Proofs.Wire.Calls
import ExchangeNode.Proofs.Wire.Streams
import ExchangeNode.Proofs.Session.Sequential
import ExchangeNode.Proofs.Session.Consistency
import ExchangeNode.Proofs.Session.Custody
import ExchangeNode.Proofs.Session.Seeding
import ExchangeNode.Proofs.Session.Succession
import ExchangeNode.Proofs.Session.Solitude
import ExchangeNode.Proofs.Session.Renewal
import ExchangeNode.Proofs.Session.Dormancy
import ExchangeNode.Proofs.Session.Refusal
import ExchangeNode.Proofs.Node.Buses
import ExchangeNode.Proofs.Wire.Sequence
import ExchangeNode.Proofs.Backoff
import ExchangeNode.Proofs.Proposals
import ExchangeNode.Proofs.Node.Origin
import ExchangeNode.Proofs.Node.Closing
import ExchangeNode.Proofs.Node.Standing
import ExchangeNode.Proofs.Session.Stranding
import ExchangeNode.Proofs.Session.Pacing
import ExchangeNode.Proofs.Session.Tally
import ExchangeNode.Proofs.Session.Overflow
import ExchangeNode.Proofs.Session.Reports
import ExchangeNode.Proofs.Node.Denial
import ExchangeNode.Proofs.Session.Tenure
import ExchangeNode.Proofs.CommandLine.Enlisting
import ExchangeNode.Proofs.Session.Unreached
import ExchangeNode.Proofs.Session.Orders
import ExchangeNode.Proofs.Wire.EarlyEnd
import ExchangeNode.Proofs.Wire.Capacity
import ExchangeNode.Proofs.Node.Reception
import ExchangeNode.Proofs.Node.Negotiation
import ExchangeNode.Proofs.Session.Slowing
import ExchangeNode.Proofs.Wire.Serving
import ExchangeNode.Proofs.Wire.Keeping
import ExchangeNode.Proofs.Configuration.Overlay
import ExchangeNode.Proofs.Wire.Restated
