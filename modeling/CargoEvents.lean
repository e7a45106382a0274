import CargoEvents.Event.Shown
import CargoEvents.Topology.Json
import CargoEvents.Error
import CargoEvents.Broker.Message
import CargoEvents.Simulation.Report
import CargoEvents.Main
import CargoEvents.Proofs.Broker.Ledger
import CargoEvents.Proofs.Bus.Delivery
import CargoEvents.Proofs.Tracking.Overtaking
import CargoEvents.Proofs.Bus.Lives
import CargoEvents.Proofs.Tracking.Redelivery
import CargoEvents.Proofs.Tracking.Following
import CargoEvents.Proofs.Wire.Grammar
import CargoEvents.Proofs.Wire.Records
import CargoEvents.Proofs.Wire.Skew
import CargoEvents.Proofs.Event.Skew
import CargoEvents.Proofs.Bus.Moments
import CargoEvents.Proofs.Bus.Stories
import CargoEvents.Proofs.Broker.Contents
import CargoEvents.Proofs.Bus.Lookup
import CargoEvents.Proofs.Broker.Shutting
import CargoEvents.Proofs.Bus.Closing
import CargoEvents.Proofs.Bus.Lifecycle
import CargoEvents.Proofs.Bus.Serial
import CargoEvents.Proofs.Bus.Splitting
import CargoEvents.Proofs.Bus.Counting
import CargoEvents.Proofs.Bus.Restoring
import CargoEvents.Proofs.Bus.Accounts
import CargoEvents.Proofs.Amqp.Echo
import CargoEvents.Proofs.Amqp.Secrecy
import CargoEvents.Proofs.Broker.Deleting
import CargoEvents.Proofs.Tracking.Views
import CargoEvents.Proofs.Tracking.History
import CargoEvents.Proofs.Tracking.Outcomes
import CargoEvents.Proofs.Tracking.Commuting
import CargoEvents.Proofs.Broker.Returning
import CargoEvents.Proofs.Broker.Lines
import CargoEvents.Proofs.Broker.Refusing
import CargoEvents.Proofs.Broker.Redelivering
import CargoEvents.Proofs.Broker.Limits
import CargoEvents.Proofs.Broker.Cancelling
import CargoEvents.Proofs.Broker.Streams
import CargoEvents.Proofs.Broker.Ended
import CargoEvents.Proofs.Calendar.Timestamps
import CargoEvents.Proofs.Wire.Merging
import CargoEvents.Proofs.Event.Merging
import CargoEvents.Proofs.Wire.Cutting
import CargoEvents.Proofs.Event.Truncation
import CargoEvents.Proofs.Config.Blanks
import CargoEvents.Proofs.Amqp.Redacting
import CargoEvents.Proofs.Bus.Totals
import CargoEvents.Proofs.Broker.Parting
import CargoEvents.Proofs.Tracking.Documents
import CargoEvents.Proofs.Registry
