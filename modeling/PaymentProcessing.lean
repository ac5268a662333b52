import PaymentProcessing.Foundations.Effects.Machine
import PaymentProcessing.Foundations.Effects.Termination
import PaymentProcessing.Foundations.Store.Table
import PaymentProcessing.Foundations.Store.Journal
import PaymentProcessing.Foundations.Python.Decimal
import PaymentProcessing.Foundations.Python.JsonOrder
import PaymentProcessing.Foundations.Python.Uuid
import PaymentProcessing.Domain.Fingerprint
import PaymentProcessing.Broker.Topology
import PaymentProcessing.System.World
import PaymentProcessing.Broker.Consumer
import PaymentProcessing.Outbox.Relay
import PaymentProcessing.Services.PaymentService
import PaymentProcessing.System.ApiProtocol
import PaymentProcessing.System.RelayProtocol
import PaymentProcessing.System.ConsumerProtocol
import PaymentProcessing.System.LifeCycle
import PaymentProcessing.System.Service
import PaymentProcessing.System.Knowledge
import PaymentProcessing.System.Invariant
import PaymentProcessing.System.Trace
import PaymentProcessing.System.Books
import PaymentProcessing.System.Totals
import PaymentProcessing.System.History
import PaymentProcessing.System.Pairs
import PaymentProcessing.System.Copies
import PaymentProcessing.System.Calm
import PaymentProcessing.System.Progress
import PaymentProcessing.Properties.Records
import PaymentProcessing.Properties.Charging
import PaymentProcessing.Properties.Notification
import PaymentProcessing.Properties.Publication
import PaymentProcessing.Properties.Acceptance
import PaymentProcessing.Properties.Routing
import PaymentProcessing.Properties.Conservation
import PaymentProcessing.Properties.Pipeline
import PaymentProcessing.Foundations.Effects.Execution
import PaymentProcessing.Foundations.Store.Column
import PaymentProcessing.Api.Request
import PaymentProcessing.System.Live
import PaymentProcessing.System.Batch
import PaymentProcessing.Properties.Schedule
import PaymentProcessing.Properties.Amounts
import PaymentProcessing.Properties.Settlement
import PaymentProcessing.Properties.Isolation
import PaymentProcessing.Foundations.Store.Drain
import PaymentProcessing.Properties.Answers
import PaymentProcessing.Properties.Draining
import PaymentProcessing.Foundations.Python.Float
import PaymentProcessing.Foundations.Python.JsonText
import PaymentProcessing.Api.Body
import PaymentProcessing.Properties.Storage
import PaymentProcessing.Properties.Notation
import PaymentProcessing.Foundations.Effects.Declaring
import PaymentProcessing.Broker.Setup
import PaymentProcessing.Properties.Startup
import PaymentProcessing.System.Recovery
import PaymentProcessing.Properties.Recovery
import PaymentProcessing.Foundations.Effects.Atomic
import PaymentProcessing.Properties.Linearization
import PaymentProcessing.Foundations.Effects.Completion
import PaymentProcessing.System.Waiting
import PaymentProcessing.Properties.Completion
import PaymentProcessing.Api.Routes
import PaymentProcessing.System.Front
import PaymentProcessing.Properties.Archive
import PaymentProcessing.Properties.Sessions
import PaymentProcessing.System.Deployment
import PaymentProcessing.Properties.Deployment
import PaymentProcessing.Properties.Shutdown
import PaymentProcessing.System.Timed
import PaymentProcessing.Properties.Delays
import PaymentProcessing.Domain.Gateway
import PaymentProcessing.Properties.Gateway
import PaymentProcessing.Foundations.Effects.Tally
import PaymentProcessing.System.Tariff
import PaymentProcessing.Properties.Effort
import PaymentProcessing.Properties.Provenance
import PaymentProcessing.Foundations.Effects.Exclusive
import PaymentProcessing.Db.Schema
import PaymentProcessing.Db.Migrations
import PaymentProcessing.Properties.Migrations
import PaymentProcessing.Properties.Schema
