import InvoiceHub.Effects.Prog
import InvoiceHub.Effects.Logic
import InvoiceHub.Effects.Pool
import InvoiceHub.Effects.Exclusive
import InvoiceHub.Effects.Trace
import InvoiceHub.Effects.Run
import InvoiceHub.Effects.Guard
import InvoiceHub.Effects.Hereditary
import InvoiceHub.Effects.Relational
import InvoiceHub.Domain.Json
import InvoiceHub.Domain.Enums
import InvoiceHub.Domain.Transaction
import InvoiceHub.Transaction.Calls
import InvoiceHub.Transaction.Coordinator
import InvoiceHub.Transaction.Records
import InvoiceHub.Transaction.Cluster
import InvoiceHub.Transaction.Law
import InvoiceHub.Transaction.Lawful
import InvoiceHub.Transaction.Origin
import InvoiceHub.Transaction.Saga
import InvoiceHub.Transaction.Refinement
import InvoiceHub.Transaction.Shape
import InvoiceHub.Transaction.Outcome
import InvoiceHub.Transaction.Final
import InvoiceHub.Transaction.Commands
import InvoiceHub.Transaction.Serial
import InvoiceHub.Transaction.Lifecycle
import InvoiceHub.Transaction.OwnMessages
import InvoiceHub.Transaction.Monotone
import InvoiceHub.Transaction.Replica
import InvoiceHub.Transaction.Unfailed
import InvoiceHub.Transaction.Causes
import InvoiceHub.Transaction.Timeless
import InvoiceHub.Transaction.Locality
import InvoiceHub.Transaction.Independence
import InvoiceHub.Transaction.Bounds
import InvoiceHub.Services.Database
import InvoiceHub.Services.OrderService
import InvoiceHub.Services.InvoiceService
import InvoiceHub.Services.Jobs
import InvoiceHub.Platform.Platform
import InvoiceHub.Platform.Hub
import InvoiceHub.Platform.Components
import InvoiceHub.Platform.Orders
import InvoiceHub.Platform.Messages
import InvoiceHub.Platform.Invoices
import InvoiceHub.Platform.Isolation
import InvoiceHub.Platform.Deliveries
import InvoiceHub.Platform.Ledger
import InvoiceHub.Platform.Reliable
import InvoiceHub.Platform.Progress
import InvoiceHub.Platform.Completion
import InvoiceHub.Platform.Agreement
import InvoiceHub.Platform.Approval
import InvoiceHub.Platform.Compensation
import InvoiceHub.Transaction.Compensating
import InvoiceHub.Transaction.Overdue
import InvoiceHub.Transaction.Redelivery
import InvoiceHub.Kafka.Correlation
import InvoiceHub.Cache.Races
import InvoiceHub.Cache.Transparency
import InvoiceHub.Services.Creation
import InvoiceHub.Services.Replies
import InvoiceHub.Transaction.Once
import InvoiceHub.Transaction.Notification
import InvoiceHub.Transaction.Readable
import InvoiceHub.Loader.Orders
import InvoiceHub.Loader.Reload
import InvoiceHub.Kafka.Subscription
import InvoiceHub.Kafka.Retry
import InvoiceHub.Kafka.Shutdown
import InvoiceHub.Query.Conditions
import InvoiceHub.Transaction.Guarded
import InvoiceHub.Services.Reports
import InvoiceHub.Effects.Log
import InvoiceHub.Transaction.Passive
import InvoiceHub.Transaction.Turns
import InvoiceHub.Transaction.Expiry
import InvoiceHub.Transaction.Waiting
import InvoiceHub.Transaction.Checker
import InvoiceHub.Platform.Warranted
import InvoiceHub.Fetch.Payloads
import InvoiceHub.Cache.Staleness
import InvoiceHub.Lifecycle.Ending
import InvoiceHub.Kafka.Timeouts
import InvoiceHub.Auth.Admission
import InvoiceHub.Platform.Subscribed
