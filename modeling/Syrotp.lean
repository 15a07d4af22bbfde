import Syrotp.Android.Client
import Syrotp.Android.File
import Syrotp.Android.Pairing
import Syrotp.Android.Proofs.CrashSafety
import Syrotp.Android.Proofs.KeyCustody
import Syrotp.Android.Proofs.LostUpdate
import Syrotp.Android.Proofs.Pairing
import Syrotp.Android.Proofs.QueueExits
import Syrotp.Android.Proofs.Stranded
import Syrotp.Android.Queue
import Syrotp.Android.QueueText
import Syrotp.Android.Worker
import Syrotp.Cli.Argv
import Syrotp.Cli.Proofs.Argv
import Syrotp.Cli.Proofs.Redaction
import Syrotp.Cli.Redaction
import Syrotp.Gsm.Client
import Syrotp.Gsm.Modem
import Syrotp.Gsm.Proofs.AuthLatch
import Syrotp.Gsm.Proofs.Framing
import Syrotp.Gsm.Proofs.Keys
import Syrotp.Gsm.Proofs.Listing
import Syrotp.Gsm.Proofs.Provenance
import Syrotp.Gsm.Proofs.QueueExits
import Syrotp.Gsm.Proofs.StationStep
import Syrotp.Gsm.Proofs.Timestamps
import Syrotp.Gsm.Queue
import Syrotp.Gsm.Service
import Syrotp.Gsm.Storage
import Syrotp.Loadtest.Proofs.Workers
import Syrotp.Loadtest.Workers
import Syrotp.Misc.Attempts
import Syrotp.Misc.Base64
import Syrotp.Misc.Calendar
import Syrotp.Misc.Cidr
import Syrotp.Misc.Codec
import Syrotp.Misc.Decimal
import Syrotp.Misc.Digest
import Syrotp.Misc.Double
import Syrotp.Misc.Grouping
import Syrotp.Misc.Html
import Syrotp.Misc.IpLiteral
import Syrotp.Misc.JsText
import Syrotp.Misc.Pattern
import Syrotp.Misc.Percent
import Syrotp.Misc.PlainObject
import Syrotp.Misc.Pool
import Syrotp.Misc.PyText
import Syrotp.Misc.Reporting
import Syrotp.Misc.Retry
import Syrotp.Misc.Rounds
import Syrotp.Misc.Run
import Syrotp.Misc.Simulation
import Syrotp.Misc.Spelling
import Syrotp.Misc.Table
import Syrotp.Misc.Utf8
import Syrotp.Misc.Windows
import Syrotp.Sdk.Kotlin
import Syrotp.Sdk.Proofs.CancelRetry
import Syrotp.Sdk.Proofs.Cancellation
import Syrotp.Sdk.Proofs.Deadlines
import Syrotp.Sdk.Proofs.Decoding
import Syrotp.Sdk.Proofs.RetryBudget
import Syrotp.Sdk.Proofs.RetryContract
import Syrotp.Sdk.Proofs.Waiting
import Syrotp.Sdk.Python
import Syrotp.Sdk.PythonRecords
import Syrotp.Sdk.PythonRetry
import Syrotp.Sdk.SharedClient
import Syrotp.Sdk.Swift
import Syrotp.Sdk.Waiting
import Syrotp.Server.AbuseSignals
import Syrotp.Server.AdminAuth
import Syrotp.Server.Aead
import Syrotp.Server.ApiKeys
import Syrotp.Server.CodeCollision
import Syrotp.Server.Deployment
import Syrotp.Server.Edge
import Syrotp.Server.GatewayRequest
import Syrotp.Server.Hmac
import Syrotp.Server.Masks
import Syrotp.Server.Matching
import Syrotp.Server.Metrics
import Syrotp.Server.Migrations
import Syrotp.Server.PhoneBindings
import Syrotp.Server.Platform
import Syrotp.Server.Proofs.AbuseSignals
import Syrotp.Server.Proofs.AddressClass
import Syrotp.Server.Proofs.AdminAuth
import Syrotp.Server.Proofs.ApiKeys
import Syrotp.Server.Proofs.AtRest
import Syrotp.Server.Proofs.Attempts
import Syrotp.Server.Proofs.BindAtomicity
import Syrotp.Server.Proofs.Bindings
import Syrotp.Server.Proofs.CallStep
import Syrotp.Server.Proofs.Calls
import Syrotp.Server.Proofs.Causes
import Syrotp.Server.Proofs.Ceremonies
import Syrotp.Server.Proofs.ChallengeChoice
import Syrotp.Server.Proofs.Challenges
import Syrotp.Server.Proofs.CodeCollision
import Syrotp.Server.Proofs.Completeness
import Syrotp.Server.Proofs.Confinement
import Syrotp.Server.Proofs.CounterRange
import Syrotp.Server.Proofs.Custody
import Syrotp.Server.Proofs.Delivery
import Syrotp.Server.Proofs.Discipline
import Syrotp.Server.Proofs.Edge
import Syrotp.Server.Proofs.Egress
import Syrotp.Server.Proofs.Emissions
import Syrotp.Server.Proofs.HealthViews
import Syrotp.Server.Proofs.Heartbeats
import Syrotp.Server.Proofs.Idempotency
import Syrotp.Server.Proofs.InboundStep
import Syrotp.Server.Proofs.Invariant
import Syrotp.Server.Proofs.Isolation
import Syrotp.Server.Proofs.Lease
import Syrotp.Server.Proofs.Lifecycle
import Syrotp.Server.Proofs.Locality
import Syrotp.Server.Proofs.LockOut
import Syrotp.Server.Proofs.LookupContract
import Syrotp.Server.Proofs.Loss
import Syrotp.Server.Proofs.Masking
import Syrotp.Server.Proofs.Migrations
import Syrotp.Server.Proofs.Parsing
import Syrotp.Server.Proofs.PasskeyCustody
import Syrotp.Server.Proofs.PendingCap
import Syrotp.Server.Proofs.PublicReads
import Syrotp.Server.Proofs.RateBound
import Syrotp.Server.Proofs.Reachable
import Syrotp.Server.Proofs.ReceiverAdmin
import Syrotp.Server.Proofs.Refinement
import Syrotp.Server.Proofs.Registrations
import Syrotp.Server.Proofs.Replay
import Syrotp.Server.Proofs.Reports
import Syrotp.Server.Proofs.Routing
import Syrotp.Server.Proofs.Schedule
import Syrotp.Server.Proofs.Scope
import Syrotp.Server.Proofs.Share
import Syrotp.Server.Proofs.SignCount
import Syrotp.Server.Proofs.Signatures
import Syrotp.Server.Proofs.Soundness
import Syrotp.Server.Proofs.StartStep
import Syrotp.Server.Proofs.Statements
import Syrotp.Server.Proofs.Tenancy
import Syrotp.Server.Proofs.TickStep
import Syrotp.Server.Proofs.VerifiedMetric
import Syrotp.Server.Proofs.WebhookTruth
import Syrotp.Server.Proofs.WorkerLoop
import Syrotp.Server.Proofs.Writes
import Syrotp.Server.RateLimit
import Syrotp.Server.ReceiverAdmin
import Syrotp.Server.Receivers
import Syrotp.Server.Schema
import Syrotp.Server.SsrfGuard
import Syrotp.Server.System
import Syrotp.Server.Transactions
import Syrotp.Server.Verifications
import Syrotp.Server.Webauthn
import Syrotp.Server.WebhookEndpoints
import Syrotp.Server.WebhookWorker
import Syrotp.Server.Webhooks
import Syrotp.Server.WorkerLoop
import Syrotp.Ui.AndroidController
import Syrotp.Ui.Proofs.Countdown
import Syrotp.Ui.Proofs.OneTransition
import Syrotp.Ui.Proofs.SmsLink
import Syrotp.Ui.Proofs.WidgetMarkup
import Syrotp.Ui.SmsLink
import Syrotp.Ui.Verification
import Syrotp.Ui.WebController
import Syrotp.Ui.WidgetMarkup
