import WaOps.Realtime.Broker
import WaOps.Realtime.Effects
import WaOps.Realtime.Isolation
import WaOps.Realtime.Delivery
import WaOps.Lib.Feed
import WaOps.Realtime.Retained
import WaOps.Realtime.Client
import WaOps.Realtime.Cursor
import WaOps.Agent.Buffer
import WaOps.Agent.Session
import WaOps.Agent.AckSafety
import WaOps.Agent.Effects
import WaOps.Agent.OneJob
import WaOps.Agent.Lifetimes
import WaOps.Agent.Bounds
import WaOps.Agent.Counters
import WaOps.Agent.Payload
import WaOps.Contracts.AgentProtocol
import WaOps.Gateway.State
import WaOps.Gateway.Effects
import WaOps.Gateway.Enrollment
import WaOps.Gateway.Revocation
import WaOps.Incidents.Effects
import WaOps.Incidents.Duplicates
import WaOps.Incidents.Redelivery
import WaOps.Rules.Worker
import WaOps.Rules.OwnView
import WaOps.Rules.TenantBlind
import WaOps.Lib.Scoped
import WaOps.Lib.Tables
import WaOps.Api.Store
import WaOps.Api.Schemas
import WaOps.Api.Controllers
import WaOps.Api.Tickets
import WaOps.Api.Confined
import WaOps.Api.Isolation
import WaOps.Lib.TokenBucket
import WaOps.RateLimit.Script
import WaOps.RateLimit.Window
import WaOps.RateLimit.Retry
import WaOps.RateLimit.Skew
import WaOps.Outbox.State
import WaOps.Outbox.Effects
import WaOps.Outbox.Verdicts
import WaOps.Outbox.Attempts
import WaOps.Incidents.Stamps
import WaOps.Api.Transitions
import WaOps.Auth.Tokens
import WaOps.Auth.Controller
import WaOps.Auth.Separation
import WaOps.Agent.Collector
import WaOps.Agent.Scheduler
import WaOps.Lib.Lines
import WaOps.Realtime.Wire
import WaOps.Contracts.EventEnvelope
import WaOps.Contracts.Schemas
import WaOps.Contracts.Parity
import WaOps.Lib.Programs
import WaOps.Api.Mutations
import WaOps.Api.Failures
import WaOps.Gateway.Credentials
import WaOps.Lib.Tallies
import WaOps.Rules.Window
import WaOps.Rules.SharedCounts
import WaOps.Rules.Fallback
import WaOps.Incidents.Absorbed
import WaOps.Incidents.Notifications
import WaOps.Lib.Hex
import WaOps.Lib.JsNumber
import WaOps.Notify.Webhook
import WaOps.Notify.Binding
import WaOps.Lib.Remote
import WaOps.Notify.Dispatch
import WaOps.Gateway.Events
import WaOps.Api.Answers
import WaOps.Api.Numbering
import WaOps.Lib.Interleaving
import WaOps.Gateway.Quota
import WaOps.Api.References
import WaOps.Contracts.Fingerprint
import WaOps.Entitlements.Usage
import WaOps.Lib.Recent
import WaOps.Realtime.Leaks
import WaOps.Realtime.Repeats
import WaOps.Inventory.Identity
import WaOps.Inventory.Containers
import WaOps.Api.Window
import WaOps.Api.Buckets
import WaOps.Realtime.Lifecycle
import WaOps.Agent.Backoff
import WaOps.Gateway.RateLimited
import WaOps.Lib.Expiring
import WaOps.RateLimit.Stats
import WaOps.Events.Redis
import WaOps.Auth.Renewal
import WaOps.Api.Filesystems
import WaOps.Api.Rollup
import WaOps.Api.Audit
import WaOps.Api.Links
import WaOps.Api.Outages
import WaOps.Server.Pipeline
import WaOps.Server.Effects
import WaOps.Server.Authority
import WaOps.Server.Accountability
import WaOps.Server.Isolation
import WaOps.Server.Admission
import WaOps.Lib.Replay
import WaOps.Incidents.Replay
import WaOps.Lib.Fields
import WaOps.Agent.Proc
import WaOps.Lib.Strconv
import WaOps.Agent.Readings
import WaOps.Api.Reads
import WaOps.Api.Peaks
import WaOps.Api.Errors
import WaOps.Web.Client
import WaOps.Lib.Errors
import WaOps.Server.Refusals
import WaOps.Web.Once
import WaOps.Ingest.Pipeline
import WaOps.Ingest.Accounting
