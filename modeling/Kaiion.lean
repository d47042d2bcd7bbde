import Kaiion.Client.Configure
import Kaiion.Client.FramedConfiguration
import Kaiion.Durable.AtMostOnce
import Kaiion.Durable.BatchOutput
import Kaiion.Durable.BatchSearch
import Kaiion.Durable.Database
import Kaiion.Durable.Delivery
import Kaiion.Durable.Domain
import Kaiion.Durable.Driver
import Kaiion.Durable.DriverSafety
import Kaiion.Durable.FindBatch
import Kaiion.Durable.Fleet
import Kaiion.Durable.FleetSafety
import Kaiion.Durable.JobStore
import Kaiion.Durable.MigratedJobs
import Kaiion.Durable.OutputAttribution
import Kaiion.Durable.OwnedJobs
import Kaiion.Durable.PermanentFailure
import Kaiion.Durable.Progress
import Kaiion.Durable.Provider
import Kaiion.Durable.Reconciliation
import Kaiion.Durable.Registration
import Kaiion.Durable.Registry
import Kaiion.Durable.RowMachine
import Kaiion.Durable.SoleWriter
import Kaiion.Durable.StoreInvariant
import Kaiion.Durable.Tenancy
import Kaiion.Durable.TypedMigration
import Kaiion.Durable.WorkerContract
import Kaiion.Error
import Kaiion.Foundation.Checked
import Kaiion.Foundation.Choice
import Kaiion.Foundation.Composition
import Kaiion.Foundation.Confinement
import Kaiion.Foundation.Framing
import Kaiion.Foundation.Interleaving
import Kaiion.Foundation.Keyed
import Kaiion.Foundation.Machine
import Kaiion.Foundation.Ordered
import Kaiion.Foundation.Paging
import Kaiion.Foundation.Result
import Kaiion.Foundation.Resumption
import Kaiion.Foundation.Segments
import Kaiion.Foundation.Suspension
import Kaiion.Foundation.Timers
import Kaiion.Foundation.Trace
import Kaiion.Foundation.Walk
import Kaiion.Json.Edit
import Kaiion.Json.Object
import Kaiion.Json.Print
import Kaiion.Json.Value
import Kaiion.Proxy.BatchEntry
import Kaiion.Proxy.BatchStream
import Kaiion.Proxy.Delivered
import Kaiion.Proxy.Explanation
import Kaiion.Proxy.Handler
import Kaiion.Proxy.HandlerRuns
import Kaiion.Proxy.JobAnswers
import Kaiion.Proxy.JobApi
import Kaiion.Proxy.JobPages
import Kaiion.Proxy.JobRuns
import Kaiion.Proxy.JobViews
import Kaiion.Proxy.JobWait
import Kaiion.Proxy.LateFallback
import Kaiion.Proxy.LiveRetries
import Kaiion.Proxy.Preflight
import Kaiion.Proxy.Recovery
import Kaiion.Proxy.Route
import Kaiion.Proxy.ScheduledDirect
import Kaiion.Proxy.SpentKeys
import Kaiion.Proxy.Sse
import Kaiion.Proxy.SseFrames
import Kaiion.Proxy.SseReconstruction
import Kaiion.Proxy.StreamBody
import Kaiion.Proxy.StreamDelivered
import Kaiion.Proxy.UsageTracker
import Kaiion.Proxy.ViewAgreement
import Kaiion.Request.Body
import Kaiion.Request.Compatibility
import Kaiion.Request.Headers
import Kaiion.Request.Identity
import Kaiion.Request.Normalize
import Kaiion.Request.TenantIsolation
import Kaiion.Request.TurnIdentity
import Kaiion.Scheduling.AbortInert
import Kaiion.Scheduling.Acquire
import Kaiion.Scheduling.Changes
import Kaiion.Scheduling.CheckedArithmetic
import Kaiion.Scheduling.Concurrency
import Kaiion.Scheduling.Coupled
import Kaiion.Scheduling.Critical
import Kaiion.Scheduling.Delay
import Kaiion.Scheduling.Dispatch
import Kaiion.Scheduling.Drain
import Kaiion.Scheduling.EarliestFit
import Kaiion.Scheduling.Handoff
import Kaiion.Scheduling.IdlePriority
import Kaiion.Scheduling.Moves
import Kaiion.Scheduling.Ownership
import Kaiion.Scheduling.PacedRate
import Kaiion.Scheduling.Pacing
import Kaiion.Scheduling.Pass
import Kaiion.Scheduling.Pauses
import Kaiion.Scheduling.Policy
import Kaiion.Scheduling.PriorityOrder
import Kaiion.Scheduling.QueueAccounting
import Kaiion.Scheduling.Quota
import Kaiion.Scheduling.Readiness
import Kaiion.Scheduling.Refusal
import Kaiion.Scheduling.Reservations
import Kaiion.Scheduling.RollingQuota
import Kaiion.Scheduling.Section
import Kaiion.Scheduling.Selection
import Kaiion.Scheduling.Slots
import Kaiion.Scheduling.State
import Kaiion.Scheduling.Tasks
import Kaiion.Scheduling.Tracks
import Kaiion.Scheduling.Wakeup
import Kaiion.Scheduling.Withdrawn
import Kaiion.Service.AtomicFile
import Kaiion.Service.Host
import Kaiion.Service.Lifecycle
import Kaiion.Service.PidFile
import Kaiion.Service.Sessions
import Kaiion.Service.SupervisedCommands
import Kaiion.Service.Supervision
import Kaiion.Text
