import RsQuery.Lib.Machine
import RsQuery.Lib.Table
import RsQuery.Lib.Separator
import RsQuery.Watch
import RsQuery.Bus
import RsQuery.Key
import RsQuery.State
import RsQuery.Network
import RsQuery.Options
import RsQuery.Filters
import RsQuery.Client
import RsQuery.Slots
import RsQuery.Invalidation
import RsQuery.Executor
import RsQuery.InFlight
import RsQuery.Runs
import RsQuery.CancellingCalls
import RsQuery.Cancellation
import RsQuery.Waiting
import RsQuery.Dedup
import RsQuery.Stranded
import RsQuery.Lib.FlagGate
import RsQuery.MutationCache
import RsQuery.Mutations
import RsQuery.ScopeGate
import RsQuery.Scopes
import RsQuery.Lib.Line
import RsQuery.Turns
import RsQuery.BusHandles
import RsQuery.WatchHandles
import RsQuery.PageRequests
import RsQuery.Execution
import RsQuery.Entries
import RsQuery.Lifecycle
import RsQuery.Endings
import RsQuery.Relays
import RsQuery.Coalescing
import RsQuery.Hydration
import RsQuery.RoundTrip
import RsQuery.Replicas
import RsQuery.Broadcast
import RsQuery.HydrationFrame
import RsQuery.Infinite
import RsQuery.PageWindow
import RsQuery.Activity
import RsQuery.BulkFetches
import RsQuery.MutationObserver
import RsQuery.Notices
import RsQuery.PageCancellation
import RsQuery.QueriesObserver
import RsQuery.UseMutation
import RsQuery.UseQuery
import RsQuery.Connectivity
import RsQuery.FilteredInvalidation
import RsQuery.NotifyManager
import RsQuery.NotifyOrder
import RsQuery.Selection
import RsQuery.Staleness
import RsQuery.ActivityPump
import RsQuery.Mounting
import RsQuery.PersisterGc
import RsQuery.RestoreRetry
import RsQuery.MountingRuns
import RsQuery.Backoff
import RsQuery.Collection
import RsQuery.Retries
import RsQuery.Retryer
import RsQuery.RetryerPause
import RsQuery.RetryerGate
import RsQuery.PageTrimming
import RsQuery.PausedFlag
import RsQuery.ReadBack
import RsQuery.HydratedOptions
import RsQuery.LagRecovery
import RsQuery.Lib.Oneshot
import RsQuery.ObserverHistory
import RsQuery.Placeholders
import RsQuery.SpawnHandles
import RsQuery.Streamed
import RsQuery.PageAvailability
import RsQuery.PageDirection
import RsQuery.DevtoolsRows
import RsQuery.DevtoolsTimeline
import RsQuery.Lib.FirstMin
import RsQuery.ScopeQueues
import RsQuery.Shrinking
import RsQuery.WatchClosing
import RsQuery.Lib.Unwinding
import RsQuery.Revisions
import RsQuery.Isolation
import RsQuery.Registers
import RsQuery.Lib.Attempts
import RsQuery.FetchAttempts
import RsQuery.Hub
import RsQuery.HubDelivery
import RsQuery.SaveLoop
import RsQuery.EntrySteps
import RsQuery.GcLoop
import RsQuery.RetryerAttempts
