import PlugAgente.Dart.Loop
import PlugAgente.Dart.Numerals
import PlugAgente.Sql.Pieces
import PlugAgente.Sql.TextScanner
import PlugAgente.Sql.StatementSplit
import PlugAgente.Sql.SplitCoverage
import PlugAgente.Sql.Classifier
import PlugAgente.Authorization.DecisionCache
import PlugAgente.Authorization.Authorize
import PlugAgente.Authorization.Transparency
import PlugAgente.Authorization.Staleness
import PlugAgente.Batch.Transaction
import PlugAgente.Batch.Commands
import PlugAgente.Batch.Attempts
import PlugAgente.Batch.Transactional
import PlugAgente.Batch.NonTransactional
import PlugAgente.Batch.ReadOnlyParallel
import PlugAgente.Batch.ReadOnlyAccounting
import PlugAgente.Machine.Transition
import PlugAgente.Machine.Ledger
import PlugAgente.Queue.LaneCapacity
import PlugAgente.Queue.LaneScheduler
import PlugAgente.Queue.ExecutionQueue
import PlugAgente.Queue.Invariant
import PlugAgente.Queue.Preservation
import PlugAgente.Queue.Accounting
import PlugAgente.Queue.NoGhost
import PlugAgente.Queue.WorkConserving
import PlugAgente.Schedule.Progress
import PlugAgente.Wire.Json
import PlugAgente.Wire.RpcWireMap
import PlugAgente.Wire.RowsSurvive
import PlugAgente.Idempotency.Replay
import PlugAgente.Operation.Session
import PlugAgente.Operation.SessionSafety
import PlugAgente.Operation.Journal
import PlugAgente.Operation.Executor
import PlugAgente.Operation.Agreement
import PlugAgente.Pagination.Cursor
import PlugAgente.Pagination.Complete
import PlugAgente.Bulk.DirectInsert
import PlugAgente.Bulk.Honesty
import PlugAgente.Pool.Semaphore
import PlugAgente.Pool.CircuitBreaker
import PlugAgente.Stream.Emitter
import PlugAgente.Stream.EmitterSafety
import PlugAgente.Dart.Double
import PlugAgente.Transport.Pipeline
import PlugAgente.Transport.RoundTrip
import PlugAgente.Transport.ReceivePath
import PlugAgente.Transport.FrameCodec
import PlugAgente.Actions.ExecutionQueue
import PlugAgente.Actions.QueueInvariant
import PlugAgente.Transport.Paths
import PlugAgente.Actions.Retained
import PlugAgente.Actions.Discipline
import PlugAgente.Schedule.Scheduler
import PlugAgente.Schedule.SchedulerTimers
import PlugAgente.Schedule.SchedulerSafety
import PlugAgente.Schedule.Calculator
import PlugAgente.Schedule.LeastRun
import PlugAgente.Pool.Permits
import PlugAgente.Pool.DirectLimiter
import PlugAgente.Pool.ConnectionPool
import PlugAgente.Pool.SlotConservation
import PlugAgente.Pool.QuarantineRespect
import PlugAgente.Machine.Rows
import PlugAgente.Machine.Atomic
import PlugAgente.ActionIo.Database
import PlugAgente.ActionIo.InputJournal
import PlugAgente.ActionIo.OutputJournal
import PlugAgente.ActionIo.Effects
import PlugAgente.ActionIo.Linked
import PlugAgente.ActionIo.Journal
import PlugAgente.ActionIo.Simulation
import PlugAgente.ActionIo.InputQueue
import PlugAgente.ActionIo.Repetition
import PlugAgente.ActionIo.ReservedSlots
import PlugAgente.ActionIo.OutputLog
import PlugAgente.ActionIo.Paging
import PlugAgente.Dart.Utf8
import PlugAgente.CapturedOutput.Chunks
import PlugAgente.CapturedOutput.Pieces
import PlugAgente.CapturedOutput.Windows
import PlugAgente.CapturedOutput.StreamRows
import PlugAgente.CapturedOutput.Agreement
import PlugAgente.Negotiation.Handshake
import PlugAgente.Negotiation.Isolation
import PlugAgente.Authorization.ClientTokenPolicy
import PlugAgente.Authorization.PolicyCache
import PlugAgente.Authorization.PolicyRevocation
import PlugAgente.Idempotency.Orchestrator
import PlugAgente.Idempotency.DriftStore
import PlugAgente.Idempotency.StoreRefinement
import PlugAgente.Idempotency.SingleEffect
import PlugAgente.Cancellation.StreamIndexes
import PlugAgente.Cancellation.AbortOwners
import PlugAgente.Cancellation.AbortRelease
import PlugAgente.Cancellation.NativeAbort
import PlugAgente.Cancellation.StreamingCoordinator
import PlugAgente.Cancellation.SqlCancel
import PlugAgente.Cancellation.CancelOwnership
import PlugAgente.Negotiation.Capabilities
import PlugAgente.Negotiation.Entries
import PlugAgente.Negotiation.Extensions
import PlugAgente.Negotiation.Protocol
import PlugAgente.Negotiation.NoWeakening
import PlugAgente.Dart.JsonText
import PlugAgente.Dart.Base64
import PlugAgente.Transport.Stages
import PlugAgente.Transport.SignatureCheck
import PlugAgente.Transport.Acceptance
import PlugAgente.Execution.SaveExecution
import PlugAgente.Execution.CompletionEvents
import PlugAgente.Execution.IdempotentRun
import PlugAgente.Execution.SingleRun
import PlugAgente.Execution.PersistedRun
import PlugAgente.Execution.RecordedOutcome
import PlugAgente.Execution.RetryWindow
import PlugAgente.Pool.AdaptivePool
import PlugAgente.Pool.AdaptiveRouting
import PlugAgente.Maintenance.UpdateMaintenance
import PlugAgente.Maintenance.OneWay
import PlugAgente.Authorization.PolicyLaw
import PlugAgente.Authorization.PolicyEquality
import PlugAgente.Authorization.Qualification
import PlugAgente.Sessions.OperationGate
import PlugAgente.Transport.WorkPool
import PlugAgente.Transport.WorkPoolSafety
import PlugAgente.Execution.ProcessLifecycle
import PlugAgente.Sql.TextRanges
import PlugAgente.Sql.CommentStripping
import PlugAgente.Stream.MultiResult
import PlugAgente.Batch.ExecuteBatch
import PlugAgente.Authorization.PolicyJson
import PlugAgente.Pagination.CursorToken
import PlugAgente.Dart.LinkedMap
import PlugAgente.Response.Rows
import PlugAgente.Response.Normalizer
import PlugAgente.Response.Columns
import PlugAgente.Dart.Text
import PlugAgente.Dart.ListSort
import PlugAgente.Transport.RequestGuard
import PlugAgente.Actions.RemoteRateLimiter
import PlugAgente.Schedule.IntervalGrid
import PlugAgente.Windows.Argv
import PlugAgente.Windows.CommandLine
import PlugAgente.Windows.PowerShell
import PlugAgente.Actions.Admission
import PlugAgente.Queue.LaneFairness
import PlugAgente.CapturedOutput.Lossless
import PlugAgente.CapturedOutput.OutputPaging
import PlugAgente.Wire.SigningCanonicalizer
import PlugAgente.Transport.FrameSignatures
import PlugAgente.Stream.EmitterRegistry
import PlugAgente.Execution.HistoryPages
import PlugAgente.CapturedOutput.SavedOutput
import PlugAgente.Sql.ClauseScanners
import PlugAgente.Secrets.Placeholders
import PlugAgente.ActionIo.Lifecycle
import PlugAgente.Sessions.RefreshGate
import PlugAgente.Batch.ReadOnlyEnds
