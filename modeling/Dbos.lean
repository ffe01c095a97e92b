import Dbos.Pg.Table
import Dbos.Pg.Select
import Dbos.Pg.Run
import Dbos.Pg.Heap
import Dbos.Pg.Pairing
import Dbos.Pg.Copy
import Dbos.Pg.Order
import Dbos.Pg.Fields
import Dbos.Schema
import Dbos.Status
import Dbos.Dequeue
import Dbos.Start
import Dbos.Ops
import Dbos.RowInvariant
import Dbos.Finality
import Dbos.Recording
import Dbos.Creation
import Dbos.Checkpoints
import Dbos.Dispatch
import Dbos.ExactlyOnce
import Dbos.Concurrency
import Dbos.RateLimit
import Dbos.Communication
import Dbos.Messages
import Dbos.Durable
import Dbos.Execution
import Dbos.DispatchedStarts
import Dbos.RecoveryBound
import Dbos.OrphanedClaims
import Dbos.Fork
import Dbos.BulkFork
import Dbos.Writers
import Dbos.StreamDensity
import Dbos.EventHistory
import Dbos.MessageFlow
import Dbos.MessageOrder
import Dbos.Patching
import Dbos.PatchSoundness
import Dbos.PatchDecision
import Dbos.Context
import Dbos.FunctionIDs
import Dbos.StatusReads
import Dbos.Divergence
import Dbos.Deduplication
import Dbos.Debounce
import Dbos.DataSource
import Dbos.Crontab
import Dbos.Scheduler
import Dbos.Watermark
import Dbos.BatchInsert
import Dbos.Kafka
import Dbos.KafkaIDs
import Dbos.Trigger
import Dbos.ContextBlocks
import Dbos.Serialization
import Dbos.SerializerChange
import Dbos.Pg.Declared
import Dbos.ExportImport
import Dbos.ExportRoundTrip
import Dbos.Migrations
import Dbos.MigrationTruth
import Dbos.MigrationOrder
import Dbos.DequeueSpec
import Dbos.RunningMap
import Dbos.RunOwnership
import Dbos.WorkerConcurrency
import Dbos.DurableSleep
import Dbos.Timeouts
import Dbos.Deadlines
import Dbos.BatchStamps
import Dbos.Pg.Loop
import Dbos.Pg.Search
import Dbos.Cascade
import Dbos.Occurrences
import Dbos.DispatchState
import Dbos.Js.Json
import Dbos.Js.JsonReader
import Dbos.ErrorReports
import Dbos.LegacyFormat
import Dbos.Js.Clock
import Dbos.Js.Text
import Dbos.Js.Number
import Dbos.CrontabText
import Dbos.CrontabRanges
import Dbos.CrontabFields
import Dbos.CrontabMeaning
import Dbos.CrontabValidation
import Dbos.Timezone
import Dbos.StepRetry
import Dbos.Pg.Worklist
import Dbos.RetryClassification
import Dbos.PortableJson
import Dbos.IdempotencyKeys
import Dbos.TempWorkflows
import Dbos.QueueConfig
import Dbos.QueueLanes
import Dbos.Pg.Log
import Dbos.StreamReader
import Dbos.StreamListing
import Dbos.Pg.Like
import Dbos.Pg.Where
import Dbos.WorkflowList
import Dbos.Pg.Group
import Dbos.WorkflowAggregates
import Dbos.PollLimiter
import Dbos.PayloadQueue
import Dbos.TriggerLife
import Dbos.Callbacks
import Dbos.Notifications
import Dbos.Registrations
import Dbos.WakeUps
import Dbos.Flushes
import Dbos.ConductorLink
import Dbos.ScheduleLoops
import Dbos.Retention
import Dbos.RollingDeploys
import Dbos.Pg.Journal
import Dbos.S3Workflows
import Dbos.Delays
import Dbos.ScheduleTable
import Dbos.TransactionalSteps
import Dbos.Pg.Throwing
import Dbos.FunctionRegistry
import Dbos.RegistryInvariant
import Dbos.FunctionLookup
import Dbos.ForkFromFailure
import Dbos.SqsReceive
import Dbos.HandleWaits
