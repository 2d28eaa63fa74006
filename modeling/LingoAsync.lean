import LingoAsync.Action
import LingoAsync.Faults
import LingoAsync.Program
import LingoAsync.Yields
import LingoAsync.Text.Str
import LingoAsync.Text.Base64
import LingoAsync.Text.Base64Search
import LingoAsync.Text.Json
import LingoAsync.Text.Loads
import LingoAsync.Text.JsonRoundTrip
import LingoAsync.Machine
import LingoAsync.Pool
import LingoAsync.Http.CircuitBreaker
import LingoAsync.Python
import LingoAsync.Http.CoreClient
import LingoAsync.Http.BreakerDiscipline
import LingoAsync.Retry
import LingoAsync.Http.RetryLoop
import LingoAsync.Http.Callbacks
import LingoAsync.Http.ConsecutiveTrips
import LingoAsync.Http.InternalToken
import LingoAsync.Http.Outage
import LingoAsync.Loop
import LingoAsync.Calendar
import LingoAsync.Contracts.Pydantic
import LingoAsync.Contracts.Messages
import LingoAsync.Contracts.Envelope
import LingoAsync.Contracts.WireForms
import LingoAsync.Contracts.Accepted
import LingoAsync.Db.Sqlite
import LingoAsync.Db.Dynamo
import LingoAsync.Db.DynamoFaults
import LingoAsync.Handler.SafeLog
import LingoAsync.Db.Mirror
import LingoAsync.Scripts.DlqReplay
import LingoAsync.Scripts.DlqQueue
import LingoAsync.Scripts.DlqPreview
import LingoAsync.Scripts.DlqSafety
import LingoAsync.Scripts.DlqFilter
import LingoAsync.Scripts.DlqMain
import LingoAsync.Scripts.DlqFaults
import LingoAsync.Handler.Lambda
import LingoAsync.Handler.Isolation
import LingoAsync.Services
import LingoAsync.Ledger
import LingoAsync.Calendar.Weeks
import LingoAsync.Leaderboard.Updater
import LingoAsync.Leaderboard.Buckets
import LingoAsync.Leaderboard.Totals
import LingoAsync.Quests.Evaluator
import LingoAsync.Handlers
import LingoAsync.Handlers.Plan
import LingoAsync.Handler.EventLog
import LingoAsync.Handlers.NoSilentLoss
import LingoAsync.Handler.Deliveries
import LingoAsync.Handler.LogInfluence
import LingoAsync.Handler.LogVerdicts
import LingoAsync.Handler.DynamoLog
import LingoAsync.Handler.Repacked
import LingoAsync.Handler.Simulation
import LingoAsync.Handlers.Live
import LingoAsync.Handlers.Journal
import LingoAsync.Handlers.Shedding
import LingoAsync.Handlers.Shut
import LingoAsync.Handlers.Invariants
import LingoAsync.Handlers.Latch
import LingoAsync.Handlers.Audit
import LingoAsync.Handlers.Boot
import LingoAsync.LocalConsumer
import LingoAsync.Handlers.ExactlyOnce
import LingoAsync.Handlers.InStep
import LingoAsync.Handlers.Fleet
import LingoAsync.Handlers.OneCredit
import LingoAsync.RunLocal
import LingoAsync.Pipeline
