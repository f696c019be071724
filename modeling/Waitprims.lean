import Waitprims.Lib.Hoare
import Waitprims.Lib.Fifo
import Waitprims.Lib.TreeMap
import Waitprims.Lib.Worklist
import Waitprims.Lib.InFlight
import Waitprims.Core.Rfc3339
import Waitprims.Core.Types
import Waitprims.Core.Validate
import Waitprims.Testkit.Documents
import Waitprims.Async.Observer
import Waitprims.Async.Race
import Waitprims.Async.Budget
import Waitprims.Async.PollOutcome
import Waitprims.Async.PollCycle
import Waitprims.Async.RaceSpec
import Waitprims.Async.RaceReports
import Waitprims.Async.Ledger
import Waitprims.Async.CycleLedger
import Waitprims.Async.CycleRun
import Waitprims.Async.FifoObserver
import Waitprims.Async.QueueObserver
import Waitprims.Async.CycleCustody
import Waitprims.Async.CycleRetention
import Waitprims.Async.CycleSignals
import Waitprims.Lib.History
import Waitprims.Async.CycleRestores
import Waitprims.Async.LateSignals
import Waitprims.Async.FirstMatch
import Waitprims.Async.MatchRun
import Waitprims.Async.MatchCustody
import Waitprims.Async.SlotInvariant
import Waitprims.Async.SlotLedger
import Waitprims.Async.Follow
import Waitprims.Async.FollowCustody
import Waitprims.Core.Json
import Waitprims.Core.SetRules
import Waitprims.Core.AckRules
import Waitprims.Core.SetSpec
import Waitprims.Core.DocumentOrder
import Waitprims.Lib.StableSort
import Waitprims.Core.Respelling
import Waitprims.Core.WaiterIsolation
import Waitprims.Fs.Bind
import Waitprims.Fs.Chain
import Waitprims.Fs.Replay
import Waitprims.Fs.NormalizePaths
import Waitprims.Core.Number
import Waitprims.Core.Jcs
import Waitprims.Core.JsonScan
import Waitprims.Core.JsonSound
import Waitprims.Core.JsonComplete
import Waitprims.Core.Canonical
import Waitprims.Core.CanonicalText
import Waitprims.Core.CanonicalFaithful
import Waitprims.Core.NumberToString
import Waitprims.Core.CanonicalIdempotent
import Waitprims.Core.CanonicalForm
import Waitprims.Core.IntegerCheck
import Waitprims.Core.SelectSchema
import Waitprims.Core.Calendar
import Waitprims.Core.TimestampProfile
import Waitprims.Core.TimestampAdd
import Waitprims.Core.TimestampFormat
import Waitprims.Core.Rfc3339Panics
import Waitprims.Core.Serialize
import Waitprims.Core.Reserialize
import Waitprims.Async.RestoreRun
import Waitprims.Async.TieRule
import Waitprims.Async.CycleVisits
import Waitprims.Async.ArmAccounting
import Waitprims.Async.CycleBounds
import Waitprims.Async.CycleKeeps
import Waitprims.Async.CycleStarts
import Waitprims.Async.RefusedRestore
import Waitprims.Async.Coalesce
import Waitprims.Async.CoalesceBooks
import Waitprims.Async.CoalesceBounds
import Waitprims.Async.CoalesceSpacing
import Waitprims.Async.CoalesceCustody
import Waitprims.Async.DueAtDeadline
import Waitprims.Async.CycleSeen
import Waitprims.Async.Sessions
import Waitprims.Async.CoalesceTurns
import Waitprims.Async.FairRotation
import Waitprims.Async.FairTurn
import Waitprims.Async.CycleEnds
import Waitprims.Async.FairDelivery
import Waitprims.Fs.Signals
import Waitprims.Cli.EventSink
import Waitprims.Async.SinkInvariant
import Waitprims.Cli.Diagnostic
import Waitprims.Cli.Jsonl
import Waitprims.Cli.HeldFollow
import Waitprims.Core.OutcomeRules
import Waitprims.Async.CycleAccepted
import Waitprims.Async.MatchAccepted
import Waitprims.Async.OwnOutcome
import Waitprims.Testkit.FakeClock
import Waitprims.Testkit.ScriptedObserver
import Waitprims.Fs.Descriptors
