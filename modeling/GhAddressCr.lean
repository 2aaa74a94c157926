import GhAddressCr.AcceptedReplay
import GhAddressCr.ActionRequests
import GhAddressCr.ActionSubmission
import GhAddressCr.AdvisoryLocks
import GhAddressCr.AgentBatch
import GhAddressCr.AmbiguousReplies
import GhAddressCr.AnsweredFindings
import GhAddressCr.AppendOnlyLog
import GhAddressCr.AtMostOnceReply
import GhAddressCr.AuditTrail
import GhAddressCr.AuditedTable
import GhAddressCr.BatchAtomicity
import GhAddressCr.BatchBudget
import GhAddressCr.BatchCompensation
import GhAddressCr.BatchSubmission
import GhAddressCr.Binary64
import GhAddressCr.BundleFolders
import GhAddressCr.BundleImports
import GhAddressCr.BundleSafety
import GhAddressCr.ClaimEligibility
import GhAddressCr.CommandFrames
import GhAddressCr.CommandRuns
import GhAddressCr.CommitFailures
import GhAddressCr.CommittedViews
import GhAddressCr.CrMetrics
import GhAddressCr.CrashingFiles
import GhAddressCr.EvidenceExport
import GhAddressCr.EvidenceIdentity
import GhAddressCr.EvidenceLedger
import GhAddressCr.ExclusiveTransactions
import GhAddressCr.FieldEffects
import GhAddressCr.FinalGate
import GhAddressCr.FinalGateOrder
import GhAddressCr.FinalGateSoundness
import GhAddressCr.FindingBlocks
import GhAddressCr.FindingIdentity
import GhAddressCr.GatekeeperRun
import GhAddressCr.GhThrottle
import GhAddressCr.GithubThreadState
import GhAddressCr.IndentedLines
import GhAddressCr.InitializationRace
import GhAddressCr.IntakeAgreement
import GhAddressCr.IssuableItems
import GhAddressCr.ItemIntake
import GhAddressCr.JsonText
import GhAddressCr.KeyedRows
import GhAddressCr.LeaseConflicts
import GhAddressCr.LeaseLifecycle
import GhAddressCr.Leases
import GhAddressCr.LedgerLines
import GhAddressCr.LegacyBackfill
import GhAddressCr.LifecycleMetrics
import GhAddressCr.LifecycleOrder
import GhAddressCr.LocalFindings
import GhAddressCr.LogicValidation
import GhAddressCr.MetadataMerge
import GhAddressCr.OneShotRollback
import GhAddressCr.OrchestratorDispatch
import GhAddressCr.OrderStatistics
import GhAddressCr.OutboxInvariant
import GhAddressCr.OutboxTransitions
import GhAddressCr.PaginatedReaders
import GhAddressCr.Pagination
import GhAddressCr.PyText
import GhAddressCr.PyValue
import GhAddressCr.RecoveryBundle
import GhAddressCr.RejectedSubmissions
import GhAddressCr.RemoteClosure
import GhAddressCr.RequestDocuments
import GhAddressCr.RequestFrames
import GhAddressCr.RequestLoops
import GhAddressCr.RequestRoundTrip
import GhAddressCr.ResponseValidation
import GhAddressCr.RestingCommands
import GhAddressCr.RestingItems
import GhAddressCr.ReviewLifecycle
import GhAddressCr.RevisionTokens
import GhAddressCr.RuntimeStore
import GhAddressCr.SafeImports
import GhAddressCr.SchemaUpgrade
import GhAddressCr.SeparatedLines
import GhAddressCr.Session
import GhAddressCr.SessionChanges
import GhAddressCr.SessionDocuments
import GhAddressCr.SessionOperations
import GhAddressCr.SessionProjection
import GhAddressCr.SessionViews
import GhAddressCr.SessionWrites
import GhAddressCr.Severity
import GhAddressCr.SharedPrograms
import GhAddressCr.SideEffectExecution
import GhAddressCr.SideEffectOutbox
import GhAddressCr.SourceSync
import GhAddressCr.StackContext
import GhAddressCr.StackGate
import GhAddressCr.StackRevisions
import GhAddressCr.StackShape
import GhAddressCr.StoreInitialization
import GhAddressCr.StoreOperations
import GhAddressCr.SubmissionSteps
import GhAddressCr.TelemetryEvents
import GhAddressCr.TelemetryImport
import GhAddressCr.TelemetryRoundTrip
import GhAddressCr.TelemetrySafety
import GhAddressCr.ThreadListing
import GhAddressCr.ThreadMerge
import GhAddressCr.TransitionSystem
import GhAddressCr.ValidationVerdicts
import GhAddressCr.WorkingSetLocality
import GhAddressCr.WorkingSetRefinement
