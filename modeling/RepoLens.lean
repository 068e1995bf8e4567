import RepoLens.Lib.Table
import RepoLens.Lib.Transaction
import RepoLens.Lib.Interleaving
import RepoLens.Errors
import RepoLens.Database
import RepoLens.JobStore
import RepoLens.DiagnosisStore
import RepoLens.Pipeline
import RepoLens.Runtime
import RepoLens.Provider
import RepoLens.StageHandlers
import RepoLens.DiagnosisHandler
import RepoLens.Worker
import RepoLens.System
import RepoLens.Lib.Evolution
import RepoLens.JobSteps
import RepoLens.PipelineSteps
import RepoLens.RunView
import RepoLens.RunSteps
import RepoLens.RunTransactions
import RepoLens.Agreement
import RepoLens.Ownership
import RepoLens.Contract
import RepoLens.Interference
import RepoLens.Discipline
import RepoLens.StoreErrors
import RepoLens.Following
import RepoLens.AgentSafety
import RepoLens.HandlerSafety
import RepoLens.AttemptSafety
import RepoLens.StageSafety
import RepoLens.WorkerSafety
import RepoLens.Soundness
import RepoLens.Consistency
import RepoLens.Reporting
import RepoLens.Transitions
import RepoLens.Cancellation
import RepoLens.Closure
import RepoLens.Dispatch
import RepoLens.Replay
import RepoLens.Truncation
import RepoLens.Lib.Lines
import RepoLens.SnapshotRanges
import RepoLens.RangeReading
import RepoLens.RangeBatches
import RepoLens.Lib.Paths
import RepoLens.Lib.Utf8
import RepoLens.Lib.Regex
import RepoLens.Redaction
import RepoLens.SnapshotPolicy
import RepoLens.Evidence
import RepoLens.EvidenceIssue
import RepoLens.EvidenceDedup
import RepoLens.Lib.Json
import RepoLens.Reports
import RepoLens.ReportResolution
import RepoLens.ReportLimits
import RepoLens.ToolResults
import RepoLens.RequestHash
import RepoLens.ContentHash
import RepoLens.SnapshotManifest
import RepoLens.ManifestFiles
import RepoLens.Lib.Loops
import RepoLens.AgentLoop
import RepoLens.AgentTranscripts
import RepoLens.AgentBudgets
import RepoLens.AgentUsage
import RepoLens.SearchCode
import RepoLens.EvidencePacket
import RepoLens.Lib.Ranking
import RepoLens.Tokenizer
import RepoLens.Bm25Index
import RepoLens.Bm25Search
import RepoLens.SymbolModel
import RepoLens.Expansion
import RepoLens.ExpansionPlacement
import RepoLens.ExpansionSearch
import RepoLens.CodeFiles
import RepoLens.GoProgram
import RepoLens.CallRelations
import RepoLens.RelatedTests
import RepoLens.Backoff
import RepoLens.Chunking
import RepoLens.RevisionPolling
import RepoLens.RetrievalQuery
import RepoLens.BaseUrl
import RepoLens.ArtifactSafety
import RepoLens.MigrationText
