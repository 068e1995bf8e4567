import RepoLens.Lib.Transaction
import RepoLens.Errors

/-!
The tables that the job queue, the diagnosis store and the analysis pipeline share, with the
uniqueness constraints of the schema.
-/

namespace RepoLens

open Relational

abbrev Time := Nat

inductive JobType where
  | materializeSnapshot | buildCodeIndex | buildRetrieval | runDiagnosis
  deriving DecidableEq, Repr

def JobType.text : JobType → String
  | .materializeSnapshot => "MATERIALIZE_SNAPSHOT"
  | .buildCodeIndex => "BUILD_CODE_INDEX"
  | .buildRetrieval => "BUILD_RETRIEVAL"
  | .runDiagnosis => "RUN_DIAGNOSIS"

structure AnalysisJob where
  id : Nat
  jobType : JobType
  resourceID : String
  status : JobStatus
  executionGeneration : Nat
  terminalReason : Option TerminalReason
  attemptCount : Nat
  executionStarted : Bool
  maxAttempts : Nat
  nextRunAt : Time
  workerID : Option String
  claimToken : Option String
  leaseUntil : Option Time
  cancelRequested : Bool
  lastErrorClass : Option ErrorClass
  lastErrorCode : Option String
  lastErrorMessage : Option String
  deriving DecidableEq, Repr

inductive RunStatus where
  | queued | running | succeeded | failed | cancelled
  deriving DecidableEq, Repr

def RunStatus.text : RunStatus → String
  | .queued => "QUEUED"
  | .running => "RUNNING"
  | .succeeded => "SUCCEEDED"
  | .failed => "FAILED"
  | .cancelled => "CANCELLED"

structure DiagnosisRun where
  id : String
  userID : String
  idempotencyKey : String
  repositoryID : String
  snapshotID : String
  codeIndexBuildID : Nat
  promptVersion : String
  agentVersion : String
  status : RunStatus
  cancelRequested : Bool
  finalAttemptID : Option String
  version : Nat
  deriving DecidableEq, Repr

inductive AttemptStatus where
  | running | succeeded | failedRetryable | failedTerminal | cancelled | abandoned
  deriving DecidableEq, Repr

inductive CheckpointKind where
  | none | finalValid | finalInvalid | partialProviderFailure | legacyUntyped
  deriving DecidableEq, Repr

def CheckpointKind.final : CheckpointKind → Bool
  | .finalValid | .finalInvalid => true
  | _ => false

structure Usage where
  promptTokens : Nat
  completionTokens : Nat
  cachedPromptTokens : Nat
  reasoningTokens : Nat
  toolCalls : Nat
  agentRounds : Nat
  searchCalls : Nat
  providerCalls : Nat
  deriving DecidableEq, Repr

def Usage.zero : Usage := ⟨0, 0, 0, 0, 0, 0, 0, 0⟩

structure DiagnosisAttempt where
  id : String
  diagnosisRunID : String
  executionGeneration : Nat
  attemptNo : Nat
  workerID : String
  status : AttemptStatus
  errorCode : String
  errorMessage : String
  retryable : Bool
  usage : Usage
  finishReason : String
  rawOutput : String
  parsedReportJSON : String
  parsedReportDraftJSON : String
  checkpointKind : CheckpointKind
  checkpointErrorCode : String
  checkpointErrorMessage : String
  checkpointPromptVersion : String
  checkpointAgentVersion : String
  structuredOutputValid : Bool
  providerCompletedAt : Option Time
  providerDispatchUnresolved : Bool
  providerDispatchSuccessSeen : Bool
  finalizationReason : String
  deriving DecidableEq, Repr

inductive ReportStatus where
  | valid | degraded | insufficientEvidence | invalid
  deriving DecidableEq, Repr

/-- `evidence.Report`, with the columns that are written or size-checked. -/
structure Report where
  id : String
  diagnosisRunID : String
  attemptID : String
  reportStatus : ReportStatus
  rootCause : String
  summary : String
  findingsJSON : String
  recommendedChecksJSON : String
  structuredPayloadJSON : String
  limitationsJSON : String
  rawOutput : String
  parseError : String
  deriving DecidableEq, Repr

/-- `evidence.Citation`, with its lineage. -/
structure Citation where
  id : String
  reportID : String
  snapshotID : String
  codeIndexBuildID : Nat
  deriving DecidableEq, Repr

inductive SnapshotStatus where
  | created | materializing | ready | failed
  deriving DecidableEq, Repr

/-- `snapshot.RepositorySnapshot`; `analysisRevisionID` is empty for a legacy snapshot. Its unique
index only refuses rows, and is left out. -/
structure RepositorySnapshot where
  id : String
  repositoryID : String
  commitSHA : String
  analysisRevisionID : String
  status : SnapshotStatus
  errorCode : String
  deriving DecidableEq, Repr

/-- `model.BuildStatus` of `codeintel`. -/
inductive BuildStatus where
  | created | building | ready | failed
  deriving DecidableEq, Repr

/-- `model.CodeIndexBuild`; `identity` stands for the version and build context
columns of its unique index. -/
structure CodeIndexBuild where
  id : Nat
  snapshotID : String
  identity : String
  analysisRevisionID : String
  status : BuildStatus
  errorCode : String
  deriving DecidableEq, Repr

/-- `model.RetrievalBuild`; `identity` stands for the strategy, version and
configuration columns of its unique index. -/
structure RetrievalBuild where
  id : Nat
  codeIndexBuildID : Nat
  identity : String
  analysisRevisionID : String
  status : BuildStatus
  errorCode : String
  deriving DecidableEq, Repr

inductive RevisionStatus where
  | preparing | ready | failed
  deriving DecidableEq, Repr

inductive RevisionStage where
  | materializing | buildingCode | buildingSearch | ready | failed
  deriving DecidableEq, Repr

structure AnalysisRevision where
  id : String
  repositoryID : String
  commitSHA : String
  pipelineFingerprint : String
  snapshotID : String
  codeIndexBuildID : Nat
  retrievalBuildID : Nat
  status : RevisionStatus
  stage : RevisionStage
  errorCode : String
  errorMessage : String
  executionGeneration : Nat
  version : Nat
  deriving DecidableEq, Repr

def AnalysisJob.resource (job : AnalysisJob) : JobType × String := (job.jobType, job.resourceID)

/-- The unique index `idx_user_idemp`. -/
def DiagnosisRun.idempotency (run : DiagnosisRun) : String × String :=
  (run.userID, run.idempotencyKey)

def DiagnosisAttempt.number (attempt : DiagnosisAttempt) : String × Nat × Nat :=
  (attempt.diagnosisRunID, attempt.executionGeneration, attempt.attemptNo)

def CodeIndexBuild.natural (build : CodeIndexBuild) : String × String :=
  (build.snapshotID, build.identity)

def RetrievalBuild.natural (build : RetrievalBuild) : Nat × String :=
  (build.codeIndexBuildID, build.identity)

def AnalysisRevision.natural (revision : AnalysisRevision) : String × String × String :=
  (revision.repositoryID, revision.commitSHA, revision.pipelineFingerprint)

theorem AnalysisJob.keeps_succeeded : Table.Keeps AnalysisJob.id AnalysisJob.resource
    fun job => { job with status := .succeeded } :=
  fun _ => ⟨rfl, rfl⟩

theorem AnalysisJob.keeps_cancelled : Table.Keeps AnalysisJob.id AnalysisJob.resource
    fun job => { job with status := .cancelled, terminalReason := some .cancelled } :=
  fun _ => ⟨rfl, rfl⟩

theorem CodeIndexBuild.keeps_created : Table.Keeps CodeIndexBuild.id CodeIndexBuild.natural
    fun build => { build with status := .created, errorCode := "" } :=
  fun _ => ⟨rfl, rfl⟩

theorem RetrievalBuild.keeps_created : Table.Keeps RetrievalBuild.id RetrievalBuild.natural
    fun build => { build with status := .created, errorCode := "" } :=
  fun _ => ⟨rfl, rfl⟩

structure Database where
  jobs : Table AnalysisJob.id AnalysisJob.resource
  runs : Table DiagnosisRun.id DiagnosisRun.idempotency
  attempts : Table DiagnosisAttempt.id DiagnosisAttempt.number
  reports : Table Report.id Report.id
  citations : Table Citation.id Citation.id
  snapshots : Table RepositorySnapshot.id RepositorySnapshot.id
  codeIndexBuilds : Table CodeIndexBuild.id CodeIndexBuild.natural
  retrievalBuilds : Table RetrievalBuild.id RetrievalBuild.natural
  revisions : Table AnalysisRevision.id AnalysisRevision.natural

def Database.empty : Database :=
  ⟨.empty, .empty, .empty, .empty, .empty, .empty, .empty, .empty, .empty⟩

abbrev Tx (α : Type) := Transaction Database Err α

namespace Place

@[simps]
def jobs : Place Database AnalysisJob.id AnalysisJob.resource where
  get := Database.jobs
  set table db := { db with jobs := table }

@[simps]
def runs : Place Database DiagnosisRun.id DiagnosisRun.idempotency where
  get := Database.runs
  set table db := { db with runs := table }

@[simps]
def attempts : Place Database DiagnosisAttempt.id DiagnosisAttempt.number where
  get := Database.attempts
  set table db := { db with attempts := table }

@[simps]
def reports : Place Database Report.id Report.id where
  get := Database.reports
  set table db := { db with reports := table }

@[simps]
def citations : Place Database Citation.id Citation.id where
  get := Database.citations
  set table db := { db with citations := table }

@[simps]
def snapshots : Place Database RepositorySnapshot.id RepositorySnapshot.id where
  get := Database.snapshots
  set table db := { db with snapshots := table }

@[simps]
def codeIndexBuilds : Place Database CodeIndexBuild.id CodeIndexBuild.natural where
  get := Database.codeIndexBuilds
  set table db := { db with codeIndexBuilds := table }

@[simps]
def retrievalBuilds : Place Database RetrievalBuild.id RetrievalBuild.natural where
  get := Database.retrievalBuilds
  set table db := { db with retrievalBuilds := table }

@[simps]
def revisions : Place Database AnalysisRevision.id AnalysisRevision.natural where
  get := Database.revisions
  set table db := { db with revisions := table }

end Place

end RepoLens
