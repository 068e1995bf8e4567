import RepoLens.JobStore

/-!
The transactions of `internal/diagnosis/store.go` that production code calls.
-/

namespace RepoLens

open Relational Transaction

def createDiagnosis (run : DiagnosisRun) (jobID : Nat) (now : Time) : Tx Unit := do
  Place.runs.insert
    { run with
      status := .queued, cancelRequested := false, finalAttemptID := none, version := 1 }
    errDuplicate
  Place.jobs.insert (newJob jobID .runDiagnosis run.id 1 3 now) errDuplicate

/-- `GetByID`. -/
def getRunByID (runID : String) : Tx DiagnosisRun := do
  expect (← Place.runs.select fun run => run.id = runID) (.sentinel .runNotFound)

def getAttempt (attemptID : String) : Tx DiagnosisAttempt := do
  expect (← Place.attempts.select fun attempt => attempt.id = attemptID)
    (.sentinel .attemptNotFound)

def getLatestFinalCheckpoint (runID : String) (generation : Nat) :
    Tx (Option DiagnosisAttempt) := do
  let final ← Place.attempts.selectAll fun attempt =>
    attempt.Of runID generation ∧ attempt.checkpointKind.final = true ∧
      attempt.providerCompletedAt.isSome = true
  pure (highestAttempt final)

def AnalysisJob.expectedAttemptNo (job : AnalysisJob) : Nat :=
  if job.attemptCount = 0 then 1 else job.attemptCount

/-- Why `lockLiveDiagnosisJobTx` found no row. -/
def liveLockFailure (claim : Claim) (generation : Nat) (runID : String)
    (current : Option AnalysisJob) : Err :=
  match current with
  | none => errOwnershipLost
  | some job =>
    if job.status.terminal then errAlreadyFinalized
    else if job.HeldBy claim ∧ job.For .runDiagnosis runID ∧
        job.executionGeneration = generation ∧ job.executionStarted = true ∧
        job.cancelRequested = true then errUserCancellation
    else errOwnershipLost

def lockLiveDiagnosisJobTx (claim : Claim) (generation : Nat) (runID : String) (now : Time) :
    Tx AnalysisJob := do
  match ← Place.jobs.select fun job =>
      job.HeldBy claim ∧ job.For .runDiagnosis runID ∧ job.executionGeneration = generation ∧
        job.executionStarted = true ∧ job.cancelRequested = false with
  | some job =>
    require (job.leaseLive now = true) errOwnershipLost
    pure job
  | none =>
    let current ← Place.jobs.select fun job => job.id = claim.jobID
    fail (liveLockFailure claim generation runID current)

def startRunTx (run : DiagnosisRun) : Tx Unit :=
  if run.status = .queued then do
    let affected ← Place.runs.update
      (fun row => row.id = run.id ∧ row.status = .queued ∧ row.cancelRequested = false)
      (fun row => { row with status := .running, version := row.version + 1 })
      fun _ => ⟨rfl, rfl⟩
    require (affected = 1) (.sentinel .claimConflict)
  else
    require (run.status = .running)
      (.message ("diagnosis " ++ run.id ++ " cannot start from " ++ run.status.text))

def startAttemptWithClaim (claim : Claim) (generation : Nat) (runID : String)
    (attempt : DiagnosisAttempt) (now : Time) : Tx Unit := do
  let job ← lockLiveDiagnosisJobTx claim generation runID now
  require (attempt.Of runID generation ∧ attempt.attemptNo = job.expectedAttemptNo ∧
    attempt.workerID = claim.workerID) errOwnershipLost
  let run ← expect (← Place.runs.select fun run => run.id = runID) errNoRows
  require (run.cancelRequested = false) errUserCancellation
  startRunTx run
  Place.attempts.insert { attempt with status := .running, checkpointKind := .none } errDuplicate

def lockDiagnosisExecutionTx (claim : Claim) (expectedGeneration : Nat)
    (runID attemptID : String) (cancellation : Bool) :
    Tx (AnalysisJob × DiagnosisRun × DiagnosisAttempt) := do
  let current ← Place.jobs.select fun job => job.id = claim.jobID
  let job ← expect
    (← Place.jobs.select fun job =>
      job.HeldBy claim ∧ job.For .runDiagnosis runID ∧ job.executionStarted = true)
    (if current.any (fun job => job.status.terminal) then errAlreadyFinalized
      else errOwnershipLost)
  require (expectedGeneration = 0 ∨ job.executionGeneration = expectedGeneration)
    errOwnershipLost
  require (job.cancelRequested = cancellation)
    (if cancellation then .sentinel .cancellationNotRequested else errUserCancellation)
  let run ← expect (← Place.runs.select fun run => run.id = runID ∧ run.status = .running)
    (.sentinel .runTransitionConflict)
  require (run.cancelRequested = cancellation)
    (if cancellation then .sentinel .cancellationNotRequested else errUserCancellation)
  let attempt ← expect
    (← Place.attempts.select fun attempt =>
      attempt.id = attemptID ∧ attempt.Of runID job.executionGeneration ∧
        attempt.attemptNo = job.expectedAttemptNo ∧ attempt.status = .running)
    (.sentinel .attemptNotRunning)
  require (attempt.workerID = claim.workerID) errOwnershipLost
  pure (job, run, attempt)

/-- The identity of one execution that the dispatch markers and the checkpoint
writer present. -/
structure Execution where
  claim : Claim
  generation : Nat
  runID : String
  attemptID : String
  attemptNo : Nat
  deriving DecidableEq, Repr

def lockLiveDiagnosisExecutionTx (execution : Execution) (now : Time) : Tx DiagnosisAttempt := do
  let locked ← lockDiagnosisExecutionTx execution.claim execution.generation execution.runID
    execution.attemptID false
  require (locked.1.leaseLive now = true) errOwnershipLost
  require (locked.2.2.attemptNo = execution.attemptNo) errOwnershipLost
  pure locked.2.2

def beginProviderDispatch (execution : Execution) (now : Time) : Tx Unit := do
  let attempt ← lockLiveDiagnosisExecutionTx execution now
  require (attempt.status = .running) (.sentinel .attemptNotRunning)
  let _ ← Place.attempts.update
    (fun attempt => attempt.id = execution.attemptID ∧ attempt.status = .running)
    (fun attempt => { attempt with providerDispatchUnresolved := true }) fun _ => ⟨rfl, rfl⟩
  pure ()

def checkProviderDispatchAuthority (execution : Execution) (now : Time) : Tx Unit := do
  let attempt ← lockLiveDiagnosisExecutionTx execution now
  require (attempt.providerDispatchUnresolved = true) errOwnershipLost

def providerDispatchSucceeded (execution : Execution) (now : Time) : Tx Unit := do
  let attempt ← lockLiveDiagnosisExecutionTx execution now
  require (attempt.providerDispatchUnresolved = true) errOwnershipLost
  if attempt.providerDispatchSuccessSeen = true then pure ()
  else
    let affected ← Place.attempts.update
      (fun attempt => attempt.id = execution.attemptID ∧ attempt.status = .running ∧
        attempt.providerDispatchUnresolved = true)
      (fun attempt => { attempt with providerDispatchSuccessSeen := true })
      fun _ => ⟨rfl, rfl⟩
    require (affected = 1) errOwnershipLost

def providerDispatchFailedDefinitely (execution : Execution) (now : Time) : Tx Bool := do
  let attempt ← lockLiveDiagnosisExecutionTx execution now
  if attempt.providerDispatchSuccessSeen = true then pure false
  else
    let affected ← Place.attempts.update
      (fun attempt => attempt.id = execution.attemptID ∧ attempt.status = .running ∧
        attempt.providerDispatchSuccessSeen = false)
      (fun attempt => { attempt with providerDispatchUnresolved := false })
      fun _ => ⟨rfl, rfl⟩
    pure (decide (affected = 1))

def maxReportBytes : Nat := 4 * 1024 * 1024

def validateReportBytes (field value : String) (limit : Nat) : Tx Unit :=
  require (value.utf8ByteSize ≤ limit)
    (.join ": " (.sentinel .reportTooLarge)
      (.message (field ++ " exceeds " ++ toString limit ++ " serialized bytes")))

def validateReportPersistence (report : Report) : Tx Unit := do
  validateReportBytes "findings_json" report.findingsJSON maxReportBytes
  validateReportBytes "recommended_checks_json" report.recommendedChecksJSON maxReportBytes
  validateReportBytes "limitations_json" report.limitationsJSON maxReportBytes
  validateReportBytes "structured_payload_json" report.structuredPayloadJSON maxReportBytes
  validateReportBytes "raw_output" report.rawOutput maxReportBytes
  validateReportBytes "summary" report.summary 65535
  validateReportBytes "root_cause" report.rootCause 65535
  validateReportBytes "parse_error" report.parseError 65535

structure AttemptCheckpoint where
  executionGeneration : Nat
  kind : CheckpointKind
  rawOutput : String
  parsedReportJSON : String
  parsedDraftJSON : String
  promptVersion : String
  agentVersion : String
  structured : Bool
  usage : Usage
  errorCode : String
  errorMessage : String
  finalizationReason : String
  finishReason : String
  deriving DecidableEq, Repr

def validateCheckpointBytes (checkpoint : AttemptCheckpoint) : Tx Unit := do
  validateReportBytes "raw_output" checkpoint.rawOutput maxReportBytes
  validateReportBytes "parsed_report_json" checkpoint.parsedReportJSON maxReportBytes
  validateReportBytes "parsed_report_draft_json" checkpoint.parsedDraftJSON maxReportBytes

def truncateCheckpointMessage (message : String) : String :=
  if 255 < message.toList.length then String.ofList (message.toList.take 255) else message

def DiagnosisAttempt.withCheckpoint (attempt : DiagnosisAttempt) (checkpoint : AttemptCheckpoint)
    (now : Time) : DiagnosisAttempt :=
  { attempt with
    checkpointKind := checkpoint.kind
    checkpointErrorCode := checkpoint.errorCode
    checkpointErrorMessage := truncateCheckpointMessage checkpoint.errorMessage
    rawOutput := checkpoint.rawOutput
    parsedReportJSON := checkpoint.parsedReportJSON
    parsedReportDraftJSON := checkpoint.parsedDraftJSON
    checkpointPromptVersion := checkpoint.promptVersion
    checkpointAgentVersion := checkpoint.agentVersion
    structuredOutputValid := checkpoint.structured
    usage := checkpoint.usage
    finalizationReason := checkpoint.finalizationReason
    finishReason := checkpoint.finishReason
    providerCompletedAt := if checkpoint.kind.final then some now else none
    providerDispatchUnresolved :=
      if checkpoint.kind.final then false else attempt.providerDispatchUnresolved
    providerDispatchSuccessSeen :=
      if checkpoint.kind.final then false else attempt.providerDispatchSuccessSeen }

def DiagnosisAttempt.Locked (attempt locked : DiagnosisAttempt) (runID : String)
    (generation : Nat) : Prop :=
  attempt.id = locked.id ∧ attempt.Of runID generation ∧ attempt.attemptNo = locked.attemptNo ∧
    attempt.status = .running

instance (attempt locked : DiagnosisAttempt) (runID : String) (generation : Nat) :
    Decidable (attempt.Locked locked runID generation) :=
  inferInstanceAs (Decidable (_ ∧ _))

def updateAttemptCheckpointWithClaim (execution : Execution) (checkpoint : AttemptCheckpoint)
    (now : Time) : Tx Unit := do
  require (checkpoint.executionGeneration = 0 ∨
    checkpoint.executionGeneration = execution.generation) errOwnershipLost
  validateCheckpointBytes checkpoint
  let locked ← lockLiveDiagnosisExecutionTx execution now
  let affected ← Place.attempts.update
    (fun attempt => attempt.Locked locked execution.runID execution.generation)
    (fun attempt => attempt.withCheckpoint checkpoint now) fun _ => ⟨rfl, rfl⟩
  require (affected = 1) errOwnershipLost

structure Counts where
  promptTokens : Nat
  completionTokens : Nat
  toolCalls : Nat
  deriving DecidableEq, Repr

def Usage.counted (usage : Usage) (counts : Counts) : Usage :=
  { usage with
    promptTokens := counts.promptTokens
    completionTokens := counts.completionTokens
    toolCalls := counts.toolCalls }

def insertCitations (ids : Nat → String) : List Citation → Nat → Tx Unit
  | [], _ => pure ()
  | citation :: rest, drawn => do
      Place.citations.insert
        { citation with id := if citation.id = "" then ids drawn else citation.id } errDuplicate
      insertCitations ids rest (drawn + 1)

/-- The job row that a finalizer of the diagnosis store may close. -/
def AnalysisJob.Finalizable (job : AnalysisJob) (claim : Claim) (generation : Nat)
    (cancelled : Bool) : Prop :=
  job.HeldBy claim ∧ job.executionGeneration = generation ∧ job.executionStarted = true ∧
    job.cancelRequested = cancelled

instance (job : AnalysisJob) (claim : Claim) (generation : Nat) (cancelled : Bool) :
    Decidable (job.Finalizable claim generation cancelled) :=
  inferInstanceAs (Decidable (_ ∧ _))

def finalizeRunTx (runID attemptID : String) (cancelled : Bool) (status : RunStatus)
    (conflict : Err) : Tx Unit := do
  let affected ← Place.runs.update
    (fun run => run.id = runID ∧ run.status = .running ∧ run.cancelRequested = cancelled)
    (fun run => { run with
      status
      finalAttemptID := some attemptID
      version := run.version + 1 }) fun _ => ⟨rfl, rfl⟩
  require (affected = 1) conflict

def finalizeSuccess (claim : Claim) (runID attemptID : String) (report : Report)
    (citations : List Citation) (counts : Counts) (ids : Nat → String) (now : Time) :
    Tx Unit := do
  let (job, run, locked) ← lockDiagnosisExecutionTx claim 0 runID attemptID false
  require (report.diagnosisRunID = runID ∧ report.attemptID = attemptID)
    (.message "report lineage does not match diagnosis attempt")
  require (∀ citation ∈ citations, citation.snapshotID = run.snapshotID ∧
      (run.codeIndexBuildID = 0 ∨ citation.codeIndexBuildID = run.codeIndexBuildID))
    (.message "citation lineage does not match diagnosis snapshot/build")
  validateReportPersistence report
  Place.reports.insert report (.wrap "persist report: " errDuplicate)
  insertCitations ids citations 0
  let affected ← Place.attempts.update
    (fun attempt => attempt.Locked locked runID locked.executionGeneration)
    (fun attempt => { attempt with
      status := .succeeded
      usage := attempt.usage.counted counts
      rawOutput := report.rawOutput
      structuredOutputValid := decide (report.reportStatus ≠ .invalid)
      providerCompletedAt := some now }) fun _ => ⟨rfl, rfl⟩
  require (affected = 1) (.message ("attempt " ++ attemptID ++ " finalize conflict"))
  finalizeRunTx runID attemptID false .succeeded
    (.message ("diagnosis " ++ runID ++ " finalize conflict"))
  let affected ← Place.jobs.update
    (fun row => row.Finalizable claim job.executionGeneration false)
    (fun row => { row with status := .succeeded }) AnalysisJob.keeps_succeeded
  require (affected = 1) errOwnershipLost

def failFinalizedJobTx (claim : Claim) (generation : Nat) (reason : TerminalReason)
    (errorClass : ErrorClass) (errorCode errorMessage : String) : Tx Unit := do
  let affected ← Place.jobs.update (fun row => row.Finalizable claim generation false)
    (fun row => { row with
      status := .failed
      terminalReason := some reason
      lastErrorClass := some errorClass
      lastErrorCode := some errorCode
      lastErrorMessage := some errorMessage }) fun _ => ⟨rfl, rfl⟩
  require (affected = 1) errOwnershipLost

/-- The defaults that `FinalizeInvalidStructuredReport` gives its report. -/
def Report.invalidated (report : Report) (drawnID errorMessage : String) : Report :=
  { report with
    reportStatus := .invalid
    id := if report.id = "" then drawnID else report.id
    findingsJSON := if report.findingsJSON = "" then "[]" else report.findingsJSON
    recommendedChecksJSON :=
      if report.recommendedChecksJSON = "" then "[]" else report.recommendedChecksJSON
    structuredPayloadJSON :=
      if report.structuredPayloadJSON = "" then "\x7b\x7d" else report.structuredPayloadJSON
    limitationsJSON := if report.limitationsJSON = "" then "[]" else report.limitationsJSON
    parseError := if report.parseError = "" then errorMessage else report.parseError }

def finalizeInvalidStructuredReport (claim : Claim) (runID attemptID : String)
    (report : Report) (counts : Counts) (errorCode errorMessage drawnID : String) :
    Tx Unit := do
  let (job, _, locked) ← lockDiagnosisExecutionTx claim 0 runID attemptID false
  require (report.diagnosisRunID = runID ∧ report.attemptID = attemptID)
    (.message "report lineage does not match diagnosis attempt")
  let report := report.invalidated drawnID errorMessage
  validateReportPersistence report
  Place.reports.insert report (.wrap "persist invalid report: " errDuplicate)
  let affected ← Place.attempts.update
    (fun attempt => attempt.Locked locked runID locked.executionGeneration)
    (fun attempt => { attempt with
      status := .failedTerminal
      usage := attempt.usage.counted counts
      errorCode
      errorMessage
      retryable := false
      rawOutput := report.rawOutput
      structuredOutputValid := false }) fun _ => ⟨rfl, rfl⟩
  require (affected = 1) (.message ("attempt " ++ attemptID ++ " finalize conflict"))
  finalizeRunTx runID attemptID false .failed
    (.message ("diagnosis " ++ runID ++ " finalize conflict"))
  failFinalizedJobTx claim job.executionGeneration .permanent .permanent errorCode errorMessage

def ErrorClass.terminalReason : ErrorClass → TerminalReason
  | .retryable => .retryableExhausted
  | _ => .permanent

def finalizeDiagnosisFailure (claim : Claim) (generation : Nat) (runID attemptID : String)
    (errorClass : ErrorClass) (errorCode errorMessage : String) (counts : Counts) :
    Tx Unit := do
  require (errorClass = .permanent ∨ errorClass = .retryable)
    (.message ("invalid terminal diagnosis error class \"" ++ errorClass.text ++ "\""))
  let (_, _, locked) ← lockDiagnosisExecutionTx claim generation runID attemptID false
  let affected ← Place.attempts.update
    (fun attempt => attempt.Locked locked runID generation)
    (fun attempt => { attempt with
      status := .failedTerminal
      usage := attempt.usage.counted counts
      errorCode
      errorMessage
      retryable := false }) fun _ => ⟨rfl, rfl⟩
  require (affected = 1) (.sentinel .attemptNotRunning)
  finalizeRunTx runID attemptID false .failed (.sentinel .runTransitionConflict)
  failFinalizedJobTx claim generation errorClass.terminalReason errorClass errorCode errorMessage

def finalizeRetryableAttempt (claim : Claim) (generation : Nat) (runID attemptID : String)
    (errorCode errorMessage : String) (counts : Counts) : Tx Unit := do
  let (_, _, locked) ← lockDiagnosisExecutionTx claim generation runID attemptID false
  let affected ← Place.attempts.update
    (fun attempt => attempt.Locked locked runID generation)
    (fun attempt => { attempt with
      status := .failedRetryable
      usage := attempt.usage.counted counts
      errorCode
      errorMessage
      retryable := true }) fun _ => ⟨rfl, rfl⟩
  require (affected = 1) (.sentinel .attemptNotRunning)

def finalizeCancellation (claim : Claim) (runID attemptID : String) : Tx Unit := do
  let (job, _, locked) ← lockDiagnosisExecutionTx claim 0 runID attemptID true
  let affected ← Place.attempts.update
    (fun attempt => attempt.Locked locked runID job.executionGeneration)
    (fun attempt => { attempt with status := .cancelled, errorCode := "CANCELLED" })
    fun _ => ⟨rfl, rfl⟩
  require (affected = 1) errOwnershipLost
  finalizeRunTx runID attemptID true .cancelled
    (.message ("diagnosis " ++ runID ++ " cancellation conflict"))
  let affected ← Place.jobs.update
    (fun row => row.Finalizable claim job.executionGeneration true)
    (fun row => { row with status := .cancelled, terminalReason := some .cancelled })
    AnalysisJob.keeps_cancelled
  require (affected = 1) errOwnershipLost

/-- The pair table of `RequestCancellation`: `some true` terminalises run and
job, `some false` leaves the claim's owner to stop, `none` refuses. -/
def cancellationOutcome (run : RunStatus) (job : JobStatus) : Option Bool :=
  match run, job with
  | .queued, .pending | .queued, .retryWait | .queued, .cancelled => some true
  | .queued, .running => some false
  | .running, .running => some false
  | .running, .retryWait | .running, .cancelled => some true
  | _, _ => none

def requestCancellation (runID userID : String) : Tx Unit := do
  let job ← expect (← Place.jobs.select fun job => job.For .runDiagnosis runID)
    (.message ("diagnosis job " ++ runID ++ " not found"))
  let run ← expect (← Place.runs.select fun run => run.id = runID ∧ run.userID = userID)
    (.sentinel .runNotFound)
  require (run.status.terminal = false) 
    (.message ("cannot cancel run in terminal status " ++ run.status.text))
  let jobTerminal ← expect (cancellationOutcome run.status job.status)
    (.message ("cannot cancel " ++ (if run.status = .queued then "queued" else "running") ++
      " diagnosis with job status " ++ job.status.text))
  let affected ← Place.jobs.update
    (fun row => row.id = job.id ∧ row.status = job.status)
    (fun row => { row with
      cancelRequested := true
      status := if jobTerminal then .cancelled else row.status
      terminalReason := if jobTerminal then some .cancelled else row.terminalReason })
    fun _ => ⟨rfl, rfl⟩
  require (affected = 1) (.message ("diagnosis job " ++ runID ++ " changed during cancellation"))
  let affected ← Place.runs.update
    (fun row => row.id = runID ∧ row.userID = userID ∧ row.status = run.status)
    (fun row => { row with
      cancelRequested := true
      status := if jobTerminal then .cancelled else run.status
      version := row.version + 1 }) fun _ => ⟨rfl, rfl⟩
  require (affected = 1) (.message ("diagnosis run " ++ runID ++ " changed during cancellation"))

def AnalysisJob.ownsAttempt (job : AnalysisJob) (attempt : DiagnosisAttempt) (now : Time) :
    Bool :=
  job.status = .running ∧ job.executionStarted = true ∧
    job.executionGeneration = attempt.executionGeneration ∧
    job.attemptCount = attempt.attemptNo ∧ job.workerID = some attempt.workerID ∧
    job.leaseLive now = true

def recoverStaleAttempt (attemptID runID : String) (now : Time) : Tx Unit := do
  match ← Place.attempts.select fun attempt =>
      attempt.id = attemptID ∧ attempt.diagnosisRunID = runID ∧ attempt.status = .running with
  | none => pure ()
  | some attempt =>
    let job ← Place.jobs.select fun job => job.For .runDiagnosis runID
    require (job.any (fun job => job.ownsAttempt attempt now) = false)
      (.sentinel .attemptLeaseActive)
    let affected ← Place.attempts.update
      (fun row => row.id = attemptID ∧ row.Of runID attempt.executionGeneration ∧
        row.status = .running)
      (fun row => { row with
        status := .abandoned
        errorCode := "WORKER_CRASH_OR_STALE"
        errorMessage := "Worker crashed or lost ownership, attempt abandoned" })
      fun _ => ⟨rfl, rfl⟩
    if affected = 0 then pure ()
    else
      let _ ← Place.runs.update (fun run => run.id = runID ∧ run.status = .running)
        (fun run => { run with version := run.version + 1 }) fun _ => ⟨rfl, rfl⟩
      pure ()

end RepoLens
