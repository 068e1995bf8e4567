import RepoLens.Provider

/-!
`DiagnosisJobHandler.Execute` of `internal/worker/job_handler.go`, in the order of the source.
-/

namespace RepoLens

open Interleaving

structure DiagnosisHandler where
  /-- The retry budget of the provider that the run pins. -/
  retries : DiagnosisRun → Nat
  /-- The agent's round budget. -/
  rounds : Nat
  hasEvidenceIssuer : Bool
  marshalReport : Option DiagnosisReportData → String
  unmarshalReport : String → Option DiagnosisReportData
  marshalDraft : Option ReportDraft → String
  unmarshalDraft : String → Option ReportDraft
  /-- `rebindCheckpointDraft` from the checkpoint's attempt to the new one. -/
  rebindDraft : (sourceAttemptID attemptID : String) → ReportDraft → ReportDraft
  /-- `resolveCheckpointDraft`. -/
  resolveDraft : (attemptID : String) → ReportDraft → DiagnosisReportData
  validateReportStructure : DiagnosisReportData → Err
  classifyReport : DiagnosisReportData → Bool → ReportStatus × Err
  validateCitation : Citation → Citation
  redactSecrets : String → String
  marshalFindings : List Finding → String
  marshalStrings : List String → String

def DiagnosisHandler.buildForExecution (h : DiagnosisHandler) (run : DiagnosisRun) : Provider :=
  newRetryingProvider .concrete (h.retries run)

structure AttemptContext where
  job : AnalysisJob
  run : DiagnosisRun
  claim : Claim
  execution : Execution
  deriving DecidableEq, Repr

def outcomeUnknownCode : String := "PROVIDER_OUTCOME_UNKNOWN"

def outcomeUnknownMessage : String :=
  "provider request outcome could not be confirmed; automatic replay is disabled"

def newAttempt (execution : Execution) : DiagnosisAttempt where
  id := execution.attemptID
  diagnosisRunID := execution.runID
  executionGeneration := execution.generation
  attemptNo := execution.attemptNo
  workerID := execution.claim.workerID
  status := .running
  errorCode := ""
  errorMessage := ""
  retryable := false
  usage := .zero
  finishReason := ""
  rawOutput := ""
  parsedReportJSON := ""
  parsedReportDraftJSON := ""
  checkpointKind := .none
  checkpointErrorCode := ""
  checkpointErrorMessage := ""
  checkpointPromptVersion := ""
  checkpointAgentVersion := ""
  structuredOutputValid := false
  providerCompletedAt := none
  providerDispatchUnresolved := false
  providerDispatchSuccessSeen := false
  finalizationReason := ""

/-- The zero value of `evidence.DiagnosisReportData`. -/
def emptyReport : DiagnosisReportData := ⟨"", "", "", [], [], [], []⟩

def executionCounts (result : Option ExecutionResult) : Counts :=
  match result with
  | none => ⟨0, 0, 0⟩
  | some result =>
    ⟨result.usage.promptTokens, result.usage.completionTokens, result.usage.toolCalls⟩

def safeStructuredParseMessage (message : String) : String :=
  match ["UNKNOWN_FIELD", "TRAILING_JSON", "MALFORMED_JSON", "INVALID_FIELD_TYPE",
      "INVALID_REPORT_STRUCTURE"].find? fun category =>
        decide (category.toList <:+: message.toList) with
  | some category => "INVALID_STRUCTURED_REPORT: " ++ category
  | none => "INVALID_STRUCTURED_REPORT: INVALID_REPORT_STRUCTURE"

def AttemptContext.cancelSeen (c : AttemptContext) : Bool :=
  c.run.cancelRequested || c.job.cancelRequested

def cancelAttempt (c : AttemptContext) : Prog Err := do
  let answer : Except Err Unit ←
    askStore (.finalizeCancellation c.claim c.run.id c.execution.attemptID)
  match answer with
  | .error err => pure (wrapAtomicHandlerFinalization .cancelled err)
  | .ok _ => pure errAlreadyFinalized

def writeDiagnosisFailure (c : AttemptContext) (errorClass : ErrorClass) (code message : String)
    (result : Option ExecutionResult) : Prog Err := do
  let answer : Except Err Unit ←
    askStore (.finalizeDiagnosisFailure c.claim c.job.executionGeneration c.run.id
      c.execution.attemptID errorClass code message (executionCounts result))
  match answer with
  | .ok _ => pure errAlreadyFinalized
  | .error err =>
    if err.is (.stop .userCancel) then cancelAttempt c
    else if err.is (.stop .ownershipLost) then pure errOwnershipLost
    else
      let reason : TerminalReason :=
        if errorClass = .permanent then .permanent else .retryableExhausted
      pure (wrapAtomicHandlerFailureFinalization
        { errorClass, errorCode := code, errorMessage := message,
          terminalReason := some reason, terminal := true }
        (newRetryableError "ATOMIC_FAILURE_FINALIZE_FAILED"
          "failed to atomically finalize diagnosis failure" err))

def finalizeFailureOnJobContext (c : AttemptContext) (errorClass : ErrorClass)
    (code message : String) (result : Option ExecutionResult) (allowShutdown : Bool) :
    Prog Err := do
  let cause : Err ← ask .cause
  if cause.is (.stop .ownershipLost) || (cause.is (.stop .shutdown) && !allowShutdown) then
    pure cause
  else if cause.is (.stop .userCancel) || c.cancelSeen then cancelAttempt c
  else writeDiagnosisFailure c errorClass code message result

def finalizeFailureOnOwnContext (c : AttemptContext) (code message : String)
    (result : Option ExecutionResult) : Prog Err :=
  if c.cancelSeen then cancelAttempt c
  else writeDiagnosisFailure c .permanent code message result

/-- A failure that must not be retried automatically: what the handler returns
for an incompatible or unsaved checkpoint. -/
def refuseReplay (c : AttemptContext) (code message : String)
    (result : Option ExecutionResult) : Prog Err := do
  let finalizeErr ← finalizeFailureOnOwnContext c code message result
  if finalizeErr = .nil ∨ finalizeErr.is .alreadyFinalized = true then pure errAlreadyFinalized
  else if finalizeErr.is (.stop .userCancel) then cancelAttempt c
  else if finalizeErr.is (.stop .ownershipLost) then pure errOwnershipLost
  else pure finalizeErr

def closeRetryableAttempt (c : AttemptContext) (code message : String)
    (result : Option ExecutionResult) : Prog Err := do
  let cause : Err ← ask .cause
  if cause.is (.stop .shutdown) || cause.is (.stop .ownershipLost) then pure cause
  else if cause.is (.stop .userCancel) || c.cancelSeen then pure errUserCancellation
  else
    let answer : Except Err Unit ←
      askStore (.finalizeRetryableAttempt c.claim c.job.executionGeneration c.run.id
        c.execution.attemptID code message (executionCounts result))
    match answer with
    | .error err => pure err
    | .ok _ => pure .nil

def retryLater (c : AttemptContext) (code message : String) (result : Option ExecutionResult)
    (err : Err) : Prog Err := do
  let closeErr ← closeRetryableAttempt c code message result
  if closeErr = .nil then pure err
  else if closeErr.is (.stop .userCancel) then cancelAttempt c
  else
    pure (newRetryableError "ATTEMPT_RETRY_FINALIZE_FAILED"
      "failed to close diagnosis attempt before retry" closeErr)

def executionResultFromCheckpoint (h : DiagnosisHandler) (checkpoint : DiagnosisAttempt) :
    ExecutionResult where
  report :=
    if checkpoint.parsedReportJSON = "" then some emptyReport
    else some ((h.unmarshalReport checkpoint.parsedReportJSON).getD emptyReport)
  reportDraft :=
    if checkpoint.parsedReportDraftJSON = "" then none
    else h.unmarshalDraft checkpoint.parsedReportDraftJSON
  rawOutput := checkpoint.rawOutput
  usage := checkpoint.usage
  finishReason := checkpoint.finishReason
  structuredReport := checkpoint.structuredOutputValid
  parseError :=
    if checkpoint.parsedReportJSON ≠ "" ∧ h.unmarshalReport checkpoint.parsedReportJSON = none
    then "checkpoint parsed report is invalid"
    else checkpoint.checkpointErrorMessage
  finalizationReason := checkpoint.finalizationReason

def rebindResult (h : DiagnosisHandler) (sourceAttemptID attemptID : String)
    (result : ExecutionResult) : ExecutionResult :=
  match result.reportDraft with
  | none => result
  | some draft =>
    if h.hasEvidenceIssuer then
      let rebound := h.rebindDraft sourceAttemptID attemptID draft
      { result with
        reportDraft := some rebound
        report := some (h.resolveDraft attemptID rebound) }
    else result

/-- `fmt.Errorf` of `agent.ErrInvalidStructuredReport` and a text. -/
def invalidReportErr (text : String) : Err :=
  .join ": " (.sentinel .invalidStructuredReport) (.message text)

def checkpointErr (checkpoint : DiagnosisAttempt) (result : ExecutionResult) : Err :=
  if checkpoint.checkpointKind = .finalInvalid then
    invalidReportErr
      (if result.parseError = "" then "agent returned an invalid structured report"
        else result.parseError)
  else .nil

/-- The complete contract that a structured result must meet, whoever made it. -/
def checkStructure (h : DiagnosisHandler) (result : ExecutionResult) : ExecutionResult × Err :=
  match result.structuredReport, result.report with
  | true, some report =>
    let err := h.validateReportStructure report
    if err = .nil then (result, .nil)
    else
      ({ result with structuredReport := false, parseError := err.error },
        invalidReportErr err.error)
  | _, _ =>
    let text :=
      if result.parseError = "" then "structured report is missing or marked invalid"
      else result.parseError
    ({ result with structuredReport := false, parseError := text }, invalidReportErr text)

def checkedResult (h : DiagnosisHandler) (result : Option ExecutionResult) (execErr : Err) :
    Option ExecutionResult × Err :=
  match result, execErr with
  | some result, .nil =>
    let checked := checkStructure h result
    (some checked.1, checked.2)
  | result, execErr => (result, execErr)

/-- What the durable dispatch marker makes of an execution without a report: an
unresolved dispatch turns its error into an unknown outcome. -/
def verifyDispatchState (c : AttemptContext) (result : Option ExecutionResult) (execErr : Err) :
    Prog Err := do
  if execErr = .nil ∧ (result.bind ExecutionResult.report).isSome = true then pure execErr
  else
    let answer : Except Err DiagnosisAttempt ← askStore (.getAttempt c.execution.attemptID)
    match answer with
    | .error stateErr =>
      let cause := if execErr = .nil then .message "executor returned no report" else execErr
      pure (.outcomeUnknown (.wrap "could not verify durable provider dispatch state: "
        (.join "\n" cause stateErr)))
    | .ok persisted =>
      if persisted.providerDispatchUnresolved = false then pure execErr
      else
        let cause :=
          if execErr = .nil then .message "executor returned no report after provider dispatch"
          else execErr
        if cause.isOutcomeUnknown = false ∧ cause.is .invalidStructuredReport = false then
          pure (.outcomeUnknown cause)
        else pure execErr

def checkpointKindOf (execErr : Err) : CheckpointKind :=
  if execErr.is .invalidStructuredReport then .finalInvalid
  else if execErr = .nil then .finalValid
  else .partialProviderFailure

/-- The checkpoint that `saveAttemptCheckpoint` writes. -/
def attemptCheckpoint (h : DiagnosisHandler) (c : AttemptContext) (result : ExecutionResult)
    (execErr : Err) : AttemptCheckpoint where
  executionGeneration := c.execution.generation
  kind := checkpointKindOf execErr
  rawOutput := h.redactSecrets result.rawOutput
  parsedReportJSON := h.marshalReport result.report
  parsedDraftJSON := h.marshalDraft result.reportDraft
  promptVersion := c.run.promptVersion
  agentVersion := c.run.agentVersion
  structured := result.structuredReport
  usage := result.usage
  errorCode :=
    if checkpointKindOf execErr = .finalInvalid then "INVALID_STRUCTURED_REPORT"
    else if execErr.isOutcomeUnknown then outcomeUnknownCode
    else ""
  errorMessage :=
    if checkpointKindOf execErr = .finalInvalid then safeStructuredParseMessage result.parseError
    else if execErr.isOutcomeUnknown then outcomeUnknownMessage
    else ""
  finalizationReason := result.finalizationReason
  finishReason := result.finishReason

def saveAttemptCheckpoint (h : DiagnosisHandler) (c : AttemptContext)
    (result : Option ExecutionResult) (execErr : Err) : Prog Err :=
  match result with
  | none => pure .nil
  | some result => do
      let answer : Except Err Unit ← askStore
        (.updateAttemptCheckpointWithClaim c.execution (attemptCheckpoint h c result execErr))
      match answer with
      | .error err => pure err
      | .ok _ => pure .nil

def unsavedCheckpointFailure (execErr checkpointErr : Err) : String × String :=
  if execErr.isOutcomeUnknown then (outcomeUnknownCode, outcomeUnknownMessage)
  else if checkpointErr.is .reportTooLarge then ("REPORT_TOO_LARGE", checkpointErr.error)
  else
    ("CHECKPOINT_SAVE_FAILED",
      "provider checkpoint could not be persisted; explicit diagnosis retry is required")

def invalidReport (h : DiagnosisHandler) (c : AttemptContext) (id message : String)
    (result : Option ExecutionResult) : Report where
  id
  diagnosisRunID := c.run.id
  attemptID := c.execution.attemptID
  reportStatus := .invalid
  rootCause := ""
  summary := ""
  findingsJSON := "[]"
  recommendedChecksJSON := "[]"
  structuredPayloadJSON := "\x7b\x7d"
  limitationsJSON := "[]"
  rawOutput := (result.map fun result => h.redactSecrets result.rawOutput).getD ""
  parseError := message

def invalidReportMessage (result : Option ExecutionResult) : String :=
  match result with
  | some result =>
    if result.parseError = "" then "INVALID_STRUCTURED_REPORT: INVALID_REPORT_STRUCTURE"
    else safeStructuredParseMessage result.parseError
  | none => "INVALID_STRUCTURED_REPORT: INVALID_REPORT_STRUCTURE"

def concludeInvalid (h : DiagnosisHandler) (c : AttemptContext)
    (result : Option ExecutionResult) : Prog Err := do
  let message := invalidReportMessage result
  let id : String ← ask .newID
  let answer : Except Err Unit ← askStore
    (.finalizeInvalidStructuredReport c.claim c.run.id c.execution.attemptID
      (invalidReport h c id message result) (executionCounts result)
      "INVALID_STRUCTURED_REPORT" message)
  match answer with
  | .ok _ => pure errAlreadyFinalized
  | .error err =>
    if err.is .alreadyFinalized then pure errAlreadyFinalized
    else if err.is (.stop .userCancel) then cancelAttempt c
    else if err.is (.stop .ownershipLost) then pure errOwnershipLost
    else
      pure (wrapAtomicHandlerFailureFinalization
        { errorClass := .permanent, errorCode := "INVALID_STRUCTURED_REPORT",
          errorMessage := message, terminalReason := some .permanent, terminal := true }
        (newRetryableError "ATOMIC_INVALID_FINALIZE_FAILED"
          "failed to atomically finalize invalid diagnosis report" err))

def reportedFailure (result : Option ExecutionResult) (execErr : Err) : Err × String :=
  let outcome : Err × String :=
    if execErr.isOutcomeUnknown then
      (newPermanentError outcomeUnknownCode outcomeUnknownMessage execErr, outcomeUnknownCode)
    else if execErr.is .modelOutputTruncated then
      (newPermanentError "MODEL_OUTPUT_TRUNCATED"
        "agent output was truncated before a tool call or structured report" execErr,
        "MODEL_OUTPUT_TRUNCATED")
    else (execErr, "")
  let progress : Err × String :=
    if outcome.1.progressed = true ∧ result.isSome = true ∧ outcome.2 ≠ outcomeUnknownCode then
      (newPermanentError "PROVIDER_PROGRESS_ABORTED"
        "provider failed after agent progress; explicit diagnosis retry is required" outcome.1,
        "PROVIDER_PROGRESS_ABORTED")
    else outcome
  match progress.1.asPermanentCoded with
  | some code => (newPermanentError code code progress.1, code)
  | none => progress

def concludeFailure (c : AttemptContext) (result : Option ExecutionResult) (execErr : Err) :
    Prog Err := do
  let unknown := execErr.isOutcomeUnknown
  let (failure, code) := reportedFailure result execErr
  let (errorClass, ownCode) := classifyError failure
  let errorCode := if code = "" then ownCode else code
  if errorClass = .ownershipLost then pure errOwnershipLost
  else if errorClass = .cancelled ∧ failure.is (.stop .userCancel) = true then cancelAttempt c
  else
    let cause : Err ← ask .cause
    if cause.is (.stop .ownershipLost) || (cause.is (.stop .shutdown) && !unknown) then pure cause
    else if cause.is (.stop .userCancel) || c.cancelSeen then cancelAttempt c
    else if errorClass = .permanent ∨ c.job.maxAttempts ≤ c.job.attemptCount then
      finalizeFailureOnJobContext c errorClass errorCode failure.error result unknown
    else retryLater c errorCode failure.error result failure

def concludeEmpty (c : AttemptContext) (result : Option ExecutionResult) : Prog Err :=
  let err := newRetryableError "EMPTY_AGENT_OUTPUT"
    "agent did not return a structured diagnosis report" .nil
  if c.job.maxAttempts ≤ c.job.attemptCount then
    finalizeFailureOnJobContext c .retryable "EMPTY_AGENT_OUTPUT" err.error result false
  else retryLater c "EMPTY_AGENT_OUTPUT" err.error result err

def stampCitation (h : DiagnosisHandler) (c : AttemptContext) (reportID : String)
    (citation : Citation) : Citation :=
  h.validateCitation { citation with
    reportID
    snapshotID := c.run.snapshotID
    codeIndexBuildID := c.run.codeIndexBuildID }

def stampReport (h : DiagnosisHandler) (c : AttemptContext) (reportID : String)
    (report : DiagnosisReportData) : DiagnosisReportData :=
  { report with
    findings := report.findings.map fun finding =>
      { finding with citations := finding.citations.map (stampCitation h c reportID) } }

def successReport (h : DiagnosisHandler) (c : AttemptContext) (id : String)
    (result : ExecutionResult) (report : DiagnosisReportData) (status : ReportStatus)
    (qualityErr : Err) : Report where
  id
  diagnosisRunID := c.run.id
  attemptID := c.execution.attemptID
  reportStatus := status
  rootCause := report.rootCause
  summary := report.summary
  findingsJSON := h.marshalFindings report.findings
  recommendedChecksJSON := h.marshalStrings report.recommendedChecks
  structuredPayloadJSON := h.marshalReport (some report)
  limitationsJSON := h.marshalStrings report.limitations
  rawOutput := h.redactSecrets result.rawOutput
  parseError :=
    if qualityErr ≠ .nil ∧ result.parseError = "" then qualityErr.error else result.parseError

def finalizeReport (c : AttemptContext) (result : ExecutionResult) (report : Report)
    (citations : List Citation) : Prog Err := do
  let answer : Except Err Unit ← askStore
    (.finalizeSuccess c.claim c.run.id c.execution.attemptID report citations
      (executionCounts (some result)))
  match answer with
  | .ok _ => pure .nil
  | .error err =>
    if err.is (.stop .userCancel) then cancelAttempt c
    else if err.is .alreadyFinalized then pure errAlreadyFinalized
    else if err.is (.stop .ownershipLost) then pure errOwnershipLost
    else if err.is .reportTooLarge then
      finalizeFailureOnJobContext c .permanent "REPORT_TOO_LARGE" err.error (some result) false
    else
      pure (wrapAtomicHandlerFinalization .succeeded
        (newRetryableError "ATOMIC_FINALIZE_FAILED"
          "failed to atomically finalize diagnosis success" err))

def concludeReport (h : DiagnosisHandler) (c : AttemptContext) (result : ExecutionResult)
    (report : DiagnosisReportData) : Prog Err := do
  let cause : Err ← ask .cause
  if cause.is (.stop .shutdown) || cause.is (.stop .ownershipLost) then pure cause
  else if cause.is (.stop .userCancel) || c.cancelSeen then cancelAttempt c
  else
    let id : String ← ask .newID
    let stamped := stampReport h c id report
    let quality := h.classifyReport stamped result.structuredReport
    if quality.2.is .reportTooLarge then
      finalizeFailureOnJobContext c .permanent "REPORT_TOO_LARGE" quality.2.error (some result)
        false
    else
      finalizeReport c result (successReport h c id result stamped quality.1 quality.2)
        (stamped.findings.flatMap Finding.citations)

/-- The end of an attempt whose checkpoint, if it has one, is saved. -/
def settle (h : DiagnosisHandler) (c : AttemptContext) (result : Option ExecutionResult)
    (execErr : Err) : Prog Err := do
  let cause : Err ← ask .cause
  if cause.is (.stop .ownershipLost) ||
      (cause.is (.stop .shutdown) && !execErr.isOutcomeUnknown) then
    pure cause
  else if cause.is (.stop .userCancel) || c.cancelSeen then cancelAttempt c
  else if execErr.is .invalidStructuredReport then concludeInvalid h c result
  else if execErr ≠ .nil then concludeFailure c result execErr
  else
    match result with
    | none => concludeEmpty c none
    | some result =>
      match result.report with
      | none => concludeEmpty c (some result)
      | some report => concludeReport h c result report

def conclude (h : DiagnosisHandler) (c : AttemptContext) (result : Option ExecutionResult)
    (execErr : Err) : Prog Err := do
  let checked := checkedResult h result execErr
  let verified ← verifyDispatchState c checked.1 checked.2
  let saveErr ← saveAttemptCheckpoint h c checked.1 verified
  if saveErr ≠ .nil then
    let failure := unsavedCheckpointFailure verified saveErr
    refuseReplay c failure.1 failure.2 checked.1
  else settle h c checked.1 verified

def resumeCheckpoint (h : DiagnosisHandler) (c : AttemptContext)
    (checkpoint : DiagnosisAttempt) : Prog Err :=
  if checkpoint.checkpointAgentVersion ≠ "" ∧
      (checkpoint.checkpointAgentVersion ≠ c.run.agentVersion ∨
        checkpoint.checkpointPromptVersion ≠ c.run.promptVersion) then
    refuseReplay c "CHECKPOINT_VERSION_MISMATCH"
      "diagnosis checkpoint uses an incompatible Agent protocol; explicit retry is required" none
  else
    let result := executionResultFromCheckpoint h checkpoint
    conclude h c (some (rebindResult h checkpoint.id c.execution.attemptID result))
      (checkpointErr checkpoint result)

def runAttempt (h : DiagnosisHandler) (c : AttemptContext) : Prog Err := do
  let answer : Except Err (Option DiagnosisAttempt) ←
    askStore (.getLatestFinalCheckpoint c.run.id c.execution.generation)
  match answer with
  | .error err =>
    pure (newRetryableError "CHECKPOINT_LOAD_FAILED" "failed loading diagnosis checkpoint" err)
  | .ok (some checkpoint) => resumeCheckpoint h c checkpoint
  | .ok none =>
    let executed ← executeAgent (h.buildForExecution c.run) h.rounds c.execution
    conclude h c executed.1 executed.2

def startAttempt (h : DiagnosisHandler) (c : AttemptContext) : Prog Err := do
  let answer : Except Err Unit ← askStore
    (.startAttemptWithClaim c.claim c.execution.generation c.run.id (newAttempt c.execution))
  match answer with
  | .error err =>
    if err.is (.stop .ownershipLost) || err.is .alreadyFinalized || err.is (.stop .userCancel)
    then pure err
    else pure (newRetryableError "START_ATTEMPT_FAILED" err.error err)
  | .ok _ => if c.cancelSeen then cancelAttempt c else runAttempt h c

def attemptContext (job : AnalysisJob) (run : DiagnosisRun) (workerID claimToken : String)
    (attemptID : String) : AttemptContext :=
  let claim : Claim := ⟨job.id, workerID, claimToken⟩
  { job, run, claim,
    execution :=
      { claim
        generation := if job.executionGeneration = 0 then 1 else job.executionGeneration
        runID := run.id
        attemptID
        attemptNo := job.expectedAttemptNo } }

def executeRun (h : DiagnosisHandler) (job : AnalysisJob) (run : DiagnosisRun) : Prog Err :=
  if run.status.terminal then pure .nil
  else
    match job.workerID, job.claimToken with
    | some workerID, some claimToken => do
        let attemptID : String ← ask .newID
        startAttempt h (attemptContext job run workerID claimToken attemptID)
    | _, _ => pure errOwnershipLost

def DiagnosisHandler.execute (h : DiagnosisHandler) (job : AnalysisJob) : Prog Err := do
  let cause : Err ← ask .cause
  if cause.is (.stop .shutdown) then pure errWorkerShutdown
  else
    let cause : Err ← ask .cause
    if cause.is (.stop .ownershipLost) then pure errOwnershipLost
    else
      let answer : Except Err DiagnosisRun ← askStore (.getRunByID job.resourceID)
      match answer with
      | .error err =>
        pure (newPermanentError "DIAGNOSIS_NOT_FOUND"
          ("diagnosis run " ++ job.resourceID ++ " not found: " ++ err.error) err)
      | .ok run => executeRun h job run

end RepoLens
