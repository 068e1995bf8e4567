import RepoLens.Database

/-!
The transactions of `internal/jobs/store.go`. Every function is the sequence of statements of the
source, in its order, with the number of affected rows checked where the source checks it; `now`
is the clock of the call.
-/

namespace RepoLens

open Relational Transaction

structure Claim where
  jobID : Nat
  workerID : String
  claimToken : String
  deriving DecidableEq, Repr

namespace AnalysisJob

def HeldBy (job : AnalysisJob) (claim : Claim) : Prop :=
  job.id = claim.jobID ∧ job.status = .running ∧ job.workerID = some claim.workerID ∧
    job.claimToken = some claim.claimToken

instance (job : AnalysisJob) (claim : Claim) : Decidable (job.HeldBy claim) :=
  inferInstanceAs (Decidable (_ ∧ _))

def leaseLive (job : AnalysisJob) (now : Time) : Bool :=
  job.leaseUntil.any fun until_ => decide (now < until_)

def leaseExpired (job : AnalysisJob) (now : Time) : Bool :=
  job.leaseUntil.any fun until_ => decide (until_ < now)

def For (job : AnalysisJob) (jobType : JobType) (resourceID : String) : Prop :=
  job.jobType = jobType ∧ job.resourceID = resourceID

instance (job : AnalysisJob) (jobType : JobType) (resourceID : String) :
    Decidable (job.For jobType resourceID) :=
  inferInstanceAs (Decidable (_ ∧ _))

end AnalysisJob

def JobStatus.terminal : JobStatus → Bool
  | .succeeded | .failed | .cancelled => true
  | _ => false

def RunStatus.terminal : RunStatus → Bool
  | .succeeded | .failed | .cancelled => true
  | _ => false

/-- `sql.ErrNoRows` and `gorm.ErrRecordNotFound`. -/
def errNoRows : Err := .message "sql: no rows in result set"

def errDuplicate : Err := .message "duplicate entry"

/-- A new job as `CreateJobTx` and the product's stores insert it. -/
def newJob (id : Nat) (jobType : JobType) (resourceID : String) (generation maxAttempts : Nat)
    (now : Time) : AnalysisJob where
  id
  jobType
  resourceID
  status := .pending
  executionGeneration := generation
  terminalReason := none
  attemptCount := 0
  executionStarted := false
  maxAttempts
  nextRunAt := now
  workerID := none
  claimToken := none
  leaseUntil := none
  cancelRequested := false
  lastErrorClass := none
  lastErrorCode := none
  lastErrorMessage := none

def getJobByID (jobID : Nat) : Tx AnalysisJob := do
  expect (← Place.jobs.select fun job => job.id = jobID) errNoRows

def AnalysisJob.claimed (job : AnalysisJob) (workerID token : String) (leaseUntil : Time) :
    AnalysisJob :=
  { job with
    status := .running
    workerID := some workerID
    claimToken := some token
    leaseUntil := some leaseUntil
    executionStarted := false }

def claimEach (workerID : String) (tokens : Nat → String) (leaseUntil : Time) :
    List AnalysisJob → Tx (List AnalysisJob)
  | [] => pure []
  | candidate :: rest => do
      let token := tokens candidate.id
      let _ ← Place.jobs.update (fun job => job.id = candidate.id)
        (fun job => job.claimed workerID token leaseUntil) fun _ => ⟨rfl, rfl⟩
      let claimedJobs ← claimEach workerID tokens leaseUntil rest
      pure (candidate.claimed workerID token leaseUntil :: claimedJobs)

def claimJobs (workerID : String) (batchSize leaseDuration : Nat) (pick : AnalysisJob → Bool)
    (tokens : Nat → String) (now : Time) : Tx (List AnalysisJob) := do
  let claimable ← Place.jobs.selectAll fun job =>
    (job.status = .pending ∨ job.status = .retryWait) ∧ job.nextRunAt ≤ now ∧ pick job = true
  claimEach workerID tokens (now + leaseDuration) (claimable.take batchSize)

def markExecutionStarted (claim : Claim) (generation : Nat) (now : Time) : Tx Nat := do
  let affected ← Place.jobs.update
    (fun job => job.HeldBy claim ∧ job.executionGeneration = generation ∧
      job.executionStarted = false ∧ job.leaseLive now = true)
    (fun job => { job with executionStarted := true, attemptCount := job.attemptCount + 1 })
    fun _ => ⟨rfl, rfl⟩
  require (affected ≤ 1) (.message ("execution-start transition for job " ++
    toString claim.jobID ++ " affected " ++ toString affected ++ " rows"))
  let started ← expect
    (← Place.jobs.select fun job => job.HeldBy claim ∧ job.executionGeneration = generation ∧
      job.executionStarted = true ∧ job.leaseLive now = true)
    errOwnershipLost
  pure started.attemptCount

def AnalysisJob.unclaimed (job : AnalysisJob) : AnalysisJob :=
  { job with status := .pending, workerID := none, claimToken := none, leaseUntil := none }

def returnUndispatchedClaim (claim : Claim) (generation : Nat) : Tx Unit := do
  let affected ← Place.jobs.update
    (fun job => job.HeldBy claim ∧ job.executionGeneration = generation ∧
      job.executionStarted = false)
    AnalysisJob.unclaimed fun _ => ⟨rfl, rfl⟩
  require (affected = 1) errOwnershipLost

def renewLease (claim : Claim) (newLeaseUntil now : Time) : Tx Unit := do
  let affected ← Place.jobs.update
    (fun job => job.HeldBy claim ∧ job.leaseLive now = true)
    (fun job => { job with leaseUntil := some newLeaseUntil }) fun _ => ⟨rfl, rfl⟩
  require (affected ≠ 0) errOwnershipLost

def loadOwnedRunningJobTx (claim : Claim) : Tx AnalysisJob := do
  expect (← Place.jobs.select fun job => job.HeldBy claim ∧ job.executionStarted = true)
    errOwnershipLost

/-- `ORDER BY attempt_no DESC LIMIT 1`. -/
def highestAttempt : List DiagnosisAttempt → Option DiagnosisAttempt
  | [] => none
  | attempt :: rest =>
    match highestAttempt rest with
    | none => some attempt
    | some other => if attempt.attemptNo < other.attemptNo then some other else some attempt

def DiagnosisAttempt.Of (attempt : DiagnosisAttempt) (runID : String) (generation : Nat) : Prop :=
  attempt.diagnosisRunID = runID ∧ attempt.executionGeneration = generation

instance (attempt : DiagnosisAttempt) (runID : String) (generation : Nat) :
    Decidable (attempt.Of runID generation) :=
  inferInstanceAs (Decidable (_ ∧ _))

def closeRunningAttempts (runID : String) (generation : Nat) (status : AttemptStatus) :
    Tx Nat :=
  Place.attempts.update
    (fun attempt => attempt.Of runID generation ∧ attempt.status = .running)
    (fun attempt => { attempt with status }) fun _ => ⟨rfl, rfl⟩

/-- `SELECT id … ORDER BY attempt_no DESC LIMIT 1` in an execution generation. -/
def latestAttemptID (runID : String) (generation : Nat) : Tx (Option String) := do
  let attempts ← Place.attempts.selectAll fun attempt => attempt.Of runID generation
  pure ((highestAttempt attempts).map DiagnosisAttempt.id)

def RunStatus.active : RunStatus → Bool
  | .queued | .running => true
  | _ => false

def cancelDiagnosisRunTx (runID : String) (generation : Nat) : Tx Unit := do
  let _ ← closeRunningAttempts runID generation .abandoned
  let latest ← latestAttemptID runID generation
  let affected ← Place.runs.update (fun run => run.id = runID ∧ run.status.active = true)
    (fun run => { run with
      status := .cancelled
      cancelRequested := true
      finalAttemptID := latest.or run.finalAttemptID
      version := run.version + 1 }) fun _ => ⟨rfl, rfl⟩
  if affected = 0 then
    match ← Place.runs.select fun run => run.id = runID with
    | none => pure ()
    | some run =>
      require (run.status = .cancelled)
        (.message ("diagnosis " ++ runID ++ " cannot be cancelled from status " ++ run.status.text))
  else pure ()

def conditionalFinalizeCancel (claim : Claim) : Tx Unit := do
  let owned ← loadOwnedRunningJobTx claim
  require (owned.jobType = .runDiagnosis) (.sentinel .cancellationUnsupported)
  require (owned.cancelRequested = true) (.sentinel .cancellationNotRequested)
  let affected ← Place.jobs.update
    (fun job => job.HeldBy claim ∧ job.executionStarted = true ∧ job.cancelRequested = true)
    (fun job => { job with status := .cancelled, terminalReason := some .cancelled })
    AnalysisJob.keeps_cancelled
  require (affected ≠ 0) errOwnershipLost
  cancelDiagnosisRunTx owned.resourceID owned.executionGeneration

def cancelInstead (claim : Claim) (owned : AnalysisJob) : Tx Unit := do
  require (owned.jobType = .runDiagnosis) (.sentinel .cancellationUnsupported)
  conditionalFinalizeCancel claim

def conditionalFinalizeSuccess (claim : Claim) : Tx Unit := do
  let owned ← loadOwnedRunningJobTx claim
  if owned.cancelRequested = true then cancelInstead claim owned
  else
    let affected ← Place.jobs.update
      (fun job => job.HeldBy claim ∧ job.executionStarted = true ∧ job.cancelRequested = false)
      (fun job => { job with status := .succeeded }) AnalysisJob.keeps_succeeded
    if affected = 0 then
      match ← Place.jobs.select fun job => job.HeldBy claim ∧ job.executionStarted = true with
      | some current =>
        if current.cancelRequested = true then cancelInstead claim current
        else fail errOwnershipLost
      | none =>
        let row ← Place.jobs.select fun job => job.id = claim.jobID
        fail (if row.any (fun job => job.status.terminal) then errAlreadyFinalized
          else errOwnershipLost)
    else pure ()

/-- What a terminal failure finds if its business row was not active: it must be FAILED already. -/
def requireFailed (jobType : JobType) (resourceID : String) (found : Bool) : Tx Unit :=
  require (found = true)
    (.message ("ATOMIC_FINALIZATION_STATE_CONFLICT: terminal business transition for " ++
      jobType.text ++ "/" ++ resourceID))

def failSnapshotTx (resourceID code : String) : Tx Unit := do
  let affected ← Place.snapshots.update
    (fun snap => snap.id = resourceID ∧ (snap.status = .created ∨ snap.status = .materializing))
    (fun snap => { snap with status := .failed, errorCode := code }) fun _ => ⟨rfl, rfl⟩
  if affected = 0 then
    let row ← Place.snapshots.select fun snap => snap.id = resourceID
    requireFailed .materializeSnapshot resourceID (row.any fun snap => snap.status = .failed)
  else pure ()

def failCodeIndexBuildTx (resourceID code : String) : Tx Unit := do
  let affected ← Place.codeIndexBuilds.update
    (fun build => toString build.id = resourceID ∧
      (build.status = .created ∨ build.status = .building))
    (fun build => { build with status := .failed, errorCode := code }) fun _ => ⟨rfl, rfl⟩
  if affected = 0 then
    let row ← Place.codeIndexBuilds.select fun build => toString build.id = resourceID
    requireFailed .buildCodeIndex resourceID (row.any fun build => build.status = .failed)
  else pure ()

def failRetrievalBuildTx (resourceID code : String) : Tx Unit := do
  let affected ← Place.retrievalBuilds.update
    (fun build => toString build.id = resourceID ∧
      (build.status = .created ∨ build.status = .building))
    (fun build => { build with status := .failed, errorCode := code }) fun _ => ⟨rfl, rfl⟩
  if affected = 0 then
    let row ← Place.retrievalBuilds.select fun build => toString build.id = resourceID
    requireFailed .buildRetrieval resourceID (row.any fun build => build.status = .failed)
  else pure ()

def failRunStatusTx (runID : String) : Tx Unit := do
  let affected ← Place.runs.update (fun run => run.id = runID ∧ run.status.active = true)
    (fun run => { run with status := .failed, version := run.version + 1 }) fun _ => ⟨rfl, rfl⟩
  if affected = 0 then
    let row ← Place.runs.select fun run => run.id = runID
    requireFailed .runDiagnosis runID (row.any fun run => run.status = .failed)
  else pure ()

/-- `failBusinessTx` for a diagnosis: the run, its RUNNING attempts of the generation, and the final
attempt of a FAILED run. -/
def failRunTx (runID : String) (generation : Nat) (reaped : Bool) : Tx Unit := do
  failRunStatusTx runID
  let _ ← closeRunningAttempts runID generation (if reaped then .abandoned else .failedTerminal)
  let latest ← latestAttemptID runID generation
  let _ ← Place.runs.update (fun run => run.id = runID ∧ run.status = .failed)
    (fun run => { run with finalAttemptID := latest }) fun _ => ⟨rfl, rfl⟩
  pure ()

/-- `revisionResourceIdentity`: the revision a business row belongs to and the
lineage it was built from. -/
structure RevisionResourceIdentity where
  revisionID : String
  snapshotID : String
  codeIndexBuildID : String
  retrievalBuildID : String

def revisionStateConflict (jobType : JobType) (resourceID detail : String) : Err :=
  .message ("ATOMIC_FINALIZATION_STATE_CONFLICT: revision-aware resource " ++ jobType.text ++
    "/" ++ resourceID ++ ": " ++ detail)

/-- `readRevisionResourceIdentityTx` for a pipeline stage. -/
def readRevisionResourceIdentityTx (jobType : JobType) (resourceID : String) :
    Tx RevisionResourceIdentity := do
  let missing := revisionStateConflict jobType resourceID
    "business resource disappeared before revision validation"
  match jobType with
  | .materializeSnapshot =>
    let snap ← expect (← Place.snapshots.select fun snap => snap.id = resourceID) missing
    pure ⟨snap.analysisRevisionID, snap.id, "", ""⟩
  | .buildCodeIndex =>
    let build ← expect
      (← Place.codeIndexBuilds.select fun build => toString build.id = resourceID) missing
    pure ⟨build.analysisRevisionID, build.snapshotID, resourceID, ""⟩
  | .buildRetrieval =>
    let build ← expect
      (← Place.retrievalBuilds.select fun build => toString build.id = resourceID) missing
    pure ⟨build.analysisRevisionID, "", toString build.codeIndexBuildID, resourceID⟩
  | .runDiagnosis => pure ⟨"", "", "", ""⟩

/-- `validateRevisionResourceLink`. -/
def RevisionResourceIdentity.linked (identity : RevisionResourceIdentity) (jobType : JobType)
    (revision : AnalysisRevision) : Bool :=
  match jobType with
  | .materializeSnapshot => revision.snapshotID = identity.snapshotID
  | .buildCodeIndex =>
    revision.snapshotID = identity.snapshotID ∧
      toString revision.codeIndexBuildID = identity.codeIndexBuildID
  | .buildRetrieval =>
    toString revision.codeIndexBuildID = identity.codeIndexBuildID ∧
      toString revision.retrievalBuildID = identity.retrievalBuildID
  | .runDiagnosis => false

def JobType.stage : JobType → Option RevisionStage
  | .materializeSnapshot => some .materializing
  | .buildCodeIndex => some .buildingCode
  | .buildRetrieval => some .buildingSearch
  | .runDiagnosis => none

def failRevisionTx (jobType : JobType) (resourceID code message : String)
    (stage : RevisionStage) (identity : RevisionResourceIdentity) : Tx Unit := do
  let revision ← expect
    (← Place.revisions.select fun revision => revision.id = identity.revisionID)
    (revisionStateConflict jobType resourceID "linked revision is missing or unreadable")
  require (identity.linked jobType revision = true)
    (revisionStateConflict jobType resourceID
      "linked revision does not point back to the business resource lineage")
  let affected ← Place.revisions.update
    (fun revision => revision.id = identity.revisionID ∧ revision.status = .preparing ∧
      revision.stage = stage)
    (fun revision => { revision with
      status := .failed
      stage
      errorCode := code
      errorMessage := message
      version := revision.version + 1 }) fun _ => ⟨rfl, rfl⟩
  if affected = 1 then pure ()
  else
    let current ← expect
      (← Place.revisions.select fun revision => revision.id = identity.revisionID)
      (revisionStateConflict jobType resourceID
        "linked revision disappeared during failure transition")
    require (identity.linked jobType current = true ∧ current.status = .failed ∧
        current.stage = stage)
      (revisionStateConflict jobType resourceID "linked revision is in another stage")

def failAnalysisRevisionTx (jobType : JobType) (resourceID code message : String) : Tx Unit :=
  match jobType.stage with
  | none => pure ()
  | some stage => do
      let identity ← readRevisionResourceIdentityTx jobType resourceID
      if identity.revisionID = "" then pure ()
      else failRevisionTx jobType resourceID code message stage identity

def failBusinessRowTx (job : AnalysisJob) (reaped : Bool) (code : String) : Tx Unit :=
  match job.jobType with
  | .materializeSnapshot => failSnapshotTx job.resourceID code
  | .buildCodeIndex => failCodeIndexBuildTx job.resourceID code
  | .buildRetrieval => failRetrievalBuildTx job.resourceID code
  | .runDiagnosis => failRunTx job.resourceID job.executionGeneration reaped

def failBusinessTx (jobID : Nat) (reaped : Bool) (errorCode errorMessage : String) :
    Tx Unit := do
  let job ← getJobByID jobID
  let code :=
    if reaped then "LEASE_EXPIRED_EXHAUSTED"
    else if errorCode ≠ "" then errorCode
    else "JOB_FAILED"
  let message :=
    if reaped then "Job lease expired and max attempts exceeded" else errorMessage
  failBusinessRowTx job reaped code
  failAnalysisRevisionTx job.jobType job.resourceID code message

/-- What a failed execution leaves on its job. -/
structure Failure where
  errorClass : ErrorClass
  errorCode : String
  errorMessage : String
  terminalReason : Option TerminalReason
  isTerminal : Bool
  nextRunAt : Time
  deriving DecidableEq, Repr

/-- The UPDATE of `ConditionalFinalizeFailureTx`. -/
def AnalysisJob.afterFailure (job : AnalysisJob) (failure : Failure) : AnalysisJob :=
  { job with
    status := if failure.isTerminal then .failed else .retryWait
    terminalReason := if failure.isTerminal then failure.terminalReason else job.terminalReason
    nextRunAt := if failure.isTerminal then job.nextRunAt else failure.nextRunAt
    lastErrorClass := some failure.errorClass
    lastErrorCode := some failure.errorCode
    lastErrorMessage := some failure.errorMessage }

def conditionalFinalizeFailure (claim : Claim) (failure : Failure) : Tx Unit := do
  let owned ← loadOwnedRunningJobTx claim
  if owned.jobType = .runDiagnosis ∧ owned.cancelRequested = true then
    -- A cancellation accepted while the handler was returning wins.
    conditionalFinalizeCancel claim
  else
    let affected ← Place.jobs.update
      (fun job => job.HeldBy claim ∧ job.executionStarted = true ∧
        (owned.jobType = .runDiagnosis → job.cancelRequested = false))
      (fun job => job.afterFailure failure) fun _ => ⟨rfl, rfl⟩
    if affected = 0 then
      let current ← Place.jobs.select fun job =>
        job.HeldBy claim ∧ job.executionStarted = true ∧ job.cancelRequested = true
      if owned.jobType = .runDiagnosis ∧ current.isSome = true then
        conditionalFinalizeCancel claim
      else fail errOwnershipLost
    else if failure.isTerminal = true then
      failBusinessTx claim.jobID false failure.errorCode failure.errorMessage
    else pure ()

def isCancelRequested (claim : Claim) : Tx Bool := do
  let job ← expect (← Place.jobs.select fun job => job.HeldBy claim) errOwnershipLost
  pure job.cancelRequested

/-- The power of two of `CalculateBackoff`, capped at 64. -/
def backoffFactor (attempt : Nat) : Nat :=
  if attempt - 1 ≤ 6 then 2 ^ (attempt - 1) else 64

def calculateBackoff (attempt baseDuration maxDuration jitter : Nat) : Nat :=
  let backoff := min (baseDuration * backoffFactor attempt) maxDuration
  min (backoff + jitter % (backoff / 4 + 1)) maxDuration

def AnalysisJob.Executing (job : AnalysisJob) (attempt : DiagnosisAttempt) : Prop :=
  attempt.Of job.resourceID job.executionGeneration ∧ attempt.attemptNo = job.attemptCount

instance (job : AnalysisJob) (attempt : DiagnosisAttempt) : Decidable (job.Executing attempt) :=
  inferInstanceAs (Decidable (_ ∧ _))

def cancelExpiredDiagnosisTx (expired : AnalysisJob) (now : Time) : Tx Unit := do
  let affected ← Place.jobs.update
    (fun job => job.id = expired.id ∧ job.status = .running ∧ job.cancelRequested = true ∧
      job.leaseExpired now = true)
    (fun job => { job with status := .cancelled, terminalReason := some .cancelled })
    AnalysisJob.keeps_cancelled
  require (affected = 1) (.message ("expired diagnosis job " ++ toString expired.id ++
    " changed before cancellation recovery"))
  let _ ← Place.attempts.update
    (fun attempt => expired.Executing attempt ∧ attempt.status = .running)
    (fun attempt => { attempt with status := .abandoned }) fun _ => ⟨rfl, rfl⟩
  let current ← Place.attempts.select fun attempt => expired.Executing attempt
  let affected ← Place.runs.update
    (fun run => run.id = expired.resourceID ∧ run.status.active = true)
    (fun run => { run with
      status := .cancelled
      cancelRequested := true
      finalAttemptID := current.map DiagnosisAttempt.id
      version := run.version + 1 }) fun _ => ⟨rfl, rfl⟩
  if affected = 0 then
    let run ← expect (← Place.runs.select fun run => run.id = expired.resourceID) errNoRows
    require (run.status = .cancelled) (.message ("expired diagnosis run " ++ expired.resourceID ++
      " cannot be cancelled from status " ++ run.status.text))
  else pure ()

def DiagnosisAttempt.outcomeUnknown (attempt : DiagnosisAttempt) : Bool :=
  attempt.checkpointErrorCode = "PROVIDER_OUTCOME_UNKNOWN" ∨
    attempt.providerDispatchUnresolved = true

def AnalysisJob.MarkedUnknown (job : AnalysisJob) (attempt : DiagnosisAttempt) : Prop :=
  job.Executing attempt ∧ (attempt.status = .running ∨ attempt.status = .abandoned) ∧
    attempt.outcomeUnknown = true

instance (job : AnalysisJob) (attempt : DiagnosisAttempt) :
    Decidable (job.MarkedUnknown attempt) :=
  inferInstanceAs (Decidable (_ ∧ _))

def failExpiredDiagnosisOutcomeUnknownTx (expired : AnalysisJob) (marked : DiagnosisAttempt) :
    Tx Unit := do
  let message :=
    if marked.checkpointErrorMessage = "" then
      "provider request outcome could not be confirmed; automatic replay is disabled"
    else marked.checkpointErrorMessage
  let affected ← Place.attempts.update
    (fun attempt => attempt.id = marked.id ∧ expired.MarkedUnknown attempt)
    (fun attempt => { attempt with
      status := .failedTerminal
      errorCode := "PROVIDER_OUTCOME_UNKNOWN"
      errorMessage := message
      retryable := false }) fun _ => ⟨rfl, rfl⟩
  require (affected = 1)
    (.message ("ambiguous diagnosis attempt for " ++ expired.resourceID ++
      " changed before reaper terminalization"))
  let affected ← Place.runs.update
    (fun run => run.id = expired.resourceID ∧ run.status = .running ∧
      run.cancelRequested = false)
    (fun run => { run with
      status := .failed
      finalAttemptID := some marked.id
      version := run.version + 1 }) fun _ => ⟨rfl, rfl⟩
  require (affected = 1)
    (.message ("ambiguous diagnosis run " ++ expired.resourceID ++
      " changed before reaper terminalization"))
  let affected ← Place.jobs.update
    (fun job => job.id = expired.id ∧ job.status = .running ∧ job.executionStarted = true)
    (fun job => { job with
      status := .failed
      terminalReason := some .permanent
      lastErrorClass := some .permanent
      lastErrorCode := some "PROVIDER_OUTCOME_UNKNOWN"
      lastErrorMessage := some message }) fun _ => ⟨rfl, rfl⟩
  require (affected = 1)
    (.message ("ambiguous diagnosis job " ++ toString expired.id ++
      " changed before reaper terminalization"))

def requeueNeverStartedTx (expired : AnalysisJob) (now : Time) : Tx Unit := do
  let affected ← Place.jobs.update
    (fun job => job.id = expired.id ∧ job.status = .running ∧ job.executionStarted = false)
    (fun job => { job.unclaimed with nextRunAt := now, executionStarted := false })
    fun _ => ⟨rfl, rfl⟩
  require (affected = 1) (.message ("never-started job " ++ toString expired.id ++
    " changed before requeue"))

def scheduleReapedRetryTx (expired : AnalysisJob) (nextRun : Time) : Tx Unit := do
  let affected ← Place.jobs.update (fun job => job.id = expired.id)
    (fun job => { job with
      status := .retryWait
      nextRunAt := nextRun
      lastErrorClass := some .ownershipLost
      lastErrorCode := some "LEASE_EXPIRED"
      lastErrorMessage := some "Job lease expired and worker did not renew" })
    fun _ => ⟨rfl, rfl⟩
  require (affected = 1) (.message ("expired job " ++ toString expired.id ++
    " changed before retry scheduling"))
  if expired.jobType = .runDiagnosis then
    let _ ← Place.attempts.update
      (fun attempt => expired.Executing attempt ∧ attempt.status = .running)
      (fun attempt => { attempt with
        status := .abandoned
        errorCode := "LEASE_EXPIRED"
        errorMessage := "Job lease expired; current attempt abandoned" })
      fun _ => ⟨rfl, rfl⟩
    pure ()
  else pure ()

def failReapedTx (expired : AnalysisJob) : Tx Unit := do
  failBusinessTx expired.id true "LEASE_EXPIRED_EXHAUSTED"
    "Job lease expired and max attempts exceeded"
  let _ ← Place.jobs.update (fun job => job.id = expired.id)
    (fun job => { job with
      status := .failed
      terminalReason := some .retryableExhausted
      lastErrorClass := some .ownershipLost
      lastErrorCode := some "LEASE_EXPIRED_EXHAUSTED"
      lastErrorMessage := some "Job lease expired and max attempts exceeded" })
    fun _ => ⟨rfl, rfl⟩
  pure ()

def reapStartedTx (expired : AnalysisJob) (jitter : Nat) (now : Time) : Tx Unit :=
  if expired.attemptCount < expired.maxAttempts then
    scheduleReapedRetryTx expired (now + calculateBackoff expired.attemptCount 1000 60000 jitter)
  else failReapedTx expired

def reapExpiredJobTx (expired : AnalysisJob) (jitter : Nat) (now : Time) : Tx Unit :=
  if expired.jobType = .runDiagnosis ∧ expired.cancelRequested = true then
    cancelExpiredDiagnosisTx expired now
  else if expired.executionStarted = false then requeueNeverStartedTx expired now
  else if expired.jobType = .runDiagnosis then do
    match ← Place.attempts.select fun attempt => expired.MarkedUnknown attempt with
    | some marked => failExpiredDiagnosisOutcomeUnknownTx expired marked
    | none => reapStartedTx expired jitter now
  else reapStartedTx expired jitter now

def reapEach (jitter : Nat → Nat) (now : Time) : List AnalysisJob → Tx Nat
  | [] => pure 0
  | expired :: rest => do
      reapExpiredJobTx expired (jitter expired.id) now
      let reaped ← reapEach jitter now rest
      pure (reaped + 1)

def reapExpiredJobs (batchSize : Nat) (pick : AnalysisJob → Bool) (jitter : Nat → Nat)
    (now : Time) : Tx Nat := do
  let expired ← Place.jobs.selectAll fun job =>
    job.status = .running ∧ job.leaseExpired now = true ∧ pick job = true
  reapEach jitter now (expired.take batchSize)

def AnalysisJob.requeued (job : AnalysisJob) (generation : Nat) (now : Time) : AnalysisJob :=
  { job with
    status := .pending
    executionGeneration := generation
    attemptCount := 0
    executionStarted := false
    nextRunAt := now
    workerID := none
    claimToken := none
    leaseUntil := none
    cancelRequested := false
    lastErrorClass := none
    lastErrorCode := none
    lastErrorMessage := none
    terminalReason := none }

def restoreBusinessTx (jobType : JobType) (resourceID : String) : Tx (Nat × Bool) :=
  match jobType with
  | .materializeSnapshot => do
      let affected ← Place.snapshots.update
        (fun snap => snap.id = resourceID ∧ snap.status = .failed)
        (fun snap => { snap with status := .created, errorCode := "" }) fun _ => ⟨rfl, rfl⟩
      let row ← Place.snapshots.select fun snap => snap.id = resourceID
      pure (affected, row.isSome)
  | .buildCodeIndex => do
      let affected ← Place.codeIndexBuilds.update
        (fun build => toString build.id = resourceID ∧ build.status = .failed)
        (fun build => { build with status := .created, errorCode := "" })
        CodeIndexBuild.keeps_created
      let row ← Place.codeIndexBuilds.select fun build => toString build.id = resourceID
      pure (affected, row.isSome)
  | .buildRetrieval => do
      let affected ← Place.retrievalBuilds.update
        (fun build => toString build.id = resourceID ∧ build.status = .failed)
        (fun build => { build with status := .created, errorCode := "" })
        RetrievalBuild.keeps_created
      let row ← Place.retrievalBuilds.select fun build => toString build.id = resourceID
      pure (affected, row.isSome)
  | .runDiagnosis => do
      let affected ← Place.runs.update (fun run => run.id = resourceID ∧ run.status = .failed)
        (fun run => { run with
          status := .queued
          cancelRequested := false
          finalAttemptID := none
          version := run.version + 1 }) fun _ => ⟨rfl, rfl⟩
      let row ← Place.runs.select fun run => run.id = resourceID
      pure (affected, row.isSome)

/-- `ManualRequeueTx`. A missing business row is tolerated. -/
def manualRequeue (jobType : JobType) (resourceID : String) (now : Time) : Tx Unit := do
  let restored ← restoreBusinessTx jobType resourceID
  require (restored.1 = 1 ∨ restored.2 = false)
    (.message ("cannot requeue business object (" ++ jobType.text ++ ", " ++ resourceID ++
      "): not in FAILED state"))
  let affected ← Place.jobs.update
    (fun job => job.For jobType resourceID ∧ job.status = .failed ∧
      job.terminalReason = some .retryableExhausted)
    (fun job => job.requeued (job.executionGeneration + 1) now) fun _ => ⟨rfl, rfl⟩
  require (affected ≠ 0)
    (.message ("cannot requeue job (" ++ jobType.text ++ ", " ++ resourceID ++
      "): not in FAILED state with RETRYABLE_EXHAUSTED"))

def normalizeCode (code : String) : String :=
  let trimmed := (code.toList.dropWhile Char.isWhitespace).reverse.dropWhile Char.isWhitespace
  String.ofList (trimmed.reverse.map Char.toUpper)

def isRetryableDiagnosisProviderError (code : String) : Bool :=
  normalizeCode code ∈
    ["PROVIDER_TIMEOUT", "PROVIDER_CONNECTION_FAILED", "PROVIDER_UPSTREAM_ERROR",
      "PROVIDER_RATE_LIMITED", "PROVIDER_5XX", "PROVIDER_NETWORK_ERROR",
      "HTTP_429_RATE_LIMITED", "HTTP_5XX_SERVER_ERROR", "TRANSIENT_NETWORK_ERROR"]

/-- `IsRetryableDiagnosisProviderFailure`; a NULL class is `none`. -/
def isRetryableDiagnosisProviderFailure (errorClass : Option ErrorClass) (code : String) :
    Bool :=
  (errorClass = some .permanent ∧ normalizeCode code ∈
      ["PROVIDER_PROGRESS_ABORTED", "PROVIDER_OUTCOME_UNKNOWN", "CHECKPOINT_SAVE_FAILED",
        "CHECKPOINT_VERSION_MISMATCH"]) ∨
    (errorClass = some .retryable ∧ isRetryableDiagnosisProviderError code = true)

def retryDiagnosis (runID : String) (now : Time) : Tx Unit := do
  let failed ← expect
    (← Place.jobs.select fun job => job.For .runDiagnosis runID ∧ job.status = .failed)
    errNoRows
  require
    (isRetryableDiagnosisProviderFailure failed.lastErrorClass (failed.lastErrorCode.getD "") =
      true)
    (.message "diagnosis retry is only allowed after an external provider failure")
  let affected ← Place.runs.update (fun run => run.id = runID ∧ run.status = .failed)
    (fun run => { run with
      status := .queued
      cancelRequested := false
      finalAttemptID := none
      version := run.version + 1 }) fun _ => ⟨rfl, rfl⟩
  require (affected = 1) (.message ("diagnosis " ++ runID ++ " is not in FAILED state"))
  let affected ← Place.jobs.update
    (fun job => job.For .runDiagnosis runID ∧ job.status = .failed)
    (fun job => job.requeued (job.executionGeneration + 1) now) fun _ => ⟨rfl, rfl⟩
  require (affected = 1) (.message ("diagnosis job " ++ runID ++ " is not retryable"))

end RepoLens
