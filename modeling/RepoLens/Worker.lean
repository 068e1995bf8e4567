import RepoLens.StageHandlers
import RepoLens.DiagnosisHandler

/-!
The life of one claim in `internal/jobs/worker.go`: charge the execution, invoke the handler, and
bring the job to the state that the handler's outcome asks for.
-/

namespace RepoLens

open Interleaving

inductive ExecutionStart where
  | unknown
  | notStarted
  | started (attemptCount : Nat)
  | ownershipLost
  deriving DecidableEq, Repr

def resolveExecutionStart (claim : Claim) (generation : Nat) : Prog ExecutionStart := do
  let answer : Except Err AnalysisJob ← askStore (.getJobByID claim.jobID)
  match answer with
  | .error _ => pure .unknown
  | .ok current =>
    if current.HeldBy claim ∧ current.executionGeneration = generation then
      if current.executionStarted then pure (.started current.attemptCount)
      else pure .notStarted
    else pure .ownershipLost

def renewUnstarted (claim : Claim) : Prog (Option ExecutionStart) := do
  let stopped : Bool ← ask .stopRequested
  if stopped then pure (some .notStarted)
  else
    let renewed : Except Err Unit ← askStore (.renewLease claim)
    match renewed with
    | .error err =>
      if err.is (.stop .ownershipLost) then pure (some .ownershipLost)
      else
        let ended : Bool ← ask .waitEnded
        pure (if ended then some .notStarted else none)
    | .ok _ =>
      let ended : Bool ← ask .waitEnded
      pure (if ended then some .notStarted else none)

def startClaimedExecution (claim : Claim) (generation : Nat) :
    (rounds : Nat) → Prog (Option ExecutionStart)
  | 0 => pure none
  | rounds + 1 => do
      let stopped : Bool ← ask .stopRequested
      if stopped then pure (some .notStarted)
      else
        let answer : Except Err Nat ← askStore (.markExecutionStarted claim generation)
        match answer with
        | .ok attemptCount => pure (some (.started attemptCount))
        | .error err =>
          if err.is (.stop .ownershipLost) then pure (some .ownershipLost)
          else
            match ← resolveExecutionStart claim generation with
            | .notStarted =>
              match ← renewUnstarted claim with
              | some resolved => pure (some resolved)
              | none => startClaimedExecution claim generation rounds
            | resolved => pure (some resolved)

def returnUndispatchedClaims (claim : Claim) (generation : Nat) : (rounds : Nat) → Prog Unit
  | 0 => pure ()
  | rounds + 1 => do
      let ended : Bool ← ask .waitEnded
      if ended then pure ()
      else
        let _ : Except Err Unit ← askStore (.renewLease claim)
        let ended : Bool ← ask .waitEnded
        if ended then pure ()
        else
          let answer : Except Err Unit ← askStore (.returnUndispatchedClaim claim generation)
          match answer with
          | .ok _ => pure ()
          | .error err =>
            if err.is (.stop .ownershipLost) then pure ()
            else returnUndispatchedClaims claim generation rounds

/-- The three finalizers that the worker itself calls. -/
inductive Finalization where
  | success
  | failure (outcome : Failure)
  | cancel
  deriving DecidableEq, Repr

def Finalization.perform (claim : Claim) : Finalization → Prog (Except Err Unit)
  | .success => askStore (.conditionalFinalizeSuccess claim)
  | .failure outcome => askStore (.conditionalFinalizeFailure claim outcome)
  | .cancel => askStore (.conditionalFinalizeCancel claim)

def sameExecutionClaim (job current : AnalysisJob) (workerID : String) : Bool :=
  match job.claimToken, current.claimToken, current.workerID with
  | some token, some currentToken, some currentWorker =>
    job.executionStarted ∧ current.executionStarted ∧ currentWorker = workerID ∧
      currentToken = token ∧ current.executionGeneration = job.executionGeneration
  | _, _, _ => false

def cancelledFinalizationExpected (job : AnalysisJob) : Bool :=
  job.status = .cancelled ∧ job.cancelRequested ∧ job.terminalReason = some .cancelled

def successFinalizationExpected (job : AnalysisJob) : Bool :=
  job.status = .succeeded ∨ cancelledFinalizationExpected job = true

def failureFinalizationExpected (failure : Failure) (job : AnalysisJob) : Bool :=
  cancelledFinalizationExpected job = true ∨
    (job.status = (if failure.isTerminal then .failed else .retryWait) ∧
      job.lastErrorClass = some failure.errorClass ∧
      job.lastErrorCode = some failure.errorCode ∧
      (failure.isTerminal = true →
        failure.terminalReason.isSome = true ∧ job.terminalReason = failure.terminalReason))

def Finalization.expected : Finalization → AnalysisJob → Bool
  | .success => successFinalizationExpected
  | .failure outcome => failureFinalizationExpected outcome
  | .cancel => cancelledFinalizationExpected

/-- Why `resolveFinalization` gave up when its context ended. -/
def finalizationEnded (lastErr : Err) : Err :=
  if lastErr = .nil then errWorkerShutdown
  else .wrap ("finalization context ended after " ++ lastErr.error ++ ": ") errWorkerShutdown

/-- What the durable job says about a failed finalization: `some err` ends the loop (nil is
success), `none` asks for another round. -/
def judgeFinalization (claim : Claim) (job : AnalysisJob) (finalization : Finalization)
    (current : Except Err AnalysisJob) : Option Err :=
  match current with
  | .error err => if err = errNoRows then some errOwnershipLost else none
  | .ok current =>
    if sameExecutionClaim job current claim.workerID then
      if finalization.expected current then some .nil
      else if current.status ≠ .running ∨ current.executionStarted = false then
        some (.message ("job " ++ toString claim.jobID ++
          " left the active claim without reaching the expected terminal state: status=" ++
          current.status.text))
      else none
    else some errOwnershipLost

def resolveFinalization (claim : Claim) (job : AnalysisJob) (finalization : Finalization) :
    (rounds : Nat) → (lastErr : Err) → Prog (Option Err)
  | 0, _ => pure none
  | rounds + 1, lastErr => do
      let stopped : Bool ← ask .finalizationStopped
      if stopped then pure (some (finalizationEnded lastErr))
      else
        match ← finalization.perform claim with
        | .ok _ => pure (some .nil)
        | .error err =>
          let current : Except Err AnalysisJob ← askStore (.getJobByID claim.jobID)
          match judgeFinalization claim job finalization current with
          | some resolved => pure (some resolved)
          | none => resolveFinalization claim job finalization rounds err

def finish (claim : Claim) (job : AnalysisJob) (rounds : Nat) (finalization : Finalization) :
    Prog Unit := do
  match ← resolveFinalization claim job finalization rounds .nil with
  | none => pure ()
  | some err =>
    if err ≠ .nil ∧ err.is (.stop .ownershipLost) = false then
      ask (.recordFinalizationError err)
    else ask .clearFinalizationError

inductive AtomicResolution where
  | unresolved (err : Err)
  | accepted
  | sameClaimRunning
  | ownershipLost
  | stateConflict (status : JobStatus)
  deriving DecidableEq, Repr

def resolveAtomicHandlerFinalization (claim : Claim) (job : AnalysisJob) (expected : JobStatus)
    (answer : Except Err AnalysisJob) : AtomicResolution :=
  match answer with
  | .error err =>
    if err = errNoRows then .ownershipLost
    else .unresolved (.wrap "read durable job after handler finalization error: " err)
  | .ok current =>
    if sameExecutionClaim job current claim.workerID = false then .ownershipLost
    else if expected.terminal = true ∧ current.status = expected then .accepted
    else if current.status = .running ∧ current.executionStarted = true then .sameClaimRunning
    else .stateConflict current.status

def preserveProviderOutcomeUnknownPolicy (policy : Option AtomicHandlerFailurePolicy) : Bool :=
  policy.any fun policy =>
    policy.errorClass = .permanent ∧ policy.errorCode = "PROVIDER_OUTCOME_UNKNOWN"

def policyFailure (policy : AtomicHandlerFailurePolicy) : Failure where
  errorClass := policy.errorClass
  errorCode := policy.errorCode
  errorMessage := policy.errorMessage
  terminalReason := policy.terminalReason
  isTerminal := policy.terminal
  nextRunAt := 0

def ordinaryFailure (job : AnalysisJob) (err : Err) (nextRunAt : Time) : Failure :=
  let classified := classifyError err
  let isTerminal : Bool := classified.1 = .permanent ∨ job.maxAttempts ≤ job.attemptCount
  { errorClass := classified.1
    errorCode := classified.2
    errorMessage := err.error
    terminalReason :=
      if isTerminal then
        some (if classified.1 = .permanent then .permanent else .retryableExhausted)
      else none
    isTerminal
    nextRunAt := if isTerminal then 0 else nextRunAt }

def decidedClass (policy : Option AtomicHandlerFailurePolicy) (err : Err) : ErrorClass :=
  match policy with
  | some policy => policy.errorClass
  | none => (classifyError err).1

/-- What `executeJob` does with the outcome that remains. -/
def settleOutcome (claim : Claim) (job : AnalysisJob) (rounds : Nat)
    (policy : Option AtomicHandlerFailurePolicy) (err : Err) : Prog Unit := do
  if err = .nil then finish claim job rounds .success
  else if err.is .alreadyFinalized then pure ()
  else if decidedClass policy err = .cancelled then finish claim job rounds .cancel
  else if err.is (.stop .ownershipLost) ∨ decidedClass policy err = .ownershipLost then pure ()
  else
    match policy with
    | some policy => finish claim job rounds (.failure (policyFailure policy))
    | none =>
      let nextRunAt : Time ← ask .nextRunAt
      finish claim job rounds (.failure (ordinaryFailure job err nextRunAt))

def applyCause (claim : Claim) (job : AnalysisJob) (rounds : Nat)
    (policy : Option AtomicHandlerFailurePolicy) (err : Err) : Prog Unit := do
  let cause : Err ← ask .cause
  let preserve := preserveProviderOutcomeUnknownPolicy policy
  if cause.is (.stop .shutdown) && !preserve then pure ()
  else if cause ≠ .nil ∧ (cause.is (.stop .ownershipLost) = true ∨ preserve = false) then
    match policy with
    | some policy =>
      let _ : Unit ← ask (.dropPolicy policy cause)
      settleOutcome claim job rounds none cause
    | none => settleOutcome claim job rounds none cause
  else settleOutcome claim job rounds policy err

def stateConflictErr (expected status : JobStatus) : Err :=
  .wrap ("ATOMIC_FINALIZATION_STATE_CONFLICT: expected " ++ expected.text ++
    ", durable job is " ++ status.text ++ ": ") (.message status.text)

def resolveOutcome (claim : Claim) (job : AnalysisJob) (rounds : Nat) (err : Err) :
    Prog Unit := do
  match err.asAtomicFinalization with
  | none => applyCause claim job rounds none err
  | some (expected, cause, policy) =>
    let answer : Except Err AnalysisJob ← askStore (.getJobByID claim.jobID)
    match resolveAtomicHandlerFinalization claim job expected answer with
    | .accepted | .ownershipLost => ask .clearFinalizationError
    | .sameClaimRunning =>
      applyCause claim job rounds policy
        (if cause = .nil then .atomicFinalization expected cause policy else cause)
    | .stateConflict status => ask (.recordFinalizationError (stateConflictErr expected status))
    | .unresolved readErr =>
      ask (.recordFinalizationError
        (.wrap "handler-owned atomic finalization could not be reconciled: " readErr))

structure Handlers where
  registered : JobType → Bool
  diagnosis : DiagnosisHandler

def Handlers.execute (handlers : Handlers) (job : AnalysisJob) : Prog Err :=
  match job.jobType with
  | .materializeSnapshot => executeSnapshotJob job
  | .buildCodeIndex => executeCodeIndexJob job
  | .buildRetrieval => executeRetrievalJob job
  | .runDiagnosis => handlers.diagnosis.execute job

def noHandlerFailure (jobType : JobType) : Failure where
  errorClass := .permanent
  errorCode := "NO_HANDLER_REGISTERED"
  errorMessage := "no handler registered for job type " ++ jobType.text
  terminalReason := some .permanent
  isTerminal := true
  nextRunAt := 0

def executeJob (handlers : Handlers) (job : AnalysisJob) (rounds : Nat) : Prog Unit := do
  if handlers.registered job.jobType = false then
    finish job.claim job rounds (.failure (noHandlerFailure job.jobType))
  else if job.cancelRequested then finish job.claim job rounds .cancel
  else
    let _ : Unit ← ask (.invokeHandler job.executionGeneration)
    let err ← handlers.execute job
    resolveOutcome job.claim job rounds err

def startAndDispatchClaim (handlers : Handlers) (job : AnalysisJob) (rounds : Nat) :
    Prog Unit := do
  match ← startClaimedExecution job.claim job.executionGeneration rounds with
  | none | some .unknown | some .ownershipLost => pure ()
  | some .notStarted => returnUndispatchedClaims job.claim job.executionGeneration rounds
  | some (.started attemptCount) =>
    let stopped : Bool ← ask .stopRequested
    if stopped then pure ()
    else executeJob handlers { job with attemptCount, executionStarted := true } rounds

end RepoLens
