import Mathlib

/-!
The error values of the job system and how they are read: `errors.Is`, `errors.As` and
`ClassifyError` of `internal/jobs`.
-/

namespace RepoLens

inductive JobStatus where
  | pending | running | retryWait | succeeded | failed | cancelled
  deriving DecidableEq, Repr

inductive TerminalReason where
  | retryableExhausted | permanent | cancelled
  deriving DecidableEq, Repr

inductive ErrorClass where
  | retryable | permanent | cancelled | ownershipLost
  deriving DecidableEq, Repr

def ErrorClass.text : ErrorClass → String
  | .retryable => "RETRYABLE"
  | .permanent => "PERMANENT"
  | .cancelled => "CANCELLED"
  | .ownershipLost => "OWNERSHIP_LOST"

/-- `jobs.StopCause`: why a claimed handler stopped. -/
inductive StopCause where
  | userCancel | ownershipLost | leaseFailure | cancelPollError | shutdown
  deriving DecidableEq, Repr

def StopCause.text : StopCause → String
  | .userCancel => "user cancellation requested"
  | .ownershipLost => "job ownership lost: claim token or lease is no longer valid"
  | .leaseFailure => "lease renewal failed"
  | .cancelPollError => "cancel poll failed"
  | .shutdown => "worker shutdown"

/-- `jobs.JobStatus` as it is printed. -/
def JobStatus.text : JobStatus → String
  | .pending => "PENDING"
  | .running => "RUNNING"
  | .retryWait => "RETRY_WAIT"
  | .succeeded => "SUCCEEDED"
  | .failed => "FAILED"
  | .cancelled => "CANCELLED"

/-- `jobs.AtomicHandlerFailurePolicy`. `NextRunAt` is left out: no handler sets
it, and the worker reads it only for a policy that is not terminal. -/
structure AtomicHandlerFailurePolicy where
  errorClass : ErrorClass
  errorCode : String
  errorMessage : String
  terminalReason : Option TerminalReason
  terminal : Bool
  deriving DecidableEq, Repr

/-- The errors that other code compares with `errors.Is`. -/
inductive Sentinel where
  | stop (cause : StopCause)
  | alreadyFinalized
  | cancellationNotRequested
  | cancellationUnsupported
  | runNotFound
  | attemptNotFound
  | attemptNotRunning
  | attemptLeaseActive
  | claimConflict
  | runTransitionConflict
  | modelOutputTruncated
  | invalidStructuredReport
  | reportTooLarge
  | contextCanceled
  | contextDeadlineExceeded
  deriving DecidableEq, Repr

def Sentinel.text : Sentinel → String
  | .stop cause => cause.text
  | .alreadyFinalized => "job already finalized"
  | .cancellationNotRequested => "durable job cancellation was not requested"
  | .cancellationUnsupported => "cancellation is supported only for diagnosis jobs"
  | .runNotFound => "diagnosis run not found"
  | .attemptNotFound => "diagnosis attempt not found"
  | .attemptNotRunning => "diagnosis attempt is not running"
  | .attemptLeaseActive => "diagnosis attempt still has an active job lease"
  | .claimConflict =>
    "run claim conflict: status is not in expected state or already claimed"
  | .runTransitionConflict => "diagnosis run is not running"
  | .modelOutputTruncated => "MODEL_OUTPUT_TRUNCATED"
  | .invalidStructuredReport => "INVALID_STRUCTURED_REPORT"
  | .reportTooLarge => "REPORT_TOO_LARGE"
  | .contextCanceled => "context canceled"
  | .contextDeadlineExceeded => "context deadline exceeded"

inductive Err where
  | nil
  | sentinel (value : Sentinel)
  /-- An error that is only a text. -/
  | message (text : String)
  /-- `jobs.CategorizedError`. -/
  | categorized (errorClass : ErrorClass) (code message : String) (cause : Err)
  /-- `jobs.AtomicHandlerFinalizationError`. -/
  | atomicFinalization (expected : JobStatus) (cause : Err)
      (policy : Option AtomicHandlerFailurePolicy)
  /-- `llm.OutcomeUnknownError`. -/
  | outcomeUnknown (cause : Err)
  /-- `llm.HTTPError`. -/
  | http (statusCode : Nat) (body : String) (cause : Err)
  /-- A dial error that `llm.IsDefinitelyPreDispatch` recognises. -/
  | preDispatch (text : String)
  /-- `llm.ProviderResponseTooLargeError`. -/
  | responseTooLarge
  /-- `llm.CallError`. -/
  | call (cause : Err) (attempts : Nat)
  /-- `agent.ExecutionError` with what `Progressed` answers. -/
  | execution (cause : Err) (progressed : Bool)
  /-- `fmt.Errorf` with one wrapped error. -/
  | wrap (text : String) (cause : Err)
  /-- `errors.Join`, or `fmt.Errorf` with two wrapped errors. -/
  | join (separator : String) (first second : Err)
  deriving DecidableEq, Repr

namespace Err

def error : Err → String
  | .nil => ""
  | .sentinel value => value.text
  | .message text => text
  | .categorized _ _ msg .nil => msg
  | .categorized _ _ msg cause => msg ++ ": " ++ cause.error
  | .atomicFinalization expected .nil _ =>
    "atomic handler finalization expected " ++ expected.text
  | .atomicFinalization expected cause _ =>
    "atomic handler finalization expected " ++ expected.text ++ ": " ++ cause.error
  | .outcomeUnknown .nil => "provider outcome is unknown"
  | .outcomeUnknown cause => "provider outcome is unknown: " ++ cause.error
  | .http statusCode body _ =>
    "llm provider returned HTTP " ++ toString statusCode ++ ": " ++ body
  | .preDispatch text => text
  | .responseTooLarge => "PROVIDER_RESPONSE_TOO_LARGE"
  | .call cause _ => cause.error
  | .execution cause _ => cause.error
  | .wrap text cause => text ++ cause.error
  | .join separator first second => first.error ++ separator ++ second.error

def is (target : Sentinel) : Err → Bool
  | .nil | .message _ | .preDispatch _ | .responseTooLarge => false
  | .sentinel value => decide (value = target)
  | .categorized _ _ _ cause | .atomicFinalization _ cause _ | .outcomeUnknown cause
  | .http _ _ cause | .call cause _ | .execution cause _ | .wrap _ cause => cause.is target
  | .join _ first second => first.is target || second.is target

def as {α : Type} (pick : Err → Option α) : Err → Option α
  | .nil => none
  | .sentinel value => pick (.sentinel value)
  | .message text => pick (.message text)
  | .preDispatch text => pick (.preDispatch text)
  | .responseTooLarge => pick .responseTooLarge
  | .categorized errorClass code msg cause =>
    (pick (.categorized errorClass code msg cause)).or (cause.as pick)
  | .atomicFinalization expected cause policy =>
    (pick (.atomicFinalization expected cause policy)).or (cause.as pick)
  | .outcomeUnknown cause => (pick (.outcomeUnknown cause)).or (cause.as pick)
  | .http statusCode body cause => (pick (.http statusCode body cause)).or (cause.as pick)
  | .call cause attempts => (pick (.call cause attempts)).or (cause.as pick)
  | .execution cause progressed => (pick (.execution cause progressed)).or (cause.as pick)
  | .wrap text cause => (pick (.wrap text cause)).or (cause.as pick)
  | .join separator first second =>
    (pick (.join separator first second)).or ((first.as pick).or (second.as pick))

def asCategorized (err : Err) : Option (ErrorClass × String) :=
  err.as fun
    | .categorized errorClass code _ _ => some (errorClass, code)
    | _ => none

/-- `errors.As` with a `*jobs.AtomicHandlerFinalizationError`. -/
def asAtomicFinalization (err : Err) :
    Option (JobStatus × Err × Option AtomicHandlerFailurePolicy) :=
  err.as fun
    | .atomicFinalization expected cause policy => some (expected, cause, policy)
    | _ => none

/-- `errors.As` with a `*llm.OutcomeUnknownError`. -/
def isOutcomeUnknown (err : Err) : Bool :=
  (err.as fun
    | .outcomeUnknown cause => some cause
    | _ => none).isSome

/-- `errors.As` with a `*llm.HTTPError`, which is also the only
`jobs.HTTPStatusError` and the only declared retryable provider error. -/
def asHTTP (err : Err) : Option Nat :=
  err.as fun
    | .http statusCode _ _ => some statusCode
    | _ => none

/-- `errors.As` with an error that has `ErrorCode` and `Permanent`: only
`*llm.ProviderResponseTooLargeError` has them, and it is permanent. -/
def asPermanentCoded (err : Err) : Option String :=
  err.as fun
    | .responseTooLarge => some "PROVIDER_RESPONSE_TOO_LARGE"
    | _ => none

def progressed : Err → Bool
  | .execution _ progressed => progressed
  | _ => false

end Err

def newPermanentError (code message : String) (cause : Err) : Err :=
  .categorized .permanent code message cause

def newRetryableError (code message : String) (cause : Err) : Err :=
  .categorized .retryable code message cause

abbrev errUserCancellation : Err := .sentinel (.stop .userCancel)
abbrev errOwnershipLost : Err := .sentinel (.stop .ownershipLost)
abbrev errWorkerShutdown : Err := .sentinel (.stop .shutdown)
abbrev errAlreadyFinalized : Err := .sentinel .alreadyFinalized

/-- The errors that the two `WrapAtomicHandler…` functions hand on unwrapped. -/
def passesUnwrapped (cause : Err) : Bool :=
  decide (cause = .nil) || cause.is (.stop .ownershipLost) || cause.is .alreadyFinalized ||
    cause.is (.stop .userCancel)

def wrapAtomicHandlerFinalization (expected : JobStatus) (cause : Err) : Err :=
  if passesUnwrapped cause then cause else .atomicFinalization expected cause none

def wrapAtomicHandlerFailureFinalization (policy : AtomicHandlerFailurePolicy) (cause : Err) :
    Err :=
  if passesUnwrapped cause then cause else .atomicFinalization .failed cause (some policy)

def httpStatusToErrorClass (statusCode : Nat) : ErrorClass × String :=
  if statusCode = 429 then (.retryable, "HTTP_429_RATE_LIMITED")
  else if 500 ≤ statusCode ∧ statusCode ≤ 599 then (.retryable, "HTTP_5XX_SERVER_ERROR")
  else if statusCode = 400 then (.permanent, "HTTP_400_BAD_REQUEST")
  else if statusCode = 401 ∨ statusCode = 403 then (.permanent, "HTTP_AUTH_FAILURE")
  else if statusCode = 404 then (.permanent, "HTTP_404_NOT_FOUND")
  else (.permanent, "HTTP_CLIENT_ERROR")

def containsLower (text part : String) : Bool :=
  decide (part.toList <:+: text.toList.map Char.toLower)

/-- The texts that `ClassifyError` takes for a permanent failure. -/
def permanentTexts : List String :=
  ["invalid", "not found", "unsupported", "malformed", "ssrf", "forbidden"]

/-- The texts that `ClassifyError` takes for a transient failure. -/
def transientTexts : List String :=
  ["timeout", "deadline exceeded", "connection refused", "reset by peer", "429", "500", "502",
    "503", "504", "rate limit", "temporarily unavailable"]

def classifyError (err : Err) : ErrorClass × String :=
  match err.asCategorized with
  | some classified => classified
  | none =>
    if err.is (.stop .userCancel) then (.cancelled, "CANCELLATION_REQUESTED")
    else if err.is (.stop .ownershipLost) then (.ownershipLost, "OWNERSHIP_LOST")
    else if err.is (.stop .shutdown) then (.ownershipLost, "WORKER_SHUTDOWN")
    else if err.is (.stop .leaseFailure) then (.retryable, "LEASE_RENEW_FAILED")
    else if err.is (.stop .cancelPollError) then (.retryable, "CANCEL_POLL_FAILED")
    else if err.is .contextCanceled then (.retryable, "CONTEXT_CANCELED")
    else if err.is .contextDeadlineExceeded then (.retryable, "CONTEXT_DEADLINE_EXCEEDED")
    else match err.asHTTP with
      | some statusCode => httpStatusToErrorClass statusCode
      | none =>
        if permanentTexts.any (containsLower err.error) then
          (.permanent, "PERMANENT_VALIDATION_ERROR")
        else if transientTexts.any (containsLower err.error) then
          (.retryable, "TRANSIENT_NETWORK_ERROR")
        else (.retryable, "UNKNOWN_RETRYABLE_ERROR")

end RepoLens
