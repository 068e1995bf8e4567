import RepoLens.Lib.Interleaving
import RepoLens.DiagnosisStore
import RepoLens.Pipeline

/-!
What a worker's execution of one claim can do.
-/

namespace RepoLens

open Relational Transaction Interleaving

structure Finding where
  title : String
  reasoning : String
  citations : List Citation
  deriving DecidableEq, Repr

/-- `evidence.DiagnosisReportData` without its two confidence numbers. -/
structure DiagnosisReportData where
  conclusionKind : String
  summary : String
  rootCause : String
  findings : List Finding
  recommendedChecks : List String
  confirmedFacts : List String
  limitations : List String
  deriving DecidableEq, Repr

/-- `evidence.ReportDraft`, kept in its serialised form. -/
abbrev ReportDraft := String

/-- `agent.ExecutionResult`, as far as the job handler reads it. -/
structure ExecutionResult where
  report : Option DiagnosisReportData
  reportDraft : Option ReportDraft
  rawOutput : String
  usage : Usage
  finishReason : String
  structuredReport : Bool
  parseError : String
  finalizationReason : String
  deriving DecidableEq, Repr

inductive StageCall where
  | getOrCreateBuild (snapshotID : String)
  | getOrCreateRetrievalBuild (codeIndexBuildID : Nat)
  | markMaterializing (snapshotID : String)
  | markBuildBuilding (buildID : Nat)
  | markRetrievalBuilding (buildID : Nat)
  | finalizeSnapshotSuccessWithRevision (snapshotID revisionID commitSHA : String)
  | finalizeLegacySnapshotSuccess (snapshotID commitSHA : String)
  | finalizeCodeIndexSuccessWithRevision (buildID : Nat) (revisionID : String)
  | finalizeLegacyCodeIndexSuccess (buildID : Nat)
  | finalizeRetrievalSuccess (buildID : Nat)
  | finalizeRetrievalSuccessWithRevision (buildID : Nat) (revisionID : String)

inductive StoreCall where
  | getJobByID (jobID : Nat)
  | markExecutionStarted (claim : Claim) (generation : Nat)
  | returnUndispatchedClaim (claim : Claim) (generation : Nat)
  | renewLease (claim : Claim)
  | conditionalFinalizeSuccess (claim : Claim)
  | conditionalFinalizeFailure (claim : Claim) (failure : Failure)
  | conditionalFinalizeCancel (claim : Claim)
  | getSnapshot (snapshotID : String)
  | getCodeIndexBuild (resourceID : String)
  | getRetrievalBuild (resourceID : String)
  | getRunByID (runID : String)
  | startAttemptWithClaim (claim : Claim) (generation : Nat) (runID : String)
      (attempt : DiagnosisAttempt)
  | getLatestFinalCheckpoint (runID : String) (generation : Nat)
  | getAttempt (attemptID : String)
  | beginProviderDispatch (execution : Execution)
  | checkProviderDispatchAuthority (execution : Execution)
  | providerDispatchSucceeded (execution : Execution)
  | providerDispatchFailedDefinitely (execution : Execution)
  | updateAttemptCheckpointWithClaim (execution : Execution) (checkpoint : AttemptCheckpoint)
  | finalizeSuccess (claim : Claim) (runID attemptID : String) (report : Report)
      (citations : List Citation) (counts : Counts)
  | finalizeInvalidStructuredReport (claim : Claim) (runID attemptID : String)
      (report : Report) (counts : Counts) (errorCode errorMessage : String)
  | finalizeDiagnosisFailure (claim : Claim) (generation : Nat) (runID attemptID : String)
      (errorClass : ErrorClass) (errorCode errorMessage : String) (counts : Counts)
  | finalizeRetryableAttempt (claim : Claim) (generation : Nat) (runID attemptID : String)
      (errorCode errorMessage : String) (counts : Counts)
  | finalizeCancellation (claim : Claim) (runID attemptID : String)
  | stage (claim : Claim) (call : StageCall)

@[reducible]
def StoreCall.Answer : StoreCall → Type
  | .getJobByID _ => AnalysisJob
  | .markExecutionStarted _ _ => Nat
  | .getSnapshot _ => RepositorySnapshot
  | .getCodeIndexBuild _ => CodeIndexBuild
  | .getRetrievalBuild _ => RetrievalBuild
  | .getRunByID _ => DiagnosisRun
  | .getLatestFinalCheckpoint _ _ => Option DiagnosisAttempt
  | .getAttempt _ => DiagnosisAttempt
  | .providerDispatchFailedDefinitely _ => Bool
  | _ => Unit

structure Outside where
  now : Time
  ids : Nat → String
  drawn : Drawn
  identity : BuildIdentity
  leaseUntil : Time

def StageCall.tx (claim : Claim) (outside : Outside) : StageCall → Tx Unit
  | .getOrCreateBuild snapshotID =>
    getOrCreateBuildTx snapshotID outside.identity.codeIndex 1 outside.drawn outside.now
  | .getOrCreateRetrievalBuild codeIndexBuildID =>
    getOrCreateRetrievalBuildTx codeIndexBuildID outside.identity.retrieval 1 outside.drawn
      outside.now
  | .markMaterializing snapshotID => RepoLens.markMaterializing snapshotID
  | .markBuildBuilding buildID => RepoLens.markBuildBuilding buildID
  | .markRetrievalBuilding buildID => RepoLens.markRetrievalBuilding buildID
  | .finalizeSnapshotSuccessWithRevision snapshotID revisionID commitSHA =>
    RepoLens.finalizeSnapshotSuccessWithRevision outside.identity claim snapshotID revisionID
      commitSHA outside.drawn outside.now
  | .finalizeLegacySnapshotSuccess snapshotID commitSHA =>
    RepoLens.finalizeLegacySnapshotSuccess outside.identity claim snapshotID commitSHA
      outside.drawn outside.now
  | .finalizeCodeIndexSuccessWithRevision buildID revisionID =>
    RepoLens.finalizeCodeIndexSuccessWithRevision outside.identity claim buildID revisionID
      outside.drawn outside.now
  | .finalizeLegacyCodeIndexSuccess buildID =>
    RepoLens.finalizeLegacyCodeIndexSuccess outside.identity claim buildID outside.drawn
      outside.now
  | .finalizeRetrievalSuccess buildID => RepoLens.finalizeRetrievalSuccess claim buildID
  | .finalizeRetrievalSuccessWithRevision buildID revisionID =>
    RepoLens.finalizeRetrievalSuccessWithRevision claim buildID revisionID

def StoreCall.tx (outside : Outside) : (call : StoreCall) → Tx call.Answer
  | .getJobByID jobID => RepoLens.getJobByID jobID
  | .markExecutionStarted claim generation =>
    RepoLens.markExecutionStarted claim generation outside.now
  | .returnUndispatchedClaim claim generation =>
    RepoLens.returnUndispatchedClaim claim generation
  | .renewLease claim => RepoLens.renewLease claim outside.leaseUntil outside.now
  | .conditionalFinalizeSuccess claim => RepoLens.conditionalFinalizeSuccess claim
  | .conditionalFinalizeFailure claim failure =>
    RepoLens.conditionalFinalizeFailure claim failure
  | .conditionalFinalizeCancel claim => RepoLens.conditionalFinalizeCancel claim
  | .getSnapshot snapshotID => RepoLens.getSnapshot snapshotID
  | .getCodeIndexBuild resourceID => RepoLens.getCodeIndexBuild resourceID
  | .getRetrievalBuild resourceID => RepoLens.getRetrievalBuild resourceID
  | .getRunByID runID => RepoLens.getRunByID runID
  | .startAttemptWithClaim claim generation runID attempt =>
    RepoLens.startAttemptWithClaim claim generation runID attempt outside.now
  | .getLatestFinalCheckpoint runID generation =>
    RepoLens.getLatestFinalCheckpoint runID generation
  | .getAttempt attemptID => RepoLens.getAttempt attemptID
  | .beginProviderDispatch execution => RepoLens.beginProviderDispatch execution outside.now
  | .checkProviderDispatchAuthority execution =>
    RepoLens.checkProviderDispatchAuthority execution outside.now
  | .providerDispatchSucceeded execution =>
    RepoLens.providerDispatchSucceeded execution outside.now
  | .providerDispatchFailedDefinitely execution =>
    RepoLens.providerDispatchFailedDefinitely execution outside.now
  | .updateAttemptCheckpointWithClaim execution checkpoint =>
    RepoLens.updateAttemptCheckpointWithClaim execution checkpoint outside.now
  | .finalizeSuccess claim runID attemptID report citations counts =>
    RepoLens.finalizeSuccess claim runID attemptID report citations counts outside.ids
      outside.now
  | .finalizeInvalidStructuredReport claim runID attemptID report counts code message =>
    RepoLens.finalizeInvalidStructuredReport claim runID attemptID report counts code message
      (outside.ids 0)
  | .finalizeDiagnosisFailure claim generation runID attemptID errorClass code message counts =>
    RepoLens.finalizeDiagnosisFailure claim generation runID attemptID errorClass code message
      counts
  | .finalizeRetryableAttempt claim generation runID attemptID code message counts =>
    RepoLens.finalizeRetryableAttempt claim generation runID attemptID code message counts
  | .finalizeCancellation claim runID attemptID =>
    RepoLens.finalizeCancellation claim runID attemptID
  | .stage claim call => call.tx claim outside

/-- How a database call can fail outside the transaction's own checks. -/
inductive StoreFault where
  | driver (text : String)
  | canceled
  | deadline
  deriving DecidableEq, Repr

def StoreFault.err : StoreFault → Err
  | .driver text => .message text
  | .canceled => .sentinel .contextCanceled
  | .deadline => .sentinel .contextDeadlineExceeded

/-- How the read of the body of a refusal can fail; a long body is only cut. -/
inductive ReadErr where
  | canceled
  | deadline
  | failure (text : String)
  deriving DecidableEq, Repr

def ReadErr.err : ReadErr → Err
  | .canceled => .sentinel .contextCanceled
  | .deadline => .sentinel .contextDeadlineExceeded
  | .failure text => .message text

/-- What the provider's client returns for one request. -/
inductive ProviderReply where
  | success
  | http (statusCode : Nat) (body : String) (readErr : Option ReadErr)
  | preDispatch (text : String)
  | responseTooLarge
  | canceled
  | deadline
  | failure (text : String)
  deriving DecidableEq, Repr

def ProviderReply.err : ProviderReply → Err
  | .success => .nil
  | .http statusCode body readErr => .http statusCode body (readErr.elim .nil ReadErr.err)
  | .preDispatch text => .preDispatch text
  | .responseTooLarge => .responseTooLarge
  | .canceled => .sentinel .contextCanceled
  | .deadline => .sentinel .contextDeadlineExceeded
  | .failure text => .message text

inductive AgentFailure where
  | permanent (code text cause : String)
  | invalidStructuredReport (text : String)
  | modelOutputTruncated (text : String)
  | canceled
  | deadline
  | failure (text : String)
  deriving DecidableEq, Repr

def AgentFailure.err : AgentFailure → Err
  | .permanent code text cause => newPermanentError code text (.message cause)
  | .invalidStructuredReport text =>
    .join ": " (.sentinel .invalidStructuredReport) (.message text)
  | .modelOutputTruncated text => .join ": " (.sentinel .modelOutputTruncated) (.message text)
  | .canceled => .sentinel .contextCanceled
  | .deadline => .sentinel .contextDeadlineExceeded
  | .failure text => .message text

inductive AgentStep where
  | generate
  | finish (result : ExecutionResult)
  | fail (result : ExecutionResult) (failure : AgentFailure)
  | stop (fault : StoreFault)
  deriving DecidableEq, Repr

inductive StageFailure where
  | permanent (code text cause : String)
  | retryable (code text cause : String)
  | failure (text : String)
  | canceled
  | deadline
  deriving DecidableEq, Repr

def StageFailure.err : StageFailure → Err
  | .permanent code text cause => newPermanentError code text (.message cause)
  | .retryable code text cause => newRetryableError code text (.message cause)
  | .failure text => .message text
  | .canceled => .sentinel .contextCanceled
  | .deadline => .sentinel .contextDeadlineExceeded

inductive Call where
  /-- A database call. -/
  | store (call : StoreCall)
  /-- `context.Cause` of the job's context. -/
  | cause
  /-- Whether the worker was asked to stop. -/
  | stopRequested
  /-- Whether a bounded wait or context ended before its timer. -/
  | waitEnded
  /-- Whether the finalization context was cancelled for shutdown. -/
  | finalizationStopped
  /-- `uuid.NewString`. -/
  | newID
  /-- The retry time that the worker draws. -/
  | nextRunAt
  /-- A provider request goes out. -/
  | dispatch (execution : Execution)
  /-- The provider request returns. -/
  | receive (execution : Execution)
  /-- Why the agent cannot start, if it cannot. -/
  | agentSetup
  /-- What the agent does next. -/
  | agentStep
  /-- What the agent has when a provider round fails. -/
  | agentPartial
  /-- The work of a pipeline stage, with the commit that it resolved. -/
  | stageWork
  /-- The handler of the job is invoked. -/
  | invokeHandler (generation : Nat)
  /-- The worker drops a handler's failure policy in favour of the cause. -/
  | dropPolicy (policy : AtomicHandlerFailurePolicy) (cause : Err)
  /-- `recordFinalizationError`. -/
  | recordFinalizationError (err : Err)
  /-- `clearFinalizationError`. -/
  | clearFinalizationError

@[reducible]
def Call.Reply : Call → Type
  | .store call => Except Err call.Answer
  | .cause => Err
  | .stopRequested | .waitEnded | .finalizationStopped => Bool
  | .newID => String
  | .nextRunAt => Time
  | .receive _ => ProviderReply
  | .agentSetup => Option AgentFailure
  | .agentStep => AgentStep
  | .agentPartial => ExecutionResult
  | .stageWork => Except StageFailure String
  | _ => Unit

abbrev runtime : Interface := ⟨Call, Call.Reply⟩

abbrev Prog (α : Type) := Program runtime α

def ask (c : Call) : Prog c.Reply := Program.ask (I := runtime) c

def askStore (call : StoreCall) : Prog (Except Err call.Answer) := ask (.store call)

/-- What the properties record of a run. -/
inductive Event where
  /-- The execution of a claim was charged to its job, as this attempt of this
  generation. -/
  | started (claim : Claim) (resource : JobType × String) (generation attemptNo : Nat)
  | handlerInvoked (claim : Claim) (generation : Nat)
  /-- `BeginProviderDispatch` answered without an error. -/
  | begun (execution : Execution)
  /-- `CheckProviderDispatchAuthority` answered without an error. -/
  | authorized (execution : Execution)
  | dispatched (execution : Execution)
  | received (execution : Execution) (reply : ProviderReply)
  | policyDropped (claim : Claim) (policy : AtomicHandlerFailurePolicy) (cause : Err)
  | finalizationError (claim : Claim) (err : Err)
  deriving DecidableEq, Repr

structure World where
  db : Database
  /-- The claims that `ClaimJobs` has issued. -/
  issued : List Claim
  /-- `context.Cause` of each claim's job context. -/
  cause : Claim → Err
  /-- What has happened, newest first. -/
  log : List Event
  /-- The resources that a requeue request has seen to belong to no revision. -/
  unlinked : List (JobType × String)

def World.record (w : World) (event : Event) : World := { w with log := event :: w.log }

inductive Oracle where
  | store (delivery : Delivery StoreFault) (outside : Outside)
  | flag (value : Bool)
  | id (value : String)
  | time (value : Time)
  | provider (reply : ProviderReply)
  | setup (failure : Option AgentFailure)
  | agent (step : AgentStep)
  | partialResult (result : ExecutionResult)
  | stage (outcome : Except StageFailure String)
  | ok

def deliveryErr : Delivery StoreFault → Delivery Err
  | .answered => .answered
  | .lost fault => .lost fault.err
  | .unanswered fault => .unanswered fault.err

/-- The charge of an execution, which a commit makes whether or not its answer arrives, and the
confirmations that the dispatch guard acts on. -/
def StoreCall.events (call : StoreCall) (before after : Database)
    (answer : Except Err call.Answer) : List Event :=
  match call with
  | .markExecutionStarted claim _ =>
    match before.jobs.select fun job => job.HeldBy claim ∧ job.executionStarted = false,
      after.jobs.select fun job => job.HeldBy claim ∧ job.executionStarted = true with
    | some _, some job =>
      [.started claim job.resource job.executionGeneration job.attemptCount]
    | _, _ => []
  | .beginProviderDispatch execution => if answer.isOk then [.begun execution] else []
  | .checkProviderDispatchAuthority execution =>
    if answer.isOk then [.authorized execution] else []
  | _ => []

def World.store (w : World) (call : StoreCall) (delivery : Delivery StoreFault)
    (outside : Outside) : Except Err call.Answer × World :=
  let delivered := deliver (call.tx outside) w.db (deliveryErr delivery)
  (delivered.1, { w with
    db := delivered.2
    log := call.events w.db delivered.2 delivered.1 ++ w.log })

def World.perform (claim : Claim) : (c : Call) → World → Oracle → Option (c.Reply × World)
  | .store call, w, .store delivery outside => some (w.store call delivery outside)
  | .cause, w, .ok => some (w.cause claim, w)
  | .stopRequested, w, .flag value => some (value, w)
  | .waitEnded, w, .flag value => some (value, w)
  | .finalizationStopped, w, .flag value => some (value, w)
  | .newID, w, .id value => some (value, w)
  | .nextRunAt, w, .time value => some (value, w)
  | .dispatch execution, w, .ok => some ((), w.record (.dispatched execution))
  | .receive execution, w, .provider reply => some (reply, w.record (.received execution reply))
  | .agentSetup, w, .setup failure => some (failure, w)
  | .agentStep, w, .agent step => some (step, w)
  | .agentPartial, w, .partialResult result => some (result, w)
  | .stageWork, w, .stage outcome => some (outcome, w)
  | .invokeHandler generation, w, .ok => some ((), w.record (.handlerInvoked claim generation))
  | .dropPolicy policy cause, w, .ok => some ((), w.record (.policyDropped claim policy cause))
  | .recordFinalizationError err, w, .ok => some ((), w.record (.finalizationError claim err))
  | .clearFinalizationError, w, .ok => some ((), w)
  | _, _, _ => none

end RepoLens
