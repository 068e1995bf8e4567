import RepoLens.Lib.Evolution
import RepoLens.System

/-!
What the transactions do to the rows of `analysis_jobs`. `JobStep` lists every way in which a
single row can change, except for the charge of an execution, which `markExecutionStarted_cases`
describes on its own; `JobsEvolve` says that all rows follow these steps and that none is lost.
-/

namespace RepoLens

open Relational Transaction

/-- What callers are bound to. -/
structure JobRules where
  fresh : Claim → Prop
  retry : AnalysisJob → Prop
  requeue : AnalysisJob → Nat → Prop
  create : AnalysisJob → Prop

inductive JobStep (rules : JobRules) : AnalysisJob → AnalysisJob → Prop
  | claimed {job : AnalysisJob} {workerID token : String} {leaseUntil : Time}
      (waiting : job.status = .pending ∨ job.status = .retryWait)
      (fresh : rules.fresh ⟨job.id, workerID, token⟩) :
      JobStep rules job (job.claimed workerID token leaseUntil)
  | renewed {job : AnalysisJob} {leaseUntil : Time} (running : job.status = .running) :
      JobStep rules job { job with leaseUntil := some leaseUntil }
  | released {job : AnalysisJob} {nextRunAt : Time} (running : job.status = .running)
      (unstarted : job.executionStarted = false) :
      JobStep rules job { job.unclaimed with nextRunAt, executionStarted := false }
  | ended {job : AnalysisJob} {status : JobStatus} {reason : Option TerminalReason}
      {errorClass : Option ErrorClass} {code message : Option String}
      (running : job.status = .running) (terminal : status.terminal = true)
      (started : job.executionStarted = true ∨ status = .cancelled) :
      JobStep rules job { job with
        status
        terminalReason := reason
        lastErrorClass := errorClass
        lastErrorCode := code
        lastErrorMessage := message }
  | retried {job : AnalysisJob} {nextRunAt : Time} {errorClass : Option ErrorClass}
      {code message : Option String} (running : job.status = .running)
      (started : job.executionStarted = true) (allowed : rules.retry job) :
      JobStep rules job { job with
        status := .retryWait
        nextRunAt
        lastErrorClass := errorClass
        lastErrorCode := code
        lastErrorMessage := message }
  | flagged {job : AnalysisJob} (running : job.status = .running) :
      JobStep rules job { job with cancelRequested := true }
  | cancelled {job : AnalysisJob} (idle : job.status ≠ .running)
      (unfinished : job.status ≠ .succeeded ∧ job.status ≠ .failed) :
      JobStep rules job { job with
        cancelRequested := true
        status := .cancelled
        terminalReason := some .cancelled }
  | requeued {job : AnalysisJob} {generation : Nat} {now : Time}
      (allowed : rules.requeue job generation) :
      JobStep rules job (job.requeued generation now)

def JobsEvolve (rules : JobRules) (db db' : Database) : Prop :=
  db.jobs.Evolves (JobStep rules) rules.create db'.jobs

variable {rules : JobRules}

instance : Std.Refl (JobsEvolve rules) := ⟨fun db => .refl db.jobs⟩

instance : IsTrans Database (JobsEvolve rules) := ⟨fun _ _ _ => .trans⟩

def SameJobs (db db' : Database) : Prop := db'.jobs = db.jobs

instance : Std.Refl SameJobs := ⟨fun _ => rfl⟩

instance : IsTrans Database SameJobs := ⟨fun _ _ _ first second => Eq.trans second first⟩

variable {db db' : Database} {job : AnalysisJob} {now : Time} {workerID : String}
  {tokens : Nat → String} {claimedJobs : List AnalysisJob} {batchSize : Nat}
  {pick : AnalysisJob → Bool}

theorem SameJobs.evolves (same : SameJobs db db') :
    JobsEvolve rules db db' := by
  rw [JobsEvolve, same]
  exact .refl _

theorem ofSame {α : Type} {tx : Tx α} (same : Ensures SameJobs tx) :
    Ensures (JobsEvolve rules) tx :=
  fun db a db' ran => (same db a db' ran).evolves

section Statements

variable {p : AnalysisJob → Prop} [DecidablePred p] {f : AnalysisJob → AnalysisJob}
  {keeps : Table.Keeps AnalysisJob.id AnalysisJob.resource f}

theorem JobsEvolve.update (stepped : ∀ job ∈ db.jobs.rows, p job → JobStep rules job (f job)) :
    JobsEvolve rules db (Place.jobs.set ((Place.jobs.get db).update p f keeps) db) :=
  Table.Evolves.update keeps stepped

theorem jobs_update (stepped : ∀ job, p job → JobStep rules job (f job)) :
    Ensures (JobsEvolve rules) (Place.jobs.update p f keeps : Tx Nat) :=
  Place.update_ensures fun _ => .update fun job _ => stepped job

theorem jobs_insert {duplicate : Err} (created : rules.create job) :
    Ensures (JobsEvolve rules) (Place.jobs.insert job duplicate : Tx Unit) :=
  Place.insert_ensures fun _ _ inserted => .insert inserted created

theorem other_update {Row κ ι : Type} {key : Row → κ} {index : Row → ι}
    {place : Place Database key index} (elsewhere : ∀ t db, (place.set t db).jobs = db.jobs)
    {q : Row → Prop} [DecidablePred q] {g : Row → Row} {kept : Table.Keeps key index g} :
    Ensures SameJobs (place.update q g kept : Tx Nat) :=
  Place.update_ensures fun db => elsewhere _ db

theorem other_insert {Row κ ι : Type} [DecidableEq κ] [DecidableEq ι] {key : Row → κ}
    {index : Row → ι} {place : Place Database key index}
    (elsewhere : ∀ t db, (place.set t db).jobs = db.jobs) {row : Row} {duplicate : Err} :
    Ensures SameJobs (place.insert row duplicate : Tx Unit) :=
  Place.insert_ensures fun db _ _ => elsewhere _ db

end Statements

theorem AnalysisJob.HeldBy.running {claim : Claim} (held : job.HeldBy claim) :
    job.status = .running := held.2.1

theorem returnUndispatchedClaim_jobs (claim : Claim) (generation : Nat) :
    Ensures (JobsEvolve rules) (returnUndispatchedClaim claim generation) :=
  .bind (jobs_update fun job ⟨held, _, unstarted⟩ => by
    have step : JobStep rules job
        { job.unclaimed with nextRunAt := job.nextRunAt, executionStarted := false } :=
      .released held.running unstarted
    simpa [AnalysisJob.unclaimed, unstarted] using step) fun _ => .require _ _

theorem renewLease_jobs (claim : Claim) (leaseUntil now : Time) :
    Ensures (JobsEvolve rules) (renewLease claim leaseUntil now) :=
  .bind (jobs_update fun _ ⟨held, _⟩ => .renewed held.running) fun _ => .require _ _

theorem cancelDiagnosisRunTx_sameJobs (runID : String) (generation : Nat) :
    Ensures SameJobs (cancelDiagnosisRunTx runID generation) :=
  .bind (other_update fun _ _ => rfl) fun _ =>
    .bind (.bind Place.selectAll_ensures fun _ => .pure _) fun _ =>
      .bind (other_update fun _ _ => rfl) fun _ =>
        .ite (fun _ => .bind Place.select_ensures fun
          | none => .pure _
          | some _ => .require _ _) fun _ => .pure _

theorem conditionalFinalizeCancel_jobs (claim : Claim) :
    Ensures (JobsEvolve rules) (conditionalFinalizeCancel claim) :=
  .bind (.bind Place.select_ensures fun _ => .expect _ _) fun _ =>
    .bind (.require _ _) fun _ =>
      .bind (.require _ _) fun _ =>
        .bind (jobs_update fun _ ⟨held, _, _⟩ => .ended held.running rfl (.inr rfl)) fun _ =>
          .bind (.require _ _) fun _ => ofSame (cancelDiagnosisRunTx_sameJobs _ _)

theorem cancelInstead_jobs (claim : Claim) (owned : AnalysisJob) :
    Ensures (JobsEvolve rules) (cancelInstead claim owned) :=
  .bind (.require _ _) fun _ => conditionalFinalizeCancel_jobs claim

theorem loadOwnedRunningJobTx_sameJobs (claim : Claim) :
    Ensures SameJobs (loadOwnedRunningJobTx claim) :=
  .bind Place.select_ensures fun _ => .expect _ _

theorem conditionalFinalizeSuccess_jobs (claim : Claim) :
    Ensures (JobsEvolve rules) (conditionalFinalizeSuccess claim) :=
  .bind (ofSame (loadOwnedRunningJobTx_sameJobs claim)) fun owned =>
    .ite (fun _ => cancelInstead_jobs claim owned) fun _ =>
      .bind (jobs_update fun _ ⟨held, started, _⟩ => .ended held.running rfl (.inl started))
        fun _ => .ite
          (fun _ => .bind Place.select_ensures fun
            | some current => .ite (fun _ => cancelInstead_jobs claim current) fun _ => .fail _
            | none => .bind Place.select_ensures fun _ => .fail _)
          fun _ => .pure _

section Business

theorem failSnapshotTx_sameJobs (resourceID code : String) :
    Ensures SameJobs (failSnapshotTx resourceID code) :=
  .bind (other_update fun _ _ => rfl) fun _ =>
    .ite (fun _ => .bind Place.select_ensures fun _ => .require _ _) fun _ => .pure _

theorem failCodeIndexBuildTx_sameJobs (resourceID code : String) :
    Ensures SameJobs (failCodeIndexBuildTx resourceID code) :=
  .bind (other_update fun _ _ => rfl) fun _ =>
    .ite (fun _ => .bind Place.select_ensures fun _ => .require _ _) fun _ => .pure _

theorem failRetrievalBuildTx_sameJobs (resourceID code : String) :
    Ensures SameJobs (failRetrievalBuildTx resourceID code) :=
  .bind (other_update fun _ _ => rfl) fun _ =>
    .ite (fun _ => .bind Place.select_ensures fun _ => .require _ _) fun _ => .pure _

theorem failRunTx_sameJobs (runID : String) (generation : Nat) (reaped : Bool) :
    Ensures SameJobs (failRunTx runID generation reaped) :=
  .bind (.bind (other_update fun _ _ => rfl) fun _ =>
      .ite (fun _ => .bind Place.select_ensures fun _ => .require _ _) fun _ => .pure _) fun _ =>
    .bind (other_update fun _ _ => rfl) fun _ =>
      .bind (.bind Place.selectAll_ensures fun _ => .pure _) fun _ =>
        .bind (other_update fun _ _ => rfl) fun _ => .pure _

theorem readRevisionResourceIdentityTx_sameJobs (jobType : JobType) (resourceID : String) :
    Ensures SameJobs (readRevisionResourceIdentityTx jobType resourceID) := by
  cases jobType with
  | materializeSnapshot | buildCodeIndex | buildRetrieval =>
    exact .bind Place.select_ensures fun _ => .bind (.expect _ _) fun _ => .pure _
  | runDiagnosis => exact .pure _

theorem failRevisionTx_sameJobs (jobType : JobType) (resourceID code message : String)
    (stage : RevisionStage) (identity : RevisionResourceIdentity) :
    Ensures SameJobs (failRevisionTx jobType resourceID code message stage identity) :=
  .bind Place.select_ensures fun _ => .bind (.expect _ _) fun _ =>
    .bind (.require _ _) fun _ => .bind (other_update fun _ _ => rfl) fun _ =>
      .ite (fun _ => .pure _) fun _ =>
        .bind Place.select_ensures fun _ => .bind (.expect _ _) fun _ => .require _ _

theorem failAnalysisRevisionTx_sameJobs (jobType : JobType) (resourceID code message : String) :
    Ensures SameJobs (failAnalysisRevisionTx jobType resourceID code message) := by
  unfold failAnalysisRevisionTx
  cases jobType.stage with
  | none => exact .pure _
  | some stage =>
    exact .bind (readRevisionResourceIdentityTx_sameJobs jobType resourceID) fun identity =>
      .ite (fun _ => .pure _) fun _ =>
        failRevisionTx_sameJobs jobType resourceID code message stage identity

theorem failBusinessRowTx_sameJobs (job : AnalysisJob) (reaped : Bool) (code : String) :
    Ensures SameJobs (failBusinessRowTx job reaped code) := by
  unfold failBusinessRowTx
  cases job.jobType with
  | materializeSnapshot => exact failSnapshotTx_sameJobs _ _
  | buildCodeIndex => exact failCodeIndexBuildTx_sameJobs _ _
  | buildRetrieval => exact failRetrievalBuildTx_sameJobs _ _
  | runDiagnosis => exact failRunTx_sameJobs _ _ _

theorem failBusinessTx_sameJobs (jobID : Nat) (reaped : Bool) (errorCode errorMessage : String) :
    Ensures SameJobs (failBusinessTx jobID reaped errorCode errorMessage) :=
  .bind (.bind Place.select_ensures fun _ => .expect _ _) fun job =>
    .bind (failBusinessRowTx_sameJobs job reaped _) fun _ => failAnalysisRevisionTx_sameJobs _ _ _ _

end Business

theorem JobStep.afterFailure {failure : Failure} (running : job.status = .running)
    (started : job.executionStarted = true)
    (retryable : failure.isTerminal = false → rules.retry job) :
    JobStep rules job (job.afterFailure failure) := by
  cases terminal : failure.isTerminal with
  | true =>
    simp only [AnalysisJob.afterFailure, terminal, ↓reduceIte]
    exact .ended running rfl (.inl started)
  | false =>
    simp only [AnalysisJob.afterFailure, terminal, Bool.false_eq_true, ↓reduceIte]
    exact .retried running started (retryable terminal)

theorem conditionalFinalizeFailure_jobs {claim : Claim} {failure : Failure} {u : Unit}
    (retryable : failure.isTerminal = false → ∀ job ∈ db.jobs.rows, job.HeldBy claim →
      rules.retry job)
    (ran : conditionalFinalizeFailure claim failure db = .ok (u, db')) :
    JobsEvolve rules db db' := by
  obtain ⟨owned, db₁, loaded, rest⟩ := bind_ok.mp ran
  obtain ⟨-, same⟩ : _ ∧ db₁ = db := by simpa [loadOwnedRunningJobTx] using loaded
  subst same
  rcases ite_ok.mp rest with ⟨-, cancelled⟩ | ⟨-, failed⟩
  · exact conditionalFinalizeCancel_jobs claim _ _ _ cancelled
  obtain ⟨affected, db₂, updated, rest⟩ := bind_ok.mp failed
  obtain ⟨-, rfl⟩ := (Place.update_ok _).mp updated
  refine IsTrans.trans _ _ _ (?_ : JobsEvolve rules db₁ _)
    (Ensures.ite (fun _ => .bind Place.select_ensures fun _ =>
        .ite (fun _ => conditionalFinalizeCancel_jobs claim) fun _ => .fail _)
      (fun _ => .ite (fun _ => ofSame (failBusinessTx_sameJobs _ _ _ _)) fun _ => .pure _) _ _ _
        rest)
  refine .update fun job member hit => ?_
  exact .afterFailure hit.1.running hit.2.1 fun nonterminal =>
    retryable nonterminal job member hit.1

section Diagnosis

theorem lockDiagnosisExecutionTx_sameJobs (claim : Claim) (generation : Nat)
    (runID attemptID : String) (cancellation : Bool) :
    Ensures SameJobs
      (lockDiagnosisExecutionTx claim generation runID attemptID cancellation) :=
  .bind Place.select_ensures fun _ => .bind Place.select_ensures fun _ =>
    .bind (.expect _ _) fun _ => .bind (.require _ _) fun _ => .bind (.require _ _) fun _ =>
      .bind Place.select_ensures fun _ => .bind (.expect _ _) fun _ =>
        .bind (.require _ _) fun _ => .bind Place.select_ensures fun _ =>
          .bind (.expect _ _) fun _ => .bind (.require _ _) fun _ => .pure _

theorem lockLiveDiagnosisExecutionTx_sameJobs (execution : Execution) (now : Time) :
    Ensures SameJobs (lockLiveDiagnosisExecutionTx execution now) :=
  .bind (lockDiagnosisExecutionTx_sameJobs _ _ _ _ _) fun _ => .bind (.require _ _) fun _ =>
    .bind (.require _ _) fun _ => .pure _

theorem lockLiveDiagnosisJobTx_sameJobs (claim : Claim) (generation : Nat) (runID : String)
    (now : Time) : Ensures SameJobs (lockLiveDiagnosisJobTx claim generation runID now) :=
  .bind Place.select_ensures fun
    | some _ => .bind (.require _ _) fun _ => .pure _
    | none => .bind Place.select_ensures fun _ => .fail _

theorem startAttemptWithClaim_sameJobs (claim : Claim) (generation : Nat) (runID : String)
    (attempt : DiagnosisAttempt) (now : Time) :
    Ensures SameJobs (startAttemptWithClaim claim generation runID attempt now) :=
  .bind (lockLiveDiagnosisJobTx_sameJobs _ _ _ _) fun _ => .bind (.require _ _) fun _ =>
    .bind Place.select_ensures fun _ => .bind (.expect _ _) fun _ => .bind (.require _ _) fun _ =>
      .bind (.ite (fun _ => .bind (other_update fun _ _ => rfl) fun _ => .require _ _)
        fun _ => .require _ _) fun _ => other_insert fun _ _ => rfl

theorem beginProviderDispatch_sameJobs (execution : Execution) (now : Time) :
    Ensures SameJobs (beginProviderDispatch execution now) :=
  .bind (lockLiveDiagnosisExecutionTx_sameJobs _ _) fun _ => .bind (.require _ _) fun _ =>
    .bind (other_update fun _ _ => rfl) fun _ => .pure _

theorem providerDispatchSucceeded_sameJobs (execution : Execution) (now : Time) :
    Ensures SameJobs (providerDispatchSucceeded execution now) :=
  .bind (lockLiveDiagnosisExecutionTx_sameJobs _ _) fun _ => .bind (.require _ _) fun _ =>
    .ite (fun _ => .pure _) fun _ => .bind (other_update fun _ _ => rfl) fun _ => .require _ _

theorem providerDispatchFailedDefinitely_sameJobs (execution : Execution) (now : Time) :
    Ensures SameJobs (providerDispatchFailedDefinitely execution now) :=
  .bind (lockLiveDiagnosisExecutionTx_sameJobs _ _) fun _ =>
    .ite (fun _ => .pure _) fun _ => .bind (other_update fun _ _ => rfl) fun _ => .pure _

theorem updateAttemptCheckpointWithClaim_sameJobs (execution : Execution)
    (checkpoint : AttemptCheckpoint) (now : Time) :
    Ensures SameJobs (updateAttemptCheckpointWithClaim execution checkpoint now) :=
  .bind (.require _ _) fun _ =>
    .bind (.bind (.require _ _) fun _ => .bind (.require _ _) fun _ => .require _ _) fun _ =>
      .bind (lockLiveDiagnosisExecutionTx_sameJobs _ _) fun _ =>
        .bind (other_update fun _ _ => rfl) fun _ => .require _ _

theorem finalizeRunTx_sameJobs (runID attemptID : String) (cancelled : Bool) (status : RunStatus)
    (conflict : Err) :
    Ensures SameJobs (finalizeRunTx runID attemptID cancelled status conflict) :=
  .bind (other_update fun _ _ => rfl) fun _ => .require _ _

theorem validateReportPersistence_sameJobs (report : Report) :
    Ensures SameJobs (validateReportPersistence report) :=
  .bind (.require _ _) fun _ => .bind (.require _ _) fun _ => .bind (.require _ _) fun _ =>
    .bind (.require _ _) fun _ => .bind (.require _ _) fun _ => .bind (.require _ _) fun _ =>
      .bind (.require _ _) fun _ => .require _ _

theorem insertCitations_sameJobs (ids : Nat → String) (citations : List Citation) (drawn : Nat) :
    Ensures SameJobs (insertCitations ids citations drawn) := by
  induction citations generalizing drawn with
  | nil => exact .pure _
  | cons citation rest ih =>
    exact .bind (other_insert fun _ _ => rfl) fun _ => ih (drawn + 1)

theorem finalizeSuccess_jobs (claim : Claim) (runID attemptID : String) (report : Report)
    (citations : List Citation) (counts : Counts) (ids : Nat → String) (now : Time) :
    Ensures (JobsEvolve rules)
      (finalizeSuccess claim runID attemptID report citations counts ids now) :=
  .bind (ofSame (lockDiagnosisExecutionTx_sameJobs _ _ _ _ _)) fun _ =>
    .bind (.require _ _) fun _ =>
    .bind (.require _ _) fun _ => .bind (ofSame (validateReportPersistence_sameJobs _)) fun _ =>
      .bind (ofSame (other_insert fun _ _ => rfl)) fun _ =>
        .bind (ofSame (insertCitations_sameJobs _ _ _)) fun _ =>
        .bind (ofSame (other_update fun _ _ => rfl)) fun _ => .bind (.require _ _) fun _ =>
          .bind (ofSame (finalizeRunTx_sameJobs _ _ _ _ _)) fun _ =>
            .bind (jobs_update fun _ ⟨held, _, started, _⟩ =>
              .ended held.running rfl (.inl started)) fun _ => .require _ _

theorem failFinalizedJobTx_jobs (claim : Claim) (generation : Nat) (reason : TerminalReason)
    (errorClass : ErrorClass) (errorCode errorMessage : String) :
    Ensures (JobsEvolve rules)
      (failFinalizedJobTx claim generation reason errorClass errorCode errorMessage) :=
  .bind (jobs_update fun _ ⟨held, _, started, _⟩ => .ended held.running rfl (.inl started))
    fun _ => .require _ _

theorem finalizeInvalidStructuredReport_jobs (claim : Claim) (runID attemptID : String)
    (report : Report) (counts : Counts) (errorCode errorMessage drawnID : String) :
    Ensures (JobsEvolve rules) (finalizeInvalidStructuredReport claim runID attemptID report
      counts errorCode errorMessage drawnID) :=
  .bind (ofSame (lockDiagnosisExecutionTx_sameJobs _ _ _ _ _)) fun _ =>
    .bind (.require _ _) fun _ =>
    .bind (ofSame (validateReportPersistence_sameJobs _)) fun _ =>
      .bind (ofSame (other_insert fun _ _ => rfl)) fun _ =>
      .bind (ofSame (other_update fun _ _ => rfl)) fun _ => .bind (.require _ _) fun _ =>
        .bind (ofSame (finalizeRunTx_sameJobs _ _ _ _ _)) fun _ =>
          failFinalizedJobTx_jobs _ _ _ _ _ _

theorem finalizeDiagnosisFailure_jobs (claim : Claim) (generation : Nat) (runID attemptID : String)
    (errorClass : ErrorClass) (errorCode errorMessage : String) (counts : Counts) :
    Ensures (JobsEvolve rules) (finalizeDiagnosisFailure claim generation runID attemptID
      errorClass errorCode errorMessage counts) :=
  .bind (.require _ _) fun _ =>
    .bind (ofSame (lockDiagnosisExecutionTx_sameJobs _ _ _ _ _)) fun _ =>
    .bind (ofSame (other_update fun _ _ => rfl)) fun _ => .bind (.require _ _) fun _ =>
      .bind (ofSame (finalizeRunTx_sameJobs _ _ _ _ _)) fun _ => failFinalizedJobTx_jobs _ _ _ _ _ _

theorem finalizeRetryableAttempt_sameJobs (claim : Claim) (generation : Nat)
    (runID attemptID errorCode errorMessage : String) (counts : Counts) :
    Ensures SameJobs (finalizeRetryableAttempt claim generation runID attemptID
      errorCode errorMessage counts) :=
  .bind (lockDiagnosisExecutionTx_sameJobs _ _ _ _ _) fun _ =>
    .bind (other_update fun _ _ => rfl) fun _ => .require _ _

theorem finalizeCancellation_jobs (claim : Claim) (runID attemptID : String) :
    Ensures (JobsEvolve rules) (finalizeCancellation claim runID attemptID) :=
  .bind (ofSame (lockDiagnosisExecutionTx_sameJobs _ _ _ _ _)) fun _ =>
    .bind (ofSame (other_update fun _ _ => rfl)) fun _ => .bind (.require _ _) fun _ =>
      .bind (ofSame (finalizeRunTx_sameJobs _ _ _ _ _)) fun _ =>
        .bind (jobs_update fun _ ⟨held, _, started, _⟩ =>
          .ended held.running rfl (.inl started)) fun _ => .require _ _

theorem JobStep.cancelRequest {run : RunStatus} {terminal : Bool}
    (outcome : cancellationOutcome run job.status = some terminal) :
    JobStep rules job { job with
      cancelRequested := true
      status := if terminal then .cancelled else job.status
      terminalReason := if terminal then some .cancelled else job.terminalReason } := by
  cases terminal with
  | true =>
    refine .cancelled ?_ ?_ <;> cases run <;> cases status : job.status <;>
      simp_all [cancellationOutcome]
  | false =>
    refine .flagged ?_
    cases run <;> cases status : job.status <;> simp_all [cancellationOutcome]

theorem requestCancellation_jobs (runID userID : String) :
    Ensures (JobsEvolve rules) (requestCancellation runID userID) :=
  .bind Place.select_ensures fun _ => .bind (.expect _ _) fun _ =>
    .bind Place.select_ensures fun _ => .bind (.expect _ _) fun _ => .bind (.require _ _) fun _ =>
      .expect_bind fun _ outcome =>
        .bind (jobs_update fun _ ⟨_, same⟩ => .cancelRequest (same ▸ outcome)) fun _ =>
          .bind (.require _ _) fun _ => .bind (ofSame (other_update fun _ _ => rfl)) fun _ =>
            .require _ _

theorem recoverStaleAttempt_sameJobs (attemptID runID : String) (now : Time) :
    Ensures SameJobs (recoverStaleAttempt attemptID runID now) :=
  .bind Place.select_ensures fun
    | none => .pure _
    | some _ => .bind Place.select_ensures fun _ => .bind (.require _ _) fun _ =>
      .bind (other_update fun _ _ => rfl) fun _ => .ite (fun _ => .pure _) fun _ =>
        .bind (other_update fun _ _ => rfl) fun _ => .pure _

theorem createDiagnosis_jobs {run : DiagnosisRun} {jobID : Nat}
    (created : rules.create (newJob jobID .runDiagnosis run.id 1 3 now)) :
    Ensures (JobsEvolve rules) (createDiagnosis run jobID now) :=
  .bind (ofSame (other_insert fun _ _ => rfl)) fun _ => jobs_insert created

theorem retryDiagnosis_jobs {runID : String}
    (requeue : ∀ job, job.status = .failed → rules.requeue job (job.executionGeneration + 1)) :
    Ensures (JobsEvolve rules) (retryDiagnosis runID now) :=
  .bind Place.select_ensures fun _ => .bind (.expect _ _) fun _ => .bind (.require _ _) fun _ =>
    .bind (ofSame (other_update fun _ _ => rfl)) fun _ => .bind (.require _ _) fun _ =>
      .bind (jobs_update fun job ⟨_, failed⟩ => .requeued (requeue job failed)) fun _ =>
        .require _ _

end Diagnosis

theorem restoreBusinessTx_sameJobs (jobType : JobType) (resourceID : String) :
    Ensures SameJobs (restoreBusinessTx jobType resourceID) := by
  cases jobType <;>
    exact .bind (other_update fun _ _ => rfl) fun _ => .bind Place.select_ensures fun _ => .pure _

theorem manualRequeue_jobs {jobType : JobType} {resourceID : String}
    (requeue : ∀ job, job.For jobType resourceID → job.status = .failed →
      rules.requeue job (job.executionGeneration + 1)) :
    Ensures (JobsEvolve rules) (manualRequeue jobType resourceID now) :=
  .bind (ofSame (restoreBusinessTx_sameJobs _ _)) fun _ => .bind (.require _ _) fun _ =>
    .bind (jobs_update fun job ⟨owner, failed, _⟩ => .requeued (requeue job owner failed))
      fun _ => .require _ _

section Claiming

theorem AnalysisJob.claimed_claimed (job : AnalysisJob) (workerID token : String)
    (leaseUntil : Time) :
    (job.claimed workerID token leaseUntil).claimed workerID token leaseUntil =
      job.claimed workerID token leaseUntil := rfl

theorem claimEach_ok {leaseUntil : Time} {candidates : List AnalysisJob}
    (ran : claimEach workerID tokens leaseUntil candidates db = .ok (claimedJobs, db')) :
    claimedJobs =
        candidates.map (fun job => job.claimed workerID (tokens job.id) leaseUntil) ∧
      db' = Place.jobs.set
        (db.jobs.update (fun job => job.id ∈ candidates.map AnalysisJob.id)
          (fun job => job.claimed workerID (tokens job.id) leaseUntil) fun _ => ⟨rfl, rfl⟩) db := by
  induction candidates generalizing claimedJobs db with
  | nil =>
    obtain ⟨rfl, rfl⟩ := pure_ok.mp ran
    refine ⟨rfl, ?_⟩
    exact congrArg (fun table => Place.jobs.set table db')
      (Table.update_eq_self (by simp)).symm
  | cons candidate rest ih =>
    obtain ⟨affected, db₁, updated, ran⟩ := bind_ok.mp ran
    obtain ⟨-, rfl⟩ := (Place.update_ok _).mp updated
    obtain ⟨claimedRest, db₂, claimed, done⟩ := bind_ok.mp ran
    obtain ⟨rfl, rfl⟩ := pure_ok.mp done
    obtain ⟨rfl, rfl⟩ := ih claimed
    refine ⟨rfl, congrArg (fun table => Place.jobs.set table db) (Table.ext ?_)⟩
    simp only [Place.jobs_get, Place.jobs_set_jobs, Table.update, List.map_map]
    refine List.map_congr_left fun job _ => ?_
    -- A row that is named twice is claimed twice, which claims it once.
    rw [Function.comp_apply, List.map_cons]
    by_cases first : job.id = candidate.id
    · rw [if_pos first, if_pos (List.mem_cons.mpr (.inl first))]
      have same : (job.claimed workerID (tokens candidate.id) leaseUntil).id = job.id := rfl
      rw [same, first]
      by_cases later : candidate.id ∈ rest.map AnalysisJob.id
      · rw [if_pos later, AnalysisJob.claimed_claimed]
      · rw [if_neg later]
    · rw [if_neg first]
      by_cases later : job.id ∈ rest.map AnalysisJob.id
      · rw [if_pos later, if_pos (List.mem_cons_of_mem _ later)]
      · rw [if_neg later, if_neg (List.not_mem_cons_of_ne_of_not_mem first later)]

theorem claimJobs_ok {leaseDuration : Nat}
    (ran : claimJobs workerID batchSize leaseDuration pick tokens now db = .ok (claimedJobs, db')) :
    ∃ candidates : List AnalysisJob,
      (∀ job ∈ candidates, job ∈ db.jobs.rows ∧
        (job.status = .pending ∨ job.status = .retryWait)) ∧
      claimedJobs = candidates.map (fun job =>
        job.claimed workerID (tokens job.id) (now + leaseDuration)) ∧
      db' = Place.jobs.set
        (db.jobs.update (fun job => job.id ∈ candidates.map AnalysisJob.id)
          (fun job => job.claimed workerID (tokens job.id) (now + leaseDuration))
          fun _ => ⟨rfl, rfl⟩) db := by
  obtain ⟨claimable, db₁, selected, ran⟩ := bind_ok.mp ran
  obtain ⟨rfl, rfl⟩ := (Place.selectAll_ok _).mp selected
  refine ⟨_, fun job member => ?_, claimEach_ok ran⟩
  obtain ⟨present, waiting, -⟩ := Table.mem_selectAll.mp (List.mem_of_mem_take member)
  exact ⟨present, waiting⟩

theorem claimJobs_jobs {leaseDuration : Nat}
    (ran : claimJobs workerID batchSize leaseDuration pick tokens now db = .ok (claimedJobs, db'))
    (fresh : ∀ job ∈ claimedJobs, rules.fresh job.claim) : JobsEvolve rules db db' := by
  obtain ⟨candidates, claimable, rfl, rfl⟩ := claimJobs_ok ran
  refine .update fun job member hit => ?_
  obtain ⟨candidate, chosen, same⟩ := List.mem_map.mp hit
  obtain ⟨present, waiting⟩ := claimable candidate chosen
  cases db.jobs.eq_of_key present member same
  exact .claimed waiting (fresh _ (List.mem_map_of_mem chosen))

end Claiming

section Reaping

def OnlyJob (id : Nat) (db db' : Database) : Prop :=
  ∀ job ∈ db.jobs.rows, job.id ≠ id → job ∈ db'.jobs.rows

instance (id : Nat) : Std.Refl (OnlyJob id) := ⟨fun _ _ member _ => member⟩

instance (id : Nat) : IsTrans Database (OnlyJob id) :=
  ⟨fun _ _ _ first second job member other => second job (first job member other) other⟩

theorem SameJobs.onlyJob {id : Nat} (same : SameJobs db db') :
    OnlyJob id db db' := by
  intro job member _
  rw [same]
  exact member

theorem onlyJob_ofSame {α : Type} {id : Nat} {tx : Tx α} (same : Ensures SameJobs tx) :
    Ensures (OnlyJob id) tx :=
  fun db a db' ran => (same db a db' ran).onlyJob

theorem onlyJob_update {id : Nat} {p : AnalysisJob → Prop} [DecidablePred p]
    {f : AnalysisJob → AnalysisJob} {keeps : Table.Keeps AnalysisJob.id AnalysisJob.resource f}
    (only : ∀ job, p job → job.id = id) :
    Ensures (OnlyJob id) (Place.jobs.update p f keeps : Tx Nat) := by
  refine Place.update_ensures fun db job member other => ?_
  change job ∈ (db.jobs.update p f keeps).rows
  exact Table.mem_update.mpr ⟨job, member, if_neg fun hit => other (only job hit)⟩

theorem reapExpiredJobTx_onlyJob (expired : AnalysisJob) (jitter : Nat) (now : Time) :
    Ensures (OnlyJob expired.id) (reapExpiredJobTx expired jitter now) := by
  have started : Ensures (OnlyJob expired.id) (reapStartedTx expired jitter now) :=
    .ite
      (fun _ => .bind (onlyJob_update fun _ same => same) fun _ => .bind (.require _ _) fun _ =>
        .ite (fun _ => .bind (onlyJob_ofSame (other_update fun _ _ => rfl)) fun _ => .pure _)
          fun _ => .pure _)
      (fun _ => .bind (onlyJob_ofSame (failBusinessTx_sameJobs _ _ _ _)) fun _ =>
        .bind (onlyJob_update fun _ same => same) fun _ => .pure _)
  refine .ite (fun _ => ?_) fun _ => .ite (fun _ => ?_) fun _ => .ite (fun _ => ?_) fun _ => started
  · exact .bind (onlyJob_update fun _ hit => hit.1) fun _ => .bind (.require _ _) fun _ =>
      .bind (onlyJob_ofSame (other_update fun _ _ => rfl)) fun _ =>
        .bind Place.select_ensures fun _ =>
          .bind (onlyJob_ofSame (other_update fun _ _ => rfl)) fun _ =>
            .ite (fun _ => .bind Place.select_ensures fun _ => .bind (.expect _ _) fun _ =>
              .require _ _) fun _ => .pure _
  · exact .bind (onlyJob_update fun _ hit => hit.1) fun _ => .require _ _
  · exact .bind Place.select_ensures fun
      | none => started
      | some _ => .bind (onlyJob_ofSame (other_update fun _ _ => rfl)) fun _ =>
        .bind (.require _ _) fun _ =>
          .bind (onlyJob_ofSame (other_update fun _ _ => rfl)) fun _ =>
            .bind (.require _ _) fun _ => .bind (onlyJob_update fun _ hit => hit.1) fun _ =>
              .require _ _

theorem reapEach_ensures {R : Database → Database → Prop} [Std.Refl R] [IsTrans Database R]
    {jitter : Nat → Nat} {reaped : List AnalysisJob} {n : Nat}
    (one : ∀ expired ∈ reaped, ∀ db db', expired ∈ db.jobs.rows →
      reapExpiredJobTx expired (jitter expired.id) now db = .ok ((), db') → R db db')
    (present : ∀ expired ∈ reaped, expired ∈ db.jobs.rows)
    (distinct : (reaped.map AnalysisJob.id).Nodup)
    (ran : reapEach jitter now reaped db = .ok (n, db')) : R db db' := by
  induction reaped generalizing n db with
  | nil =>
    obtain ⟨-, rfl⟩ := pure_ok.mp ran
    exact refl db'
  | cons expired rest ih =>
    obtain ⟨u, db₁, ranOne, ran⟩ := bind_ok.mp ran
    obtain ⟨m, db₂, ranRest, done⟩ := bind_ok.mp ran
    obtain ⟨-, rfl⟩ := pure_ok.mp done
    rw [List.map_cons, List.nodup_cons] at distinct
    have untouched := reapExpiredJobTx_onlyJob expired (jitter expired.id) now _ _ _ ranOne
    refine IsTrans.trans _ _ _
      (one expired List.mem_cons_self db db₁ (present _ List.mem_cons_self) ranOne)
      (ih (fun later member => one later (List.mem_cons_of_mem _ member))
        (fun later member => ?_) distinct.2 ranRest)
    refine untouched later (present later (List.mem_cons_of_mem _ member)) fun same => ?_
    exact distinct.1 (same ▸ List.mem_map_of_mem member)

theorem reapExpiredJobs_ensures {R : Database → Database → Prop} [Std.Refl R] [IsTrans Database R]
    {jitter : Nat → Nat} {n : Nat}
    (one : ∀ expired, expired.status = .running → ∀ db db', expired ∈ db.jobs.rows →
      reapExpiredJobTx expired (jitter expired.id) now db = .ok ((), db') → R db db')
    (ran : reapExpiredJobs batchSize pick jitter now db = .ok (n, db')) : R db db' := by
  obtain ⟨expired, db₁, selected, ran⟩ := bind_ok.mp ran
  obtain ⟨rfl, rfl⟩ := (Place.selectAll_ok _).mp selected
  have rows : ∀ job ∈ ((Place.jobs.get db₁).selectAll fun job =>
      job.status = .running ∧ job.leaseExpired now = true ∧ pick job = true).take batchSize,
      job ∈ db₁.jobs.rows ∧ job.status = .running := by
    intro job member
    obtain ⟨present, running, -⟩ := Table.mem_selectAll.mp (List.mem_of_mem_take member)
    exact ⟨present, running⟩
  refine reapEach_ensures (fun job member => one job (rows job member).2)
    (fun job member => (rows job member).1) ?_ ran
  exact (db₁.jobs.primary.sublist (List.filter_sublist.map _)).sublist
    ((List.take_sublist _ _).map _)

theorem reapStartedTx_jobs {expired : AnalysisJob} {jitter : Nat} {u : Unit}
    (present : expired ∈ db.jobs.rows) (running : expired.status = .running)
    (started : expired.executionStarted = true)
    (retryable : expired.attemptCount < expired.maxAttempts → rules.retry expired)
    (ran : reapStartedTx expired jitter now db = .ok (u, db')) : JobsEvolve rules db db' := by
  rcases ite_ok.mp ran with ⟨below, ran⟩ | ⟨-, ran⟩
  · obtain ⟨affected, db₁, updated, ran⟩ := bind_ok.mp ran
    obtain ⟨-, rfl⟩ := (Place.update_ok _).mp updated
    refine IsTrans.trans _ _ _ (?_ : JobsEvolve rules db _)
      (Ensures.bind (.require _ _) (fun _ => .ite
        (fun _ => .bind (ofSame (other_update fun _ _ => rfl)) fun _ => .pure _)
        fun _ => .pure _) _ _ _ ran)
    refine .update fun job member same => ?_
    cases db.jobs.eq_of_key member present same
    exact .retried running started (retryable below)
  · obtain ⟨v, db₁, failed, ran⟩ := bind_ok.mp ran
    obtain ⟨affected, db₂, updated, ran⟩ := bind_ok.mp ran
    obtain ⟨-, rfl⟩ := (Place.update_ok _).mp updated
    obtain ⟨-, rfl⟩ := pure_ok.mp ran
    have same : SameJobs db db₁ := failBusinessTx_sameJobs _ _ _ _ _ _ _ failed
    refine IsTrans.trans _ _ _ (same.evolves : JobsEvolve rules db db₁) ?_
    refine .update fun job member sameID => ?_
    rw [same] at member
    cases db.jobs.eq_of_key member present sameID
    exact .ended running rfl (.inl started)

theorem reapExpiredJobTx_jobs {expired : AnalysisJob} {jitter : Nat}
    (present : expired ∈ db.jobs.rows) (running : expired.status = .running)
    (retryable : expired.attemptCount < expired.maxAttempts → rules.retry expired)
    (ran : reapExpiredJobTx expired jitter now db = .ok ((), db')) : JobsEvolve rules db db' := by
  rcases ite_ok.mp ran with ⟨-, ran⟩ | ⟨-, ran⟩
  · exact Ensures.bind (jobs_update fun _ hit => .ended hit.2.1 rfl (.inr rfl)) (fun _ =>
      .bind (.require _ _) fun _ => .bind (ofSame (other_update fun _ _ => rfl)) fun _ =>
        .bind Place.select_ensures fun _ => .bind (ofSame (other_update fun _ _ => rfl)) fun _ =>
          .ite (fun _ => .bind Place.select_ensures fun _ => .bind (.expect _ _) fun _ =>
            .require _ _) fun _ => .pure _) _ _ _ ran
  rcases ite_ok.mp ran with ⟨-, ran⟩ | ⟨started, ran⟩
  · exact Ensures.bind (jobs_update fun _ hit => .released hit.2.1 hit.2.2)
      (fun _ => .require _ _) _ _ _ ran
  have started : expired.executionStarted = true := by simpa using started
  rcases ite_ok.mp ran with ⟨-, ran⟩ | ⟨-, ran⟩
  · obtain ⟨marked, db₁, selected, ran⟩ := bind_ok.mp ran
    obtain ⟨-, rfl⟩ := (Place.select_ok _).mp selected
    cases marked with
    | none => exact reapStartedTx_jobs present running started retryable ran
    | some marked =>
      exact Ensures.bind (ofSame (other_update fun _ _ => rfl)) (fun _ =>
        .bind (.require _ _) fun _ => .bind (ofSame (other_update fun _ _ => rfl)) fun _ =>
          .bind (.require _ _) fun _ => .bind (jobs_update fun _ hit =>
            .ended hit.2.1 rfl (.inl hit.2.2)) fun _ => .require _ _) _ _ _ ran
  · exact reapStartedTx_jobs present running started retryable ran

end Reaping

section Charging

theorem markExecutionStarted_ok {claim : Claim} {generation : Nat} {count : Nat}
    (ran : markExecutionStarted claim generation now db = .ok (count, db')) :
    db' = Place.jobs.set (db.jobs.update
        (fun job => job.HeldBy claim ∧ job.executionGeneration = generation ∧
          job.executionStarted = false ∧ job.leaseLive now = true)
        (fun job => { job with executionStarted := true, attemptCount := job.attemptCount + 1 })
        fun _ => ⟨rfl, rfl⟩) db ∧
      ∃ job ∈ db'.jobs.rows, job.HeldBy claim ∧ job.executionGeneration = generation ∧
        job.executionStarted = true ∧ job.attemptCount = count := by
  obtain ⟨affected, db₁, updated, ran⟩ := bind_ok.mp ran
  obtain ⟨-, rfl⟩ := (Place.update_ok _).mp updated
  obtain ⟨-, ran⟩ := require_bind_ok.mp ran
  obtain ⟨started, present, ran⟩ := expect_bind_ok.mp ((Place.select_bind_ok _).mp ran)
  obtain ⟨rfl, rfl⟩ := pure_ok.mp ran
  obtain ⟨member, held, same, charged, -⟩ := Table.select_some present
  exact ⟨rfl, started, member, held, same, charged, rfl⟩

end Charging

end RepoLens
