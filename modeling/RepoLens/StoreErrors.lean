import RepoLens.Discipline

/-!
What the errors of the database calls can be, and what a finalizer leaves when it commits.
-/

namespace RepoLens

open Relational Transaction Interleaving

def Err.Plain (err : Err) : Prop := err.asAtomicFinalization = none

variable {cause : Err}

namespace Err.Plain
variable {errorClass : ErrorClass}

theorem sentinel (value : Sentinel) : (Err.sentinel value).Plain := rfl

theorem message (text : String) : (Err.message text).Plain := rfl

theorem categorized {code text : String} (plain : cause.Plain) :
    (Err.categorized errorClass code text cause).Plain := plain

theorem outcomeUnknown (plain : cause.Plain) : (Err.outcomeUnknown cause).Plain :=
  plain

theorem call {cause : Err} {attempts : Nat} (plain : cause.Plain) :
    (Err.call cause attempts).Plain := plain

theorem execution {progressed : Bool} (plain : cause.Plain) :
    (Err.execution cause progressed).Plain := plain

theorem wrap {text : String} (plain : cause.Plain) : (Err.wrap text cause).Plain :=
  plain

theorem join {separator : String} {first second : Err} (plainFirst : first.Plain)
    (plainSecond : second.Plain) : (Err.join separator first second).Plain := by
  change (first.asAtomicFinalization).or second.asAtomicFinalization = none
  rw [show first.asAtomicFinalization = none from plainFirst]
  exact plainSecond

end Err.Plain

def Err.isError : Err → Bool
  | .nil => false
  | _ => true

def Err.Genuine (err : Err) : Prop := (err.asAtomicFinalization.isNone && err.isError) = true

theorem Err.Genuine.plain {err : Err} (genuine : err.Genuine) : err.Plain :=
  Option.isNone_iff_eq_none.mp (Bool.and_eq_true_iff.mp genuine).1

variable {err : Err}

theorem Err.Genuine.ne_nil (genuine : err.Genuine) : err ≠ .nil := by
  rintro rfl
  cases genuine

theorem Err.Plain.genuine_categorized {code text : String} (plain : cause.Plain) :
    (Err.categorized errorClass code text cause).Genuine := by
  have none : (Err.categorized errorClass code text cause).asAtomicFinalization = none :=
    plain.categorized
  rw [Err.Genuine, none]
  rfl

theorem StoreFault.genuine (fault : StoreFault) : fault.err.Genuine := by
  cases fault <;> rfl

theorem ProviderReply.plain (reply : ProviderReply) : reply.err.Plain := by
  cases reply with
  | http statusCode body readErr =>
    cases readErr with
    | none => rfl
    | some fault => cases fault <;> rfl
  | _ => rfl

theorem AgentFailure.plain (failure : AgentFailure) : failure.err.Plain := by
  cases failure <;> rfl

theorem StageFailure.plain (failure : StageFailure) : failure.err.Plain := by
  cases failure <;> rfl

theorem ContextEnd.plain_err (reason : ContextEnd) : reason.err.Plain := by
  cases reason with
  | leaseFailure fault | cancelPollError fault => cases fault <;> rfl
  | _ => rfl

theorem World.Inv.cause_plain {w : World} (inv : w.Inv) (claim : Claim) :
    (w.cause claim).Plain := by
  rcases inv.caused claim with alive | ⟨-, reason, set⟩
  · rw [alive]
    rfl
  · rw [set]
    exact reason.plain_err

theorem StoreCall.Effect.genuine {call : StoreCall} {db db' : Database}
    (effect : call.Effect db (.error err) db')
    (fails : ∀ outside, Fails Err.Genuine (call.tx outside)) : err.Genuine := by
  cases effect with
  | unanswered | unreached => exact StoreFault.genuine _
  | refused failed => exact fails _ _ _ failed

section Transactions
variable {attemptID : String}

theorem lockDiagnosisExecutionTx_genuine (claim : Claim) (generation : Nat)
    (runID attemptID : String) (cancellation : Bool) :
    Fails Err.Genuine (lockDiagnosisExecutionTx claim generation runID attemptID cancellation) := by
  have refusal : (if cancellation then .sentinel .cancellationNotRequested
      else errUserCancellation : Err).Genuine := by
    cases cancellation <;> rfl
  refine .bind Place.select_fails fun current => .bind Place.select_fails fun _ =>
    .bind (.expect ?_) fun _ => .bind (.require rfl) fun _ => .bind (.require refusal) fun _ =>
      .bind Place.select_fails fun _ => .bind (.expect rfl) fun _ =>
        .bind (.require refusal) fun _ => .bind Place.select_fails fun _ =>
          .bind (.expect rfl) fun _ => .bind (.require rfl) fun _ => .pure _
  split <;> rfl

theorem lockLiveDiagnosisExecutionTx_genuine (execution : Execution) (now : Time) :
    Fails Err.Genuine (lockLiveDiagnosisExecutionTx execution now) :=
  .bind (lockDiagnosisExecutionTx_genuine _ _ _ _ _) fun _ => .bind (.require rfl) fun _ =>
    .bind (.require rfl) fun _ => .pure _

theorem liveLockFailure_genuine (claim : Claim) (generation : Nat) (runID : String)
    (current : Option AnalysisJob) : (liveLockFailure claim generation runID current).Genuine := by
  unfold liveLockFailure
  split
  · rfl
  · split
    · rfl
    · split <;> rfl

theorem startAttemptWithClaim_genuine (claim : Claim) (generation : Nat) (runID : String)
    (attempt : DiagnosisAttempt) (now : Time) :
    Fails Err.Genuine (startAttemptWithClaim claim generation runID attempt now) := by
  refine .bind (.bind Place.select_fails fun
      | some _ => .bind (.require rfl) fun _ => .pure _
      | none => .bind Place.select_fails fun _ => .fail (liveLockFailure_genuine _ _ _ _)) fun _ =>
    .bind (.require rfl) fun _ => .bind Place.select_fails fun _ => .bind (.expect rfl) fun _ =>
      .bind (.require rfl) fun _ => .bind
        (.ite (.bind Place.update_fails fun _ => .require rfl) (.require rfl)) fun _ =>
          Place.insert_fails rfl

theorem beginProviderDispatch_genuine (execution : Execution) (now : Time) :
    Fails Err.Genuine (beginProviderDispatch execution now) :=
  .bind (lockLiveDiagnosisExecutionTx_genuine _ _) fun _ => .bind (.require rfl) fun _ =>
    .bind Place.update_fails fun _ => .pure _

theorem checkProviderDispatchAuthority_genuine (execution : Execution) (now : Time) :
    Fails Err.Genuine (checkProviderDispatchAuthority execution now) :=
  .bind (lockLiveDiagnosisExecutionTx_genuine _ _) fun _ => .require rfl

theorem providerDispatchSucceeded_genuine (execution : Execution) (now : Time) :
    Fails Err.Genuine (providerDispatchSucceeded execution now) :=
  .bind (lockLiveDiagnosisExecutionTx_genuine _ _) fun _ => .bind (.require rfl) fun _ =>
    .ite (.pure _) (.bind Place.update_fails fun _ => .require rfl)

theorem providerDispatchFailedDefinitely_genuine (execution : Execution) (now : Time) :
    Fails Err.Genuine (providerDispatchFailedDefinitely execution now) :=
  .bind (lockLiveDiagnosisExecutionTx_genuine _ _) fun _ =>
    .ite (.pure _) (.bind Place.update_fails fun _ => .pure _)

theorem finalizeRunTx_genuine {runID : String} {cancelled : Bool} {status : RunStatus}
    {conflict : Err} (genuine : conflict.Genuine) :
    Fails Err.Genuine (finalizeRunTx runID attemptID cancelled status conflict) :=
  .bind Place.update_fails fun _ => .require genuine

theorem finalizeDiagnosisFailure_genuine (claim : Claim) (generation : Nat)
    (runID attemptID : String) (errorClass : ErrorClass) (code message : String) (counts : Counts) :
    Fails Err.Genuine
      (finalizeDiagnosisFailure claim generation runID attemptID errorClass code message counts) :=
  .bind (.require rfl) fun _ => .bind (lockDiagnosisExecutionTx_genuine _ _ _ _ _) fun _ =>
    .bind Place.update_fails fun _ => .bind (.require rfl) fun _ =>
      .bind (finalizeRunTx_genuine rfl) fun _ => .bind Place.update_fails fun _ => .require rfl

theorem finalizeRetryableAttempt_genuine (claim : Claim) (generation : Nat)
    (runID attemptID code message : String) (counts : Counts) :
    Fails Err.Genuine
      (finalizeRetryableAttempt claim generation runID attemptID code message counts) :=
  .bind (lockDiagnosisExecutionTx_genuine _ _ _ _ _) fun _ =>
    .bind Place.update_fails fun _ => .require rfl

theorem finalizeCancellation_genuine (claim : Claim) (runID attemptID : String) :
    Fails Err.Genuine (finalizeCancellation claim runID attemptID) :=
  .bind (lockDiagnosisExecutionTx_genuine _ _ _ _ _) fun _ => .bind Place.update_fails fun _ =>
    .bind (.require rfl) fun _ => .bind (finalizeRunTx_genuine rfl) fun _ =>
      .bind Place.update_fails fun _ => .require rfl

theorem validateReportPersistence_genuine (report : Report) :
    Fails Err.Genuine (validateReportPersistence report) :=
  .bind (.require rfl) fun _ => .bind (.require rfl) fun _ => .bind (.require rfl) fun _ =>
    .bind (.require rfl) fun _ => .bind (.require rfl) fun _ => .bind (.require rfl) fun _ =>
      .bind (.require rfl) fun _ => .require rfl

theorem updateAttemptCheckpointWithClaim_genuine (execution : Execution)
    (checkpoint : AttemptCheckpoint) (now : Time) :
    Fails Err.Genuine (updateAttemptCheckpointWithClaim execution checkpoint now) :=
  .bind (.require rfl) fun _ => .bind
    (.bind (.require rfl) fun _ => .bind (.require rfl) fun _ => .require rfl) fun _ =>
      .bind (lockLiveDiagnosisExecutionTx_genuine _ _) fun _ =>
        .bind Place.update_fails fun _ => .require rfl

theorem insertCitations_genuine (ids : Nat → String) (citations : List Citation) (drawn : Nat) :
    Fails Err.Genuine (insertCitations ids citations drawn) := by
  induction citations generalizing drawn with
  | nil => exact .pure _
  | cons citation rest ih => exact .bind (Place.insert_fails rfl) fun _ => ih _

theorem finalizeSuccess_genuine (claim : Claim) (runID attemptID : String) (report : Report)
    (citations : List Citation) (counts : Counts) (ids : Nat → String) (now : Time) :
    Fails Err.Genuine
      (finalizeSuccess claim runID attemptID report citations counts ids now) :=
  .bind (lockDiagnosisExecutionTx_genuine _ _ _ _ _) fun _ => .bind (.require rfl) fun _ =>
    .bind (.require rfl) fun _ => .bind (validateReportPersistence_genuine _) fun _ =>
      .bind (Place.insert_fails rfl) fun _ => .bind (insertCitations_genuine _ _ _) fun _ =>
        .bind Place.update_fails fun _ => .bind (.require rfl) fun _ =>
          .bind (finalizeRunTx_genuine rfl) fun _ => .bind Place.update_fails fun _ => .require rfl

theorem finalizeInvalidStructuredReport_genuine (claim : Claim) (runID attemptID : String)
    (report : Report) (counts : Counts) (code message drawnID : String) :
    Fails Err.Genuine (finalizeInvalidStructuredReport claim runID attemptID report counts code
      message drawnID) :=
  .bind (lockDiagnosisExecutionTx_genuine _ _ _ _ _) fun _ => .bind (.require rfl) fun _ =>
    .bind (validateReportPersistence_genuine _) fun _ => .bind (Place.insert_fails rfl) fun _ =>
      .bind Place.update_fails fun _ => .bind (.require rfl) fun _ =>
        .bind (finalizeRunTx_genuine rfl) fun _ => .bind Place.update_fails fun _ => .require rfl

theorem ensureAnalysisJobTx_genuine (jobType : JobType) (resourceID : String)
    (generation jobID : Nat) (now : Time) :
    Fails Err.Genuine (ensureAnalysisJobTx jobType resourceID generation jobID now) :=
  .bind Place.select_fails fun
    | some _ => .pure _
    | none => Place.insert_fails rfl

theorem getOrCreateBuildTx_genuine (snapshotID identity : String) (generation : Nat)
    (drawn : Drawn) (now : Time) :
    Fails Err.Genuine (getOrCreateBuildTx snapshotID identity generation drawn now) :=
  .bind Place.select_fails fun
    | some _ => ensureAnalysisJobTx_genuine _ _ _ _ _
    | none => .bind (Place.insert_fails rfl) fun _ => ensureAnalysisJobTx_genuine _ _ _ _ _

theorem getOrCreateRetrievalBuildTx_genuine (codeIndexBuildID : Nat) (identity : String)
    (generation : Nat) (drawn : Drawn) (now : Time) :
    Fails Err.Genuine (getOrCreateRetrievalBuildTx codeIndexBuildID identity generation drawn
      now) :=
  .bind Place.select_fails fun
    | some _ => ensureAnalysisJobTx_genuine _ _ _ _ _
    | none => .bind (Place.insert_fails rfl) fun _ => ensureAnalysisJobTx_genuine _ _ _ _ _

theorem requireOwnedJob_genuine (claim : Claim) : Fails Err.Genuine (requireOwnedJob claim) :=
  .bind Place.select_fails fun _ => .expect rfl

theorem finalizeOwnedJob_genuine (claim : Claim) : Fails Err.Genuine (finalizeOwnedJob claim) :=
  .bind Place.update_fails fun _ => .require rfl

theorem handOverCodeIndexTx_genuine (identity : BuildIdentity) (existing : Nat)
    (revisionID snapshotID : String) (drawn : Drawn) :
    Fails Err.Genuine (handOverCodeIndexTx identity existing revisionID snapshotID drawn) :=
  .ite (.bind (Place.insert_fails rfl) fun _ => .pure _)
    (.bind Place.select_fails fun _ => .bind (.expect rfl) fun _ => .bind (.require rfl) fun _ =>
      .pure _)

theorem handOverRetrievalTx_genuine (identity : BuildIdentity) (existing : Nat)
    (revisionID : String) (buildID : Nat) (drawn : Drawn) :
    Fails Err.Genuine (handOverRetrievalTx identity existing revisionID buildID drawn) :=
  .ite (.bind (Place.insert_fails rfl) fun _ => .pure _)
    (.bind Place.select_fails fun _ => .bind (.expect rfl) fun _ => .bind (.require rfl) fun _ =>
      .bind Place.update_fails fun _ => .pure _)

theorem StageCall.tx_genuine (claim : Claim) (outside : Outside) (call : StageCall) :
    Fails Err.Genuine (call.tx claim outside) := by
  have published : ∀ {Row κ ι : Type} {key : Row → κ} {index : Row → ι}
      {place : Place Database key index} {p : Row → Prop} [DecidablePred p] {f : Row → Row}
      {keeps : Table.Keeps key index f} {c : Nat → Prop} [DecidablePred c] {text : String},
      Fails Err.Genuine (place.update p f keeps >>= fun n => require (c n) (.message text)) :=
    .bind Place.update_fails fun _ => .require rfl
  have ended := finalizeOwnedJob_genuine claim
  cases call with
  | getOrCreateBuild => exact getOrCreateBuildTx_genuine _ _ _ _ _
  | getOrCreateRetrievalBuild => exact getOrCreateRetrievalBuildTx_genuine _ _ _ _ _
  | markMaterializing | markBuildBuilding | markRetrievalBuilding => exact published
  | finalizeSnapshotSuccessWithRevision =>
    exact .bind (requireOwnedJob_genuine claim) fun _ => .bind published fun _ =>
      .bind Place.select_fails fun _ => .bind (handOverCodeIndexTx_genuine _ _ _ _ _) fun _ =>
        .bind (ensureAnalysisJobTx_genuine _ _ _ _ _) fun _ => .bind Place.update_fails fun _ =>
          .bind (.require rfl) fun _ => ended
  | finalizeLegacySnapshotSuccess =>
    exact .bind (.bind Place.select_fails fun _ => .expect rfl) fun _ =>
      .bind published fun _ => .bind (getOrCreateBuildTx_genuine _ _ _ _ _) fun _ => ended
  | finalizeCodeIndexSuccessWithRevision =>
    exact .bind (requireOwnedJob_genuine claim) fun _ => .bind Place.select_fails fun _ =>
      .bind (.expect rfl) fun _ => .bind Place.select_fails fun _ => .bind (.expect rfl) fun _ =>
        .bind (.require rfl) fun _ => .bind published fun _ =>
          .bind (handOverRetrievalTx_genuine _ _ _ _ _) fun _ =>
            .bind (ensureAnalysisJobTx_genuine _ _ _ _ _) fun _ =>
              .bind Place.update_fails fun _ => .bind (.require rfl) fun _ => ended
  | finalizeLegacyCodeIndexSuccess =>
    exact .bind (.bind Place.select_fails fun _ => .expect rfl) fun _ =>
      .bind Place.select_fails fun _ => .bind (.expect rfl) fun _ => .bind published fun _ =>
        .bind (getOrCreateRetrievalBuildTx_genuine _ _ _ _ _) fun _ => ended
  | finalizeRetrievalSuccess =>
    exact .bind (requireOwnedJob_genuine claim) fun _ => .bind published fun _ => ended
  | finalizeRetrievalSuccessWithRevision =>
    exact .bind (requireOwnedJob_genuine claim) fun _ => .bind Place.select_fails fun _ =>
      .bind (.expect rfl) fun _ => .bind Place.select_fails fun _ => .bind (.expect rfl) fun _ =>
        .bind (.require rfl) fun _ => .bind Place.select_fails fun _ =>
          .bind (.expect rfl) fun _ => .bind (.require rfl) fun _ => .bind published fun _ =>
            .bind Place.update_fails fun _ => .bind (.require rfl) fun _ => ended

end Transactions

section Endings

variable {claim : Claim}

def Unheld (claim : Claim) (db : Database) : Prop :=
  ∀ job ∈ db.jobs.rows, ¬job.HeldBy claim

theorem jobs_update_unheld {p : AnalysisJob → Prop} [DecidablePred p]
    {f : AnalysisJob → AnalysisJob} {keeps : Table.Keeps AnalysisJob.id AnalysisJob.resource f}
    (held : ∀ job, p job → job.HeldBy claim) (stopped : ∀ job, p job → (f job).status ≠ .running) :
    Establishes (Unheld claim)
      (Place.jobs.update p f keeps >>= fun n => require (n = 1) err : Tx Unit) := by
  intro db u db' ran
  obtain ⟨one, rfl⟩ := (Place.update_require_ok _).mp ran
  obtain ⟨hit, present, matched⟩ := Table.exists_of_affected_one one
  intro job' member' held'
  obtain ⟨job, member, rfl⟩ := Table.mem_update.mp (mem_jobs_set.mp member')
  by_cases same : p job
  · rw [if_pos same] at held'
    exact stopped job same held'.running
  · rw [if_neg same] at held'
    cases held'.same member present (held hit matched)
    exact same matched

theorem finalizeSuccess_unheld (runID attemptID : String) (report : Report)
    (citations : List Citation) (counts : Counts) (ids : Nat → String) (now : Time) :
    Establishes (Unheld claim)
      (finalizeSuccess claim runID attemptID report citations counts ids now) :=
  .bind fun _ => .bind fun _ => .bind fun _ => .bind fun _ => .bind fun _ => .bind fun _ =>
    .bind fun _ => .bind fun _ => .bind fun _ =>
      jobs_update_unheld (fun _ hit => hit.1) fun _ _ => JobStatus.noConfusion

theorem failFinalizedJobTx_unheld (generation : Nat) (reason : TerminalReason)
    (errorClass : ErrorClass) (code message : String) :
    Establishes (Unheld claim)
      (failFinalizedJobTx claim generation reason errorClass code message) :=
  jobs_update_unheld (fun _ hit => hit.1) fun _ _ => JobStatus.noConfusion

theorem finalizeInvalidStructuredReport_unheld (runID attemptID : String) (report : Report)
    (counts : Counts) (code message drawnID : String) :
    Establishes (Unheld claim)
      (finalizeInvalidStructuredReport claim runID attemptID report counts code message drawnID) :=
  .bind fun _ => .bind fun _ => .bind fun _ => .bind fun _ => .bind fun _ => .bind fun _ =>
    .bind fun _ => failFinalizedJobTx_unheld _ _ _ _ _

theorem finalizeDiagnosisFailure_unheld (generation : Nat) (runID attemptID : String)
    (errorClass : ErrorClass) (code message : String) (counts : Counts) :
    Establishes (Unheld claim)
      (finalizeDiagnosisFailure claim generation runID attemptID errorClass code message counts) :=
  .bind fun _ => .bind fun _ => .bind fun _ => .bind fun _ => .bind fun _ =>
    failFinalizedJobTx_unheld _ _ _ _ _

theorem finalizeCancellation_unheld (runID attemptID : String) :
    Establishes (Unheld claim) (finalizeCancellation claim runID attemptID) :=
  .bind fun _ => .bind fun _ => .bind fun _ => .bind fun _ =>
    jobs_update_unheld (fun _ hit => hit.1) fun _ _ => JobStatus.noConfusion

end Endings

section Refusals

variable {db : Database} {claim : Claim} {job : AnalysisJob}

structure OwnExecution (db : Database) (claim : Claim) (generation : Nat)
    (runID attemptID : String) : Prop where
  job : ∀ job ∈ db.jobs.rows, job.HeldBy claim → job.For .runDiagnosis runID ∧
    job.executionStarted = true ∧ job.executionGeneration = generation
  worker : ∀ attempt ∈ db.attempts.rows, attempt.id = attemptID →
    attempt.workerID = claim.workerID

def Speaks (db : Database) (claim : Claim) (err : Err) : Prop :=
  (err.is (.stop .ownershipLost) = true ∨ err.is .alreadyFinalized = true → Unheld claim db) ∧
    (err.is (.stop .userCancel) = true →
      ∀ job ∈ db.jobs.rows, job.HeldBy claim → job.cancelRequested = true)

theorem Speaks.silent (owned : err.is (.stop .ownershipLost) = false)
    (unfinished : err.is .alreadyFinalized = false)
    (uncancelled : err.is (.stop .userCancel) = false) : Speaks db claim err := by
  constructor
  · rintro (lost | finished)
    · cases owned.symm.trans lost
    · cases unfinished.symm.trans finished
  · intro cancelled
    cases uncancelled.symm.trans cancelled

theorem Speaks.unheld (unheld : Unheld claim db) : Speaks db claim err :=
  ⟨fun _ => unheld, fun _ job member held => absurd held (unheld job member)⟩

theorem Speaks.flagged (member : job ∈ db.jobs.rows) (held : job.HeldBy claim)
    (flagged : job.cancelRequested = true) : Speaks db claim errUserCancellation := by
  constructor
  · rintro (lost | finished)
    · cases lost
    · cases finished
  · intro _ row present holds
    rw [holds.same present member held]
    exact flagged

theorem lockDiagnosisExecutionTx_refused {generation : Nat} {runID : String}
    (agrees : (db.view runID).Agrees) (own : OwnExecution db claim generation runID attemptID)
    (failed : lockDiagnosisExecutionTx claim generation runID attemptID false db = .error err) :
    Speaks db claim err := by
  have failed₁ := (Place.select_bind_failed _).mp failed
  rcases expect_bind_failed.mp ((Place.select_bind_failed _).mp failed₁) with
    ⟨none, -⟩ | ⟨job, found, failed₂⟩
  · -- No row is held under this claim, whichever of the two words is used.
    refine .unheld fun job member held => ?_
    obtain ⟨resource, started, -⟩ := own.job job member held
    exact Table.select_none none job member ⟨held, resource, started⟩
  obtain ⟨member, held, resource, started⟩ := Table.select_some found
  rcases require_bind_failed.mp failed₂ with ⟨other, -⟩ | ⟨-, failed₃⟩
  · exact absurd (.inr (own.job job member held).2.2) other
  rcases require_bind_failed.mp failed₃ with ⟨flagged, rfl⟩ | ⟨unflagged, failed₄⟩
  · exact .flagged member held (by simpa using flagged)
  rcases expect_bind_failed.mp ((Place.select_bind_failed _).mp failed₄) with
    ⟨-, rfl⟩ | ⟨run, foundRun, failed₅⟩
  · exact .silent rfl rfl rfl
  obtain ⟨runMember, runOwn, running⟩ := Table.select_some foundRun
  rcases require_bind_failed.mp failed₅ with ⟨flagged, -⟩ | ⟨-, failed₆⟩
  · -- Run and job would disagree on the flag.
    have same := agrees.flags (view_job.mpr ⟨member, resource⟩) (view_run.mpr ⟨runMember, runOwn⟩)
      (by rw [running]; rfl)
    exact absurd (same.trans unflagged) flagged
  rcases expect_bind_failed.mp ((Place.select_bind_failed _).mp failed₆) with
    ⟨-, rfl⟩ | ⟨attempt, foundAttempt, failed₇⟩
  · exact .silent rfl rfl rfl
  obtain ⟨attemptMember, attemptOwn, -⟩ := Table.select_some foundAttempt
  rcases require_bind_failed.mp failed₇ with ⟨other, -⟩ | ⟨-, failed₈⟩
  · exact absurd (own.worker attempt attemptMember attemptOwn) other
  · cases failed₈

theorem finalizeDiagnosisFailure_refused {generation : Nat} {runID : String} {code message : String}
    {counts : Counts} (agrees : (db.view runID).Agrees)
    (own : OwnExecution db claim generation runID attemptID)
    (failed : finalizeDiagnosisFailure claim generation runID attemptID errorClass code message
      counts db = .error err) :
    Speaks db claim err := by
  rcases require_bind_failed.mp failed with ⟨-, rfl⟩ | ⟨-, failed₁⟩
  · exact .silent rfl rfl rfl
  rcases bind_failed.mp failed₁ with refused | ⟨⟨job, run, locked⟩, db₂, lock, failed₂⟩
  · exact lockDiagnosisExecutionTx_refused agrees own refused
  obtain ⟨rfl, view, -⟩ := lockDiagnosisExecutionTx_ok lock
  obtain ⟨member, -⟩ := view_job.mp view.job_eq
  rcases bind_failed.mp failed₂ with refused | ⟨affected, db₃, updated, failed₃⟩
  · cases refused
  obtain ⟨-, rfl⟩ := (Place.update_ok _).mp updated
  rcases require_bind_failed.mp failed₃ with ⟨-, rfl⟩ | ⟨-, failed₄⟩
  · exact .silent rfl rfl rfl
  rcases bind_failed.mp failed₄ with refused | ⟨u, db₅, finalized, failed₅⟩
  · rcases bind_failed.mp refused with refused | ⟨n, db₆, -, refused⟩
    · cases refused
    · obtain ⟨-, rfl⟩ := require_failed.mp refused
      exact .silent rfl rfl rfl
  -- The statements so far have not written jobs, so the locked job is found again.
  have same := finalizeRunTx_sameJobs _ _ _ _ _ _ _ _ finalized
  have jobs : db₅.jobs = db₂.jobs := same
  rcases bind_failed.mp failed₅ with refused | ⟨n, db₆, counted, refused⟩
  · cases refused
  obtain ⟨rfl, -⟩ := (Place.update_ok _).mp counted
  refine absurd ?_ (require_failed.mp refused).1
  have present : job ∈ (Place.jobs.get db₅).rows := by
    rw [Place.jobs_get, jobs]
    exact member
  refine Table.affected_one present ?_ ?_
  · exact ⟨view.held, (own.job job member view.held).2.2, view.started, view.job_flag⟩
  · intro other present matched
    rw [Place.jobs_get, jobs] at present
    exact matched.1.same present member view.held

end Refusals

end RepoLens
