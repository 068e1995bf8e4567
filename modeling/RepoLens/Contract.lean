import RepoLens.Ownership

/-!
The contract between a claim's program and everything else. `Allowed` says which
calls a program may make in which world, `Rely` what it may take for granted about
its job, its attempts, its context and its own history while others move, and
`World.Inv` what holds in every world.
-/

namespace RepoLens

open Relational Transaction Interleaving

def Event.claim : Event → Claim
  | .started claim _ _ _ => claim
  | .handlerInvoked claim _ => claim
  | .begun execution => execution.claim
  | .authorized execution => execution.claim
  | .dispatched execution => execution.claim
  | .received execution _ => execution.claim
  | .policyDropped claim _ _ => claim
  | .finalizationError claim _ => claim

def World.own (w : World) (claim : Claim) : List Event :=
  w.log.filter fun event => event.claim = claim

def Event.isReceived (execution : Execution) : Event → Bool
  | .received other _ => other = execution
  | _ => false

def AllDefinite (execution : Execution) (log : List Event) : Prop :=
  log.countP (fun event => event = .dispatched execution) =
      log.countP (Event.isReceived execution) ∧
    ∀ reply, .received execution reply ∈ log → definiteFailure reply.err = true

def World.Dropped (w : World) (claim : Claim) : Prop :=
  ∃ policy cause, .policyDropped claim policy cause ∈ w.log

def World.Overridden (w : World) (claim : Claim) : Prop :=
  ∃ policy cause, .policyDropped claim policy cause ∈ w.log ∧
    (classifyError cause).1 = .retryable

def World.Acting (w : World) (claim actor : Claim) : Prop := actor = claim ∧ ¬w.Dropped claim

def Database.ResolvedAttempt (db : Database) (attemptID : String) : Prop :=
  ∀ attempt ∈ db.attempts.rows, attempt.id = attemptID →
    attempt.providerDispatchUnresolved = false

def StageCall.Addresses : StageCall → AnalysisJob → Prop
  | .finalizeSnapshotSuccessWithRevision snapshotID _ _, job =>
    job.For .materializeSnapshot snapshotID
  | .finalizeCodeIndexSuccessWithRevision buildID _, job =>
    job.For .buildCodeIndex (toString buildID)
  | .finalizeRetrievalSuccessWithRevision buildID _, job =>
    job.For .buildRetrieval (toString buildID)
  | _, _ => True

def World.Retryable (w : World) (claim : Claim) (job : AnalysisJob) : Prop :=
  job.attemptCount < job.maxAttempts ∧
    (job.jobType = .runDiagnosis → job.cancelRequested = false →
      (w.db.view job.resourceID).Resolved job ∨ w.Overridden claim)

def StoreCall.Allowed (claim : Claim) (w : World) : StoreCall → Prop
  | .getJobByID _ | .getSnapshot _ | .getCodeIndexBuild _ | .getRetrievalBuild _ | .getRunByID _
  | .getLatestFinalCheckpoint _ _ | .getAttempt _ => True
  | .markExecutionStarted actor _ | .returnUndispatchedClaim actor _ | .renewLease actor
  | .conditionalFinalizeCancel actor => actor = claim
  | .conditionalFinalizeSuccess actor => actor = claim ∧ w.db.NoDiagnosis claim
  | .conditionalFinalizeFailure actor failure => actor = claim ∧
      (failure.isTerminal = false → ∀ job ∈ w.db.jobs.rows, job.HeldBy claim →
        w.Retryable claim job)
  | .startAttemptWithClaim actor _ _ attempt => w.Acting claim actor ∧
      attempt.providerDispatchUnresolved = false ∧ attempt.providerDispatchSuccessSeen = false
  | .beginProviderDispatch execution | .checkProviderDispatchAuthority execution
  | .providerDispatchSucceeded execution => w.Acting claim execution.claim
  | .providerDispatchFailedDefinitely execution => w.Acting claim execution.claim ∧
      ∀ attempt ∈ w.db.attempts.rows, attempt.id = execution.attemptID →
        attempt.providerDispatchSuccessSeen = false →
        ∀ other, other.claim = claim → other.attemptID = attempt.id → AllDefinite other w.log
  | .updateAttemptCheckpointWithClaim execution _ => w.Acting claim execution.claim ∧
      ∀ attempt ∈ w.db.attempts.rows, attempt.id = execution.attemptID →
        attempt.checkpointKind = .none
  | .finalizeSuccess actor _ attemptID _ _ _ =>
    w.Acting claim actor ∧ w.db.ResolvedAttempt attemptID
  | .finalizeRetryableAttempt actor _ _ attemptID _ _ _ =>
    w.Acting claim actor ∧ w.db.ResolvedAttempt attemptID
  | .finalizeInvalidStructuredReport actor _ _ _ _ _ _ => w.Acting claim actor
  | .finalizeDiagnosisFailure actor _ _ _ _ _ _ _ => w.Acting claim actor
  | .finalizeCancellation actor _ _ => w.Acting claim actor
  | .stage actor call => actor = claim ∧ w.db.NoDiagnosis claim ∧
      ∀ job ∈ w.db.jobs.rows, job.HeldBy claim → call.Addresses job

def World.runRules (w : World) (claim : Claim) : RunRules where
  excused _ := w.Overridden claim
  acts actor := w.Acting claim actor
  clears attempt := ∀ other, other.claim = claim → other.attemptID = attempt.id →
    AllDefinite other w.log
  saves attempt := attempt.checkpointKind = .none
  revives _ := False
  aborts _ := True
  requeues _ := False
  strands _ := True

def RunRules.outside : RunRules where
  excused _ := False
  acts _ := False
  clears _ := False
  saves _ := False
  revives _ := True
  aborts _ := True
  requeues _ := True
  strands _ := True

def RunRules.free : RunRules where
  excused _ := True
  acts _ := True
  clears _ := True
  saves _ := True
  revives _ := True
  aborts _ := True
  requeues _ := True
  strands _ := True

/-- What a claim may do under the first rules, it may do under the second. -/
structure RunRules.Permits (rules rules' : RunRules) : Prop where
  acts : ∀ actor, rules.acts actor → rules'.acts actor
  clears : ∀ attempt, rules.clears attempt → rules'.clears attempt
  saves : ∀ attempt, rules.saves attempt → rules'.saves attempt

theorem RunRules.Permits.refl (rules : RunRules) : rules.Permits rules :=
  ⟨fun _ granted => granted, fun _ granted => granted, fun _ granted => granted⟩

def World.Excuses (w : World) (rules : RunRules) (claim : Claim) : Prop :=
  w.Overridden claim → ∀ job ∈ w.db.jobs.rows, job.HeldBy claim →
    job.attemptCount < job.maxAttempts → rules.excused job

def StoreCall.Aborting (rules : RunRules) (db : Database) : StoreCall → Prop
  | .conditionalFinalizeFailure actor failure =>
    ∀ job ∈ db.jobs.rows, job.HeldBy actor → job.StartedDiagnosis →
      (failure.isTerminal = true → ∀ run ∈ db.runs.rows, run.id = job.resourceID →
        run.status = .queued → rules.aborts run) ∧
      (failure.isTerminal = false → (db.view job.resourceID).Unclosed job → rules.strands job)
  | _ => True

variable {rules : RunRules} {outside : Outside} {call : StoreCall}

theorem StoreCall.aborting (aborts : ∀ run, rules.aborts run) (strands : ∀ job, rules.strands job)
    (db : Database) (call : StoreCall) :
    call.Aborting rules db := by
  cases call with
  | conditionalFinalizeFailure =>
    exact fun job _ _ _ => ⟨fun _ run _ _ _ => aborts run, fun _ _ => strands job⟩
  | _ => trivial

section Calls

variable {w : World} {claim : Claim} {db' : Database}

def StoreCall.acts : StoreCall → Bool
  | .startAttemptWithClaim .. | .beginProviderDispatch _ | .checkProviderDispatchAuthority _
  | .providerDispatchSucceeded _ | .providerDispatchFailedDefinitely _
  | .updateAttemptCheckpointWithClaim .. | .finalizeSuccess .. | .finalizeRetryableAttempt ..
  | .finalizeInvalidStructuredReport .. | .finalizeDiagnosisFailure .. | .finalizeCancellation .. =>
    true
  | _ => false

theorem StoreCall.quiet_view {answer : call.Answer} (quiet : call.acts = false)
    (excused : w.Excuses rules claim) (agrees : ∀ runID, (w.db.view runID).Agrees)
    (aborting : call.Aborting rules w.db) (allowed : call.Allowed claim w)
    (ran : call.tx outside w.db = .ok (answer, db')) : ViewStep rules w.db db' := by
  have read : ∀ {α : Type} {tx : Tx α} {a : α}, Ensures SameViews tx →
      tx w.db = .ok (a, db') → ViewStep rules w.db db' :=
    fun same ran => SameViews.step (same _ _ _ ran)
  cases call with
  | getJobByID | getSnapshot | getCodeIndexBuild | getRetrievalBuild | getRunByID | getAttempt =>
    exact read (.bind Place.select_ensures fun _ => .expect _ _) ran
  | getLatestFinalCheckpoint =>
    exact read (.bind Place.selectAll_ensures fun _ => .pure _) ran
  | markExecutionStarted => exact markExecutionStarted_view ran
  | returnUndispatchedClaim => exact returnUndispatchedClaim_view ran
  | renewLease => exact renewLease_view ran
  | conditionalFinalizeSuccess actor =>
    obtain ⟨rfl, other⟩ := allowed
    exact conditionalFinalizeSuccess_view agrees other ran
  | conditionalFinalizeFailure actor failure =>
    obtain ⟨rfl, retryable⟩ := allowed
    refine conditionalFinalizeFailure_view agrees (fun nonterminal job member held diagnosis
      unflagged => ?_) (fun terminal job member held started =>
        (aborting job member held started).1 terminal)
      (fun nonterminal job member held started =>
        (aborting job member held started).2 nonterminal) ran
    obtain ⟨left, resolved⟩ := retryable nonterminal job member held
    exact (resolved diagnosis unflagged).imp_right
      fun overridden => excused overridden job member held left
  | conditionalFinalizeCancel => exact conditionalFinalizeCancel_view agrees ran
  | stage actor call =>
    obtain ⟨rfl, other, -⟩ := allowed
    exact SameViews.step (StageCall.tx_stageStep outside call _ _ _ ran other).1
  | startAttemptWithClaim | beginProviderDispatch | checkProviderDispatchAuthority
  | providerDispatchSucceeded | providerDispatchFailedDefinitely
  | updateAttemptCheckpointWithClaim | finalizeSuccess | finalizeInvalidStructuredReport
  | finalizeDiagnosisFailure | finalizeRetryableAttempt | finalizeCancellation => cases quiet

theorem StoreCall.tx_view {answer : call.Answer} (permits : (w.runRules claim).Permits rules)
    (excused : w.Excuses rules claim) (agrees : ∀ runID, (w.db.view runID).Agrees)
    (aborting : call.Aborting rules w.db) (allowed : call.Allowed claim w)
    (ran : call.tx outside w.db = .ok (answer, db')) :
    ViewStep rules w.db db' := by
  cases quiet : call.acts with
  | false => exact quiet_view quiet excused agrees aborting allowed ran
  | true =>
  cases call with
  | startAttemptWithClaim actor generation runID attempt =>
    obtain ⟨acting, resolved, unseen⟩ := allowed
    exact startAttemptWithClaim_view (permits.acts _ acting) resolved unseen ran
  | beginProviderDispatch execution =>
    obtain ⟨attempt, marked⟩ := beginProviderDispatch_ok ran
    exact marked.view (permits.acts _ allowed) .begun
  | checkProviderDispatchAuthority execution =>
    obtain ⟨attempt, db₁, lock, ran₁⟩ := bind_ok.mp ran
    obtain ⟨rfl, -⟩ := lockLiveDiagnosisExecutionTx_ok lock
    obtain ⟨-, rfl⟩ := require_ok.mp ran₁
    exact fun _ => .inl rfl
  | providerDispatchSucceeded execution =>
    obtain ⟨attempt, unresolved, marked⟩ := providerDispatchSucceeded_ok ran
    exact marked.view (permits.acts _ allowed) (.succeeded unresolved)
  | providerDispatchFailedDefinitely execution =>
    obtain ⟨acting, definite⟩ := allowed
    rcases providerDispatchFailedDefinitely_ok ran with ⟨-, rfl⟩ | ⟨attempt, unseen, marked⟩
    · exact fun _ => .inl rfl
    · obtain ⟨job, run, locked, -⟩ := marked.locked
      exact marked.view (permits.acts _ acting) (.cleared unseen (permits.clears _
        (definite attempt (view_attempt.mp locked.member).1 marked.own unseen)))
  | updateAttemptCheckpointWithClaim execution checkpoint =>
    obtain ⟨acting, unsaved⟩ := allowed
    obtain ⟨attempt, marked⟩ := updateAttemptCheckpointWithClaim_ok ran
    obtain ⟨job, run, locked, -⟩ := marked.locked
    exact marked.view (permits.acts _ acting) (.checkpointed checkpoint outside.now
      (permits.saves _ (unsaved attempt (view_attempt.mp locked.member).1 marked.own)))
  | finalizeSuccess actor runID attemptID =>
    obtain ⟨acting, resolved⟩ := allowed
    exact finalizeSuccess_view (permits.acts _ acting)
      (fun attempt member => resolved attempt (view_attempt.mp member).1) ran
  | finalizeInvalidStructuredReport =>
    exact finalizeInvalidStructuredReport_view (permits.acts _ allowed) ran
  | finalizeDiagnosisFailure =>
    exact finalizeDiagnosisFailure_view (permits.acts _ allowed) ran
  | finalizeRetryableAttempt actor generation runID attemptID =>
    obtain ⟨acting, resolved⟩ := allowed
    exact finalizeRetryableAttempt_view (permits.acts _ acting)
      (fun attempt member => resolved attempt (view_attempt.mp member).1) ran
  | finalizeCancellation => exact finalizeCancellation_view (permits.acts _ allowed) ran
  | getJobByID | getSnapshot | getCodeIndexBuild | getRetrievalBuild | getRunByID | getAttempt
  | getLatestFinalCheckpoint | markExecutionStarted | returnUndispatchedClaim | renewLease
  | conditionalFinalizeSuccess | conditionalFinalizeFailure | conditionalFinalizeCancel
  | stage => cases quiet

theorem StoreCall.tx_jobs {rules : JobRules} {answer : call.Answer}
    (retryable : ∀ job ∈ w.db.jobs.rows, job.HeldBy claim → job.attemptCount < job.maxAttempts →
      rules.retry job)
    (created : ∀ id jobType resourceID generation now, jobType ≠ .runDiagnosis →
      rules.create (newJob id jobType resourceID generation 3 now))
    (allowed : call.Allowed claim w)
    (uncharged : ∀ actor generation, call ≠ .markExecutionStarted actor generation)
    (ran : call.tx outside w.db = .ok (answer, db')) : JobsEvolve rules w.db db' := by
  have read : ∀ {α : Type} {tx : Tx α} {a : α}, Ensures SameJobs tx →
      tx w.db = .ok (a, db') → JobsEvolve rules w.db db' :=
    fun same ran => (same _ _ _ ran).evolves
  cases call with
  | getJobByID | getSnapshot | getCodeIndexBuild | getRetrievalBuild | getRunByID | getAttempt =>
    exact read (.bind Place.select_ensures fun _ => .expect _ _) ran
  | getLatestFinalCheckpoint =>
    exact read (.bind Place.selectAll_ensures fun _ => .pure _) ran
  | markExecutionStarted actor generation => exact absurd rfl (uncharged actor generation)
  | returnUndispatchedClaim => exact returnUndispatchedClaim_jobs _ _ _ _ _ ran
  | renewLease => exact renewLease_jobs _ _ _ _ _ _ ran
  | conditionalFinalizeSuccess => exact conditionalFinalizeSuccess_jobs _ _ _ _ ran
  | conditionalFinalizeFailure actor failure =>
    obtain ⟨rfl, retry⟩ := allowed
    exact conditionalFinalizeFailure_jobs (fun nonterminal job member held =>
      retryable job member held (retry nonterminal job member held).1) ran
  | conditionalFinalizeCancel => exact conditionalFinalizeCancel_jobs _ _ _ _ ran
  | startAttemptWithClaim => exact read (startAttemptWithClaim_sameJobs _ _ _ _ _) ran
  | beginProviderDispatch => exact read (beginProviderDispatch_sameJobs _ _) ran
  | checkProviderDispatchAuthority =>
    exact read (.bind (lockLiveDiagnosisExecutionTx_sameJobs _ _) fun _ => .require _ _) ran
  | providerDispatchSucceeded => exact read (providerDispatchSucceeded_sameJobs _ _) ran
  | providerDispatchFailedDefinitely =>
    exact read (providerDispatchFailedDefinitely_sameJobs _ _) ran
  | updateAttemptCheckpointWithClaim =>
    exact read (updateAttemptCheckpointWithClaim_sameJobs _ _ _) ran
  | finalizeSuccess => exact finalizeSuccess_jobs _ _ _ _ _ _ _ _ _ _ _ ran
  | finalizeInvalidStructuredReport =>
    exact finalizeInvalidStructuredReport_jobs _ _ _ _ _ _ _ _ _ _ _ ran
  | finalizeDiagnosisFailure => exact finalizeDiagnosisFailure_jobs _ _ _ _ _ _ _ _ _ _ _ ran
  | finalizeRetryableAttempt => exact read (finalizeRetryableAttempt_sameJobs _ _ _ _ _ _ _) ran
  | finalizeCancellation => exact finalizeCancellation_jobs _ _ _ _ _ _ ran
  | stage actor call =>
    exact StageCall.tx_ensures (fun _ _ same => SameJobs.evolves same.1)
      (fun _ _ _ _ _ other => jobs_insert (created _ _ _ _ _ other))
      (.bind (jobs_update fun _ ⟨held, started, _⟩ => .ended held.running rfl (.inl started))
        fun _ => .require _ _) outside call _ _ _ ran

end Calls

section Requests

variable {db db' : Database}

theorem reapEach_view {jitter : Nat → Nat} {now : Time} {reaped : List AnalysisJob} {n : Nat}
    (sound : db.Sound)
    (present : ∀ expired ∈ reaped, expired ∈ db.jobs.rows ∧ expired.status = .running)
    (distinct : (reaped.map AnalysisJob.id).Nodup)
    (reapable : ∀ expired ∈ reaped, expired.Reapable rules db)
    (ran : reapEach jitter now reaped db = .ok (n, db')) :
    ViewStep rules db db' ∧ ∀ runID, (∀ expired ∈ reaped, ¬expired.For .runDiagnosis runID) →
      db'.view runID = db.view runID := by
  induction reaped generalizing n db with
  | nil =>
    obtain ⟨-, rfl⟩ := pure_ok.mp ran
    exact ⟨fun _ => .inl rfl, fun _ _ => rfl⟩
  | cons expired rest ih =>
    obtain ⟨u, db₁, ranOne, ran⟩ := bind_ok.mp ran
    obtain ⟨m, db₂, ranRest, done⟩ := bind_ok.mp ran
    obtain ⟨-, rfl⟩ := pure_ok.mp done
    rw [List.map_cons, List.nodup_cons] at distinct
    obtain ⟨here, running⟩ := present expired List.mem_cons_self
    have one := reapExpiredJobTx_view (fun runID => (sound runID).agrees) here running
      (reapable expired List.mem_cons_self) ranOne
    have untouched := reapExpiredJobTx_onlyJob expired (jitter expired.id) now _ _ _ ranOne
    have apart : ∀ later ∈ rest, expired.id ≠ later.id := fun later member same =>
      distinct.1 (same ▸ List.mem_map_of_mem member)
    have there := fun later member => present later (List.mem_cons_of_mem _ member)
    -- Two jobs of one diagnosis are one row.
    have other : ∀ later ∈ rest, ∀ runID, expired.For .runDiagnosis runID →
        ¬later.For .runDiagnosis runID := by
      intro later member runID owner ownerLater
      refine apart later member (congrArg AnalysisJob.id (db.jobs.eq_of_index here
        (there later member).1 ?_))
      simp only [AnalysisJob.resource, owner.1, owner.2, ownerLater.1, ownerLater.2]
    have left : ∀ later ∈ rest, later.Reapable rules db₁ := by
      intro later member
      have before := reapable later (List.mem_cons_of_mem _ member)
      rcases one later.resourceID with same | ⟨owner, -⟩
      · exact before.of_view same
      · have notDiagnosis : later.jobType ≠ .runDiagnosis := fun diagnosis =>
          other later member _ owner ⟨diagnosis, rfl⟩
        exact ⟨fun started => absurd started.1 notDiagnosis,
          fun started => absurd started.1 notDiagnosis,
          fun diagnosis => absurd diagnosis notDiagnosis⟩
    obtain ⟨stepped, kept⟩ := ih (ViewRun.sound (.single one.step) sound)
      (fun later member => ⟨untouched later (there later member).1
        fun same => apart later member same.symm, (there later member).2⟩)
      distinct.2 left ranRest
    constructor
    · intro runID
      rcases one runID with same | ⟨owner, step⟩
      · rw [← same]
        exact stepped runID
      · rw [kept runID fun later member => other later member runID owner]
        exact .inr step
    · intro runID unowned
      rw [kept runID fun later member => unowned later (List.mem_cons_of_mem _ member)]
      exact (one runID).resolve_right fun step => unowned expired List.mem_cons_self step.1

def AnalysisJob.Expired (job : AnalysisJob) (pick : AnalysisJob → Bool) (now : Time) : Prop :=
  job.status = .running ∧ job.leaseExpired now = true ∧ pick job = true

theorem reapExpiredJobs_view {batchSize : Nat} {pick : AnalysisJob → Bool} {jitter : Nat → Nat}
    {now : Time} {n : Nat} (sound : db.Sound)
    (reapable : ∀ job ∈ db.jobs.rows, job.Expired pick now → job.Reapable rules db)
    (ran : reapExpiredJobs batchSize pick jitter now db = .ok (n, db')) :
    ViewStep rules db db' := by
  obtain ⟨expired, db₁, selected, ran⟩ := bind_ok.mp ran
  obtain ⟨rfl, rfl⟩ := (Place.selectAll_ok _).mp selected
  have rows : ∀ job ∈ ((Place.jobs.get db₁).selectAll fun job =>
      job.status = .running ∧ job.leaseExpired now = true ∧ pick job = true).take batchSize,
      job ∈ db₁.jobs.rows ∧ job.Expired pick now := by
    intro job member
    exact Table.mem_selectAll.mp (List.mem_of_mem_take member)
  refine (reapEach_view sound (fun job member => ⟨(rows job member).1, (rows job member).2.1⟩) ?_
    (fun job member => reapable job (rows job member).1 (rows job member).2) ran).1
  exact (db₁.jobs.primary.sublist (List.filter_sublist.map _)).sublist
    ((List.take_sublist _ _).map _)

def Request.Granted (rules : RunRules) (db : Database) (outside : Outside) : Request → Prop
  | .requestCancellation runID _ => ∀ job, (db.view runID).job = some job →
      job.status ≠ .running → (db.view runID).Attempted job → rules.strands job
  | .retryDiagnosis runID => ∀ run : DiagnosisRun, run.id = runID → rules.requeues run
  | .reapExpiredJobs _ pick _ =>
    ∀ job ∈ db.jobs.rows, job.Expired pick outside.now → job.Reapable rules db
  | _ => True

theorem Request.granted (revives : ∀ attempt, rules.revives attempt)
    (aborts : ∀ run, rules.aborts run) (requeues : ∀ run, rules.requeues run)
    (strands : ∀ job, rules.strands job) (db : Database) (outside : Outside) (request : Request) :
    request.Granted rules db outside := by
  cases request with
  | requestCancellation => exact fun job _ _ _ => strands job
  | retryDiagnosis => exact fun run _ => requeues run
  | reapExpiredJobs =>
    exact fun job _ _ => ⟨fun _ _ run _ _ _ => aborts run,
      fun _ attempt _ _ _ => revives attempt, fun _ _ _ => strands job⟩
  | _ => trivial

theorem Request.tx_view {request : Request} {u : Unit} (sound : db.Sound)
    (granted : request.Granted rules db outside) (ran : request.tx outside db = .ok (u, db')) :
    ViewStep rules db db' := by
  have pipeline : ∀ {tx : Tx Unit}, Ensures SameViews tx → tx db = .ok (u, db') →
      ViewStep rules db db' :=
    fun same ran => SameViews.step (same _ _ _ ran)
  have apart : ∀ db db', SameDiagnoses db db' → SameViews db db' :=
    fun _ _ => SameDiagnoses.sameViews
  cases request with
  | createDiagnosis => exact createDiagnosis_view ran
  | requestCancellation runID => exact requestCancellation_view (sound runID).agrees granted ran
  | retryDiagnosis => exact retryDiagnosis_view granted ran
  | createPreparation =>
    exact pipeline (createPreparation_ensures apart newJob_sameViews _ _ _ _) ran
  | retryPreparation =>
    exact pipeline
      (retryPreparation_ensures apart newJob_sameViews resetJobs_sameViews _ _ _ _) ran
  | createLegacySnapshot =>
    exact pipeline (createLegacySnapshot_ensures apart newJob_sameViews _ _ _ _ _) ran
  | getOrCreateBuild =>
    exact pipeline (getOrCreateBuildTx_ensures apart newJob_sameViews _ _ _ _ _) ran
  | getOrCreateRetrievalBuild =>
    exact pipeline (getOrCreateRetrievalBuildTx_ensures apart newJob_sameViews _ _ _ _ _) ran
  | renewLease => exact renewLease_view ran
  | recoverStaleAttempt => exact recoverStaleAttempt_view ran
  | reapExpiredJobs =>
    obtain ⟨n, db₁, reaped, ran₁⟩ := bind_ok.mp ran
    obtain ⟨-, rfl⟩ := pure_ok.mp ran₁
    exact reapExpiredJobs_view sound granted reaped

theorem Request.tx_jobs {rules : JobRules} {request : Request} {u : Unit}
    (retryable : ∀ job, job.attemptCount < job.maxAttempts → rules.retry job)
    (created : ∀ id jobType resourceID generation now,
      rules.create (newJob id jobType resourceID generation 3 now))
    (requeue : ∀ job, job.status = .failed → rules.requeue job (job.executionGeneration + 1))
    (prepared : ∀ revisionID, request = .retryPreparation revisionID → JobsEvolve rules db db')
    (ran : request.tx outside db = .ok (u, db')) : JobsEvolve rules db db' := by
  have apart : ∀ db db', SameDiagnoses db db' → JobsEvolve rules db db' :=
    fun _ _ same => SameJobs.evolves same.1
  have inserted : ∀ id jobType resourceID generation now, jobType ≠ .runDiagnosis →
      Ensures (JobsEvolve rules)
        (Place.jobs.insert (newJob id jobType resourceID generation 3 now) errDuplicate) :=
    fun _ _ _ _ _ _ => jobs_insert (created _ _ _ _ _)
  cases request with
  | createDiagnosis => exact createDiagnosis_jobs (created _ _ _ _ _) _ _ _ ran
  | requestCancellation => exact requestCancellation_jobs _ _ _ _ _ ran
  | retryDiagnosis => exact retryDiagnosis_jobs requeue _ _ _ ran
  | createPreparation => exact createPreparation_ensures apart inserted _ _ _ _ _ _ _ ran
  | retryPreparation revisionID => exact prepared revisionID rfl
  | createLegacySnapshot => exact createLegacySnapshot_ensures apart inserted _ _ _ _ _ _ _ _ ran
  | getOrCreateBuild => exact getOrCreateBuildTx_ensures apart inserted _ _ _ _ _ _ _ _ ran
  | getOrCreateRetrievalBuild =>
    exact getOrCreateRetrievalBuildTx_ensures apart inserted _ _ _ _ _ _ _ _ ran
  | renewLease => exact renewLease_jobs _ _ _ _ _ _ ran
  | recoverStaleAttempt => exact (recoverStaleAttempt_sameJobs _ _ _ _ _ _ ran).evolves
  | reapExpiredJobs =>
    obtain ⟨n, db₁, reaped, ran₁⟩ := bind_ok.mp ran
    obtain ⟨-, rfl⟩ := pure_ok.mp ran₁
    exact reapExpiredJobs_ensures (fun expired running db db' present =>
      reapExpiredJobTx_jobs present running (retryable expired)) reaped

end Requests

end RepoLens
