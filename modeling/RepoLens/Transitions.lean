import RepoLens.Reporting

/-!
The declared status machines of runs and attempts against what the transactions really do.
-/

namespace RepoLens

open Relational Transaction Interleaving

def isValidRunTransition (source target : RunStatus) : Bool :=
  match source with
  | .queued => target = .running ∨ target = .cancelled
  | .running => target = .succeeded ∨ target = .failed ∨ target = .cancelled
  | _ => false

def isValidAttemptTransition (source target : AttemptStatus) : Bool :=
  if source ≠ .running then false
  else target = .succeeded ∨ target = .failedRetryable ∨ target = .failedTerminal ∨
    target = .cancelled ∨ target = .abandoned

section Steps

variable {rules : RunRules} {runID : String} {v v' : RunView}

theorem RunStatus.active_iff {status : RunStatus} :
    status.active = true ↔ status = .queued ∨ status = .running := by
  cases status <;> simp [active]

theorem isValidRunTransition_of_active {status : RunStatus} (active : status.active = true) :
    isValidRunTransition status .cancelled = true := by
  rcases RunStatus.active_iff.mp active with rfl | rfl <;> rfl

theorem Closing.run_transition {attemptID : String} {cancelled : Bool}
    {attemptStatus : AttemptStatus} {runStatus : RunStatus} {jobStatus : JobStatus}
    {reports : List Report}
    (closing : Closing attemptID cancelled attemptStatus runStatus jobStatus reports) :
    isValidRunTransition .running runStatus = true ∧
      isValidAttemptTransition .running attemptStatus = true := by
  cases closing <;> exact ⟨rfl, rfl⟩

theorem RunStep.run_status (step : RunStep rules runID v v') {run run' : DiagnosisRun}
    (run_eq : v.run = some run) (run_eq' : v'.run = some run') :
    run'.status = run.status ∨ isValidRunTransition run.status run'.status = true ∨
      (run.status = .queued ∧ run'.status = .failed ∧ rules.aborts run) ∨
      (run.status = .failed ∧ run'.status = .queued ∧ rules.requeues run) := by
  have kept : v'.run = v.run → run'.status = run.status := fun same => by
    cases run_eq'.symm.trans (same.trans run_eq)
    rfl
  cases step with
  | created _ noRun => cases noRun.symm.trans run_eq
  | claimed | began | released | renewed | retried | marked | closedForRetry | reapedRetry =>
    exact .inl (kept rfl)
  | abandoned _ _ _ _ versioned =>
    left
    rcases versioned with same | ⟨row, version, found, new⟩
    · exact kept same
    · cases found.symm.trans run_eq
      cases new.symm.trans run_eq'
      rfl
  | flagged _ _ found =>
    cases found.symm.trans run_eq
    cases run_eq'
    exact .inl rfl
  | attemptStarted _ _ _ _ _ found active =>
    cases found.symm.trans run_eq
    cases run_eq'
    rcases RunStatus.active_iff.mp active with queued | running
    · rw [queued]
      exact .inr (.inl rfl)
    · exact .inl running.symm
  | closed _ locked closing =>
    cases locked.run_eq.symm.trans run_eq
    cases run_eq'
    right; left
    rw [locked.running]
    exact closing.run_transition.1
  | failedByJob _ _ _ _ found active _ _ _ allowed =>
    cases found.symm.trans run_eq
    cases run_eq'
    right
    rcases RunStatus.active_iff.mp active with queued | running
    · exact .inr (.inl ⟨queued, rfl, allowed queued⟩)
    · rw [running]
      exact .inl rfl
  | cancelledByJob _ _ _ _ found active | reapedCancelled _ _ _ found active
  | cancelled _ _ found active =>
    cases found.symm.trans run_eq
    cases run_eq'
    exact .inr (.inl (isValidRunTransition_of_active active))
  | reapedUnknown _ _ _ _ found running =>
    cases found.symm.trans run_eq
    cases run_eq'
    right; left
    rw [running]
    rfl
  | requeued _ _ found failed allowed =>
    cases found.symm.trans run_eq
    cases run_eq'
    exact .inr (.inr (.inr ⟨failed, rfl, allowed⟩))

theorem RunStep.attempt_status (step : RunStep rules runID v v') (proper : v.Proper)
    {attempt attempt' : DiagnosisAttempt} (member : attempt ∈ v.attempts)
    (member' : attempt' ∈ v'.attempts) (same : attempt'.id = attempt.id) :
    attempt'.status = attempt.status ∨
      isValidAttemptTransition attempt.status attempt'.status = true ∨
      (attempt.status = .abandoned ∧ attempt'.status = .failedTerminal ∧
        rules.revives attempt) := by
  have kept : attempt' ∈ v.attempts → attempt'.status = attempt.status := fun old => by
    rw [proper.ids attempt' old attempt member same]
  -- Writing one attempt: the row is the written one, or it was there before.
  have put : ∀ {row row' : DiagnosisAttempt}, v'.attempts = v.putAttempt row' →
      row ∈ v.attempts → row'.id = row.id →
      attempt'.status = attempt.status ∨ (row = attempt ∧ row' = attempt') := by
    intro row row' written there sameRow
    rw [written] at member'
    obtain ⟨old, present, rfl⟩ := List.mem_map.mp member'
    by_cases own : old.id = row'.id
    · rw [if_pos own] at same ⊢
      exact .inr ⟨proper.ids row there attempt member (sameRow.symm.trans same), rfl⟩
    · rw [if_neg own] at same ⊢
      exact .inl (by rw [proper.ids old present attempt member same])
  have close : ∀ {p : DiagnosisAttempt → Prop} [DecidablePred p]
      {close : DiagnosisAttempt → DiagnosisAttempt} {status : AttemptStatus},
      v'.attempts = v.closeAttempts p close → (∀ row, (close row).id = row.id) →
      (∀ row, (close row).status = status) → isValidAttemptTransition .running status = true →
      attempt'.status = attempt.status ∨
        isValidAttemptTransition attempt.status attempt'.status = true := by
    intro p _ close status written ids closed valid
    rw [written] at member'
    obtain ⟨old, present, rfl⟩ := List.mem_map.mp member'
    by_cases hit : p old ∧ old.status = .running
    · rw [if_pos hit] at same ⊢
      rw [ids] at same
      rw [← proper.ids old present attempt member same, hit.2, closed]
      exact .inr valid
    · rw [if_neg hit] at same ⊢
      exact .inl (by rw [proper.ids old present attempt member same])
  cases step with
  | created | claimed | began | released | renewed | retried | flagged | cancelled | requeued =>
    exact .inl (kept member')
  | attemptStarted _ _ _ _ _ _ _ _ _ _ _ _ _ _ fresh =>
    rcases List.mem_append.mp member' with old | new
    · exact .inl (kept old)
    · cases List.mem_singleton.mp new
      exact absurd same.symm (fresh attempt member)
  | marked _ locked mark =>
    rcases put rfl locked.member (mark.step locked.unclosed).id with kept | ⟨rfl, rfl⟩
    · exact .inl kept
    · left
      cases mark <;> rfl
  | closedForRetry _ locked _ marks closed =>
    rcases put rfl locked.member marks.id with kept | ⟨rfl, rfl⟩
    · exact .inl kept
    · rw [locked.unclosed, closed]
      exact .inr (.inl rfl)
  | abandoned there unclosed content closed =>
    rcases put rfl there (DiagnosisAttempt.sameMarks_of_content content).id with
      kept | ⟨rfl, rfl⟩
    · exact .inl kept
    · rw [unclosed, closed]
      exact .inr (.inl rfl)
  | closed _ locked closing _ marks status =>
    rcases put rfl locked.member marks.id with kept | ⟨rfl, rfl⟩
    · exact .inl kept
    · rw [locked.unclosed, status]
      exact .inr (.inl closing.run_transition.2)
  | reapedUnknown _ _ _ _ _ _ there _ unclosed content closed _ _ allowed =>
    rcases put rfl there (DiagnosisAttempt.sameMarks_of_content content).id with
      kept | ⟨rfl, rfl⟩
    · exact .inl kept
    · right
      rcases unclosed with running | abandoned
      · rw [running, closed]
        exact .inl rfl
      · exact .inr ⟨abandoned, closed, allowed abandoned⟩
  | failedByJob _ _ _ _ _ _ status =>
    rcases status with rfl | rfl
    · exact (close rfl (fun _ => rfl) (fun _ => rfl) rfl).imp_right .inl
    · exact (close rfl (fun _ => rfl) (fun _ => rfl) rfl).imp_right .inl
  | cancelledByJob | reapedCancelled =>
    exact (close rfl (fun _ => rfl) (fun _ => rfl) rfl).imp_right .inl
  | reapedRetry _ _ _ _ _ content closed =>
    exact (close rfl (fun row => (DiagnosisAttempt.sameMarks_of_content (content row)).id)
      closed rfl).imp_right .inl

theorem RunStep.keeps_attempt (step : RunStep rules runID v v') (proper : v.Proper)
    {attempt : DiagnosisAttempt} (member : attempt ∈ v.attempts) :
    ∃ attempt' ∈ v'.attempts, attempt'.id = attempt.id := by
  rcases step.attempts_cases proper with ⟨f, rows, moves⟩ | ⟨job, started, starts⟩
  · rw [rows]
    exact ⟨f attempt, List.mem_map_of_mem member, (moves attempt member).id⟩
  · rw [starts.attempts_eq]
    exact ⟨attempt, List.mem_append_left _ member, rfl⟩

end Steps

section System

variable {handlers : Handlers} {s s' : SystemState} {a : Action Claim Oracle Move}

def Database.ChargedButQueued (db : Database) (job : AnalysisJob) : Prop :=
  job.StartedDiagnosis ∧ ∃ run ∈ db.runs.rows, run.id = job.resourceID ∧ run.status = .queued

/-- The step fails no diagnosis whose run is still QUEUED. -/
def SparesQueued (s : SystemState) : Action Claim Oracle Move → Prop
  | .perform claim _ => ∀ actor failure next,
      s.procs claim = some (.call (.store (.conditionalFinalizeFailure actor failure)) next) →
      failure.isTerminal = true → ∀ job ∈ s.world.db.jobs.rows, job.HeldBy actor →
        ¬s.world.db.ChargedButQueued job
  | .move (.request (.reapExpiredJobs _ pick _) outside) =>
    ∀ job ∈ s.world.db.jobs.rows, job.Expired pick outside.now →
      job.maxAttempts ≤ job.attemptCount → ¬s.world.db.ChargedButQueued job
  | _ => True

def declaredRunRules (a : Action Claim Oracle Move) : RunRules :=
  { RunRules.free with
    aborts := fun _ => False
    requeues := fun run => ∃ outside, a = .move (.request (.retryDiagnosis run.id) outside) }

theorem SparesQueued.aborting (spares : SparesQueued s a) {claim : Claim} {oracle : Oracle}
    {call : StoreCall} {next : Except Err call.Answer → Prog Unit}
    (performs : a = .perform claim oracle)
    (live : s.procs claim = some (.call (.store call) next)) :
    call.Aborting (declaredRunRules a) s.world.db := by
  subst performs
  cases call with
  | conditionalFinalizeFailure actor failure =>
    intro job member held started
    refine ⟨fun terminal run present owner queued => ?_, fun _ _ => trivial⟩
    exact spares actor failure next live terminal job member held
      ⟨started, run, present, owner, queued⟩
  | _ => trivial

theorem SparesQueued.granted (spares : SparesQueued s a) {request : Request} {outside : Outside}
    (sent : a = .move (.request request outside)) :
    request.Granted (declaredRunRules a) s.world.db outside := by
  subst sent
  cases request with
  | requestCancellation => exact fun _ _ _ _ => trivial
  | retryDiagnosis runID =>
    rintro run rfl
    exact ⟨outside, rfl⟩
  | reapExpiredJobs batchSize pick =>
    refine fun job member expired => ⟨?_, fun _ _ _ _ _ => trivial, fun _ _ _ => trivial⟩
    intro started exhausted run present owner queued
    exact spares job member expired exhausted ⟨started, run, present, owner, queued⟩
  | _ => trivial

theorem Reachable.run_transition (reachable : Reachable handlers s)
    (stepped : (system handlers).step s a = some s') (spares : SparesQueued s a)
    {run run' : DiagnosisRun} (member : run ∈ s.world.db.runs.rows)
    (member' : run' ∈ s'.world.db.runs.rows) (same : run'.id = run.id)
    (changed : run'.status ≠ run.status) :
    isValidRunTransition run.status run'.status = true ∨
      (run.status = .failed ∧ run'.status = .queued ∧
        ∃ outside, a = .move (.request (.retryDiagnosis run.id) outside)) := by
  have view : ViewStep (declaredRunRules a) s.world.db s'.world.db := reachable.step_view stepped
    (fun _ => ⟨fun _ _ => trivial, fun _ _ => trivial, fun _ _ => trivial⟩)
    (fun _ _ _ _ _ _ => trivial)
    (fun _ _ _ _ performs live => spares.aborting performs live)
    (fun _ _ sent => spares.granted sent)
  have run_eq : (s.world.db.view run.id).run = some run := view_run.mpr ⟨member, rfl⟩
  have run_eq' : (s'.world.db.view run.id).run = some run' := view_run.mpr ⟨member', same⟩
  rcases view run.id with unchanged | step
  · rw [unchanged, run_eq] at run_eq'
    cases run_eq'
    exact absurd rfl changed
  · rcases step.run_status run_eq run_eq' with kept | valid | ⟨-, -, aborted⟩ | requeued
    · exact absurd kept changed
    · exact .inl valid
    · exact aborted.elim
    · exact .inr requeued

/-- In an execution that fails no QUEUED run, every change of a run's status follows the declared
machine, but for retries. -/
theorem run_transitions_valid {steps : List (SystemState × Action Claim Oracle Move × SystemState)}
    {last : SystemState} (path : Path (system handlers) SparesQueued initial steps last) :
    ∀ before a after, (before, a, after) ∈ steps →
      ∀ run ∈ before.world.db.runs.rows, ∀ run' ∈ after.world.db.runs.rows, run'.id = run.id →
        run'.status ≠ run.status →
        isValidRunTransition run.status run'.status = true ∨
          (run.status = .failed ∧ run'.status = .queued ∧
            ∃ outside, a = .move (.request (.retryDiagnosis run.id) outside)) := by
  intro before a after member run present run' present' same changed
  obtain ⟨reached, spares, stepped⟩ := path.reached member
  exact Reachable.run_transition (reached.weaken fun _ _ _ => trivial) stepped spares present
    present' same changed

def createSample : Action Claim Oracle Move :=
  .move (.request (.createDiagnosis sampleRun 1) .any)

theorem createSample_steps : ((system plainHandlers).step initial createSample).isSome = true := by
  decide

def queuedState : SystemState :=
  ((system plainHandlers).step initial createSample).get createSample_steps

def cancelSample : Action Claim Oracle Move :=
  .move (.request (.requestCancellation "run" "user") .any)

theorem cancelSample_steps :
    ((system plainHandlers).step queuedState cancelSample).isSome = true := by
  decide +kernel

def cancelledState : SystemState :=
  ((system plainHandlers).step queuedState cancelSample).get cancelSample_steps

def cancelledRun : DiagnosisRun :=
  { sampleRun with status := .cancelled, cancelRequested := true, version := 2 }

theorem cancelled_run_transition :
    sampleRun ∈ queuedState.world.db.runs.rows ∧ cancelledRun ∈ cancelledState.world.db.runs.rows ∧
      (isValidRunTransition sampleRun.status cancelledRun.status = true ∨
        (sampleRun.status = .failed ∧ cancelledRun.status = .queued ∧
          ∃ outside, cancelSample = .move (.request (.retryDiagnosis sampleRun.id) outside))) := by
  have before : sampleRun ∈ queuedState.world.db.runs.rows := by decide +kernel
  have after : cancelledRun ∈ cancelledState.world.db.runs.rows := by decide +kernel
  have created : (system plainHandlers).step initial createSample = some queuedState :=
    (Option.some_get createSample_steps).symm
  have path : Path (system plainHandlers) SparesQueued initial
      [(initial, createSample, queuedState), (queuedState, cancelSample, cancelledState)]
      cancelledState :=
    .cons trivial created (.cons trivial (Option.some_get cancelSample_steps).symm .nil)
  exact ⟨before, after, run_transitions_valid path queuedState cancelSample cancelledState
    (by simp) sampleRun before cancelledRun after rfl (by decide)⟩

def runUnreadable : List (Action Claim Oracle Move) :=
  createSample :: executionStarts "token" ++
    [.perform (sampleClaim "token") (.store (.lost (.driver "connection reset")) .any),
      .perform (sampleClaim "token") .ok, .perform (sampleClaim "token") (.time 0),
      .perform (sampleClaim "token") (.flag false)]

theorem runUnreadable_runs :
    ((system plainHandlers).exec initial runUnreadable).isSome = true := by
  decide

def unreadableState : SystemState :=
  ((system plainHandlers).exec initial runUnreadable).get runUnreadable_runs

theorem unreadableState_steps :
    ((system plainHandlers).step unreadableState (answered "token")).isSome = true := by
  decide +kernel

/-- The run goes from QUEUED to FAILED and was never RUNNING. -/
theorem queued_run_fails :
    ∃ s s' : SystemState, Reachable plainHandlers s ∧
      (system plainHandlers).step s (answered "token") = some s' ∧
      sampleRun ∈ s.world.db.runs.rows ∧
      { sampleRun with status := .failed, version := 2 } ∈ s'.world.db.runs.rows ∧
      isValidRunTransition sampleRun.status .failed = false := by
  refine ⟨unreadableState, _, Machine.exec_run (Option.some_get runUnreadable_runs).symm,
    (Option.some_get unreadableState_steps).symm, ?_, ?_, rfl⟩
  · decide +kernel
  · decide +kernel

def SparesAbandoned (s : SystemState) : Action Claim Oracle Move → Prop
  | .move (.request (.reapExpiredJobs _ pick _) outside) =>
    ∀ job ∈ s.world.db.jobs.rows, job.Expired pick outside.now → job.StartedDiagnosis →
      ∀ attempt ∈ s.world.db.attempts.rows, job.MarkedUnknown attempt →
        attempt.status ≠ .abandoned
  | _ => True

theorem SparesAbandoned.granted (spares : SparesAbandoned s a) {request : Request}
    {outside : Outside} (sent : a = .move (.request request outside)) :
    request.Granted { RunRules.free with revives := fun _ => False } s.world.db outside := by
  subst sent
  cases request with
  | requestCancellation => exact fun _ _ _ _ => trivial
  | retryDiagnosis => exact fun _ _ => trivial
  | reapExpiredJobs batchSize pick =>
    exact fun job member expired => ⟨fun _ _ _ _ _ _ => trivial,
      fun started attempt there => spares job member expired started attempt there,
      fun _ _ _ => trivial⟩
  | _ => trivial

theorem Reachable.attempt_transition (reachable : Reachable handlers s)
    (stepped : (system handlers).step s a = some s') (spares : SparesAbandoned s a)
    {attempt attempt' : DiagnosisAttempt} (member : attempt ∈ s.world.db.attempts.rows)
    (member' : attempt' ∈ s'.world.db.attempts.rows) (same : attempt'.id = attempt.id)
    (changed : attempt'.status ≠ attempt.status) :
    isValidAttemptTransition attempt.status attempt'.status = true := by
  have view : ViewStep { RunRules.free with revives := fun _ => False } s.world.db s'.world.db :=
    reachable.step_view stepped
      (fun _ => ⟨fun _ _ => trivial, fun _ _ => trivial, fun _ _ => trivial⟩)
      (fun _ _ _ _ _ _ => trivial)
      (fun _ _ call _ _ _ => call.aborting (fun _ => trivial) (fun _ => trivial) s.world.db)
      (fun _ _ sent => spares.granted sent)
  have inView : attempt ∈ (s.world.db.view attempt.diagnosisRunID).attempts :=
    view_attempt.mpr ⟨member, rfl⟩
  rcases view attempt.diagnosisRunID with unchanged | step
  · rw [← unchanged] at inView
    exact absurd (congrArg DiagnosisAttempt.status
      (s'.world.db.attempts.eq_of_key member' (view_attempt.mp inView).1 same)) changed
  · have proper := s.world.db.view_proper attempt.diagnosisRunID
    -- The row of this identifier is still one of the same run.
    obtain ⟨kept, keptInView, keptSame⟩ := step.keeps_attempt proper inView
    cases s'.world.db.attempts.eq_of_key member' (view_attempt.mp keptInView).1
      (same.trans keptSame.symm)
    rcases step.attempt_status proper inView keptInView same with same | valid | ⟨-, -, revived⟩
    · exact absurd same changed
    · exact valid
    · exact revived.elim

/-- In an execution that closes no ABANDONED attempt, every committed change of an attempt's status
follows the declared machine. -/
theorem attempt_transitions_valid
    {steps : List (SystemState × Action Claim Oracle Move × SystemState)} {last : SystemState}
    (path : Path (system handlers) SparesAbandoned initial steps last) :
    ∀ before a after, (before, a, after) ∈ steps →
      ∀ attempt ∈ before.world.db.attempts.rows, ∀ attempt' ∈ after.world.db.attempts.rows,
        attempt'.id = attempt.id → attempt'.status ≠ attempt.status →
        isValidAttemptTransition attempt.status attempt'.status = true := by
  intro before a after member attempt present attempt' present' same changed
  obtain ⟨reached, spares, stepped⟩ := path.reached member
  exact Reachable.attempt_transition (reached.weaken fun _ _ _ => trivial) stepped spares present
    present' same changed

def workerDies : List (Action Claim Oracle Move) :=
  createSample :: attemptStarts "token" "attempt" ++
    [.perform (sampleClaim "token") (.agent .generate), answered "token",
      .stop (sampleClaim "token")]

theorem workerDies_runs : ((system plainHandlers).exec initial workerDies).isSome = true := by
  decide

def deadWorker : SystemState :=
  ((system plainHandlers).exec initial workerDies).get workerDies_runs

def afterLease : Outside := { Outside.any with now := 200 }

def sweepSample : Action Claim Oracle Move :=
  .move (.request (.recoverStaleAttempt "attempt" "run") afterLease)

theorem deadWorker_swept : ((system plainHandlers).step deadWorker sweepSample).isSome = true := by
  decide +kernel

def sweptState : SystemState :=
  ((system plainHandlers).step deadWorker sweepSample).get deadWorker_swept

def markedAttempt : DiagnosisAttempt :=
  { newAttempt ⟨sampleClaim "token", 1, "run", "attempt", 1⟩ with
    providerDispatchUnresolved := true }

def abandonedAttempt : DiagnosisAttempt :=
  { markedAttempt with
    status := .abandoned
    errorCode := "WORKER_CRASH_OR_STALE"
    errorMessage := "Worker crashed or lost ownership, attempt abandoned" }

def isReap : Action Claim Oracle Move → Bool
  | .move (.request (.reapExpiredJobs ..) _) => true
  | _ => false

theorem SparesAbandoned.of_not_reap (other : isReap a = false) : SparesAbandoned s a := by
  unfold isReap at other
  split at other
  · cases other
  · next noReap =>
      unfold SparesAbandoned
      split
      · exact absurd rfl (noReap _ _ _ _)
      · trivial

theorem swept_attempt_transition :
    markedAttempt ∈ deadWorker.world.db.attempts.rows ∧
      abandonedAttempt ∈ sweptState.world.db.attempts.rows ∧
      isValidAttemptTransition markedAttempt.status abandonedAttempt.status = true := by
  have before : markedAttempt ∈ deadWorker.world.db.attempts.rows := by decide +kernel
  have after : abandonedAttempt ∈ sweptState.world.db.attempts.rows := by decide +kernel
  have quiet : ∀ a ∈ workerDies, isReap a = false := by decide
  have dies : (system plainHandlers).exec initial workerDies = some deadWorker :=
    (Option.some_get workerDies_runs).symm
  have sweeps : (system plainHandlers).step deadWorker sweepSample = some sweptState :=
    (Option.some_get deadWorker_swept).symm
  have spares : ∀ a ∈ workerDies, ∀ s, SparesAbandoned s a :=
    fun a member _ => .of_not_reap (quiet a member)
  obtain ⟨steps, path⟩ := Machine.exec_path dies spares
  have swept : SparesAbandoned deadWorker sweepSample := trivial
  have longer := path.append (.cons swept sweeps .nil)
  exact ⟨before, after, attempt_transitions_valid longer deadWorker sweepSample sweptState
    (List.mem_append_right _ List.mem_cons_self) markedAttempt before abandonedAttempt after rfl
    (by decide)⟩

def reapSample : Action Claim Oracle Move :=
  .move (.request (.reapExpiredJobs 1 (fun _ => true) (fun _ => 0)) afterLease)

theorem sweptState_reaped : ((system plainHandlers).step sweptState reapSample).isSome = true := by
  decide +kernel

/-- The attempt leaves ABANDONED, which is not absorbing. -/
theorem abandoned_attempt_fails :
    ∃ s s' : SystemState, Reachable plainHandlers s ∧
      (system plainHandlers).step s reapSample = some s' ∧
      abandonedAttempt ∈ s.world.db.attempts.rows ∧
      { abandonedAttempt with
        status := .failedTerminal
        errorCode := "PROVIDER_OUTCOME_UNKNOWN"
        errorMessage :=
          "provider request outcome could not be confirmed; automatic replay is disabled" } ∈
        s'.world.db.attempts.rows ∧
      isValidAttemptTransition abandonedAttempt.status .failedTerminal = false := by
  refine ⟨sweptState, _, .step (Machine.exec_run (Option.some_get workerDies_runs).symm) trivial
    (Option.some_get deadWorker_swept).symm, (Option.some_get sweptState_reaped).symm, ?_, ?_, rfl⟩
  · decide +kernel
  · decide +kernel

end System

end RepoLens
