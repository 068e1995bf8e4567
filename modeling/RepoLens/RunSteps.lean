import RepoLens.RunView

/-!
Everything that can happen to one diagnosis. `RunStep` lists the transitions of a view; every
transaction of the job store and of the diagnosis store is one of them for one diagnosis and
leaves the others alone.
-/

namespace RepoLens

open Relational Transaction

structure AnalysisJob.SameExecution (job job' : AnalysisJob) : Prop where
  id : job'.id = job.id
  jobType : job'.jobType = job.jobType
  resourceID : job'.resourceID = job.resourceID
  executionGeneration : job'.executionGeneration = job.executionGeneration
  attemptCount : job'.attemptCount = job.attemptCount
  executionStarted : job'.executionStarted = job.executionStarted
  maxAttempts : job'.maxAttempts = job.maxAttempts
  workerID : job'.workerID = job.workerID
  claimToken : job'.claimToken = job.claimToken
  cancelRequested : job'.cancelRequested = job.cancelRequested

/-- The columns of an attempt that only its own execution writes stay as they are. -/
structure DiagnosisAttempt.SameMarks (attempt attempt' : DiagnosisAttempt) : Prop where
  id : attempt'.id = attempt.id
  diagnosisRunID : attempt'.diagnosisRunID = attempt.diagnosisRunID
  executionGeneration : attempt'.executionGeneration = attempt.executionGeneration
  attemptNo : attempt'.attemptNo = attempt.attemptNo
  workerID : attempt'.workerID = attempt.workerID
  checkpointKind : attempt'.checkpointKind = attempt.checkpointKind
  providerDispatchUnresolved :
    attempt'.providerDispatchUnresolved = attempt.providerDispatchUnresolved
  providerDispatchSuccessSeen :
    attempt'.providerDispatchSuccessSeen = attempt.providerDispatchSuccessSeen
  providerCompletedAt :
    attempt.providerCompletedAt.isSome = true → attempt'.providerCompletedAt.isSome = true

theorem DiagnosisAttempt.SameMarks.refl (attempt : DiagnosisAttempt) :
    attempt.SameMarks attempt := by
  constructor <;> first | rfl | exact fun completed => completed

def DiagnosisAttempt.content (attempt : DiagnosisAttempt) : DiagnosisAttempt :=
  { attempt with status := .running, errorCode := "", errorMessage := "", retryable := false }

variable {attempt : DiagnosisAttempt} {job : AnalysisJob}

theorem DiagnosisAttempt.sameMarks_of_content {attempt' : DiagnosisAttempt}
    (same : attempt'.content = attempt.content) : attempt.SameMarks attempt' := by
  cases attempt
  cases attempt'
  simp only [content, mk.injEq] at same
  constructor <;> simp_all

/-- What the callers of the store are bound to. -/
structure RunRules where
  excused : AnalysisJob → Prop
  acts : Claim → Prop
  clears : DiagnosisAttempt → Prop
  saves : DiagnosisAttempt → Prop
  revives : DiagnosisAttempt → Prop
  aborts : DiagnosisRun → Prop
  requeues : DiagnosisRun → Prop
  strands : AnalysisJob → Prop

inductive Mark (rules : RunRules) : DiagnosisAttempt → DiagnosisAttempt → Prop
  | begun {attempt : DiagnosisAttempt} :
      Mark rules attempt { attempt with providerDispatchUnresolved := true }
  | succeeded {attempt : DiagnosisAttempt}
      (unresolved : attempt.providerDispatchUnresolved = true) :
      Mark rules attempt { attempt with providerDispatchSuccessSeen := true }
  | cleared {attempt : DiagnosisAttempt} (unseen : attempt.providerDispatchSuccessSeen = false)
      (allowed : rules.clears attempt) :
      Mark rules attempt { attempt with providerDispatchUnresolved := false }
  | checkpointed {attempt : DiagnosisAttempt} (checkpoint : AttemptCheckpoint) (now : Time)
      (allowed : rules.saves attempt) :
      Mark rules attempt (attempt.withCheckpoint checkpoint now)

namespace RunView

structure Locked (v : RunView) (claim : Claim) (cancelled : Bool) (job : AnalysisJob)
    (run : DiagnosisRun) (attempt : DiagnosisAttempt) : Prop where
  job_eq : v.job = some job
  held : job.HeldBy claim
  started : job.executionStarted = true
  job_flag : job.cancelRequested = cancelled
  run_eq : v.run = some run
  running : run.status = .running
  run_flag : run.cancelRequested = cancelled
  member : attempt ∈ v.attempts
  generation : attempt.executionGeneration = job.executionGeneration
  number : attempt.attemptNo = job.expectedAttemptNo
  unclosed : attempt.status = .running
  worker : attempt.workerID = claim.workerID

def putAttempt (v : RunView) (attempt : DiagnosisAttempt) : List DiagnosisAttempt :=
  v.attempts.map fun row => if row.id = attempt.id then attempt else row

def closeAttempts (v : RunView) (p : DiagnosisAttempt → Prop) [DecidablePred p]
    (close : DiagnosisAttempt → DiagnosisAttempt) : List DiagnosisAttempt :=
  v.attempts.map fun row => if p row ∧ row.status = .running then close row else row

def Current (job : AnalysisJob) (attempt : DiagnosisAttempt) : Prop :=
  attempt.executionGeneration = job.executionGeneration ∧ attempt.attemptNo = job.attemptCount

instance (job : AnalysisJob) (attempt : DiagnosisAttempt) : Decidable (Current job attempt) :=
  inferInstanceAs (Decidable (_ ∧ _))

def Unclosed (v : RunView) (job : AnalysisJob) : Prop :=
  ∃ attempt ∈ v.attempts, Current job attempt ∧ attempt.status = .running

def Attempted (v : RunView) (job : AnalysisJob) : Prop :=
  ∃ attempt ∈ v.attempts, attempt.executionGeneration = job.executionGeneration

def Skipped (v : RunView) (job : AnalysisJob) : Prop :=
  v.Attempted job ∧ ∀ attempt ∈ v.attempts, ¬Current job attempt

def Resolved (v : RunView) (job : AnalysisJob) : Prop :=
  ∀ attempt ∈ v.attempts, Current job attempt → attempt.providerDispatchUnresolved = false

end RunView

def latestOf (attempts : List DiagnosisAttempt) (generation : Nat) : Option String :=
  (highestAttempt (attempts.filter fun attempt =>
    attempt.executionGeneration = generation)).map DiagnosisAttempt.id

def currentOf (attempts : List DiagnosisAttempt) (job : AnalysisJob) : Option DiagnosisAttempt :=
  attempts.find? fun attempt => RunView.Current job attempt

inductive Closing (attemptID : String) :
    Bool → AttemptStatus → RunStatus → JobStatus → List Report → Prop
  | succeeded {report : Report} (own : report.attemptID = attemptID) :
      Closing attemptID false .succeeded .succeeded .succeeded [report]
  | invalid {report : Report} (own : report.attemptID = attemptID) :
      Closing attemptID false .failedTerminal .failed .failed [report]
  | failed : Closing attemptID false .failedTerminal .failed .failed []
  | cancelled : Closing attemptID true .cancelled .cancelled .cancelled []

inductive RunStep (rules : RunRules) (runID : String) : RunView → RunView → Prop
  | created {v : RunView} {id : Nat} {now : Time} {run : DiagnosisRun} (noJob : v.job = none)
      (noRun : v.run = none) (queued : run.status = .queued)
      (unflagged : run.cancelRequested = false) (open_ : run.finalAttemptID = none) :
      RunStep rules runID v
        { v with job := some (newJob id .runDiagnosis runID 1 3 now), run := some run }
  | claimed {v : RunView} {job : AnalysisJob} {workerID token : String} {leaseUntil : Time}
      (job_eq : v.job = some job) (waiting : job.status = .pending ∨ job.status = .retryWait) :
      RunStep rules runID v { v with job := some (job.claimed workerID token leaseUntil) }
  | began {v : RunView} {job : AnalysisJob} (job_eq : v.job = some job)
      (running : job.status = .running) (unstarted : job.executionStarted = false) :
      RunStep rules runID v { v with
        job := some { job with executionStarted := true, attemptCount := job.attemptCount + 1 } }
  | released {v : RunView} {job : AnalysisJob} {nextRunAt : Time} (job_eq : v.job = some job)
      (running : job.status = .running) (unstarted : job.executionStarted = false) :
      RunStep rules runID v
        { v with job := some { job.unclaimed with nextRunAt, executionStarted := false } }
  | renewed {v : RunView} {job : AnalysisJob} {leaseUntil : Time} (job_eq : v.job = some job)
      (running : job.status = .running) :
      RunStep rules runID v { v with job := some { job with leaseUntil := some leaseUntil } }
  | retried {v : RunView} {job job' : AnalysisJob} (job_eq : v.job = some job)
      (running : job.status = .running) (started : job.executionStarted = true)
      (unflagged : job.cancelRequested = false) (settled : v.Resolved job ∨ rules.excused job)
      (same : job.SameExecution job') (waiting : job'.status = .retryWait)
      (allowed : v.Unclosed job → rules.strands job) :
      RunStep rules runID v { v with job := some job' }
  | attemptStarted {v : RunView} {claim : Claim} {job : AnalysisJob} {run : DiagnosisRun}
      {attempt : DiagnosisAttempt} {version : Nat} (acting : rules.acts claim)
      (job_eq : v.job = some job) (held : job.HeldBy claim) (started : job.executionStarted = true)
      (unflagged : job.cancelRequested = false) (run_eq : v.run = some run)
      (active : run.status.active = true) (runUnflagged : run.cancelRequested = false)
      (generation : attempt.executionGeneration = job.executionGeneration)
      (number : attempt.attemptNo = job.expectedAttemptNo)
      (unclosed : attempt.status = .running) (unsaved : attempt.checkpointKind = .none)
      (resolved : attempt.providerDispatchUnresolved = false)
      (unseen : attempt.providerDispatchSuccessSeen = false)
      (fresh : ∀ row ∈ v.attempts, row.id ≠ attempt.id) :
      RunStep rules runID v { v with
        run := some { run with status := .running, version }
        attempts := v.attempts ++ [attempt] }
  | marked {v : RunView} {claim : Claim} {job : AnalysisJob} {run : DiagnosisRun}
      {attempt attempt' : DiagnosisAttempt} (acting : rules.acts claim)
      (locked : v.Locked claim false job run attempt) (mark : Mark rules attempt attempt') :
      RunStep rules runID v { v with attempts := v.putAttempt attempt' }
  | closedForRetry {v : RunView} {claim : Claim} {job : AnalysisJob} {run : DiagnosisRun}
      {attempt attempt' : DiagnosisAttempt} (acting : rules.acts claim)
      (locked : v.Locked claim false job run attempt)
      (resolved : attempt.providerDispatchUnresolved = false) (same : attempt.SameMarks attempt')
      (closed : attempt'.status = .failedRetryable) :
      RunStep rules runID v { v with attempts := v.putAttempt attempt' }
  | abandoned {v : RunView} {run : Option DiagnosisRun} {attempt attempt' : DiagnosisAttempt}
      (member : attempt ∈ v.attempts) (unclosed : attempt.status = .running)
      (same : attempt'.content = attempt.content) (closed : attempt'.status = .abandoned)
      (versioned : run = v.run ∨ ∃ row version, v.run = some row ∧
        run = some { row with version }) :
      RunStep rules runID v { v with run, attempts := v.putAttempt attempt' }
  | closed {v : RunView} {claim : Claim} {cancelled : Bool} {job job' : AnalysisJob}
      {run : DiagnosisRun} {attempt attempt' : DiagnosisAttempt} {attemptStatus : AttemptStatus}
      {runStatus : RunStatus} {jobStatus : JobStatus} {reports : List Report} {version : Nat}
      (acting : rules.acts claim) (locked : v.Locked claim cancelled job run attempt)
      (closing : Closing attempt.id cancelled attemptStatus runStatus jobStatus reports)
      (resolved : runStatus = .succeeded → attempt.providerDispatchUnresolved = false)
      (marks : attempt.SameMarks attempt') (attempt_status : attempt'.status = attemptStatus)
      (same : job.SameExecution job') (job_status : job'.status = jobStatus) :
      RunStep rules runID v {
        job := some job'
        run := some { run with
          status := runStatus
          finalAttemptID := some attempt.id
          version }
        attempts := v.putAttempt attempt'
        reports := v.reports ++ reports }
  | failedByJob {v : RunView} {job job' : AnalysisJob} {run : DiagnosisRun}
      {status : AttemptStatus} {version : Nat} (job_eq : v.job = some job)
      (running : job.status = .running) (started : job.executionStarted = true)
      (unflagged : job.cancelRequested = false) (run_eq : v.run = some run)
      (active : run.status.active = true)
      (attempt_status : status = .failedTerminal ∨ status = .abandoned)
      (same : job.SameExecution job') (job_status : job'.status = .failed)
      (allowed : run.status = .queued → rules.aborts run) :
      RunStep rules runID v { v with
        job := some job'
        run := some { run with
          status := .failed
          finalAttemptID := latestOf v.attempts job.executionGeneration
          version }
        attempts := v.closeAttempts
          (fun row => row.executionGeneration = job.executionGeneration)
          fun row => { row with status } }
  | cancelledByJob {v : RunView} {job job' : AnalysisJob} {run : DiagnosisRun} {version : Nat}
      (job_eq : v.job = some job) (running : job.status = .running)
      (started : job.executionStarted = true) (flagged : job.cancelRequested = true)
      (run_eq : v.run = some run) (active : run.status.active = true)
      (same : job.SameExecution job') (job_status : job'.status = .cancelled) :
      RunStep rules runID v { v with
        job := some job'
        run := some { run with
          status := .cancelled
          cancelRequested := true
          finalAttemptID :=
            (latestOf v.attempts job.executionGeneration).or run.finalAttemptID
          version }
        attempts := v.closeAttempts
          (fun row => row.executionGeneration = job.executionGeneration)
          fun row => { row with status := .abandoned } }
  | reapedCancelled {v : RunView} {job job' : AnalysisJob} {run : DiagnosisRun} {version : Nat}
      (job_eq : v.job = some job) (running : job.status = .running)
      (flagged : job.cancelRequested = true) (run_eq : v.run = some run)
      (active : run.status.active = true) (same : job.SameExecution job')
      (job_status : job'.status = .cancelled) (allowed : v.Skipped job → rules.strands job) :
      RunStep rules runID v { v with
        job := some job'
        run := some { run with
          status := .cancelled
          cancelRequested := true
          finalAttemptID := (currentOf v.attempts job).map DiagnosisAttempt.id
          version }
        attempts := v.closeAttempts (RunView.Current job)
          fun row => { row with status := .abandoned } }
  | reapedUnknown {v : RunView} {job job' : AnalysisJob} {run : DiagnosisRun}
      {attempt attempt' : DiagnosisAttempt} {version : Nat} (job_eq : v.job = some job)
      (running : job.status = .running) (started : job.executionStarted = true)
      (unflagged : job.cancelRequested = false) (run_eq : v.run = some run)
      (runRunning : run.status = .running) (member : attempt ∈ v.attempts)
      (current : RunView.Current job attempt)
      (unclosed : attempt.status = .running ∨ attempt.status = .abandoned)
      (same_content : attempt'.content = attempt.content)
      (closed : attempt'.status = .failedTerminal)
      (same : job.SameExecution job') (job_status : job'.status = .failed)
      (allowed : attempt.status = .abandoned → rules.revives attempt) :
      RunStep rules runID v { v with
        job := some job'
        run := some { run with status := .failed, finalAttemptID := some attempt.id, version }
        attempts := v.putAttempt attempt' }
  | reapedRetry {v : RunView} {job job' : AnalysisJob}
      {close : DiagnosisAttempt → DiagnosisAttempt} (job_eq : v.job = some job)
      (running : job.status = .running) (started : job.executionStarted = true)
      (unflagged : job.cancelRequested = false)
      (known : ∀ row ∈ v.attempts, RunView.Current job row →
        row.status = .running ∨ row.status = .abandoned →
        row.providerDispatchUnresolved = false)
      (same_content : ∀ row, (close row).content = row.content)
      (closed : ∀ row, (close row).status = .abandoned)
      (same : job.SameExecution job') (waiting : job'.status = .retryWait) :
      RunStep rules runID v { v with
        job := some job'
        attempts := v.closeAttempts (RunView.Current job) close }
  | flagged {v : RunView} {job : AnalysisJob} {run : DiagnosisRun} {version : Nat}
      (job_eq : v.job = some job) (running : job.status = .running) (run_eq : v.run = some run)
      (active : run.status.active = true) :
      RunStep rules runID v { v with
        job := some { job with cancelRequested := true }
        run := some { run with cancelRequested := true, version } }
  | cancelled {v : RunView} {job : AnalysisJob} {run : DiagnosisRun} {version : Nat}
      (job_eq : v.job = some job) (waiting : job.status = .pending ∨ job.status = .retryWait)
      (run_eq : v.run = some run) (active : run.status.active = true)
      (allowed : v.Attempted job → rules.strands job) :
      RunStep rules runID v { v with
        job := some { job with
          cancelRequested := true
          status := .cancelled
          terminalReason := some .cancelled }
        run := some { run with cancelRequested := true, status := .cancelled, version } }
  | requeued {v : RunView} {job : AnalysisJob} {run : DiagnosisRun} {now : Time} {version : Nat}
      (job_eq : v.job = some job) (failed : job.status = .failed) (run_eq : v.run = some run)
      (runFailed : run.status = .failed) (allowed : rules.requeues run) :
      RunStep rules runID v { v with
        job := some (job.requeued (job.executionGeneration + 1) now)
        run := some { run with
          status := .queued
          cancelRequested := false
          finalAttemptID := none
          version } }

def RunStatus.Fits (run : RunStatus) : JobStatus → Prop
  | .pending | .running | .retryWait => run.active = true
  | .succeeded => run = .succeeded
  | .failed => run = .failed
  | .cancelled => run = .cancelled

structure RunView.Agrees (v : RunView) : Prop where
  both : v.job.isSome = v.run.isSome
  fits : ∀ {job run}, v.job = some job → v.run = some run → run.status.Fits job.status
  flags : ∀ {job run}, v.job = some job → v.run = some run → run.status.active = true →
    run.cancelRequested = job.cancelRequested

theorem RunView.Agrees.run {v : RunView} (agrees : v.Agrees) (job_eq : v.job = some job) :
    ∃ run, v.run = some run := by
  have both := agrees.both
  rw [job_eq, Option.isSome_some] at both
  exact Option.isSome_iff_exists.mp both.symm

theorem RunView.Agrees.activeRun {v : RunView} (agrees : v.Agrees) (job_eq : v.job = some job)
    (unfinished : job.status.terminal = false) :
    ∃ run, v.run = some run ∧ run.status.active = true ∧
      run.cancelRequested = job.cancelRequested := by
  obtain ⟨run, run_eq⟩ := agrees.run job_eq
  have fits := agrees.fits job_eq run_eq
  have active : run.status.active = true := by
    cases status : job.status <;> rw [status] at fits unfinished <;>
      first | exact fits | cases unfinished
  exact ⟨run, run_eq, active, agrees.flags job_eq run_eq active⟩

def ViewStep (rules : RunRules) (db db' : Database) : Prop :=
  ∀ runID, db'.view runID = db.view runID ∨
    RunStep rules runID (db.view runID) (db'.view runID)

def StepOf (rules : RunRules) (job : AnalysisJob) (db db' : Database) : Prop :=
  ∀ runID, db'.view runID = db.view runID ∨
    (job.For .runDiagnosis runID ∧ RunStep rules runID (db.view runID) (db'.view runID))

section Statements

variable {rules : RunRules} {db db' : Database} {runID : String}

theorem SameViews.step (same : SameViews db db') : ViewStep rules db db' :=
  fun runID => .inl (same runID)

theorem SameViews.stepOf (same : SameViews db db') : StepOf rules job db db' :=
  fun runID => .inl (same runID)

theorem StepOf.step (stepped : StepOf rules job db db') :
    ViewStep rules db db' :=
  fun runID => (stepped runID).imp_right And.right

theorem Focus.stepOf {change : RunView → RunView} (diagnosis : job.jobType = .runDiagnosis)
    (focus : Focus job.resourceID change db db')
    (stepped : RunStep rules job.resourceID (db.view job.resourceID)
      (change (db.view job.resourceID))) :
    StepOf rules job db db' := by
  intro other
  by_cases same : other = job.resourceID
  · subst same
    rw [focus.1]
    exact .inr ⟨⟨diagnosis, rfl⟩, stepped⟩
  · exact .inl (focus.2 other same)

theorem Focus.step {change : RunView → RunView} (focus : Focus runID change db db')
    (stepped : change (db.view runID) = db.view runID ∨
      RunStep rules runID (db.view runID) (change (db.view runID))) :
    ViewStep rules db db' := by
  intro other
  by_cases same : other = runID
  · subst same
    rw [focus.1]
    exact stepped
  · exact .inl (focus.2 other same)

theorem ViewStep.jobs_update {p : AnalysisJob → Prop} [DecidablePred p]
    {f : AnalysisJob → AnalysisJob} {keeps : Table.Keeps AnalysisJob.id AnalysisJob.resource f}
    (stepped : ∀ runID job, (db.view runID).job = some job → p job →
      RunStep rules runID (db.view runID) { db.view runID with job := some (f job) }) :
    ViewStep rules db (Place.jobs.set ((Place.jobs.get db).update p f keeps) db) := by
  intro runID
  rw [view_jobs_update]
  by_cases hit : ∃ job, (db.view runID).job = some job ∧ p job
  · obtain ⟨job, job_eq, hit⟩ := hit
    rw [RunView.mapJob_hit job_eq hit]
    exact .inr (stepped runID job job_eq hit)
  · exact .inl (RunView.mapJob_miss fun job job_eq matched => hit ⟨job, job_eq, matched⟩)

theorem RunView.mapAttempts_put {v : RunView} {p : DiagnosisAttempt → Prop} [DecidablePred p]
    {f : DiagnosisAttempt → DiagnosisAttempt}
    (unique : ∀ row ∈ v.attempts, row.id = attempt.id → row = attempt)
    (own : ∀ row, p row → row.id = attempt.id) (hit : p attempt)
    (keeps : (f attempt).id = attempt.id) :
    (v.mapAttempts p f).attempts = v.putAttempt (f attempt) := by
  refine List.map_congr_left fun row member => ?_
  by_cases same : row.id = attempt.id
  · cases unique row member same
    rw [if_pos hit, if_pos keeps.symm]
  · rw [if_neg fun matched => same (own row matched), if_neg fun other => same (keeps ▸ other)]

theorem view_attempt_unique {row : DiagnosisAttempt} (member : attempt ∈ (db.view runID).attempts)
    (other : row ∈ (db.view runID).attempts) (same : row.id = attempt.id) : row = attempt :=
  db.attempts.eq_of_key (view_attempt.mp other).1 (view_attempt.mp member).1 same

end Statements

end RepoLens
