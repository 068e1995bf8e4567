import RepoLens.RunTransactions

/-!
Run, job, attempts and reports of one diagnosis belong together.
-/

namespace RepoLens

open Relational Transaction

variable {rules : RunRules} {runID : String} {v v' : RunView}

/-- The unique columns of `diagnosis_attempts`, seen from one diagnosis. -/
structure RunView.Proper (v : RunView) : Prop where
  ids : ∀ left ∈ v.attempts, ∀ right ∈ v.attempts, left.id = right.id → left = right
  numbers : ∀ left ∈ v.attempts, ∀ right ∈ v.attempts,
    left.executionGeneration = right.executionGeneration → left.attemptNo = right.attemptNo →
    left = right

theorem Database.view_proper (db : Database) (runID : String) : (db.view runID).Proper where
  ids left leftMember right rightMember same :=
    db.attempts.eq_of_key (view_attempt.mp leftMember).1 (view_attempt.mp rightMember).1 same
  numbers left leftMember right rightMember generation number := by
    obtain ⟨leftPresent, leftOwner⟩ := view_attempt.mp leftMember
    obtain ⟨rightPresent, rightOwner⟩ := view_attempt.mp rightMember
    refine db.attempts.eq_of_index leftPresent rightPresent ?_
    simp only [DiagnosisAttempt.number, leftOwner, rightOwner, generation, number]

theorem RunView.Agrees.job (agrees : v.Agrees) {run : DiagnosisRun} (run_eq : v.run = some run) :
    ∃ job, v.job = some job := by
  have both := agrees.both
  rw [run_eq, Option.isSome_some] at both
  exact Option.isSome_iff_exists.mp both

variable {job : AnalysisJob} {attempt attempt' : DiagnosisAttempt}

theorem RunView.Agrees.of {run : DiagnosisRun} (job_eq : v.job = some job)
    (run_eq : v.run = some run) (fit : run.status.Fits job.status)
    (flag : run.status.active = true → run.cancelRequested = job.cancelRequested) :
    v.Agrees where
  both := by rw [job_eq, run_eq]; rfl
  fits found foundRun := by
    cases job_eq.symm.trans found
    cases run_eq.symm.trans foundRun
    exact fit
  flags found foundRun := by
    cases job_eq.symm.trans found
    cases run_eq.symm.trans foundRun
    exact flag

theorem Closing.fits {attemptID : String} {cancelled : Bool} {attemptStatus : AttemptStatus}
    {runStatus : RunStatus} {jobStatus : JobStatus} {reports : List Report}
    (closing : Closing attemptID cancelled attemptStatus runStatus jobStatus reports) :
    runStatus.Fits jobStatus ∧ runStatus.active = false := by
  cases closing <;> exact ⟨rfl, rfl⟩

theorem RunStep.agrees (step : RunStep rules runID v v') (agrees : v.Agrees) : v'.Agrees := by
  cases step with
  | created _ _ queued unflagged =>
    exact .of rfl rfl (congrArg RunStatus.active queued) fun _ => unflagged
  | claimed job_eq waiting =>
    obtain ⟨run, run_eq⟩ := agrees.run job_eq
    have fit := agrees.fits job_eq run_eq
    have flag := agrees.flags job_eq run_eq
    refine .of rfl run_eq ?_ flag
    rcases waiting with status | status <;> rw [status] at fit <;> exact fit
  | began job_eq | renewed job_eq =>
    obtain ⟨run, run_eq⟩ := agrees.run job_eq
    have fit := agrees.fits job_eq run_eq
    have flag := agrees.flags job_eq run_eq
    exact .of rfl run_eq fit flag
  | released job_eq running =>
    obtain ⟨run, run_eq⟩ := agrees.run job_eq
    have fit := agrees.fits job_eq run_eq
    have flag := agrees.flags job_eq run_eq
    rw [running] at fit
    exact .of rfl run_eq fit flag
  | retried job_eq running _ _ _ same waiting | reapedRetry job_eq running _ _ _ _ _ same waiting =>
    obtain ⟨run, run_eq⟩ := agrees.run job_eq
    have fit := agrees.fits job_eq run_eq
    have flag := agrees.flags job_eq run_eq
    rw [running] at fit
    refine .of rfl run_eq (by rw [waiting]; exact fit) fun active => ?_
    exact (flag active).trans same.cancelRequested.symm
  | attemptStarted _ job_eq held _ unflagged run_eq active runUnflagged =>
    refine .of job_eq rfl ?_ fun _ => runUnflagged.trans unflagged.symm
    rw [held.running]
    rfl
  | marked | closedForRetry => exact ⟨agrees.both, agrees.fits, agrees.flags⟩
  | abandoned _ _ _ _ versioned =>
    rcases versioned with rfl | ⟨run, version, run_eq, rfl⟩
    · exact ⟨agrees.both, agrees.fits, agrees.flags⟩
    · refine ⟨agrees.both.trans (by rw [run_eq]; rfl), fun job_eq found => ?_,
        fun job_eq found => ?_⟩
      · have fit := agrees.fits job_eq run_eq
        cases found
        exact fit
      · have flag := agrees.flags job_eq run_eq
        cases found
        exact flag
  | closed _ locked closing _ _ _ _ status =>
    obtain ⟨fit, inactive⟩ := closing.fits
    refine .of rfl rfl (status ▸ fit) fun active => ?_
    cases inactive.symm.trans active
  | failedByJob _ _ _ _ _ _ _ _ status | cancelledByJob _ _ _ _ _ _ _ status
  | reapedCancelled _ _ _ _ _ _ status | reapedUnknown _ _ _ _ _ _ _ _ _ _ _ _ status =>
    exact .of rfl rfl (by rw [status]; rfl) nofun
  | flagged job_eq running run_eq active =>
    have fit := agrees.fits job_eq run_eq
    exact .of rfl rfl fit fun _ => rfl
  | cancelled | requeued => exact .of rfl rfl rfl fun _ => rfl

section Attempts

structure AttemptStep (attempt attempt' : DiagnosisAttempt) : Prop where
  id : attempt'.id = attempt.id
  generation : attempt'.executionGeneration = attempt.executionGeneration
  number : attempt'.attemptNo = attempt.attemptNo
  settled : attempt' = attempt ∨ attempt.status = .running ∨ attempt.status = .abandoned

theorem AttemptStep.refl (attempt : DiagnosisAttempt) : AttemptStep attempt attempt :=
  ⟨rfl, rfl, rfl, .inl rfl⟩

theorem DiagnosisAttempt.SameMarks.step (same : attempt.SameMarks attempt')
    (unsettled : attempt.status = .running ∨ attempt.status = .abandoned) :
    AttemptStep attempt attempt' :=
  ⟨same.id, same.executionGeneration, same.attemptNo, .inr unsettled⟩

theorem Mark.step (mark : Mark rules attempt attempt') (unclosed : attempt.status = .running) :
    AttemptStep attempt attempt' := by
  cases mark <;> exact ⟨rfl, rfl, rfl, .inr (.inl unclosed)⟩

def AttemptsStep (attempts attempts' : List DiagnosisAttempt) : Prop :=
  ∃ f : DiagnosisAttempt → DiagnosisAttempt, attempts' = attempts.map f ∧
    ∀ attempt ∈ attempts, AttemptStep attempt (f attempt)

theorem AttemptsStep.refl (attempts : List DiagnosisAttempt) : AttemptsStep attempts attempts :=
  ⟨id, (List.map_id attempts).symm, fun attempt _ => .refl attempt⟩

theorem RunView.putAttempt_step (proper : v.Proper) (member : attempt ∈ v.attempts)
    (step : AttemptStep attempt attempt') :
    AttemptsStep v.attempts (v.putAttempt attempt') := by
  refine ⟨_, rfl, fun row present => ?_⟩
  by_cases same : row.id = attempt'.id
  · cases proper.ids row present attempt member (same.trans step.id)
    rw [if_pos same]
    exact step
  · rw [if_neg same]
    exact .refl row

theorem RunView.closeAttempts_step {p : DiagnosisAttempt → Prop} [DecidablePred p]
    {close : DiagnosisAttempt → DiagnosisAttempt}
    (same : ∀ row, (close row).content = row.content) :
    AttemptsStep v.attempts (v.closeAttempts p close) := by
  refine ⟨_, rfl, fun row _ => ?_⟩
  by_cases hit : p row ∧ row.status = .running
  · rw [if_pos hit]
    exact (DiagnosisAttempt.sameMarks_of_content (same row)).step (.inl hit.2)
  · rw [if_neg hit]
    exact .refl row

structure RunView.Starts (v v' : RunView) (job : AnalysisJob) (attempt : DiagnosisAttempt) :
    Prop where
  job_eq : v.job = some job
  job_eq' : v'.job = some job
  running : job.status = .running
  started : job.executionStarted = true
  unflagged : job.cancelRequested = false
  attempts_eq : v'.attempts = v.attempts ++ [attempt]
  reports_eq : v'.reports = v.reports
  generation : attempt.executionGeneration = job.executionGeneration
  number : attempt.attemptNo = job.expectedAttemptNo
  unclosed : attempt.status = .running
  resolved : attempt.providerDispatchUnresolved = false

theorem RunStep.attempts_cases (step : RunStep rules runID v v') (proper : v.Proper) :
    AttemptsStep v.attempts v'.attempts ∨ ∃ job attempt, v.Starts v' job attempt := by
  cases step with
  | attemptStarted _ job_eq held started unflagged run_eq _ _ generation number unclosed _
      resolved =>
    exact .inr ⟨_, _, job_eq, job_eq, held.running, started, unflagged, rfl, rfl, generation,
      number, unclosed, resolved⟩
  | marked _ locked mark =>
    exact .inl (RunView.putAttempt_step proper locked.member (mark.step locked.unclosed))
  | closedForRetry _ locked _ same =>
    exact .inl (RunView.putAttempt_step proper locked.member (same.step (.inl locked.unclosed)))
  | abandoned member unclosed same =>
    exact .inl (RunView.putAttempt_step proper member
      ((DiagnosisAttempt.sameMarks_of_content same).step (.inl unclosed)))
  | closed _ locked _ _ marks =>
    exact .inl (RunView.putAttempt_step proper locked.member (marks.step (.inl locked.unclosed)))
  | reapedUnknown _ _ _ _ _ _ member _ unclosed same =>
    exact .inl (RunView.putAttempt_step proper member
      ((DiagnosisAttempt.sameMarks_of_content same).step unclosed))
  | failedByJob | cancelledByJob | reapedCancelled =>
    exact .inl (RunView.closeAttempts_step fun _ => rfl)
  | reapedRetry _ _ _ _ _ same => exact .inl (RunView.closeAttempts_step same)
  | created | claimed | began | released | renewed | retried | flagged | cancelled | requeued =>
    exact .inl (.refl _)

end Attempts

section Numbers

structure RunView.Numbered (v : RunView) : Prop where
  idle : v.job = none → v.attempts = [] ∧ v.reports = []
  charged : ∀ {job}, v.job = some job → job.executionStarted = true → 0 < job.attemptCount
  bounded : ∀ {job}, v.job = some job → ∀ attempt ∈ v.attempts,
    attempt.executionGeneration < job.executionGeneration ∨
      (attempt.executionGeneration = job.executionGeneration ∧
        attempt.attemptNo ≤ job.attemptCount)

theorem AnalysisJob.expectedAttemptNo_charged (charged : 0 < job.attemptCount) :
    job.expectedAttemptNo = job.attemptCount :=
  if_neg (Nat.pos_iff_ne_zero.mp charged)

theorem RunStep.job_forward (step : RunStep rules runID v v') (job_eq : v.job = some job) :
    ∃ job', v'.job = some job' ∧
      (job.executionGeneration < job'.executionGeneration ∨
        (job'.executionGeneration = job.executionGeneration ∧
          job.attemptCount ≤ job'.attemptCount)) := by
  cases step with
  | created noJob => cases noJob.symm.trans job_eq
  | claimed found | began found | released found | renewed found | flagged found
  | cancelled found =>
    cases found.symm.trans job_eq
    exact ⟨_, rfl, .inr ⟨rfl, by simp [AnalysisJob.claimed, AnalysisJob.unclaimed]⟩⟩
  | retried found _ _ _ _ same | failedByJob found _ _ _ _ _ _ same
  | cancelledByJob found _ _ _ _ _ same | reapedCancelled found _ _ _ _ same
  | reapedUnknown found _ _ _ _ _ _ _ _ _ _ same | reapedRetry found _ _ _ _ _ _ same =>
    cases found.symm.trans job_eq
    exact ⟨_, rfl, .inr ⟨same.executionGeneration, Nat.le_of_eq same.attemptCount.symm⟩⟩
  | closed _ locked _ _ _ _ same =>
    cases locked.job_eq.symm.trans job_eq
    exact ⟨_, rfl, .inr ⟨same.executionGeneration, Nat.le_of_eq same.attemptCount.symm⟩⟩
  | attemptStarted | marked | closedForRetry | abandoned =>
    exact ⟨job, job_eq, .inr ⟨rfl, Nat.le_refl _⟩⟩
  | requeued found =>
    cases found.symm.trans job_eq
    exact ⟨_, rfl, .inl (Nat.lt_succ_self _)⟩

theorem RunStep.charged (step : RunStep rules runID v v') (numbered : v.Numbered)
    {job' : AnalysisJob} (job_eq' : v'.job = some job')
    (started : job'.executionStarted = true) : 0 < job'.attemptCount := by
  cases step with
  | created | claimed | released | requeued =>
    cases job_eq'
    cases started
  | began =>
    cases job_eq'
    exact Nat.succ_pos _
  | renewed found | flagged found | cancelled found =>
    have charged := numbered.charged found
    cases job_eq'
    exact charged started
  | retried found _ charged _ _ same | failedByJob found _ charged _ _ _ _ same
  | cancelledByJob found _ charged _ _ _ same
  | reapedUnknown found _ charged _ _ _ _ _ _ _ _ same
  | reapedRetry found _ charged _ _ _ _ same =>
    cases job_eq'
    rw [same.attemptCount]
    exact numbered.charged found charged
  | reapedCancelled found _ _ _ _ same =>
    cases job_eq'
    rw [same.attemptCount]
    exact numbered.charged found (same.executionStarted ▸ started)
  | closed _ locked _ _ _ _ same =>
    cases job_eq'
    rw [same.attemptCount]
    exact numbered.charged locked.job_eq locked.started
  | attemptStarted | marked | closedForRetry | abandoned => exact numbered.charged job_eq' started

theorem RunStep.of_no_job (step : RunStep rules runID v v') (numbered : v.Numbered)
    (none : v.job = none) : v'.job.isSome = true ∧ v'.attempts = [] ∧ v'.reports = [] := by
  cases step with
  | created => exact ⟨rfl, numbered.idle none⟩
  | claimed found | began found | released found | renewed found | retried found
  | attemptStarted _ found | failedByJob found | cancelledByJob found | reapedCancelled found
  | reapedUnknown found | reapedRetry found | flagged found | cancelled found | requeued found =>
    cases none.symm.trans found
  | marked _ locked | closedForRetry _ locked | closed _ locked =>
    cases none.symm.trans locked.job_eq
  | abandoned member =>
    rw [(numbered.idle none).1] at member
    cases member

theorem RunStep.numbered (step : RunStep rules runID v v') (proper : v.Proper)
    (numbered : v.Numbered) : v'.Numbered := by
  cases found : v.job with
  | none =>
    obtain ⟨some, attempts, reports⟩ := step.of_no_job numbered found
    refine ⟨fun _ => ⟨attempts, reports⟩, step.charged numbered, fun _ attempt member => ?_⟩
    rw [attempts] at member
    cases member
  | some job =>
    obtain ⟨job', found', forward⟩ := step.job_forward found
    refine ⟨fun none => ?_, step.charged numbered, fun job_eq' attempt' member' => ?_⟩
    · cases none.symm.trans found'
    cases found'.symm.trans job_eq'
    rcases step.attempts_cases proper with ⟨f, attempts_eq, kept⟩ | ⟨_, attempt, starts⟩
    · rw [attempts_eq] at member'
      obtain ⟨attempt, member, rfl⟩ := List.mem_map.mp member'
      have bounded := numbered.bounded found attempt member
      have same := kept attempt member
      rw [same.generation, same.number]
      omega
    · cases starts.job_eq.symm.trans found
      cases starts.job_eq'.symm.trans job_eq'
      rw [starts.attempts_eq, List.mem_append, List.mem_singleton] at member'
      rcases member' with member | rfl
      · exact numbered.bounded found attempt' member
      · rw [starts.number, AnalysisJob.expectedAttemptNo_charged
          (numbered.charged found starts.started)]
        exact .inr ⟨starts.generation, Nat.le_refl _⟩

end Numbers

section Endings

theorem RunStep.of_terminal (step : RunStep rules runID v v') (job_eq : v.job = some job)
    (terminal : job.status.terminal = true) :
    (v'.job = v.job ∧ v'.reports = v.reports ∧
      ∀ run, v.run = some run → ∃ version, v'.run = some { run with version }) ∨
    (job.status = .failed ∧ v'.reports = v.reports ∧
      (∃ now, v'.job = some (job.requeued (job.executionGeneration + 1) now)) ∧
      ∃ run', v'.run = some run' ∧ run'.status = .queued ∧ run'.finalAttemptID = none) := by
  have unfinished : ∀ status : JobStatus, status.terminal = false → job.status ≠ status :=
    fun status open_ same => by
      rw [same, open_] at terminal
      cases terminal
  cases step with
  | created noJob => cases noJob.symm.trans job_eq
  | claimed found waiting | cancelled found waiting =>
    cases found.symm.trans job_eq
    rcases waiting with status | status <;> exact absurd status (unfinished _ rfl)
  | began found running | released found running | renewed found running | retried found running
  | failedByJob found running | cancelledByJob found running | reapedCancelled found running
  | reapedUnknown found running | reapedRetry found running | flagged found running =>
    cases found.symm.trans job_eq
    exact absurd running (unfinished _ rfl)
  | attemptStarted _ found held =>
    cases found.symm.trans job_eq
    exact absurd held.running (unfinished _ rfl)
  | marked _ locked | closedForRetry _ locked | closed _ locked =>
    cases locked.job_eq.symm.trans job_eq
    exact absurd locked.held.running (unfinished _ rfl)
  | abandoned _ _ _ _ versioned =>
    refine .inl ⟨rfl, rfl, fun run run_eq => ?_⟩
    rcases versioned with rfl | ⟨row, version, row_eq, rfl⟩
    · exact ⟨run.version, run_eq⟩
    · cases row_eq.symm.trans run_eq
      exact ⟨version, rfl⟩
  | requeued found failed =>
    cases found.symm.trans job_eq
    exact .inr ⟨failed, rfl, ⟨_, rfl⟩, _, rfl, rfl, rfl⟩

structure RunView.Concludes (v v' : RunView) (attempt : DiagnosisAttempt) (report : Report) :
    Prop where
  member : attempt ∈ v.attempts
  unclosed : attempt.status = .running
  reports_eq : v'.reports = v.reports ++ [report]
  own : report.attemptID = attempt.id
  closed : ∃ attempt' ∈ v'.attempts, attempt'.id = attempt.id ∧
    ((attempt'.status = .succeeded ∧
        (∀ run', v'.run = some run' → run'.finalAttemptID = some attempt.id) ∧
        ∀ job', v'.job = some job' →
          attempt'.executionGeneration = job'.executionGeneration) ∨
      (attempt'.status = .failedTerminal ∧
        ∀ run', v'.run = some run' → run'.status = .failed))

theorem RunView.mem_putAttempt (member : attempt ∈ v.attempts) (same : attempt'.id = attempt.id) :
    attempt' ∈ v.putAttempt attempt' :=
  List.mem_map.mpr ⟨attempt, member, if_pos same.symm⟩

theorem RunStep.report_cases (step : RunStep rules runID v v') :
    (v'.reports = v.reports ∧ ∀ run', v'.run = some run' → run'.status = .succeeded →
      ∃ run, v.run = some run ∧ run.status = .succeeded ∧
        run'.finalAttemptID = run.finalAttemptID) ∨
    ∃ attempt report, v.Concludes v' attempt report := by
  cases step with
  | closed _ locked closing _ marks status same =>
    have put := RunView.mem_putAttempt locked.member marks.id
    have generation := marks.executionGeneration.trans
      (locked.generation.trans same.executionGeneration.symm)
    cases closing with
    | succeeded own =>
      refine .inr ⟨_, _, locked.member, locked.unclosed, rfl, own, _, put, marks.id, .inl
        ⟨status, fun run' run_eq => ?_, fun job' job_eq => ?_⟩⟩
      · cases run_eq
        rfl
      · cases job_eq
        exact generation
    | invalid own =>
      refine .inr ⟨_, _, locked.member, locked.unclosed, rfl, own, _, put, marks.id, .inr
        ⟨status, fun run' run_eq => ?_⟩⟩
      cases run_eq
      rfl
    | failed | cancelled =>
      refine .inl ⟨List.append_nil _, fun run' run_eq succeeded => ?_⟩
      cases run_eq
      cases succeeded
  | created _ _ queued =>
    refine .inl ⟨rfl, fun run' run_eq succeeded => ?_⟩
    cases run_eq
    cases queued.symm.trans succeeded
  | claimed | began | released | renewed | retried | marked | closedForRetry | reapedRetry =>
    exact .inl ⟨rfl, fun run' run_eq succeeded => ⟨run', run_eq, succeeded, rfl⟩⟩
  | abandoned _ _ _ _ versioned =>
    refine .inl ⟨rfl, fun run' run_eq succeeded => ?_⟩
    rcases versioned with rfl | ⟨row, version, row_eq, rfl⟩
    · exact ⟨run', run_eq, succeeded, rfl⟩
    · cases run_eq
      exact ⟨row, row_eq, succeeded, rfl⟩
  | flagged _ _ run_eq active =>
    refine .inl ⟨rfl, fun run' found succeeded => ?_⟩
    cases found
    exact ⟨_, run_eq, succeeded, rfl⟩
  | attemptStarted | failedByJob | cancelledByJob | reapedCancelled | reapedUnknown | cancelled
  | requeued =>
    refine .inl ⟨rfl, fun run' run_eq succeeded => ?_⟩
    cases run_eq
    cases succeeded

structure RunView.Reported (v : RunView) : Prop where
  owned : ∀ report ∈ v.reports, ∃ attempt ∈ v.attempts, attempt.id = report.attemptID ∧
    (attempt.status = .succeeded ∨ attempt.status = .failedTerminal)
  succeeded : ∀ {job run}, v.job = some job → v.run = some run → run.status = .succeeded →
    ∃ attempt ∈ v.attempts, run.finalAttemptID = some attempt.id ∧
      attempt.status = .succeeded ∧
      attempt.executionGeneration = job.executionGeneration ∧
      (v.reports.filter fun report => report.attemptID = attempt.id).length = 1

theorem RunStep.keeps_closed (step : RunStep rules runID v v') (proper : v.Proper)
    (member : attempt ∈ v.attempts)
    (closed : attempt.status = .succeeded ∨ attempt.status = .failedTerminal) :
    attempt ∈ v'.attempts := by
  rcases step.attempts_cases proper with ⟨f, attempts_eq, kept⟩ | ⟨_, _, starts⟩
  · rw [attempts_eq]
    refine List.mem_map.mpr ⟨attempt, member, ?_⟩
    rcases (kept attempt member).settled with same | running | abandoned
    · exact same
    · rw [running] at closed
      rcases closed with status | status <;> cases status
    · rw [abandoned] at closed
      rcases closed with status | status <;> cases status
  · rw [starts.attempts_eq]
    exact List.mem_append_left _ member

theorem RunStep.reported (step : RunStep rules runID v v') (proper : v.Proper)
    (agrees : v.Agrees) (reported : v.Reported) : v'.Reported := by
  have kept : ∀ report ∈ v.reports, ∃ attempt ∈ v'.attempts, attempt.id = report.attemptID ∧
      (attempt.status = .succeeded ∨ attempt.status = .failedTerminal) := by
    intro report member
    obtain ⟨attempt, present, own, closed⟩ := reported.owned report member
    exact ⟨attempt, step.keeps_closed proper present closed, own, closed⟩
  rcases step.report_cases with ⟨reports_eq, before⟩ | ⟨attempt, report, concludes⟩
  · refine ⟨reports_eq ▸ kept, fun {job' run'} job_eq' run_eq' success => ?_⟩
    obtain ⟨run, run_eq, status, final⟩ := before run' run_eq' success
    obtain ⟨job, job_eq⟩ := agrees.job run_eq
    have fit := agrees.fits job_eq run_eq
    have jobStatus : job.status = .succeeded := by
      rw [status] at fit
      cases same : job.status <;> rw [same] at fit <;> first | rfl | cases fit
    rcases step.of_terminal job_eq (by rw [jobStatus]; rfl) with ⟨same, -⟩ | ⟨failed, -⟩
    · cases (same.symm.trans job_eq').symm.trans job_eq
      rw [final, reports_eq]
      obtain ⟨attempt, member, own, closed, rest⟩ := reported.succeeded job_eq run_eq status
      exact ⟨attempt, step.keeps_closed proper member (.inl closed), own, closed, rest⟩
    · cases jobStatus.symm.trans failed
  · obtain ⟨attempt', member', same, outcome⟩ := concludes.closed
    refine ⟨fun row member => ?_, fun {job' run'} job_eq' run_eq' success => ?_⟩
    · rw [concludes.reports_eq, List.mem_append, List.mem_singleton] at member
      rcases member with old | rfl
      · exact kept row old
      · exact ⟨attempt', member', same.trans concludes.own.symm,
          outcome.imp (fun succeeded => succeeded.1) fun failed => failed.1⟩
    · rcases outcome with ⟨status, final, generation⟩ | ⟨-, failed⟩
      · refine ⟨attempt', member', (final run' run_eq').trans (congrArg some same.symm), status,
          generation job' job_eq', ?_⟩
        -- No earlier report can name this attempt: it was still RUNNING.
        have none : v.reports.filter (fun row => row.attemptID = attempt'.id) = [] := by
          refine List.filter_eq_nil_iff.mpr fun row member own => ?_
          obtain ⟨other, present, name, closed⟩ := reported.owned row member
          have own : row.attemptID = attempt'.id := by simpa using own
          cases proper.ids other present attempt concludes.member
            (name.trans (own.trans same))
          rw [concludes.unclosed] at closed
          rcases closed with status | status <;> cases status
        rw [concludes.reports_eq, List.filter_append, none, List.nil_append]
        simp [concludes.own, same]
      · cases (failed run' run_eq').symm.trans success

end Endings

def RunView.Completed (v : RunView) : Prop :=
  ∀ attempt ∈ v.attempts, attempt.checkpointKind.final = true →
    attempt.providerCompletedAt.isSome = true

theorem RunStep.completed (step : RunStep rules runID v v') (completed : v.Completed) :
    v'.Completed := by
  have kept : ∀ {attempt attempt' : DiagnosisAttempt}, attempt ∈ v.attempts →
      attempt.SameMarks attempt' → attempt'.checkpointKind.final = true →
      attempt'.providerCompletedAt.isSome = true :=
    fun member same final =>
      same.providerCompletedAt (completed _ member (same.checkpointKind ▸ final))
  have put : ∀ {attempt' : DiagnosisAttempt},
      (attempt'.checkpointKind.final = true → attempt'.providerCompletedAt.isSome = true) →
      ∀ row ∈ v.putAttempt attempt', row.checkpointKind.final = true →
        row.providerCompletedAt.isSome = true := by
    intro attempt' marked row member
    obtain ⟨old, present, rfl⟩ := List.mem_map.mp member
    split
    · exact marked
    · exact completed old present
  have close : ∀ {p : DiagnosisAttempt → Prop} [DecidablePred p]
      {close : DiagnosisAttempt → DiagnosisAttempt},
      (∀ row, (close row).content = row.content) → ∀ row ∈ v.closeAttempts p close,
        row.checkpointKind.final = true → row.providerCompletedAt.isSome = true := by
    intro p _ close same row member
    obtain ⟨old, present, rfl⟩ := List.mem_map.mp member
    by_cases hit : p old ∧ old.status = .running
    · rw [if_pos hit]
      exact kept present (DiagnosisAttempt.sameMarks_of_content (same old))
    · rw [if_neg hit]
      exact completed old present
  cases step with
  | attemptStarted _ _ _ _ _ _ _ _ _ _ _ unsaved =>
    intro row member final
    rcases List.mem_append.mp member with old | new
    · exact completed row old final
    · cases List.mem_singleton.mp new
      rw [unsaved] at final
      cases final
  | marked _ locked mark =>
    have before := completed _ locked.member
    refine put fun final => ?_
    cases mark with
    | begun | succeeded | cleared => exact before final
    | checkpointed checkpoint now =>
      have kind : checkpoint.kind.final = true := final
      simp only [DiagnosisAttempt.withCheckpoint, kind, ↓reduceIte, Option.isSome_some]
  | closedForRetry _ locked _ same => exact put (kept locked.member same)
  | closed _ locked _ _ marks => exact put (kept locked.member marks)
  | abandoned member _ same =>
    exact put (kept member (DiagnosisAttempt.sameMarks_of_content same))
  | reapedUnknown _ _ _ _ _ _ member _ _ same =>
    exact put (kept member (DiagnosisAttempt.sameMarks_of_content same))
  | failedByJob | cancelledByJob | reapedCancelled => exact close fun _ => rfl
  | reapedRetry _ _ _ _ _ same => exact close same
  | created | claimed | began | released | renewed | retried | flagged | cancelled | requeued =>
    exact completed

/-- What holds of every diagnosis that the system reaches. -/
structure RunView.Sound (v : RunView) : Prop where
  agrees : v.Agrees
  numbered : v.Numbered
  reported : v.Reported
  completed : v.Completed

theorem RunStep.sound (step : RunStep rules runID v v') (proper : v.Proper) (sound : v.Sound) :
    v'.Sound where
  agrees := step.agrees sound.agrees
  numbered := step.numbered proper sound.numbered
  reported := step.reported proper sound.agrees sound.reported
  completed := step.completed sound.completed

def Database.Sound (db : Database) : Prop := ∀ runID, (db.view runID).Sound

variable {db db' : Database}

theorem ViewStep.sound (step : ViewStep rules db db') (sound : db.Sound) : db'.Sound := by
  intro runID
  rcases step runID with same | stepped
  · rw [same]
    exact sound runID
  · exact stepped.sound (db.view_proper runID) (sound runID)

abbrev ViewRun (rules : RunRules) : Database → Database → Prop :=
  Relation.ReflTransGen (ViewStep rules)

theorem ViewRun.sound (run : ViewRun rules db db') (sound : db.Sound) : db'.Sound := by
  induction run with
  | refl => exact sound
  | tail _ step ih => exact step.sound ih

theorem ViewRun.keeps {P : RunView → Prop} (run : ViewRun rules db db') (sound : db.Sound)
    (kept : ∀ v v', v.Proper → v'.Proper → v.Sound → RunStep rules runID v v' → P v → P v')
    (holds : P (db.view runID)) : P (db'.view runID) := by
  induction run with
  | refl => exact holds
  | @tail middle after before step ih =>
    rcases step runID with same | stepped
    · rw [same]
      exact ih
    · exact kept _ _ (middle.view_proper runID) (after.view_proper runID)
        (ViewRun.sound before sound runID) stepped ih

end RepoLens
