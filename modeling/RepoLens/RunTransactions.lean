import RepoLens.PipelineSteps
import RepoLens.RunSteps

/-!
Every transaction that can touch a diagnosis is one step of it.
-/

namespace RepoLens

open Relational Transaction

variable {rules : RunRules} {db db' : Database} {runID attemptID : String} {generation : Nat}
  {cancelled : Bool} {job : AnalysisJob} {run : DiagnosisRun} {attempt : DiagnosisAttempt}
  {execution : Execution} {now : Time}

section Locks
variable {claim : Claim}

theorem lockDiagnosisExecutionTx_ok
    (ran : lockDiagnosisExecutionTx claim generation runID attemptID cancelled db =
      .ok ((job, run, attempt), db')) :
    db' = db ∧ (db.view runID).Locked claim cancelled job run attempt ∧ attempt.id = attemptID ∧
      (generation = 0 ∨ job.executionGeneration = generation) := by
  simp only [lockDiagnosisExecutionTx, bind_ok, Place.select_ok, expect_ok, require_ok,
    pure_ok] at ran
  obtain ⟨_, _, ⟨rfl, rfl⟩, _, _, ⟨rfl, rfl⟩, owned, _, ⟨foundJob, rfl⟩, _, _,
    ⟨sameGeneration, rfl⟩, _, _, ⟨jobFlag, rfl⟩, _, _, ⟨rfl, rfl⟩, owner, _, ⟨foundRun, rfl⟩, _, _,
    ⟨runFlag, rfl⟩, _, _, ⟨rfl, rfl⟩, current, _, ⟨foundAttempt, rfl⟩, _, _, ⟨worker, rfl⟩, same,
    rfl⟩ := ran
  cases same
  obtain ⟨jobMember, held, owns, started⟩ := Table.select_some foundJob
  obtain ⟨runMember, sameRun, running⟩ := Table.select_some foundRun
  obtain ⟨attemptMember, sameAttempt, of, number, unclosed⟩ := Table.select_some foundAttempt
  exact ⟨rfl, ⟨view_job.mpr ⟨jobMember, owns⟩, held, started, jobFlag,
    view_run.mpr ⟨runMember, sameRun⟩, running, runFlag,
    view_attempt.mpr ⟨attemptMember, of.1⟩, of.2, number, unclosed, worker⟩, sameAttempt,
    sameGeneration⟩

theorem lockLiveDiagnosisExecutionTx_ok
    (ran : lockLiveDiagnosisExecutionTx execution now db = .ok (attempt, db')) :
    db' = db ∧ attempt.id = execution.attemptID ∧ attempt.attemptNo = execution.attemptNo ∧
      ∃ job run, (db.view execution.runID).Locked execution.claim false job run attempt ∧
        (execution.generation = 0 ∨ job.executionGeneration = execution.generation) := by
  obtain ⟨⟨job, run, locked⟩, db₁, lock, rest⟩ := bind_ok.mp ran
  obtain ⟨rfl, locks, same, generation⟩ := lockDiagnosisExecutionTx_ok lock
  simp only [bind_ok, require_ok, pure_ok] at rest
  obtain ⟨_, _, ⟨-, rfl⟩, _, _, ⟨number, rfl⟩, rfl, rfl⟩ := rest
  exact ⟨rfl, same, number, job, run, locks, generation⟩

theorem lockLiveDiagnosisJobTx_ok
    (ran : lockLiveDiagnosisJobTx claim generation runID now db = .ok (job, db')) :
    db' = db ∧ (db.view runID).job = some job ∧ job.HeldBy claim ∧
      job.executionGeneration = generation ∧ job.executionStarted = true ∧
      job.cancelRequested = false := by
  obtain ⟨found, db₁, selected, rest⟩ := bind_ok.mp ran
  obtain ⟨present, rfl⟩ := (Place.select_ok _).mp selected
  cases found with
  | none => simp only [bind_ok, Place.select_ok, fail_ok, and_false, exists_false] at rest
  | some owned =>
    simp only [bind_ok, require_ok, pure_ok] at rest
    obtain ⟨_, _, ⟨-, rfl⟩, rfl, rfl⟩ := rest
    obtain ⟨member, held, owns, same, started, unflagged⟩ := Table.select_some present.symm
    exact ⟨rfl, view_job.mpr ⟨member, owns⟩, held, same, started, unflagged⟩

end Locks

section Marks
variable {p : DiagnosisAttempt → Prop}

theorem Focus.put (member : attempt ∈ (db.view runID).attempts) [DecidablePred p]
    {f : DiagnosisAttempt → DiagnosisAttempt}
    {keeps : Table.Keeps DiagnosisAttempt.id DiagnosisAttempt.number f}
    (own : ∀ row, p row → row.id = attempt.id) (hit : p attempt) :
    Focus runID (fun v => { v with attempts := v.putAttempt (f attempt) }) db
      (Place.attempts.set ((Place.attempts.get db).update p f keeps) db) := by
  obtain ⟨present, owner⟩ := view_attempt.mp member
  have focus : Focus runID (RunView.mapAttempts p f) db
      (Place.attempts.set ((Place.attempts.get db).update p f keeps) db) :=
    .attempts_update fun row rowMember matched => by
      rw [db.attempts.eq_of_key rowMember present (own row matched), owner]
  refine ⟨focus.1.trans ?_, focus.2⟩
  exact congrArg (fun attempts => { db.view runID with attempts })
    (RunView.mapAttempts_put (fun row => view_attempt_unique member) own hit (keeps attempt).1)

theorem hit_of_affected (member : attempt ∈ (db.view runID).attempts) [DecidablePred p]
    (own : ∀ row, p row → row.id = attempt.id) (affected : (Place.attempts.get db).affected p = 1) :
    p attempt := by
  obtain ⟨row, present, hit⟩ := Table.exists_of_affected_one affected
  rwa [← db.attempts.eq_of_key present (view_attempt.mp member).1 (own row hit)]

theorem validateCheckpointBytes_ok {checkpoint : AttemptCheckpoint} {u : Unit}
    (ran : validateCheckpointBytes checkpoint db = .ok (u, db')) : db' = db := by
  simp only [validateCheckpointBytes, validateReportBytes, bind_ok, require_ok] at ran
  obtain ⟨_, _, ⟨-, rfl⟩, _, _, ⟨-, rfl⟩, -, rfl⟩ := ran
  rfl

structure Marked (execution : Execution) (attempt attempt' : DiagnosisAttempt)
    (db db' : Database) : Prop where
  own : attempt.id = execution.attemptID
  number : attempt.attemptNo = execution.attemptNo
  locked : ∃ job run, (db.view execution.runID).Locked execution.claim false job run attempt ∧
    (execution.generation = 0 ∨ job.executionGeneration = execution.generation)
  focus : Focus execution.runID (fun v => { v with attempts := v.putAttempt attempt' }) db db'

theorem Focus.put_self (member : attempt ∈ (db.view runID).attempts) :
    Focus runID (fun v => { v with attempts := v.putAttempt attempt }) db db := by
  have same : (db.view runID).putAttempt attempt = (db.view runID).attempts := by
    refine (List.map_congr_left fun row present => ?_).trans (List.map_id _)
    by_cases own : row.id = attempt.id
    · rw [if_pos own, view_attempt_unique member present own]
      rfl
    · rw [if_neg own]
      rfl
  exact ⟨congrArg (fun attempts => { db.view runID with attempts }) same.symm, fun _ _ => rfl⟩

theorem Marked.view {attempt' : DiagnosisAttempt}
    (marked : Marked execution attempt attempt' db db') (acting : rules.acts execution.claim)
    (mark : Mark rules attempt attempt') : ViewStep rules db db' := by
  obtain ⟨job, run, locked, -⟩ := marked.locked
  exact marked.focus.step (.inr (.marked acting locked mark))

theorem beginProviderDispatch_ok {u : Unit}
    (ran : beginProviderDispatch execution now db = .ok (u, db')) :
    ∃ attempt, Marked execution attempt
      { attempt with providerDispatchUnresolved := true } db db' := by
  obtain ⟨attempt, db₁, lock, rest⟩ := bind_ok.mp ran
  obtain ⟨rfl, same, number, job, run, locked, generation⟩ := lockLiveDiagnosisExecutionTx_ok lock
  simp only [bind_ok, require_ok, pure_ok] at rest
  obtain ⟨_, _, ⟨-, rfl⟩, _, _, ⟨-, rfl⟩, -, rfl⟩ := rest
  exact ⟨attempt, same, number, ⟨job, run, locked, generation⟩,
    .put locked.member (fun row hit => hit.1.trans same.symm) ⟨same, locked.unclosed⟩⟩

theorem providerDispatchSucceeded_ok {u : Unit}
    (ran : providerDispatchSucceeded execution now db = .ok (u, db')) :
    ∃ attempt, attempt.providerDispatchUnresolved = true ∧ Marked execution attempt
      { attempt with providerDispatchSuccessSeen := true } db db' := by
  obtain ⟨attempt, db₁, lock, rest⟩ := bind_ok.mp ran
  obtain ⟨rfl, same, number, job, run, locked, generation⟩ := lockLiveDiagnosisExecutionTx_ok lock
  simp only [bind_ok, require_ok, ite_ok, pure_ok] at rest
  obtain ⟨_, _, ⟨unresolved, rfl⟩, ⟨seen, -, rfl⟩ | ⟨-, _, _, ⟨-, rfl⟩, -, rfl⟩⟩ := rest
  · refine ⟨attempt, unresolved, same, number, ⟨job, run, locked, generation⟩, ?_⟩
    rw [show { attempt with providerDispatchSuccessSeen := true } = attempt by rw [← seen]]
    exact .put_self locked.member
  · exact ⟨attempt, unresolved, same, number, ⟨job, run, locked, generation⟩,
      .put locked.member (fun row hit => hit.1.trans same.symm)
        ⟨same, locked.unclosed, unresolved⟩⟩

theorem providerDispatchFailedDefinitely_ok {cleared : Bool}
    (ran : providerDispatchFailedDefinitely execution now db = .ok (cleared, db')) :
    (cleared = false ∧ db' = db) ∨
      ∃ attempt, attempt.providerDispatchSuccessSeen = false ∧ Marked execution attempt
        { attempt with providerDispatchUnresolved := false } db db' := by
  obtain ⟨attempt, db₁, lock, rest⟩ := bind_ok.mp ran
  obtain ⟨rfl, same, number, job, run, locked, generation⟩ := lockLiveDiagnosisExecutionTx_ok lock
  simp only [bind_ok, ite_ok, pure_ok] at rest
  obtain ⟨-, rfl, rfl⟩ | ⟨unseen, _, _, ⟨-, rfl⟩, -, rfl⟩ := rest
  · exact .inl ⟨rfl, rfl⟩
  · have unseen : attempt.providerDispatchSuccessSeen = false := by simpa using unseen
    exact .inr ⟨attempt, unseen, same, number, ⟨job, run, locked, generation⟩,
      .put locked.member (fun row hit => hit.1.trans same.symm)
        ⟨same, locked.unclosed, unseen⟩⟩

theorem updateAttemptCheckpointWithClaim_ok {checkpoint : AttemptCheckpoint} {u : Unit}
    (ran : updateAttemptCheckpointWithClaim execution checkpoint now db = .ok (u, db')) :
    ∃ attempt, Marked execution attempt (attempt.withCheckpoint checkpoint now) db db' := by
  obtain ⟨-, ran₁⟩ := require_bind_ok.mp ran
  obtain ⟨_, db₂, valid, ran₂⟩ := bind_ok.mp ran₁
  obtain rfl := validateCheckpointBytes_ok valid
  obtain ⟨attempt, db₃, lock, rest⟩ := bind_ok.mp ran₂
  obtain ⟨rfl, same, number, job, run, locked, generation⟩ := lockLiveDiagnosisExecutionTx_ok lock
  obtain ⟨affected, rfl⟩ := (Place.update_require_ok _).mp rest
  exact ⟨attempt, same, number, ⟨job, run, locked, generation⟩,
    .put locked.member (fun row hit => hit.1)
      (hit_of_affected locked.member (fun row hit => hit.1) affected)⟩

end Marks

section Attempts

theorem Focus.putRun (run_eq : (db.view runID).run = some run) {p : DiagnosisRun → Prop}
    [DecidablePred p] {f : DiagnosisRun → DiagnosisRun}
    {keeps : Table.Keeps DiagnosisRun.id DiagnosisRun.idempotency f}
    (own : ∀ row, p row → row.id = runID) (hit : p run) :
    Focus runID (fun v => { v with run := some (f run) }) db
      (Place.runs.set ((Place.runs.get db).update p f keeps) db) :=
  have focus : Focus runID (RunView.mapRun p f) db
      (Place.runs.set ((Place.runs.get db).update p f keeps) db) := .runs_update own
  ⟨focus.1.trans (RunView.mapRun_hit run_eq hit), focus.2⟩

theorem run_hit_of_affected (run_eq : (db.view runID).run = some run) {p : DiagnosisRun → Prop}
    [DecidablePred p] (own : ∀ row, p row → row.id = runID)
    (affected : (Place.runs.get db).affected p = 1) : p run := by
  obtain ⟨row, present, hit⟩ := Table.exists_of_affected_one affected
  obtain ⟨member, same⟩ := view_run.mp run_eq
  rwa [← db.runs.eq_of_key present member ((own row hit).trans same.symm)]

theorem startRunTx_focus {u : Unit} (run_eq : (db.view runID).run = some run)
    (ran : startRunTx run db = .ok (u, db')) :
    run.status.active = true ∧
      ∃ version, Focus runID
        (fun v => { v with run := some { run with status := .running, version } }) db db' := by
  rcases ite_ok.mp ran with ⟨queued, ran⟩ | ⟨-, ran⟩
  · obtain ⟨affected, rfl⟩ := (Place.update_require_ok _).mp ran
    have own : ∀ row : DiagnosisRun, row.id = run.id ∧ row.status = .queued ∧
        row.cancelRequested = false → row.id = runID :=
      fun row hit => hit.1.trans (view_run.mp run_eq).2
    exact ⟨by rw [queued]; rfl, run.version + 1,
      Focus.putRun run_eq own (run_hit_of_affected run_eq own affected)⟩
  · obtain ⟨running, rfl⟩ := require_ok.mp ran
    refine ⟨by rw [running]; rfl, run.version, ?_, fun _ _ => rfl⟩
    have same : ({ run with status := .running, version := run.version } : DiagnosisRun) = run := by
      rw [← running]
    rw [same, ← run_eq]

theorem startAttemptWithClaim_ok {u : Unit}
    (ran : startAttemptWithClaim claim generation runID attempt now db = .ok (u, db')) :
    ∃ job run version, ((db.view runID).job = some job ∧ job.HeldBy claim ∧
      job.executionGeneration = generation ∧ job.executionStarted = true ∧
      job.cancelRequested = false) ∧
      ((db.view runID).run = some run ∧ run.status.active = true ∧ run.cancelRequested = false) ∧
      (attempt.executionGeneration = generation ∧ attempt.attemptNo = job.expectedAttemptNo ∧
        ∀ row ∈ (db.view runID).attempts, row.id ≠ attempt.id) ∧
      Focus runID (fun v => { v with
        run := some { run with status := .running, version }
        attempts := v.attempts ++ [{ attempt with status := .running, checkpointKind := .none }] })
        db db' := by
  obtain ⟨job, db₁, lock, ran₁⟩ := bind_ok.mp ran
  obtain ⟨rfl, owned⟩ := lockLiveDiagnosisJobTx_ok lock
  obtain ⟨⟨of, number, -⟩, ran₂⟩ := require_bind_ok.mp ran₁
  obtain ⟨run, found, ran₄⟩ := expect_bind_ok.mp ((Place.select_bind_ok _).mp ran₂)
  have run_eq : (db₁.view runID).run = some run := found
  obtain ⟨runUnflagged, ran₅⟩ := require_bind_ok.mp ran₄
  obtain ⟨_, db₆, startedRun, ran₆⟩ := bind_ok.mp ran₅
  obtain ⟨active, version, focus⟩ := startRunTx_focus run_eq startedRun
  obtain ⟨table, inserted, rfl⟩ := (Place.insert_ok _).mp ran₆
  refine ⟨job, run, version, owned, ⟨run_eq, active, runUnflagged⟩,
    ⟨of.2, number, fun row member same => ?_⟩, focus.trans (Focus.attempts_insert inserted of.1)⟩
  have present' : row ∈ (db₆.view runID).attempts := by rw [focus.1]; exact member
  refine (Table.insert_some inserted).2.1 ?_
  exact same ▸ List.mem_map_of_mem (view_attempt.mp present').1

theorem startAttemptWithClaim_view {u : Unit} (acting : rules.acts claim)
    (resolved : attempt.providerDispatchUnresolved = false)
    (unseen : attempt.providerDispatchSuccessSeen = false)
    (ran : startAttemptWithClaim claim generation runID attempt now db = .ok (u, db')) :
    ViewStep rules db db' := by
  obtain ⟨job, run, version, ⟨job_eq, held, rfl, started, unflagged⟩,
    ⟨run_eq, active, runUnflagged⟩, ⟨generation, number, fresh⟩, focus⟩ :=
    startAttemptWithClaim_ok ran
  exact focus.step (.inr (.attemptStarted acting job_eq held started unflagged run_eq active
    runUnflagged generation number rfl rfl resolved unseen fresh))

end Attempts

section Finalizers
variable {f : AnalysisJob → AnalysisJob}

theorem Focus.putJob (job_eq : (db.view runID).job = some job) {p : AnalysisJob → Prop}
    [DecidablePred p] {keeps : Table.Keeps AnalysisJob.id AnalysisJob.resource f}
    (own : ∀ row ∈ db.jobs.rows, p row → row.id = job.id) (hit : p job) :
    Focus runID (fun v => { v with job := some (f job) }) db
      (Place.jobs.set ((Place.jobs.get db).update p f keeps) db) :=
  have focus : Focus runID (RunView.mapJob p f) db
      (Place.jobs.set ((Place.jobs.get db).update p f keeps) db) := .job_update job_eq own
  ⟨focus.1.trans (RunView.mapJob_hit job_eq hit), focus.2⟩

theorem job_hit_of_affected (job_eq : (db.view runID).job = some job) {p : AnalysisJob → Prop}
    [DecidablePred p] (own : ∀ row ∈ db.jobs.rows, p row → row.id = job.id)
    (affected : (Place.jobs.get db).affected p ≠ 0) : p job := by
  obtain ⟨row, present, hit⟩ := Table.affected_ne_zero.mp affected
  rwa [← db.jobs.eq_of_key present (view_job.mp job_eq).1 (own row present hit)]

def DiagnosisRun.finalized (run : DiagnosisRun) (attemptID : String) (status : RunStatus) :
    DiagnosisRun :=
  { run with status, finalAttemptID := some attemptID, version := run.version + 1 }

theorem finalizeRunTx_focus {status : RunStatus} {conflict : Err} {u : Unit}
    (run_eq : (db.view runID).run = some run)
    (ran : finalizeRunTx runID attemptID cancelled status conflict db = .ok (u, db')) :
    Focus runID (fun v => { v with run := some (run.finalized attemptID status) }) db db' := by
  obtain ⟨affected, rfl⟩ := (Place.update_require_ok _).mp ran
  exact Focus.putRun run_eq (fun row hit => hit.1)
    (run_hit_of_affected run_eq (fun row hit => hit.1) affected)

theorem Focus.close {db₁ : Database}
    (locked : (db.view runID).Locked claim cancelled job run attempt) [DecidablePred p]
    {f : DiagnosisAttempt → DiagnosisAttempt}
    {keepsAttempt : Table.Keeps DiagnosisAttempt.id DiagnosisAttempt.number f}
    (own : ∀ row, p row → row.id = attempt.id) (affected : (Place.attempts.get db).affected p = 1)
    {status : RunStatus} {conflict : Err} {u : Unit}
    (ran : finalizeRunTx runID attemptID cancelled status conflict
      (Place.attempts.set ((Place.attempts.get db).update p f keepsAttempt) db) = .ok (u, db₁))
    {q : AnalysisJob → Prop} [DecidablePred q] {g : AnalysisJob → AnalysisJob}
    {keepsJob : Table.Keeps AnalysisJob.id AnalysisJob.resource g}
    (ownJob : ∀ row ∈ db₁.jobs.rows, q row → row.id = job.id)
    (affectedJob : (Place.jobs.get db₁).affected q = 1) :
    Focus runID
      (fun v => { v with
        job := some (g job)
        run := some (run.finalized attemptID status)
        attempts := v.putAttempt (f attempt) }) db
      (Place.jobs.set ((Place.jobs.get db₁).update q g keepsJob) db₁) := by
  have first : Focus runID (fun v => { v with attempts := v.putAttempt (f attempt) }) db
      (Place.attempts.set ((Place.attempts.get db).update p f keepsAttempt) db) :=
    .put locked.member own (hit_of_affected locked.member own affected)
  have second := finalizeRunTx_focus (by rw [first.1]; exact locked.run_eq) ran
  have job_eq : (db₁.view runID).job = some job := by
    rw [second.1, first.1]
    exact locked.job_eq
  have third : Focus runID (fun v => { v with job := some (g job) }) db₁
      (Place.jobs.set ((Place.jobs.get db₁).update q g keepsJob) db₁) :=
    .putJob job_eq ownJob (job_hit_of_affected job_eq ownJob (by rw [affectedJob]; decide))
  exact (first.trans second).trans third

theorem SameViews.insert_citation {citation : Citation} {duplicate : Err} :
    Ensures SameViews (Place.citations.insert citation duplicate : Tx Unit) :=
  Place.insert_ensures fun _ _ _ _ => rfl

theorem insertCitations_sameViews (ids : Nat → String) (citations : List Citation)
    (drawn : Nat) : Ensures SameViews (insertCitations ids citations drawn) := by
  induction citations generalizing drawn with
  | nil => exact .pure _
  | cons citation rest ih => exact .bind SameViews.insert_citation fun _ => ih (drawn + 1)

theorem validateReportPersistence_ok {report : Report} {u : Unit}
    (ran : validateReportPersistence report db = .ok (u, db')) : db' = db := by
  simp only [validateReportPersistence, validateReportBytes, bind_ok, require_ok] at ran
  obtain ⟨_, _, ⟨-, rfl⟩, _, _, ⟨-, rfl⟩, _, _, ⟨-, rfl⟩, _, _, ⟨-, rfl⟩, _, _, ⟨-, rfl⟩, _, _,
    ⟨-, rfl⟩, _, _, ⟨-, rfl⟩, -, rfl⟩ := ran
  rfl

theorem RunView.Locked.reports {v : RunView} (locked : v.Locked claim cancelled job run attempt)
    (reports : List Report) :
    ({ v with reports } : RunView).Locked claim cancelled job run attempt :=
  ⟨locked.job_eq, locked.held, locked.started, locked.job_flag, locked.run_eq, locked.running,
    locked.run_flag, locked.member, locked.generation, locked.number, locked.unclosed,
    locked.worker⟩

theorem finalizeSuccess_view {report : Report} {citations : List Citation} {counts : Counts}
    {ids : Nat → String} {u : Unit} (acting : rules.acts claim)
    (resolved : ∀ attempt ∈ (db.view runID).attempts, attempt.id = attemptID →
      attempt.providerDispatchUnresolved = false)
    (ran : finalizeSuccess claim runID attemptID report citations counts ids now db =
      .ok (u, db')) :
    ViewStep rules db db' := by
  obtain ⟨⟨job, run, attempt⟩, db₁, lock, ran₁⟩ := bind_ok.mp ran
  obtain ⟨rfl, locked, rfl, -⟩ := lockDiagnosisExecutionTx_ok lock
  obtain ⟨⟨ownRun, ownAttempt⟩, ran₂⟩ := require_bind_ok.mp ran₁
  obtain ⟨-, ran₃⟩ := require_bind_ok.mp ran₂
  obtain ⟨_, db₄, valid, ran₄⟩ := bind_ok.mp ran₃
  obtain rfl := validateReportPersistence_ok valid
  obtain ⟨_, db₅, reported, ran₅⟩ := bind_ok.mp ran₄
  obtain ⟨table, inserted, rfl⟩ := (Place.insert_ok _).mp reported
  obtain ⟨_, db₆, citing, ran₆⟩ := bind_ok.mp ran₅
  have first := (Focus.reports_insert inserted ownRun).then_same
    (insertCitations_sameViews ids citations 0 _ _ _ citing)
  obtain ⟨affected, ran₇⟩ := (Place.update_require_bind_ok _).mp ran₆
  obtain ⟨_, db₇, finalized, ran₈⟩ := bind_ok.mp ran₇
  obtain ⟨affectedJob, rfl⟩ := (Place.update_require_ok _).mp ran₈
  have locked₆ : (db₆.view runID).Locked claim false job run attempt := by
    rw [first.1]
    exact locked.reports _
  refine (first.trans (.close locked₆ (fun row hit => hit.1) affected finalized
    (fun row _ hit => hit.1.1.trans locked.held.1.symm) affectedJob)).step (.inr ?_)
  exact .closed acting locked (.succeeded ownAttempt) (fun _ => resolved attempt locked.member rfl)
    (by constructor <;> first | rfl | exact fun _ => rfl) rfl (by constructor <;> rfl) rfl

theorem finalizeInvalidStructuredReport_view {report : Report} {counts : Counts}
    {errorCode errorMessage drawnID : String} {u : Unit} (acting : rules.acts claim)
    (ran : finalizeInvalidStructuredReport claim runID attemptID report counts errorCode
      errorMessage drawnID db = .ok (u, db')) :
    ViewStep rules db db' := by
  obtain ⟨⟨job, run, attempt⟩, db₁, lock, ran₁⟩ := bind_ok.mp ran
  obtain ⟨rfl, locked, rfl, -⟩ := lockDiagnosisExecutionTx_ok lock
  obtain ⟨⟨ownRun, ownAttempt⟩, ran₂⟩ := require_bind_ok.mp ran₁
  obtain ⟨_, db₃, valid, ran₃⟩ := bind_ok.mp ran₂
  obtain rfl := validateReportPersistence_ok valid
  obtain ⟨_, db₄, reported, ran₄⟩ := bind_ok.mp ran₃
  obtain ⟨table, inserted, rfl⟩ := (Place.insert_ok _).mp reported
  have first : Focus runID _ db₃ _ := .reports_insert inserted ownRun
  obtain ⟨affected, ran₅⟩ := (Place.update_require_bind_ok _).mp ran₄
  obtain ⟨_, db₅, finalized, ran₆⟩ := bind_ok.mp ran₅
  obtain ⟨affectedJob, rfl⟩ := (Place.update_require_ok _).mp ran₆
  have locked₄ : ((Place.reports.set table db₃).view runID).Locked claim false job run
      attempt := by
    rw [first.1]
    exact locked.reports _
  refine (first.trans (.close locked₄ (fun row hit => hit.1) affected finalized
    (fun row _ hit => hit.1.1.trans locked.held.1.symm) affectedJob)).step (.inr ?_)
  exact .closed acting locked (.invalid ownAttempt) (fun succeeded => by cases succeeded)
    (by constructor <;> first | rfl | exact fun completed => completed) rfl
    (by constructor <;> rfl) rfl

theorem RunStep.closedUnreported {v : RunView} {job' : AnalysisJob} {attempt' : DiagnosisAttempt}
    {attemptStatus : AttemptStatus} {runStatus : RunStatus} {jobStatus : JobStatus}
    (acting : rules.acts claim) (locked : v.Locked claim cancelled job run attempt)
    (closing : Closing attempt.id cancelled attemptStatus runStatus jobStatus [])
    (marks : attempt.SameMarks attempt') (attempt_status : attempt'.status = attemptStatus)
    (same : job.SameExecution job') (job_status : job'.status = jobStatus) :
    RunStep rules runID v { v with
      job := some job'
      run := some (run.finalized attempt.id runStatus)
      attempts := v.putAttempt attempt' } := by
  have unresolved : runStatus = .succeeded → attempt.providerDispatchUnresolved = false := by
    rintro rfl
    cases closing
  have step : RunStep rules runID v {
      job := some job'
      run := some (run.finalized attempt.id runStatus)
      attempts := v.putAttempt attempt'
      reports := v.reports ++ [] } :=
    .closed acting locked closing unresolved marks attempt_status same job_status
  rwa [List.append_nil] at step

theorem finalizeDiagnosisFailure_ok {errorClass : ErrorClass} {errorCode errorMessage : String}
    {counts : Counts} {u : Unit}
    (ran : finalizeDiagnosisFailure claim generation runID attemptID errorClass errorCode
      errorMessage counts db = .ok (u, db')) :
    ∃ job run attempt, (db.view runID).Locked claim false job run attempt ∧
      attempt.id = attemptID ∧
      Focus runID (fun v => { v with
        job := some { job with
          status := .failed
          terminalReason := some errorClass.terminalReason
          lastErrorClass := some errorClass
          lastErrorCode := some errorCode
          lastErrorMessage := some errorMessage }
        run := some (run.finalized attemptID .failed)
        attempts := v.putAttempt { attempt with
          status := .failedTerminal
          usage := attempt.usage.counted counts
          errorCode
          errorMessage
          retryable := false } }) db db' := by
  obtain ⟨-, ran₁⟩ := require_bind_ok.mp ran
  obtain ⟨⟨job, run, attempt⟩, db₂, lock, ran₂⟩ := bind_ok.mp ran₁
  obtain ⟨rfl, locked, rfl, -⟩ := lockDiagnosisExecutionTx_ok lock
  obtain ⟨affected, ran₃⟩ := (Place.update_require_bind_ok _).mp ran₂
  obtain ⟨_, db₃, finalized, ran₄⟩ := bind_ok.mp ran₃
  obtain ⟨affectedJob, rfl⟩ := (Place.update_require_ok _).mp ran₄
  exact ⟨job, run, attempt, locked, rfl, Focus.close locked (fun row hit => hit.1) affected
    finalized (fun row _ hit => hit.1.1.trans locked.held.1.symm) affectedJob⟩

theorem finalizeDiagnosisFailure_view {errorClass : ErrorClass} {errorCode errorMessage : String}
    {counts : Counts} {u : Unit} (acting : rules.acts claim)
    (ran : finalizeDiagnosisFailure claim generation runID attemptID errorClass errorCode
      errorMessage counts db = .ok (u, db')) :
    ViewStep rules db db' := by
  obtain ⟨job, run, attempt, locked, rfl, focus⟩ := finalizeDiagnosisFailure_ok ran
  refine focus.step (.inr ?_)
  exact .closedUnreported acting locked .failed
    (by constructor <;> first | rfl | exact fun completed => completed) rfl
    (by constructor <;> rfl) rfl

theorem finalizeCancellation_view {u : Unit} (acting : rules.acts claim)
    (ran : finalizeCancellation claim runID attemptID db = .ok (u, db')) :
    ViewStep rules db db' := by
  obtain ⟨⟨job, run, attempt⟩, db₁, lock, ran₁⟩ := bind_ok.mp ran
  obtain ⟨rfl, locked, rfl, -⟩ := lockDiagnosisExecutionTx_ok lock
  obtain ⟨affected, ran₂⟩ := (Place.update_require_bind_ok _).mp ran₁
  obtain ⟨_, db₂, finalized, ran₃⟩ := bind_ok.mp ran₂
  obtain ⟨affectedJob, rfl⟩ := (Place.update_require_ok _).mp ran₃
  refine (Focus.close locked (fun row hit => hit.1) affected finalized
    (fun row _ hit => hit.1.1.trans locked.held.1.symm) affectedJob).step (.inr ?_)
  exact .closedUnreported acting locked .cancelled
    (by constructor <;> first | rfl | exact fun completed => completed) rfl
    (by constructor <;> rfl) rfl

theorem finalizeRetryableAttempt_view {errorCode errorMessage : String} {counts : Counts} {u : Unit}
    (acting : rules.acts claim)
    (resolved : ∀ attempt ∈ (db.view runID).attempts, attempt.id = attemptID →
      attempt.providerDispatchUnresolved = false)
    (ran : finalizeRetryableAttempt claim generation runID attemptID errorCode errorMessage counts
      db = .ok (u, db')) :
    ViewStep rules db db' := by
  obtain ⟨⟨job, run, attempt⟩, db₁, lock, ran₁⟩ := bind_ok.mp ran
  obtain ⟨rfl, locked, rfl, -⟩ := lockDiagnosisExecutionTx_ok lock
  obtain ⟨affected, rfl⟩ := (Place.update_require_ok _).mp ran₁
  refine (Focus.put locked.member (fun row hit => hit.1)
    (hit_of_affected locked.member (fun row hit => hit.1) affected)).step (.inr ?_)
  exact .closedForRetry acting locked (resolved attempt locked.member rfl)
    (by constructor <;> first | rfl | exact fun completed => completed) rfl

theorem recoverStaleAttempt_view {u : Unit}
    (ran : recoverStaleAttempt attemptID runID now db = .ok (u, db')) :
    ViewStep rules db db' := by
  obtain ⟨found, db₁, selected, ran₁⟩ := bind_ok.mp ran
  obtain ⟨present, rfl⟩ := (Place.select_ok _).mp selected
  cases found with
  | none =>
    obtain ⟨-, rfl⟩ := pure_ok.mp ran₁
    exact fun _ => .inl rfl
  | some attempt =>
    obtain ⟨member, rfl, owner, unclosed⟩ := Table.select_some present.symm
    obtain ⟨-, ran₃⟩ := require_bind_ok.mp ((Place.select_bind_ok _).mp ran₁)
    obtain ⟨affected, db₄, updated, ran₄⟩ := bind_ok.mp ran₃
    obtain ⟨rfl, rfl⟩ := (Place.update_ok _).mp updated
    have inView : attempt ∈ (db₁.view runID).attempts := view_attempt.mpr ⟨member, owner⟩
    have hit : attempt.id = attempt.id ∧ attempt.Of runID attempt.executionGeneration ∧
        attempt.status = .running := ⟨rfl, ⟨owner, rfl⟩, unclosed⟩
    rcases ite_ok.mp ran₄ with ⟨none, -⟩ | ⟨-, ran₅⟩
    · exact absurd hit (Table.affected_zero.mp none attempt member)
    · obtain ⟨_, db₅, bumped, ran₆⟩ := bind_ok.mp ran₅
      obtain ⟨-, rfl⟩ := (Place.update_ok _).mp bumped
      obtain ⟨-, rfl⟩ := pure_ok.mp ran₆
      refine ((Focus.put inView (fun row matched => matched.1) hit).trans
        (.runs_update fun run matched => matched.1)).step (.inr ?_)
      refine .abandoned inView unclosed rfl rfl ?_
      cases (db₁.view runID).run with
      | none => exact .inl rfl
      | some row =>
        by_cases running : row.id = runID ∧ row.status = .running
        · exact .inr ⟨row, row.version + 1, rfl, by simp [running]⟩
        · exact .inl (by simp [running])

end Finalizers

section Requests

theorem view_job_unique {row : AnalysisJob} (job_eq : (db.view runID).job = some job)
    (present : row ∈ db.jobs.rows) (owner : row.For .runDiagnosis runID) : row = job :=
  Option.some.inj ((view_job.mpr ⟨present, owner⟩).symm.trans job_eq)

theorem jobs_update_focus (job_eq : (db.view runID).job = some job) {p : AnalysisJob → Prop}
    [DecidablePred p] {keeps : Table.Keeps AnalysisJob.id AnalysisJob.resource f} {n : Nat}
    (own : ∀ row ∈ db.jobs.rows, p row → row.id = job.id)
    (updated : (Place.jobs.update p f keeps : Tx Nat) db = .ok (n, db')) (hit : n ≠ 0) :
    p job ∧ Focus runID (fun v => { v with job := some (f job) }) db db' := by
  obtain ⟨rfl, rfl⟩ := (Place.update_ok _).mp updated
  have matched := job_hit_of_affected job_eq own hit
  exact ⟨matched, .putJob job_eq own matched⟩

theorem runs_update_focus (run_eq : (db.view runID).run = some run) {p : DiagnosisRun → Prop}
    [DecidablePred p] {f : DiagnosisRun → DiagnosisRun}
    {keeps : Table.Keeps DiagnosisRun.id DiagnosisRun.idempotency f} {n : Nat}
    (own : ∀ row, p row → row.id = runID)
    (updated : (Place.runs.update p f keeps : Tx Nat) db = .ok (n, db')) (hit : p run) :
    Focus runID (fun v => { v with run := some (f run) }) db db' := by
  obtain ⟨-, rfl⟩ := (Place.update_ok _).mp updated
  exact .putRun run_eq own hit

theorem attempts_update_focus (member : attempt ∈ (db.view runID).attempts) [DecidablePred p]
    {f : DiagnosisAttempt → DiagnosisAttempt}
    {keeps : Table.Keeps DiagnosisAttempt.id DiagnosisAttempt.number f} {n : Nat}
    (own : ∀ row, p row → row.id = attempt.id)
    (updated : (Place.attempts.update p f keeps : Tx Nat) db = .ok (n, db')) (hit : p attempt) :
    Focus runID (fun v => { v with attempts := v.putAttempt (f attempt) }) db db' := by
  obtain ⟨-, rfl⟩ := (Place.update_ok _).mp updated
  exact .put member own hit

theorem cancellationOutcome_some {run : RunStatus} {job : JobStatus} {terminal : Bool}
    (accepted : cancellationOutcome run job = some terminal) :
    run.active = true ∧
      ((terminal = true ∧ (job = .pending ∨ job = .retryWait ∨ job = .cancelled)) ∨
        (terminal = false ∧ job = .running)) := by
  cases run <;> cases job <;> simp_all [cancellationOutcome, RunStatus.active]

theorem requestCancellation_ok {userID : String} {u : Unit}
    (ran : requestCancellation runID userID db = .ok (u, db')) :
    ∃ job run terminal, (db.view runID).job = some job ∧ (db.view runID).run = some run ∧
      cancellationOutcome run.status job.status = some terminal ∧
      Focus runID (fun v => { v with
        job := some { job with
          cancelRequested := true
          status := if terminal then .cancelled else job.status
          terminalReason := if terminal then some .cancelled else job.terminalReason }
        run := some { run with
          cancelRequested := true
          status := if terminal then .cancelled else run.status
          version := run.version + 1 } }) db db' := by
  obtain ⟨job, found_eq, ran₂⟩ := expect_bind_ok.mp ((Place.select_bind_ok _).mp ran)
  have job_eq : (db.view runID).job = some job := found_eq
  obtain ⟨run, foundRun_eq, ran₄⟩ := expect_bind_ok.mp ((Place.select_bind_ok _).mp ran₂)
  obtain ⟨member, sameRun, owner⟩ := Table.select_some foundRun_eq
  have run_eq : (db.view runID).run = some run := view_run.mpr ⟨member, sameRun⟩
  obtain ⟨-, ran₅⟩ := require_bind_ok.mp ran₄
  obtain ⟨terminal, accepted, ran₆⟩ := expect_bind_ok.mp ran₅
  obtain ⟨n, db₇, updated, ran₇⟩ := bind_ok.mp ran₆
  obtain ⟨one, ran₈⟩ := require_bind_ok.mp ran₇
  obtain ⟨-, first⟩ :=
    jobs_update_focus job_eq (fun row _ hit => hit.1) updated (by rw [one]; decide)
  have run_eq' : (db₇.view runID).run = some run := (congrArg RunView.run first.1).trans run_eq
  obtain ⟨m, db₉, updatedRun, ran₉⟩ := bind_ok.mp ran₈
  obtain ⟨-, rfl⟩ := require_ok.mp ran₉
  have second := runs_update_focus run_eq' (fun row hit => hit.1) updatedRun ⟨sameRun, owner, rfl⟩
  exact ⟨job, run, terminal, job_eq, run_eq, accepted, first.trans second⟩

theorem requestCancellation_view {userID : String} {u : Unit} (agrees : (db.view runID).Agrees)
    (strands : ∀ job, (db.view runID).job = some job → job.status ≠ .running →
      (db.view runID).Attempted job → rules.strands job)
    (ran : requestCancellation runID userID db = .ok (u, db')) : ViewStep rules db db' := by
  obtain ⟨job, run, terminal, job_eq, run_eq, accepted, focus⟩ := requestCancellation_ok ran
  refine focus.step (.inr ?_)
  obtain ⟨active, ⟨rfl, waiting⟩ | ⟨rfl, running⟩⟩ := cancellationOutcome_some accepted
  · have waiting : job.status = .pending ∨ job.status = .retryWait := by
      rcases waiting with pending | retrying | cancelled
      · exact .inl pending
      · exact .inr retrying
      · have fits := agrees.fits job_eq run_eq
        rw [cancelled] at fits
        rw [fits] at active
        cases active
    refine .cancelled job_eq waiting run_eq active (strands job job_eq fun running => ?_)
    rcases waiting with status | status <;> cases status.symm.trans running
  · exact .flagged job_eq running run_eq active

theorem retryDiagnosis_view {u : Unit}
    (requeues : ∀ run : DiagnosisRun, run.id = runID → rules.requeues run)
    (ran : retryDiagnosis runID now db = .ok (u, db')) : ViewStep rules db db' := by
  obtain ⟨job, found_eq, ran₂⟩ := expect_bind_ok.mp ((Place.select_bind_ok _).mp ran)
  obtain ⟨member, owner, failed⟩ := Table.select_some found_eq
  have job_eq : (db.view runID).job = some job := view_job.mpr ⟨member, owner⟩
  obtain ⟨-, ran₃⟩ := require_bind_ok.mp ran₂
  obtain ⟨n, db₄, updatedRun, ran₄⟩ := bind_ok.mp ran₃
  obtain ⟨one, ran₅⟩ := require_bind_ok.mp ran₄
  obtain ⟨run, runMember, sameRun, runFailed⟩ :=
    Table.exists_of_affected_one (((Place.update_ok _).mp updatedRun).1.symm.trans one)
  have run_eq : (db.view runID).run = some run := view_run.mpr ⟨runMember, sameRun⟩
  have first := runs_update_focus run_eq (fun row hit => hit.1) updatedRun ⟨sameRun, runFailed⟩
  have job_eq' : (db₄.view runID).job = some job := (congrArg RunView.job first.1).trans job_eq
  obtain ⟨m, db₆, updated, ran₆⟩ := bind_ok.mp ran₅
  obtain ⟨oneJob, rfl⟩ := require_ok.mp ran₆
  obtain ⟨-, second⟩ := jobs_update_focus job_eq'
    (fun row present hit => by rw [view_job_unique job_eq' present hit.1]) updated
    (by rw [oneJob]; decide)
  exact (first.trans second).step
    (.inr (.requeued job_eq failed run_eq runFailed (requeues run sameRun)))

theorem createDiagnosis_view {jobID : Nat} {u : Unit}
    (ran : createDiagnosis run jobID now db = .ok (u, db')) : ViewStep rules db db' := by
  obtain ⟨_, db₁, insertedRun, ran₁⟩ := bind_ok.mp ran
  obtain ⟨runs, inserted, rfl⟩ := (Place.insert_ok _).mp insertedRun
  obtain ⟨noRun, first⟩ := Focus.runs_insert inserted
  obtain ⟨jobs, insertedJob, rfl⟩ := (Place.insert_ok _).mp ran₁
  obtain ⟨noJob, second⟩ := Focus.jobs_insert insertedJob ⟨rfl, rfl⟩
  have noJob' : (db.view run.id).job = none := (congrArg RunView.job first.1).symm.trans noJob
  exact (first.trans second).step (.inr (.created noJob' noRun rfl rfl rfl))

end Requests

section Jobs

theorem markExecutionStarted_view {count : Nat}
    (ran : markExecutionStarted claim generation now db = .ok (count, db')) :
    ViewStep rules db db' := by
  obtain ⟨rfl, -⟩ := markExecutionStarted_ok ran
  exact .jobs_update fun runID job job_eq ⟨held, _, unstarted, _⟩ =>
    .began job_eq held.running unstarted

theorem returnUndispatchedClaim_view {u : Unit}
    (ran : returnUndispatchedClaim claim generation db = .ok (u, db')) :
    ViewStep rules db db' := by
  obtain ⟨-, rfl⟩ := (Place.update_require_ok _).mp ran
  refine .jobs_update fun runID job job_eq ⟨held, _, unstarted⟩ => ?_
  have step : RunStep rules runID (db.view runID) { db.view runID with
      job := some { job.unclaimed with
        nextRunAt := job.nextRunAt, executionStarted := false } } :=
    .released job_eq held.running unstarted
  simpa [AnalysisJob.unclaimed, unstarted] using step

theorem renewLease_view {leaseUntil : Time} {u : Unit}
    (ran : renewLease claim leaseUntil now db = .ok (u, db')) : ViewStep rules db db' := by
  obtain ⟨-, rfl⟩ := (Place.update_require_ok _).mp ran
  exact .jobs_update fun runID job job_eq ⟨held, _⟩ => .renewed job_eq held.running

theorem claimJobs_view {workerID : String} {batchSize leaseDuration : Nat}
    {pick : AnalysisJob → Bool} {tokens : Nat → String} {claimedJobs : List AnalysisJob}
    (ran : claimJobs workerID batchSize leaseDuration pick tokens now db = .ok (claimedJobs, db')) :
    ViewStep rules db db' := by
  obtain ⟨candidates, claimable, rfl, rfl⟩ := claimJobs_ok ran
  refine .jobs_update fun runID job job_eq hit => .claimed job_eq ?_
  obtain ⟨candidate, chosen, same⟩ := List.mem_map.mp hit
  obtain ⟨present, waiting⟩ := claimable candidate chosen
  rwa [← db.jobs.eq_of_key present (view_job.mp job_eq).1 same]

end Jobs

section Fallbacks

theorem highestAttempt_map {g : DiagnosisAttempt → DiagnosisAttempt}
    (number : ∀ row, (g row).attemptNo = row.attemptNo) (attempts : List DiagnosisAttempt) :
    highestAttempt (attempts.map g) = (highestAttempt attempts).map g := by
  induction attempts with
  | nil => rfl
  | cons attempt rest ih =>
    simp only [List.map_cons, highestAttempt, ih]
    cases highestAttempt rest with
    | none => rfl
    | some other =>
      simp only [Option.map_some, number]
      split <;> rfl

theorem latestOf_close {v : RunView} [DecidablePred p] {close : DiagnosisAttempt → DiagnosisAttempt}
    (marks : ∀ row : DiagnosisAttempt, row.SameMarks (close row)) :
    latestOf (v.closeAttempts p close) generation = latestOf v.attempts generation := by
  have same : ∀ row : DiagnosisAttempt,
      row.SameMarks (if p row ∧ row.status = .running then close row else row) := by
    intro row
    split
    · exact marks row
    · exact .refl row
  have kept : (fun row : DiagnosisAttempt =>
        decide ((if p row ∧ row.status = .running then close row else row).executionGeneration =
          generation)) =
      fun row => decide (row.executionGeneration = generation) := by
    funext row
    rw [(same row).executionGeneration]
  simp only [latestOf, RunView.closeAttempts, List.filter_map, Function.comp_def, kept]
  rw [highestAttempt_map fun row => (same row).attemptNo, Option.map_map]
  exact congrArg (fun f => Option.map f _) (funext fun row => (same row).id)

theorem view_latest {latest : Option String}
    (ran : latestAttemptID runID generation db = .ok (latest, db')) :
    db' = db ∧ latest = latestOf (db.view runID).attempts generation := by
  obtain ⟨attempts, db₁, selected, ran₁⟩ := bind_ok.mp ran
  obtain ⟨rfl, rfl⟩ := (Place.selectAll_ok _).mp selected
  obtain ⟨rfl, rfl⟩ := pure_ok.mp ran₁
  refine ⟨rfl, ?_⟩
  have rows : (Place.attempts.get db').selectAll (fun row => row.Of runID generation) =
      (db'.view runID).attempts.filter fun row => row.executionGeneration = generation := by
    simp only [Database.view, Table.selectAll, List.filter_filter, Place.attempts_get]
    refine List.filter_congr fun row _ => ?_
    simp [DiagnosisAttempt.Of, and_comm]
  rw [rows, latestOf]

theorem closeAttempts_focus {q : DiagnosisAttempt → Prop} [DecidablePred p] [DecidablePred q]
    {f : DiagnosisAttempt → DiagnosisAttempt}
    {keeps : Table.Keeps DiagnosisAttempt.id DiagnosisAttempt.number f} {n : Nat}
    (own : ∀ row, p row ↔ row.diagnosisRunID = runID ∧ q row ∧ row.status = .running)
    (updated : (Place.attempts.update p f keeps : Tx Nat) db = .ok (n, db')) :
    Focus runID (fun v => { v with attempts := v.closeAttempts q f }) db db' := by
  obtain ⟨-, rfl⟩ := (Place.update_ok _).mp updated
  have focus : Focus runID (RunView.mapAttempts p f) db
      (Place.attempts.set ((Place.attempts.get db).update p f keeps) db) :=
    .attempts_update fun row _ hit => ((own row).mp hit).1
  refine ⟨focus.1.trans ?_, focus.2⟩
  refine congrArg (fun attempts => { db.view runID with attempts })
    (List.map_congr_left fun row member => ?_)
  have owner := (view_attempt.mp member).2
  by_cases hit : q row ∧ row.status = .running
  · rw [if_pos hit, if_pos ((own row).mpr ⟨owner, hit⟩)]
  · rw [if_neg hit, if_neg fun matched => hit ((own row).mp matched).2]

theorem closeRunningAttempts_focus {status : AttemptStatus} {n : Nat}
    (ran : closeRunningAttempts runID generation status db = .ok (n, db')) :
    Focus runID (fun v => { v with
      attempts := v.closeAttempts (fun row => row.executionGeneration = generation)
        fun row => { row with status } }) db db' :=
  closeAttempts_focus (fun _ => and_assoc) ran

theorem cancelDiagnosisRunTx_focus {u : Unit} (run_eq : (db.view runID).run = some run)
    (active : run.status.active = true)
    (ran : cancelDiagnosisRunTx runID generation db = .ok (u, db')) :
    Focus runID (fun v => { v with
      run := some { run with
        status := .cancelled
        cancelRequested := true
        finalAttemptID := (latestOf v.attempts generation).or run.finalAttemptID
        version := run.version + 1 }
      attempts := v.closeAttempts (fun row => row.executionGeneration = generation)
        fun row => { row with status := .abandoned } }) db db' := by
  obtain ⟨_, db₁, closed, ran₁⟩ := bind_ok.mp ran
  have first := closeRunningAttempts_focus closed
  obtain ⟨latest, db₂, read, ran₂⟩ := bind_ok.mp ran₁
  obtain ⟨rfl, rfl⟩ := view_latest read
  have run_eq' : (db₂.view runID).run = some run := (congrArg RunView.run first.1).trans run_eq
  obtain ⟨member, same⟩ := view_run.mp run_eq'
  obtain ⟨n, db₃, updated, ran₃⟩ := bind_ok.mp ran₂
  have second := runs_update_focus run_eq' (fun row hit => hit.1) updated ⟨same, active⟩
  rcases ite_ok.mp ran₃ with ⟨none, -⟩ | ⟨-, done⟩
  · have zero := ((Place.update_ok _).mp updated).1.symm.trans none
    exact absurd ⟨same, active⟩ (Table.affected_zero.mp zero run member)
  · obtain ⟨-, rfl⟩ := pure_ok.mp done
    have latest : latestOf (db₂.view runID).attempts generation =
        latestOf (db.view runID).attempts generation := by
      rw [first.1]
      exact latestOf_close fun row => by
        constructor <;> first | rfl | exact fun completed => completed
    have both := first.trans second
    rw [latest] at both
    exact both

theorem loadOwnedRunningJobTx_ok {owned : AnalysisJob}
    (ran : loadOwnedRunningJobTx claim db = .ok (owned, db')) :
    db' = db ∧ owned ∈ db.jobs.rows ∧ owned.HeldBy claim ∧ owned.executionStarted = true :=
  Place.select_expect_ok ran

theorem conditionalFinalizeCancel_view {u : Unit} (agrees : ∀ runID, (db.view runID).Agrees)
    (ran : conditionalFinalizeCancel claim db = .ok (u, db')) : ViewStep rules db db' := by
  obtain ⟨owned, db₁, loaded, ran₁⟩ := bind_ok.mp ran
  obtain ⟨rfl, member, held, started⟩ := loadOwnedRunningJobTx_ok loaded
  obtain ⟨diagnosis, ran₂⟩ := require_bind_ok.mp ran₁
  obtain ⟨flagged, ran₃⟩ := require_bind_ok.mp ran₂
  have job_eq : (db₁.view owned.resourceID).job = some owned :=
    view_job.mpr ⟨member, diagnosis, rfl⟩
  obtain ⟨run, run_eq, active, -⟩ := (agrees owned.resourceID).activeRun job_eq
    (by rw [held.running]; rfl)
  obtain ⟨n, db₄, updated, ran₄⟩ := bind_ok.mp ran₃
  obtain ⟨hit, ran₅⟩ := require_bind_ok.mp ran₄
  obtain ⟨-, first⟩ := jobs_update_focus job_eq
    (fun row _ matched => matched.1.1.trans held.1.symm) updated hit
  have second := cancelDiagnosisRunTx_focus
    ((congrArg RunView.run first.1).trans run_eq) active ran₅
  refine (first.trans second).step (.inr ?_)
  exact .cancelledByJob job_eq held.running started flagged run_eq active
    (by constructor <;> rfl) rfl

theorem cancelInstead_view {owned : AnalysisJob} {u : Unit}
    (agrees : ∀ runID, (db.view runID).Agrees) (ran : cancelInstead claim owned db = .ok (u, db')) :
    ViewStep rules db db' := by
  obtain ⟨-, ran₁⟩ := require_bind_ok.mp ran
  exact conditionalFinalizeCancel_view agrees ran₁

theorem conditionalFinalizeSuccess_view {u : Unit} (agrees : ∀ runID, (db.view runID).Agrees)
    (other : ∀ job ∈ db.jobs.rows, job.HeldBy claim → job.jobType ≠ .runDiagnosis)
    (ran : conditionalFinalizeSuccess claim db = .ok (u, db')) : ViewStep rules db db' := by
  obtain ⟨owned, db₁, loaded, ran₁⟩ := bind_ok.mp ran
  obtain ⟨rfl, member, held, started⟩ := loadOwnedRunningJobTx_ok loaded
  rcases ite_ok.mp ran₁ with ⟨-, cancelled⟩ | ⟨unflagged, ran₂⟩
  · exact cancelInstead_view agrees cancelled
  · obtain ⟨n, db₂, updated, ran₃⟩ := bind_ok.mp ran₂
    obtain ⟨rfl, rfl⟩ := (Place.update_ok _).mp updated
    rcases ite_ok.mp ran₃ with ⟨none, -⟩ | ⟨-, done⟩
    · exact absurd ⟨held, started, by simpa using unflagged⟩
        (Table.affected_zero.mp none owned member)
    · obtain ⟨-, rfl⟩ := pure_ok.mp done
      exact SameViews.step (.jobs_update fun job present hit => other job present hit.1)

theorem failRunStatusTx_focus {u : Unit} (run_eq : (db.view runID).run = some run)
    (active : run.status.active = true) (ran : failRunStatusTx runID db = .ok (u, db')) :
    Focus runID (fun v => { v with
      run := some { run with status := .failed, version := run.version + 1 } }) db db' := by
  obtain ⟨member, same⟩ := view_run.mp run_eq
  obtain ⟨n, db₁, updated, ran₁⟩ := bind_ok.mp ran
  have focus := runs_update_focus run_eq (fun row hit => hit.1) updated ⟨same, active⟩
  rcases ite_ok.mp ran₁ with ⟨none, -⟩ | ⟨-, done⟩
  · have zero := ((Place.update_ok _).mp updated).1.symm.trans none
    exact absurd ⟨same, active⟩ (Table.affected_zero.mp zero run member)
  · obtain ⟨-, rfl⟩ := pure_ok.mp done
    exact focus

theorem failRunTx_focus {reaped : Bool} {u : Unit} (run_eq : (db.view runID).run = some run)
    (active : run.status.active = true)
    (ran : failRunTx runID generation reaped db = .ok (u, db')) :
    Focus runID (fun v => { v with
      run := some { run with
        status := .failed
        finalAttemptID := latestOf v.attempts generation
        version := run.version + 1 }
      attempts := v.closeAttempts (fun row => row.executionGeneration = generation)
        fun row => { row with
          status := if reaped then .abandoned else .failedTerminal } }) db db' := by
  obtain ⟨_, db₁, failed, ran₁⟩ := bind_ok.mp ran
  have first := failRunStatusTx_focus run_eq active failed
  obtain ⟨_, db₂, closed, ran₂⟩ := bind_ok.mp ran₁
  have second := first.trans (closeRunningAttempts_focus closed)
  obtain ⟨latest, db₃, read, ran₃⟩ := bind_ok.mp ran₂
  obtain ⟨rfl, rfl⟩ := view_latest read
  have run_eq' : (db₃.view runID).run =
      some { run with status := .failed, version := run.version + 1 } :=
    congrArg RunView.run second.1
  obtain ⟨n, db₄, updated, ran₄⟩ := bind_ok.mp ran₃
  obtain ⟨-, rfl⟩ := pure_ok.mp ran₄
  have third := runs_update_focus run_eq' (fun row hit => hit.1) updated
    ⟨(view_run.mp run_eq').2, rfl⟩
  have latest : latestOf (db₃.view runID).attempts generation =
      latestOf (db.view runID).attempts generation := by
    rw [second.1]
    exact latestOf_close fun row => by
      constructor <;> first | rfl | exact fun completed => completed
  have all := second.trans third
  rw [latest] at all
  exact all

theorem sameViews_update {Row κ ι : Type} {key : Row → κ} {index : Row → ι}
    {place : Place Database key index} (elsewhere : ∀ t db, SameViews db (place.set t db))
    {q : Row → Prop} [DecidablePred q] {g : Row → Row} {kept : Table.Keeps key index g} :
    Ensures SameViews (place.update q g kept : Tx Nat) :=
  Place.update_ensures fun db => elsewhere _ db

theorem failBusinessRowTx_sameViews {reaped : Bool} {code : String}
    (other : job.jobType ≠ .runDiagnosis) :
    Ensures SameViews (failBusinessRowTx job reaped code) := by
  unfold failBusinessRowTx
  cases type : job.jobType with
  | materializeSnapshot | buildCodeIndex | buildRetrieval =>
    exact .bind (sameViews_update fun _ _ _ => rfl) fun _ =>
      .ite (fun _ => .bind Place.select_ensures fun _ => .require _ _) fun _ => .pure _
  | runDiagnosis => exact absurd type other

theorem readRevisionResourceIdentityTx_sameViews (jobType : JobType) (resourceID : String) :
    Ensures SameViews (readRevisionResourceIdentityTx jobType resourceID) := by
  cases jobType with
  | materializeSnapshot | buildCodeIndex | buildRetrieval =>
    exact .bind Place.select_ensures fun _ => .bind (.expect _ _) fun _ => .pure _
  | runDiagnosis => exact .pure _

theorem failRevisionTx_sameViews (jobType : JobType) (resourceID code message : String)
    (stage : RevisionStage) (identity : RevisionResourceIdentity) :
    Ensures SameViews (failRevisionTx jobType resourceID code message stage identity) :=
  .bind Place.select_ensures fun _ => .bind (.expect _ _) fun _ =>
    .bind (.require _ _) fun _ => .bind (sameViews_update fun _ _ _ => rfl) fun _ =>
      .ite (fun _ => .pure _) fun _ =>
        .bind Place.select_ensures fun _ => .bind (.expect _ _) fun _ => .require _ _

theorem failAnalysisRevisionTx_sameViews (jobType : JobType) (resourceID code message : String) :
    Ensures SameViews (failAnalysisRevisionTx jobType resourceID code message) := by
  unfold failAnalysisRevisionTx
  cases jobType.stage with
  | none => exact .pure _
  | some stage =>
    exact .bind (readRevisionResourceIdentityTx_sameViews jobType resourceID) fun identity =>
      .ite (fun _ => .pure _) fun _ =>
        failRevisionTx_sameViews jobType resourceID code message stage identity

theorem failBusinessTx_focus {reaped : Bool} {code message : String} {u : Unit}
    (member : job ∈ db.jobs.rows) (same : job.executionGeneration = generation)
    (ran : failBusinessTx job.id reaped code message db = .ok (u, db')) :
    (job.jobType ≠ .runDiagnosis → SameViews db db') ∧
      (job.jobType = .runDiagnosis → ∀ run, (db.view job.resourceID).run = some run →
        run.status.active = true →
        Focus job.resourceID (fun v => { v with
          run := some { run with
            status := .failed
            finalAttemptID := latestOf v.attempts generation
            version := run.version + 1 }
          attempts := v.closeAttempts (fun row => row.executionGeneration = generation)
            fun row => { row with
              status := if reaped then .abandoned else .failedTerminal } }) db db') := by
  obtain ⟨read, db₁, loaded, ran₁⟩ := bind_ok.mp ran
  obtain ⟨rfl, readMember, sameID⟩ := Place.select_expect_ok loaded
  cases db₁.jobs.eq_of_key readMember member sameID
  subst same
  obtain ⟨_, db₃, failed, ran₃⟩ := bind_ok.mp ran₁
  have revision := failAnalysisRevisionTx_sameViews _ _ _ _ _ _ _ ran₃
  constructor
  · intro other
    exact IsTrans.trans _ _ _ (failBusinessRowTx_sameViews other _ _ _ failed) revision
  · intro diagnosis run run_eq active
    rw [failBusinessRowTx, diagnosis] at failed
    exact (failRunTx_focus run_eq active failed).then_same revision

theorem jobs_update_sameViews {p : AnalysisJob → Prop} [DecidablePred p]
    {keeps : Table.Keeps AnalysisJob.id AnalysisJob.resource f} {n : Nat}
    (updated : (Place.jobs.update p f keeps : Tx Nat) db = .ok (n, db'))
    (other : ∀ job ∈ db.jobs.rows, p job → job.jobType ≠ .runDiagnosis) : SameViews db db' := by
  obtain ⟨-, rfl⟩ := (Place.update_ok _).mp updated
  exact .jobs_update other

theorem jobs_update_mem {p : AnalysisJob → Prop} [DecidablePred p]
    {keeps : Table.Keeps AnalysisJob.id AnalysisJob.resource f} {n : Nat}
    (updated : (Place.jobs.update p f keeps : Tx Nat) db = .ok (n, db'))
    (member : job ∈ db.jobs.rows) (hit : p job) : f job ∈ db'.jobs.rows := by
  obtain ⟨-, rfl⟩ := (Place.update_ok _).mp updated
  change f job ∈ (db.jobs.update p f keeps).rows
  exact Table.mem_update.mpr ⟨job, member, if_pos hit⟩

def AnalysisJob.StartedDiagnosis (job : AnalysisJob) : Prop :=
  job.jobType = .runDiagnosis ∧ job.executionStarted = true ∧ job.cancelRequested = false

instance (job : AnalysisJob) : Decidable job.StartedDiagnosis :=
  inferInstanceAs (Decidable (_ ∧ _))

theorem conditionalFinalizeFailure_view {failure : Failure} {u : Unit}
    (agrees : ∀ runID, (db.view runID).Agrees)
    (retryable : failure.isTerminal = false → ∀ job ∈ db.jobs.rows, job.HeldBy claim →
      job.jobType = .runDiagnosis → job.cancelRequested = false →
      (db.view job.resourceID).Resolved job ∨ rules.excused job)
    (aborts : failure.isTerminal = true → ∀ job ∈ db.jobs.rows, job.HeldBy claim →
      job.StartedDiagnosis → ∀ run ∈ db.runs.rows, run.id = job.resourceID → run.status = .queued →
      rules.aborts run)
    (strands : failure.isTerminal = false → ∀ job ∈ db.jobs.rows, job.HeldBy claim →
      job.StartedDiagnosis → (db.view job.resourceID).Unclosed job → rules.strands job)
    (ran : conditionalFinalizeFailure claim failure db = .ok (u, db')) :
    ViewStep rules db db' := by
  obtain ⟨owned, db₁, loaded, ran₁⟩ := bind_ok.mp ran
  obtain ⟨rfl, member, held, started⟩ := loadOwnedRunningJobTx_ok loaded
  rcases ite_ok.mp ran₁ with ⟨-, cancelled⟩ | ⟨uncancelled, ran₂⟩
  · exact conditionalFinalizeCancel_view agrees cancelled
  have unflagged : owned.jobType = .runDiagnosis → owned.cancelRequested = false := by
    intro diagnosis
    simpa [diagnosis] using uncancelled
  obtain ⟨n, db₂, updated, ran₃⟩ := bind_ok.mp ran₂
  have own : ∀ row ∈ db₁.jobs.rows, (row.HeldBy claim ∧ row.executionStarted = true ∧
      (owned.jobType = .runDiagnosis → row.cancelRequested = false)) → row.id = owned.id :=
    fun row _ hit => hit.1.1.trans held.1.symm
  rcases ite_ok.mp ran₃ with ⟨none, -⟩ | ⟨hit, ran₄⟩
  · have zero := ((Place.update_ok _).mp updated).1.symm.trans none
    exact absurd ⟨held, started, unflagged⟩ (Table.affected_zero.mp zero owned member)
  by_cases diagnosis : owned.jobType = .runDiagnosis
  · have job_eq : (db₁.view owned.resourceID).job = some owned :=
      view_job.mpr ⟨member, diagnosis, rfl⟩
    obtain ⟨run, run_eq, active, -⟩ := (agrees owned.resourceID).activeRun job_eq
      (by rw [held.running]; rfl)
    obtain ⟨-, first⟩ := jobs_update_focus job_eq own updated hit
    rcases ite_ok.mp ran₄ with ⟨terminal, failed⟩ | ⟨nonterminal, done⟩
    · have failedRow : (db₂.view owned.resourceID).job = some (owned.afterFailure failure) :=
        congrArg RunView.job first.1
      have same : (owned.afterFailure failure).executionGeneration = owned.executionGeneration :=
        rfl
      have second := (failBusinessTx_focus (view_job.mp failedRow).1 same (held.1 ▸ failed)).2
        diagnosis run ((congrArg RunView.run first.1).trans run_eq) active
      refine (first.trans second).step (.inr ?_)
      exact .failedByJob job_eq held.running started (unflagged diagnosis) run_eq active
        (.inl rfl) (by constructor <;> rfl) (if_pos terminal)
        (aborts terminal owned member held ⟨diagnosis, started, unflagged diagnosis⟩ run
          (view_run.mp run_eq).1 (view_run.mp run_eq).2)
    · obtain ⟨-, rfl⟩ := pure_ok.mp done
      have nonterminal : failure.isTerminal = false := by simpa using nonterminal
      refine first.step (.inr ?_)
      exact .retried job_eq held.running started (unflagged diagnosis)
        (retryable nonterminal owned member held diagnosis (unflagged diagnosis))
        (by constructor <;> rfl) (if_neg (by simp [nonterminal]))
        (strands nonterminal owned member held ⟨diagnosis, started, unflagged diagnosis⟩)
  · have first : SameViews db₁ db₂ := jobs_update_sameViews updated fun row present matched => by
      rwa [db₁.jobs.eq_of_key present member (own row present matched)]
    rcases ite_ok.mp ran₄ with ⟨-, failed⟩ | ⟨-, done⟩
    · have failedRow := jobs_update_mem updated member ⟨held, started, unflagged⟩
      exact SameViews.step (IsTrans.trans _ _ _ first
        ((failBusinessTx_focus failedRow rfl (held.1 ▸ failed)).1 diagnosis))
    · obtain ⟨-, rfl⟩ := pure_ok.mp done
      exact SameViews.step first

end Fallbacks

section Reaping

theorem view_current {current : Option DiagnosisAttempt}
    (ran : (Place.attempts.select fun attempt => job.Executing attempt : Tx _) db =
      .ok (current, db')) :
    db' = db ∧ current = currentOf (db.view job.resourceID).attempts job := by
  obtain ⟨rfl, rfl⟩ := (Place.select_ok _).mp ran
  refine ⟨rfl, ?_⟩
  simp only [currentOf, Database.view, Table.selectAll, Table.select, List.find?_filter,
    Place.attempts_get]
  congr 1
  funext row
  rw [Bool.eq_iff_iff, decide_eq_true_iff, decide_eq_true_iff, decide_eq_true_iff,
    decide_eq_true_iff]
  exact ⟨fun hit => ⟨hit.1.1, hit.1.2, hit.2⟩, fun hit => ⟨⟨hit.1, hit.2.1⟩, hit.2.2⟩⟩

theorem currentOf_close {v : RunView} [DecidablePred p]
    {close : DiagnosisAttempt → DiagnosisAttempt}
    (marks : ∀ row : DiagnosisAttempt, row.SameMarks (close row)) :
    (currentOf (v.closeAttempts p close) job).map DiagnosisAttempt.id =
      (currentOf v.attempts job).map DiagnosisAttempt.id := by
  have same : ∀ row : DiagnosisAttempt,
      row.SameMarks (if p row ∧ row.status = .running then close row else row) := by
    intro row
    split
    · exact marks row
    · exact .refl row
  have kept : (fun row : DiagnosisAttempt =>
        decide (RunView.Current job (if p row ∧ row.status = .running then close row else row))) =
      fun row => decide (RunView.Current job row) := by
    funext row
    rw [decide_eq_decide, RunView.Current, RunView.Current, (same row).executionGeneration,
      (same row).attemptNo]
  simp only [currentOf, RunView.closeAttempts, List.find?_map, Function.comp_def, kept,
    Option.map_map]
  exact congrArg (fun f => Option.map f _) (funext fun row => (same row).id)

theorem cancelExpiredDiagnosisTx_view {expired : AnalysisJob} {u : Unit}
    (agrees : ∀ runID, (db.view runID).Agrees) (member : expired ∈ db.jobs.rows)
    (diagnosis : expired.jobType = .runDiagnosis)
    (strands : (db.view expired.resourceID).Skipped expired → rules.strands expired)
    (ran : cancelExpiredDiagnosisTx expired now db = .ok (u, db')) :
    StepOf rules expired db db' := by
  have job_eq : (db.view expired.resourceID).job = some expired :=
    view_job.mpr ⟨member, diagnosis, rfl⟩
  obtain ⟨n, db₁, updated, ran₁⟩ := bind_ok.mp ran
  obtain ⟨one, ran₂⟩ := require_bind_ok.mp ran₁
  obtain ⟨⟨-, running, flagged, -⟩, first⟩ := jobs_update_focus job_eq (fun row _ hit => hit.1)
    updated (by rw [one]; decide)
  obtain ⟨run, run_eq, active, -⟩ := (agrees expired.resourceID).activeRun job_eq
    (by rw [running]; rfl)
  obtain ⟨_, db₃, closed, ran₃⟩ := bind_ok.mp ran₂
  have second := first.trans (closeAttempts_focus
    (q := RunView.Current expired) (fun row => by
      simp only [AnalysisJob.Executing, DiagnosisAttempt.Of, RunView.Current, and_assoc]) closed)
  obtain ⟨current, db₄, read, ran₄⟩ := bind_ok.mp ran₃
  obtain ⟨rfl, rfl⟩ := view_current read
  have run_eq' : (db₄.view expired.resourceID).run = some run :=
    (congrArg RunView.run second.1).trans run_eq
  obtain ⟨runMember, same⟩ := view_run.mp run_eq'
  obtain ⟨m, db₅, updatedRun, ran₅⟩ := bind_ok.mp ran₄
  have third := runs_update_focus run_eq' (fun row hit => hit.1) updatedRun ⟨same, active⟩
  rcases ite_ok.mp ran₅ with ⟨none, -⟩ | ⟨-, done⟩
  · have zero := ((Place.update_ok _).mp updatedRun).1.symm.trans none
    exact absurd ⟨same, active⟩ (Table.affected_zero.mp zero run runMember)
  obtain ⟨-, rfl⟩ := pure_ok.mp done
  have latest : (currentOf (db₄.view expired.resourceID).attempts expired).map
        DiagnosisAttempt.id =
      (currentOf (db.view expired.resourceID).attempts expired).map DiagnosisAttempt.id := by
    rw [second.1]
    exact currentOf_close fun row => by
      constructor <;> first | rfl | exact fun completed => completed
  have all := second.trans third
  rw [latest] at all
  refine all.stepOf diagnosis ?_
  exact .reapedCancelled job_eq running flagged run_eq active (by constructor <;> rfl) rfl strands

theorem failExpiredDiagnosisOutcomeUnknownTx_view {expired : AnalysisJob}
    {marked : DiagnosisAttempt} {u : Unit} (member : expired ∈ db.jobs.rows)
    (diagnosis : expired.jobType = .runDiagnosis) (unflagged : expired.cancelRequested = false)
    (read : marked ∈ db.attempts.rows) (unknown : expired.MarkedUnknown marked)
    (revives : marked.status = .abandoned → rules.revives marked)
    (ran : failExpiredDiagnosisOutcomeUnknownTx expired marked db = .ok (u, db')) :
    StepOf rules expired db db' := by
  have job_eq : (db.view expired.resourceID).job = some expired :=
    view_job.mpr ⟨member, diagnosis, rfl⟩
  obtain ⟨⟨⟨owner, generation⟩, number⟩, unclosed, -⟩ := id unknown
  have inView : marked ∈ (db.view expired.resourceID).attempts := view_attempt.mpr ⟨read, owner⟩
  obtain ⟨_, db₁, updatedAttempt, ran₁⟩ := bind_ok.mp ran
  obtain ⟨-, ran₂⟩ := require_bind_ok.mp ran₁
  have first := attempts_update_focus inView (fun row hit => hit.1) updatedAttempt ⟨rfl, unknown⟩
  obtain ⟨n, db₃, updatedRun, ran₃⟩ := bind_ok.mp ran₂
  obtain ⟨oneRun, ran₄⟩ := require_bind_ok.mp ran₃
  obtain ⟨run, runMember, sameRun, running, runUnflagged⟩ :=
    Table.exists_of_affected_one (((Place.update_ok _).mp updatedRun).1.symm.trans oneRun)
  have run_eq' : (db₁.view expired.resourceID).run = some run :=
    view_run.mpr ⟨runMember, sameRun⟩
  have run_eq : (db.view expired.resourceID).run = some run :=
    (congrArg RunView.run first.1).symm.trans run_eq'
  have second := first.trans (runs_update_focus run_eq' (fun row hit => hit.1) updatedRun
    ⟨sameRun, running, runUnflagged⟩)
  obtain ⟨m, db₅, updated, ran₅⟩ := bind_ok.mp ran₄
  obtain ⟨oneJob, rfl⟩ := require_ok.mp ran₅
  obtain ⟨⟨-, jobRunning, started⟩, third⟩ := jobs_update_focus
    ((congrArg RunView.job second.1).trans job_eq) (fun row _ hit => hit.1) updated
    (by rw [oneJob]; decide)
  refine (second.trans third).stepOf diagnosis ?_
  exact .reapedUnknown job_eq jobRunning started unflagged run_eq running inView
    ⟨generation, number⟩ unclosed rfl rfl (by constructor <;> rfl) rfl revives

theorem requeueNeverStartedTx_view {expired : AnalysisJob} {u : Unit}
    (member : expired ∈ db.jobs.rows) (ran : requeueNeverStartedTx expired now db = .ok (u, db')) :
    StepOf rules expired db db' := by
  obtain ⟨n, db₁, updated, ran₁⟩ := bind_ok.mp ran
  obtain ⟨one, rfl⟩ := require_ok.mp ran₁
  by_cases diagnosis : expired.jobType = .runDiagnosis
  · have job_eq : (db.view expired.resourceID).job = some expired :=
      view_job.mpr ⟨member, diagnosis, rfl⟩
    obtain ⟨⟨-, running, unstarted⟩, focus⟩ := jobs_update_focus job_eq (fun row _ hit => hit.1)
      updated (by rw [one]; decide)
    exact focus.stepOf diagnosis (.released job_eq running unstarted)
  · refine SameViews.stepOf (jobs_update_sameViews updated fun row present hit => ?_)
    rwa [db.jobs.eq_of_key present member hit.1]

theorem scheduleReapedRetryTx_view {expired : AnalysisJob} {nextRun : Time} {u : Unit}
    (member : expired ∈ db.jobs.rows) (running : expired.status = .running)
    (started : expired.executionStarted = true)
    (unflagged : expired.jobType = .runDiagnosis → expired.cancelRequested = false)
    (known : expired.jobType = .runDiagnosis →
      ∀ row ∈ db.attempts.rows, ¬expired.MarkedUnknown row)
    (ran : scheduleReapedRetryTx expired nextRun db = .ok (u, db')) :
    StepOf rules expired db db' := by
  obtain ⟨n, db₁, updated, ran₁⟩ := bind_ok.mp ran
  obtain ⟨one, ran₂⟩ := require_bind_ok.mp ran₁
  rcases ite_ok.mp ran₂ with ⟨diagnosis, ran₃⟩ | ⟨other, done⟩
  · have job_eq : (db.view expired.resourceID).job = some expired :=
      view_job.mpr ⟨member, diagnosis, rfl⟩
    obtain ⟨-, first⟩ := jobs_update_focus job_eq (fun row _ hit => hit) updated
      (by rw [one]; decide)
    obtain ⟨m, db₃, closed, ran₄⟩ := bind_ok.mp ran₃
    obtain ⟨-, rfl⟩ := pure_ok.mp ran₄
    have second := first.trans (closeAttempts_focus (q := RunView.Current expired) (fun row => by
      simp only [AnalysisJob.Executing, DiagnosisAttempt.Of, RunView.Current, and_assoc]) closed)
    refine second.stepOf diagnosis ?_
    refine .reapedRetry job_eq running started (unflagged diagnosis)
      (fun row inView current unclosed => ?_) (fun _ => rfl) (fun _ => rfl)
      (by constructor <;> rfl) rfl
    obtain ⟨present, owner⟩ := view_attempt.mp inView
    have unmarked := known diagnosis row present
    rw [Bool.eq_false_iff]
    exact fun unresolved => unmarked ⟨⟨⟨owner, current.1⟩, current.2⟩, unclosed,
      by simp [DiagnosisAttempt.outcomeUnknown, unresolved]⟩
  · obtain ⟨-, rfl⟩ := pure_ok.mp done
    refine SameViews.stepOf (jobs_update_sameViews updated fun row present hit => ?_)
    rwa [db.jobs.eq_of_key present member hit]

theorem failReapedTx_view {expired : AnalysisJob} {u : Unit}
    (agrees : ∀ runID, (db.view runID).Agrees) (member : expired ∈ db.jobs.rows)
    (running : expired.status = .running) (started : expired.executionStarted = true)
    (unflagged : expired.jobType = .runDiagnosis → expired.cancelRequested = false)
    (aborts : expired.StartedDiagnosis → ∀ run ∈ db.runs.rows, run.id = expired.resourceID →
      run.status = .queued → rules.aborts run)
    (ran : failReapedTx expired db = .ok (u, db')) : StepOf rules expired db db' := by
  obtain ⟨_, db₁, failed, ran₁⟩ := bind_ok.mp ran
  obtain ⟨other, own⟩ := failBusinessTx_focus member rfl failed
  have jobs : db₁.jobs = db.jobs := failBusinessTx_sameJobs _ _ _ _ _ _ _ failed
  have kept : expired ∈ db₁.jobs.rows := jobs ▸ member
  obtain ⟨n, db₂, updated, ran₂⟩ := bind_ok.mp ran₁
  obtain ⟨-, rfl⟩ := pure_ok.mp ran₂
  by_cases diagnosis : expired.jobType = .runDiagnosis
  · have job_eq : (db.view expired.resourceID).job = some expired :=
      view_job.mpr ⟨member, diagnosis, rfl⟩
    obtain ⟨run, run_eq, active, -⟩ := (agrees expired.resourceID).activeRun job_eq
      (by rw [running]; rfl)
    have first := own diagnosis run run_eq active
    have hit : n ≠ 0 := by
      rw [((Place.update_ok _).mp updated).1]
      exact Table.affected_ne_zero.mpr ⟨expired, kept, rfl⟩
    obtain ⟨-, second⟩ := jobs_update_focus ((congrArg RunView.job first.1).trans job_eq)
      (fun row _ hit => hit) updated hit
    refine (first.trans second).stepOf diagnosis ?_
    exact .failedByJob job_eq running started (unflagged diagnosis) run_eq active (.inr rfl)
      (by constructor <;> rfl) rfl
      (aborts ⟨diagnosis, started, unflagged diagnosis⟩ run (view_run.mp run_eq).1
        (view_run.mp run_eq).2)
  · have second := jobs_update_sameViews updated fun row present hit => by
      rwa [db₁.jobs.eq_of_key present kept hit]
    exact SameViews.stepOf (IsTrans.trans _ _ _ (other diagnosis) second)

structure AnalysisJob.Reapable (rules : RunRules) (db : Database) (job : AnalysisJob) :
    Prop where
  aborts : job.StartedDiagnosis → job.maxAttempts ≤ job.attemptCount →
    ∀ run ∈ db.runs.rows, run.id = job.resourceID → run.status = .queued → rules.aborts run
  revives : job.StartedDiagnosis → ∀ attempt ∈ db.attempts.rows, job.MarkedUnknown attempt →
    attempt.status = .abandoned → rules.revives attempt
  strands : job.jobType = .runDiagnosis → job.cancelRequested = true →
    (db.view job.resourceID).Skipped job → rules.strands job

theorem AnalysisJob.Reapable.of_view (same : db'.view job.resourceID = db.view job.resourceID)
    (reapable : job.Reapable rules db) :
    job.Reapable rules db' := by
  constructor
  · intro started exhausted run member owner
    have run_eq : (db.view job.resourceID).run = some run :=
      (congrArg RunView.run same).symm.trans (view_run.mpr ⟨member, owner⟩)
    exact reapable.aborts started exhausted run (view_run.mp run_eq).1 owner
  · intro started attempt member unknown
    have inView : attempt ∈ (db.view job.resourceID).attempts := by
      rw [← same]
      exact view_attempt.mpr ⟨member, unknown.1.1.1⟩
    exact reapable.revives started attempt (view_attempt.mp inView).1 unknown
  · rw [same]
    exact reapable.strands

theorem reapExpiredJobTx_view {expired : AnalysisJob} {jitter : Nat} {u : Unit}
    (agrees : ∀ runID, (db.view runID).Agrees) (member : expired ∈ db.jobs.rows)
    (running : expired.status = .running) (reapable : expired.Reapable rules db)
    (ran : reapExpiredJobTx expired jitter now db = .ok (u, db')) :
    StepOf rules expired db db' := by
  have startedView : expired.executionStarted = true →
      (expired.jobType = .runDiagnosis → expired.cancelRequested = false) →
      (expired.jobType = .runDiagnosis →
        ∀ row ∈ db.attempts.rows, ¬expired.MarkedUnknown row) →
      reapStartedTx expired jitter now db = .ok (u, db') → StepOf rules expired db db' := by
    intro started unflagged known reaped
    rcases ite_ok.mp reaped with ⟨-, retried⟩ | ⟨exhausted, failed⟩
    · exact scheduleReapedRetryTx_view member running started unflagged known retried
    · exact failReapedTx_view agrees member running started unflagged
        (fun diagnosis => reapable.aborts diagnosis (Nat.le_of_not_lt exhausted)) failed
  rcases ite_ok.mp ran with ⟨⟨diagnosis, flagged⟩, cancelled⟩ | ⟨uncancelled, ran₁⟩
  · exact cancelExpiredDiagnosisTx_view agrees member diagnosis
      (reapable.strands diagnosis flagged) cancelled
  have unflagged : expired.jobType = .runDiagnosis → expired.cancelRequested = false := by
    intro diagnosis
    simpa [diagnosis] using uncancelled
  rcases ite_ok.mp ran₁ with ⟨-, requeued⟩ | ⟨started, ran₂⟩
  · exact requeueNeverStartedTx_view member requeued
  have started : expired.executionStarted = true := by simpa using started
  rcases ite_ok.mp ran₂ with ⟨diagnosis, ran₃⟩ | ⟨other, reaped⟩
  · obtain ⟨found, db₁, selected, ran₄⟩ := bind_ok.mp ran₃
    obtain ⟨present, rfl⟩ := (Place.select_ok _).mp selected
    cases found with
    | some marked =>
      obtain ⟨read, unknown⟩ := Table.select_some present.symm
      exact failExpiredDiagnosisOutcomeUnknownTx_view member diagnosis (unflagged diagnosis)
        read unknown (reapable.revives ⟨diagnosis, started, unflagged diagnosis⟩ marked read
          unknown) ran₄
    | none =>
      exact startedView started unflagged (fun _ => Table.select_eq_none.mp present.symm) ran₄
  · exact startedView started unflagged (fun diagnosis => absurd diagnosis other) reaped

end Reaping

section Pipeline

def Database.NoDiagnosis (db : Database) (claim : Claim) : Prop :=
  ∀ job ∈ db.jobs.rows, job.HeldBy claim → job.jobType ≠ .runDiagnosis

def StageStep (claim : Claim) (db db' : Database) : Prop :=
  db.NoDiagnosis claim → SameViews db db' ∧ db'.NoDiagnosis claim

variable {claim : Claim}

instance : Std.Refl (StageStep claim) := ⟨fun _ other => ⟨fun _ => rfl, other⟩⟩

instance : IsTrans Database (StageStep claim) :=
  ⟨fun _ _ _ first second other =>
    have ⟨views, middle⟩ := first other
    have ⟨views', after⟩ := second middle
    ⟨IsTrans.trans _ _ _ views views', after⟩⟩

theorem SameDiagnoses.sameViews (same : SameDiagnoses db db') : SameViews db db' := by
  obtain ⟨jobs, runs, attempts, reports⟩ := same
  intro runID
  rw [Database.view, jobs, runs, attempts, reports]
  rfl

theorem SameDiagnoses.stageStep (same : SameDiagnoses db db') : StageStep claim db db' := by
  refine fun other => ⟨same.sameViews, ?_⟩
  rw [Database.NoDiagnosis, same.1]
  exact other

theorem newJob_stageStep (id : Nat) (jobType : JobType) (resourceID : String)
    (generation : Nat) (now : Time) (other : jobType ≠ .runDiagnosis) :
    Ensures (StageStep claim)
      (Place.jobs.insert (newJob id jobType resourceID generation 3 now) errDuplicate) := by
  refine Place.insert_ensures fun db table inserted held =>
    ⟨.jobs_insert inserted other, fun job member holds => ?_⟩
  change job ∈ table.rows at member
  rw [(Table.insert_some inserted).1, List.mem_append, List.mem_singleton] at member
  rcases member with member | rfl
  · exact held job member holds
  · cases holds.running

theorem jobs_update_stageStep {p : AnalysisJob → Prop} [DecidablePred p]
    {keeps : Table.Keeps AnalysisJob.id AnalysisJob.resource f}
    (other : ∀ job, p job → job.HeldBy claim ∨ job.jobType ≠ .runDiagnosis)
    (idle : ∀ job, (f job).status ≠ .running) :
    Ensures (StageStep claim) (Place.jobs.update p f keeps : Tx Nat) := by
  refine Place.update_ensures fun db held => ⟨.jobs_update fun job member hit => ?_, ?_⟩
  · exact (other job hit).elim (held job member) id
  · intro job member holds
    change job ∈ (db.jobs.update p f keeps).rows at member
    obtain ⟨row, present, rfl⟩ := Table.mem_update.mp member
    by_cases hit : p row
    · rw [if_pos hit] at holds
      exact absurd holds.running (idle row)
    · rw [if_neg hit] at holds ⊢
      exact held row present holds

theorem StageCall.tx_stageStep (outside : Outside) (call : StageCall) :
    Ensures (StageStep claim) (call.tx claim outside) :=
  StageCall.tx_ensures (fun _ _ => SameDiagnoses.stageStep) newJob_stageStep
    (.bind (jobs_update_stageStep (fun _ owned => .inl owned.1) fun _ => JobStatus.noConfusion)
      fun _ => .require _ _) outside call

theorem newJob_sameViews (id : Nat) (jobType : JobType) (resourceID : String)
    (generation : Nat) (now : Time) (other : jobType ≠ .runDiagnosis) :
    Ensures SameViews
      (Place.jobs.insert (newJob id jobType resourceID generation 3 now) errDuplicate) :=
  Place.insert_ensures fun _ _ inserted => .jobs_insert inserted other

theorem resetJobs_sameViews (jobType : JobType) (resourceID : String) (generation : Nat)
    (now : Time) (other : jobType ≠ .runDiagnosis) :
    Ensures SameViews (Place.jobs.update (fun job => job.For jobType resourceID)
      (fun job => job.requeued generation now) fun _ => ⟨rfl, rfl⟩ : Tx Nat) :=
  Place.update_ensures fun _ => .jobs_update fun _ _ owner diagnosis =>
    other (owner.1.symm.trans diagnosis)

theorem manualRequeue_sameViews {jobType : JobType} (other : jobType ≠ .runDiagnosis)
    (resourceID : String) (now : Time) :
    Ensures SameViews (manualRequeue jobType resourceID now) :=
  .bind (restoreBusinessTx_ensures (fun _ _ => SameDiagnoses.sameViews) other resourceID) fun _ =>
    .bind (.require _ _) fun _ =>
      .bind (Place.update_ensures fun _ => .jobs_update fun _ _ hit diagnosis =>
        other (hit.1.1.symm.trans diagnosis)) fun _ => .require _ _

end Pipeline

end RepoLens
