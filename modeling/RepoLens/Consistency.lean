import RepoLens.Soundness

/-!
A diagnosis run and its job never disagree, whatever the interleaving.
-/

namespace RepoLens

open Relational Transaction Interleaving

variable {handlers : Handlers} {s : SystemState}

theorem Reachable.sound (reachable : Reachable handlers s) : s.world.db.Sound :=
  reachable.holds.inv.sound

theorem Reachable.diagnosis (reachable : Reachable handlers s) {run : DiagnosisRun}
    (member : run ∈ s.world.db.runs.rows) :
    ∃ job ∈ s.world.db.jobs.rows, job.For .runDiagnosis run.id ∧
      (s.world.db.view run.id).job = some job ∧ (s.world.db.view run.id).run = some run := by
  have run_eq : (s.world.db.view run.id).run = some run := view_run.mpr ⟨member, rfl⟩
  obtain ⟨job, job_eq⟩ := (reachable.sound run.id).agrees.job run_eq
  obtain ⟨present, owns⟩ := view_job.mp job_eq
  exact ⟨job, present, owns, job_eq, run_eq⟩

theorem RunStatus.Fits.iff {run : RunStatus} {job : JobStatus} (fits : run.Fits job) :
    ((run = .succeeded ↔ job = .succeeded) ∧ (run = .failed ↔ job = .failed) ∧
        (run = .cancelled ↔ job = .cancelled)) ∧
      ((run = .queued ∨ run = .running) ↔
        (job = .pending ∨ job = .running ∨ job = .retryWait)) := by
  cases job <;> cases run <;> first | (cases fits; done) | simp

theorem Reachable.report_run (reachable : Reachable handlers s) {report : Report}
    {attempt : DiagnosisAttempt} (member : report ∈ s.world.db.reports.rows)
    (present : attempt ∈ s.world.db.attempts.rows) (own : report.attemptID = attempt.id) :
    report.diagnosisRunID = attempt.diagnosisRunID := by
  obtain ⟨owner, there, same, -⟩ := (reachable.sound report.diagnosisRunID).reported.owned report
    (view_report.mpr ⟨member, rfl⟩)
  obtain ⟨ownerMember, ownerRun⟩ := view_attempt.mp there
  rw [← ownerRun, s.world.db.attempts.eq_of_key ownerMember present (same.trans own)]

/-- Run and job never disagree. -/
theorem Reachable.run_agrees_with_job (reachable : Reachable handlers s) {run : DiagnosisRun}
    (member : run ∈ s.world.db.runs.rows) :
    ∃ job ∈ s.world.db.jobs.rows, job.For .runDiagnosis run.id ∧
      ((run.status = .succeeded ↔ job.status = .succeeded) ∧
        (run.status = .failed ↔ job.status = .failed) ∧
        (run.status = .cancelled ↔ job.status = .cancelled)) ∧
      ((run.status = .queued ∨ run.status = .running) ↔
        (job.status = .pending ∨ job.status = .running ∨ job.status = .retryWait)) ∧
      (run.status = .queued ∨ run.status = .running →
        run.cancelRequested = job.cancelRequested) ∧
      (run.status = .succeeded → ∃ attempt ∈ s.world.db.attempts.rows,
        attempt.diagnosisRunID = run.id ∧ run.finalAttemptID = some attempt.id ∧
        attempt.status = .succeeded ∧ attempt.executionGeneration = job.executionGeneration ∧
        (s.world.db.reports.rows.filter fun report => report.attemptID = attempt.id).length =
          1) := by
  obtain ⟨job, present, owns, job_eq, run_eq⟩ := reachable.diagnosis member
  have sound := reachable.sound run.id
  obtain ⟨terminal, active⟩ := (sound.agrees.fits job_eq run_eq).iff
  refine ⟨job, present, owns, terminal, active, fun unfinished => ?_, fun success => ?_⟩
  · refine sound.agrees.flags job_eq run_eq ?_
    rcases unfinished with queued | running
    · rw [queued]
      rfl
    · rw [running]
      rfl
  · obtain ⟨attempt, there, final, succeeded, generation, one⟩ :=
      sound.reported.succeeded job_eq run_eq success
    obtain ⟨attemptMember, attemptRun⟩ := view_attempt.mp there
    refine ⟨attempt, attemptMember, attemptRun, final, succeeded, generation, ?_⟩
    -- The reports of the attempt are all reports of this run.
    have reports : (s.world.db.view run.id).reports =
        s.world.db.reports.rows.filter fun report => report.diagnosisRunID = run.id := rfl
    rw [reports, List.filter_filter] at one
    refine (congrArg List.length (List.filter_congr fun report listed => ?_)).trans one
    by_cases own : report.attemptID = attempt.id
    · simp [own, (reachable.report_run listed attemptMember own).trans attemptRun]
    · simp [own]

def sampleRun : DiagnosisRun where
  id := "run"
  userID := "user"
  idempotencyKey := "key"
  repositoryID := "repository"
  snapshotID := "snapshot"
  codeIndexBuildID := 1
  promptVersion := "prompt"
  agentVersion := "agent"
  status := .queued
  cancelRequested := false
  finalAttemptID := none
  version := 1

def sampleClaim (token : String) : Claim := ⟨1, "worker", token⟩

def answered (token : String) : Action Claim Oracle Move :=
  .perform (sampleClaim token) (.store .answered .any)

def executionStarts (token : String) : List (Action Claim Oracle Move) :=
  [.move (.claimJobs "worker" 1 100 (fun _ => true) (fun _ => token) 0 true 2),
    .perform (sampleClaim token) (.flag false), answered token,
    .perform (sampleClaim token) (.flag false), .perform (sampleClaim token) .ok,
    .perform (sampleClaim token) .ok, .perform (sampleClaim token) .ok]

def attemptStarts (token attemptID : String) : List (Action Claim Oracle Move) :=
  executionStarts token ++
    [answered token, .perform (sampleClaim token) (.id attemptID), answered token,
      answered token, .perform (sampleClaim token) (.setup none)]

def providerCall (token : String) (reply : ProviderReply) : List (Action Claim Oracle Move) :=
  [.perform (sampleClaim token) (.agent .generate), answered token, answered token,
    .perform (sampleClaim token) .ok, .perform (sampleClaim token) (.provider reply)]

def sampleResult : ExecutionResult where
  report := some { emptyReport with summary := "cause found" }
  reportDraft := none
  rawOutput := "output"
  usage := .zero
  finishReason := "stop"
  structuredReport := true
  parseError := ""
  finalizationReason := ""

def diagnosisSucceeds : List (Action Claim Oracle Move) :=
  .move (.request (.createDiagnosis sampleRun 1) .any) :: attemptStarts "token" "attempt" ++
    providerCall "token" .success ++
    [answered "token", .perform (sampleClaim "token") (.agent (.finish sampleResult)),
      answered "token", .perform (sampleClaim "token") .ok, .perform (sampleClaim "token") .ok,
      .perform (sampleClaim "token") (.id "report"), answered "token"]

theorem diagnosisSucceeds_runs :
    ((system plainHandlers).exec initial diagnosisSucceeds).isSome = true := by
  decide

def diagnosisSucceeded : SystemState :=
  ((system plainHandlers).exec initial diagnosisSucceeds).get diagnosisSucceeds_runs

theorem diagnosisSucceeded_reachable : Reachable plainHandlers diagnosisSucceeded :=
  Machine.exec_run (Option.some_get diagnosisSucceeds_runs).symm

def succeededRun : DiagnosisRun :=
  { sampleRun with status := .succeeded, finalAttemptID := some "attempt", version := 3 }

theorem succeeded_run_has_report :
    ∃ attempt ∈ diagnosisSucceeded.world.db.attempts.rows, attempt.diagnosisRunID = "run" ∧
      (diagnosisSucceeded.world.db.reports.rows.filter fun report =>
        report.attemptID = attempt.id).length = 1 := by
  have member : succeededRun ∈ diagnosisSucceeded.world.db.runs.rows := by decide +kernel
  obtain ⟨job, -, -, -, -, -, success⟩ :=
    Reachable.run_agrees_with_job diagnosisSucceeded_reachable member
  obtain ⟨attempt, present, run, -, -, -, one⟩ := success rfl
  exact ⟨attempt, present, run, one⟩

end RepoLens
