import RepoLens.Transitions

/-!
Cancellation of a diagnosis. A request is refused only for a RUNNING run whose job is PENDING,
which a claim that never started leaves behind after an earlier attempt.
-/

namespace RepoLens

open Relational Transaction Interleaving

section Availability

variable {db : Database} {runID : String} {job : AnalysisJob} {run : DiagnosisRun}

theorem requestCancellation_commits {terminal : Bool}
    (job_eq : (db.view runID).job = some job) (run_eq : (db.view runID).run = some run)
    (accepted : cancellationOutcome run.status job.status = some terminal) :
    ∃ db', requestCancellation runID run.userID db = .ok ((), db') := by
  obtain ⟨member, owns⟩ := view_job.mp job_eq
  obtain ⟨runMember, sameRun⟩ := view_run.mp run_eq
  have unfinished : run.status.terminal = false := by
    rcases RunStatus.active_iff.mp (cancellationOutcome_some accepted).1 with status | status <;>
      rw [status] <;> rfl
  have selected : db.runs.select (fun row => row.id = runID ∧ row.userID = run.userID) =
      some run :=
    Table.select_of_mem runMember ⟨sameRun, rfl⟩ fun other present hit =>
      db.runs.eq_of_key present runMember (hit.1.trans sameRun.symm)
  apply Exists.intro
  apply (Place.select_bind_ok _).mpr
  apply expect_bind_ok.mpr
  refine ⟨job, job_eq, ?_⟩
  apply (Place.select_bind_ok _).mpr
  apply expect_bind_ok.mpr
  refine ⟨run, selected, ?_⟩
  apply require_bind_ok.mpr
  refine ⟨unfinished, ?_⟩
  apply expect_bind_ok.mpr
  refine ⟨terminal, accepted, ?_⟩
  apply (Place.update_require_bind_ok _).mpr
  constructor
  · exact Table.affected_one member ⟨rfl, rfl⟩ fun other present hit =>
      db.jobs.eq_of_key present member hit.1
  apply (Place.update_require_ok _).mpr
  refine ⟨?_, rfl⟩
  -- The statement on the job has left the runs alone.
  exact Table.affected_one runMember ⟨sameRun, rfl, rfl⟩ fun other present hit =>
    db.runs.eq_of_key present runMember (hit.1.trans sameRun.symm)

theorem cancellationOutcome_isSome {status : RunStatus} {jobStatus : JobStatus}
    (active : status.active = true) (fits : status.Fits jobStatus) :
    (∃ terminal, cancellationOutcome status jobStatus = some terminal) ↔
      ¬(status = .running ∧ jobStatus = .pending) := by
  rcases RunStatus.active_iff.mp active with rfl | rfl
  · cases jobStatus <;> first | (cases fits; done) | simp [cancellationOutcome]
  · cases jobStatus <;> first | (cases fits; done) | simp [cancellationOutcome]

end Availability

variable {handlers : Handlers} {s : SystemState}

/-- The owner of an unfinished diagnosis can cancel it exactly when it is not a RUNNING
run with a PENDING job. -/
theorem Reachable.cancellation_available_iff (reachable : Reachable handlers s)
    {run : DiagnosisRun} {job : AnalysisJob} (member : run ∈ s.world.db.runs.rows)
    (active : run.status = .queued ∨ run.status = .running)
    (present : job ∈ s.world.db.jobs.rows) (owns : job.For .runDiagnosis run.id) :
    (∃ db' run' job', requestCancellation run.id run.userID s.world.db = .ok ((), db') ∧
      (run' ∈ db'.runs.rows ∧ run'.id = run.id ∧ run'.cancelRequested = true) ∧
      (job' ∈ db'.jobs.rows ∧ job'.For .runDiagnosis run.id ∧ job'.cancelRequested = true) ∧
      ((run'.status = .cancelled ∧ job'.status = .cancelled) ∨
        (run'.status = run.status ∧ job'.status = job.status))) ↔
      ¬(run.status = .running ∧ job.status = .pending) := by
  have run_eq : (s.world.db.view run.id).run = some run := view_run.mpr ⟨member, rfl⟩
  have job_eq : (s.world.db.view run.id).job = some job := view_job.mpr ⟨present, owns⟩
  have fits := (reachable.sound run.id).agrees.fits job_eq run_eq
  rw [← cancellationOutcome_isSome (RunStatus.active_iff.mpr active) fits]
  constructor
  · rintro ⟨db', -, -, ran, -⟩
    obtain ⟨job₁, run₁, terminal, job_eq₁, run_eq₁, accepted, -⟩ := requestCancellation_ok ran
    cases job_eq₁.symm.trans job_eq
    cases run_eq₁.symm.trans run_eq
    exact ⟨terminal, accepted⟩
  · rintro ⟨terminal, accepted⟩
    obtain ⟨db', ran⟩ := requestCancellation_commits job_eq run_eq accepted
    obtain ⟨job₁, run₁, decided, job_eq₁, run_eq₁, accepted₁, focus, -⟩ :=
      requestCancellation_ok ran
    cases job_eq₁.symm.trans job_eq
    cases run_eq₁.symm.trans run_eq
    obtain ⟨runMember, sameRun⟩ := view_run.mp (congrArg RunView.run focus)
    obtain ⟨jobMember, ownsJob⟩ := view_job.mp (congrArg RunView.job focus)
    refine ⟨db', _, _, ran, ⟨runMember, sameRun, rfl⟩, ⟨jobMember, ownsJob, rfl⟩, ?_⟩
    cases decided with
    | true => exact .inl ⟨rfl, rfl⟩
    | false => exact .inr ⟨rfl, rfl⟩

/-- While its attempt runs, a diagnosis is cancelled by a flag on both rows. -/
theorem running_run_cancellable :
    ∃ s db', (system plainHandlers).exec initial (createSample :: attemptStarts "token" "attempt") =
        some s ∧ requestCancellation "run" "user" s.world.db = .ok ((), db') ∧
      ∃ run ∈ db'.runs.rows, run.cancelRequested = true := by
  have ran : ((system plainHandlers).exec initial
      (createSample :: attemptStarts "token" "attempt")).any (fun s => decide
        ((∃ run ∈ s.world.db.runs.rows, run.id = "run" ∧ run.userID = "user" ∧
          run.status = .running) ∧
        ∃ job ∈ s.world.db.jobs.rows, job.For .runDiagnosis "run" ∧ job.status = .running)) =
      true := by
    decide +kernel
  cases reached : (system plainHandlers).exec initial
      (createSample :: attemptStarts "token" "attempt") with
  | none => simp [reached] at ran
  | some s =>
    simp only [reached, Option.any_some, decide_eq_true_eq] at ran
    obtain ⟨⟨run, member, id, user, running⟩, job, present, owns, started⟩ := ran
    obtain ⟨db', run', -, asked, ⟨there, -, flagged⟩, -⟩ := (Reachable.cancellation_available_iff
      (Machine.exec_run reached) member (.inr running) present (id ▸ owns)).mpr (by simp [started])
    exact ⟨s, db', rfl, id ▸ user ▸ asked, run', there, flagged⟩

/-- After a first attempt the job is claimed once more and never starts: the reaper puts it back to
PENDING while the run stays RUNNING. -/
def secondClaimLost : List (Action Claim Oracle Move) :=
  createSample :: attemptStarts "token" "attempt" ++
    [.stop (sampleClaim "token"), reapSample,
      .move (.claimJobs "worker" 1 100 (fun _ => true) (fun _ => "second") 100000 false 0),
      .move (.request (.reapExpiredJobs 1 (fun _ => true) (fun _ => 0))
        { Outside.any with now := 200000 })]

theorem secondClaimLost_runs :
    ((system plainHandlers).exec initial secondClaimLost).isSome = true := by
  decide +kernel

def returnedToPending : SystemState :=
  ((system plainHandlers).exec initial secondClaimLost).get secondClaimLost_runs

/-- The owner's request is refused although the diagnosis is unfinished. -/
theorem running_run_not_cancellable :
    ∃ s : SystemState, Reachable plainHandlers s ∧
      (∃ run ∈ s.world.db.runs.rows, run.id = "run" ∧ run.userID = "user" ∧
        run.status = .running) ∧
      (∃ job ∈ s.world.db.jobs.rows, job.For .runDiagnosis "run" ∧ job.status = .pending) ∧
      (requestCancellation "run" "user" s.world.db).isOk = false := by
  refine ⟨returnedToPending, Machine.exec_run (Option.some_get secondClaimLost_runs).symm, ?_, ?_,
    ?_⟩
  · decide +kernel
  · decide +kernel
  · decide +kernel

section Continuations

variable {rules : RunRules} {runID : String} {v v' : RunView}

structure RunView.Cancelling (ids : List String) (v : RunView) : Prop where
  job : ∃ job, v.job = some job ∧ job.cancelRequested = true ∧ job.status ≠ .succeeded ∧
    job.status ≠ .failed
  attempts : ∀ attempt ∈ v.attempts, attempt.id ∈ ids

theorem RunStep.cancelling_job (step : RunStep rules runID v v') {job : AnalysisJob}
    (job_eq : v.job = some job) (flag : job.cancelRequested = true)
    (open_ : job.status ≠ .succeeded ∧ job.status ≠ .failed) :
    ∃ job', v'.job = some job' ∧ job'.cancelRequested = true ∧ job'.status ≠ .succeeded ∧
      job'.status ≠ .failed := by
  -- The finalizers but the cancelling ones lock or update unflagged jobs only.
  have contradiction : ∀ {found : AnalysisJob}, v.job = some found →
      found.cancelRequested = false → False := by
    intro found found_eq unflagged
    cases found_eq.symm.trans job_eq
    rw [unflagged] at flag
    cases flag
  cases step with
  | created noJob => cases noJob.symm.trans job_eq
  | claimed found | released found =>
    cases found.symm.trans job_eq
    exact ⟨_, rfl, flag, nofun, nofun⟩
  | began found | renewed found =>
    cases found.symm.trans job_eq
    exact ⟨_, rfl, flag, open_⟩
  | retried found _ _ unflagged | attemptStarted _ found _ _ unflagged
  | failedByJob found _ _ unflagged | reapedUnknown found _ _ unflagged
  | reapedRetry found _ _ unflagged => exact (contradiction found unflagged).elim
  | marked | closedForRetry | abandoned => exact ⟨job, job_eq, flag, open_⟩
  | closed _ locked closing _ _ _ same status =>
    cases locked.job_eq.symm.trans job_eq
    cases closing with
    | cancelled =>
      refine ⟨_, rfl, same.cancelRequested.trans flag, ?_⟩
      rw [status]
      exact ⟨nofun, nofun⟩
    | succeeded | invalid | failed => exact (contradiction job_eq locked.job_flag).elim
  | cancelledByJob found _ _ _ _ _ same status | reapedCancelled found _ _ _ _ same status =>
    cases found.symm.trans job_eq
    refine ⟨_, rfl, same.cancelRequested.trans flag, ?_⟩
    rw [status]
    exact ⟨nofun, nofun⟩
  | flagged found =>
    cases found.symm.trans job_eq
    exact ⟨_, rfl, rfl, open_⟩
  | cancelled => exact ⟨_, rfl, rfl, nofun, nofun⟩
  | requeued found failed =>
    cases found.symm.trans job_eq
    exact absurd failed open_.2

theorem RunStep.cancelling {ids : List String} (step : RunStep rules runID v v')
    (proper : v.Proper) (cancelling : v.Cancelling ids) : v'.Cancelling ids := by
  obtain ⟨job, job_eq, flag, open_⟩ := cancelling.job
  refine ⟨step.cancelling_job job_eq flag open_, fun attempt member => ?_⟩
  rcases step.attempts_cases proper with ⟨f, rows, moves⟩ | ⟨job₁, started, starts⟩
  · rw [rows] at member
    obtain ⟨row, present, rfl⟩ := List.mem_map.mp member
    rw [(moves row present).id]
    exact cancelling.attempts row present
  · -- No attempt starts under a flagged job.
    cases starts.job_eq.symm.trans job_eq
    cases starts.unflagged.symm.trans flag

theorem RunStep.stays_cancelled (step : RunStep rules runID v v')
    (cancelled : ∃ job, v.job = some job ∧ job.status = .cancelled) :
    ∃ job', v'.job = some job' ∧ job'.status = .cancelled := by
  obtain ⟨job, job_eq, status⟩ := cancelled
  rcases step.of_terminal job_eq (by rw [status]; rfl) with ⟨same, -⟩ | ⟨failed, -⟩
  · exact ⟨job, same.trans job_eq, status⟩
  · cases status.symm.trans failed

end Continuations

section Requested

variable {runID userID : String} {outside : Outside} {s₁ s₂ : SystemState}

theorem requestCancellation_cancelling {db db' : Database} {u : Unit}
    (ran : requestCancellation runID userID db = .ok (u, db')) :
    (db'.view runID).Cancelling ((db'.view runID).attempts.map DiagnosisAttempt.id) := by
  obtain ⟨job, run, terminal, job_eq, run_eq, accepted, focus, -⟩ := requestCancellation_ok ran
  refine ⟨⟨_, congrArg RunView.job focus, rfl, ?_⟩,
    fun attempt member => List.mem_map_of_mem member⟩
  obtain ⟨-, ⟨rfl, -⟩ | ⟨rfl, running⟩⟩ := cancellationOutcome_some accepted
  · simp
  · simp [running]

theorem Reachable.requested (reachable : Reachable handlers s)
    (requested : (system handlers).step s
      (.move (.request (.requestCancellation runID userID) outside)) = some s₁) :
    Reachable handlers s₁ ∧ (s₁.world.db.view runID).Cancelling
      ((s₁.world.db.view runID).attempts.map DiagnosisAttempt.id) := by
  refine ⟨.step reachable trivial requested, ?_⟩
  obtain ⟨started, moved⟩ := World.Moved.of_step requested
  generalize s₁.world = w at moved ⊢
  cases moved with
  | requested ran => exact requestCancellation_cancelling ran

theorem Reachable.cancelled_rows (reachable : Reachable handlers s) {job : AnalysisJob}
    (job_eq : (s.world.db.view runID).job = some job) (cancelled : job.status = .cancelled) :
    (∃ run ∈ s.world.db.runs.rows, run.id = runID ∧ run.status = .cancelled) ∧
      ∃ job ∈ s.world.db.jobs.rows, job.For .runDiagnosis runID ∧ job.status = .cancelled := by
  obtain ⟨present, owns⟩ := view_job.mp job_eq
  obtain ⟨run, run_eq⟩ := (reachable.sound runID).agrees.run job_eq
  obtain ⟨member, same⟩ := view_run.mp run_eq
  have fits := (reachable.sound runID).agrees.fits job_eq run_eq
  rw [cancelled] at fits
  exact ⟨⟨run, member, same, fits⟩, job, present, owns, cancelled⟩

theorem Reachable.stays_cancelled (reachable : Reachable handlers s)
    (continued : (system handlers).Run s s₂) {job : AnalysisJob}
    (job_eq : (s.world.db.view runID).job = some job) (cancelled : job.status = .cancelled) :
    (∃ run ∈ s₂.world.db.runs.rows, run.id = runID ∧ run.status = .cancelled) ∧
      ∃ job ∈ s₂.world.db.jobs.rows, job.For .runDiagnosis runID ∧ job.status = .cancelled := by
  obtain ⟨job', job_eq', cancelled'⟩ := reachable.keeps
    (P := fun v => ∃ job, v.job = some job ∧ job.status = .cancelled) continued
    (fun _ _ _ _ step holds => step.stays_cancelled holds) ⟨job, job_eq, cancelled⟩
  have there : Reachable handlers s₂ := RunWhere.trans reachable continued
  exact there.cancelled_rows job_eq' cancelled'

/-- Once a cancellation has committed, neither run nor job succeeds or fails, no attempt that starts
later sends a request, and a CANCELLED run and job stay so. -/
theorem Reachable.cancellation_wins (reachable : Reachable handlers s)
    (requested : (system handlers).step s
      (.move (.request (.requestCancellation runID userID) outside)) = some s₁)
    (continued : (system handlers).Run s₁ s₂) :
    (∃ run ∈ s₂.world.db.runs.rows, run.id = runID ∧
      (run.status = .queued ∨ run.status = .running ∨ run.status = .cancelled)) ∧
    (∃ job ∈ s₂.world.db.jobs.rows, job.For .runDiagnosis runID ∧
      (job.status.terminal = true → job.status = .cancelled)) ∧
    (∃ events, s₂.world.log = events ++ s₁.world.log ∧
      ∀ execution, .dispatched execution ∈ events → execution.runID = runID →
        ∃ attempt ∈ s₁.world.db.attempts.rows, attempt.id = execution.attemptID) ∧
    (∀ s₃, (system handlers).Run s₂ s₃ →
      (∀ run ∈ s₂.world.db.runs.rows, run.id = runID → run.status = .cancelled →
        ∃ run' ∈ s₃.world.db.runs.rows, run'.id = runID ∧ run'.status = .cancelled) ∧
      (∀ job ∈ s₂.world.db.jobs.rows, job.For .runDiagnosis runID → job.status = .cancelled →
        ∃ job' ∈ s₃.world.db.jobs.rows, job'.For .runDiagnosis runID ∧
          job'.status = .cancelled)) := by
  obtain ⟨there, cancelling⟩ := reachable.requested requested
  have kept : ∀ {t}, (system handlers).Run s₁ t → (t.world.db.view runID).Cancelling
      ((s₁.world.db.view runID).attempts.map DiagnosisAttempt.id) := fun run =>
    there.keeps (P := RunView.Cancelling _) run
      (fun _ _ proper _ step holds => step.cancelling proper holds) cancelling
  have later : Reachable handlers s₂ := RunWhere.trans there continued
  obtain ⟨job, job_eq, -, unsuccessful, unfailed⟩ := (kept continued).job
  obtain ⟨present, owns⟩ := view_job.mp job_eq
  obtain ⟨run, run_eq⟩ := (later.sound runID).agrees.run job_eq
  obtain ⟨member, same⟩ := view_run.mp run_eq
  have fits := (later.sound runID).agrees.fits job_eq run_eq
  refine ⟨⟨run, member, same, ?_⟩, ⟨job, present, owns, ?_⟩, ?_, fun s₃ after => ?_⟩
  · cases status : run.status with
    | queued | running | cancelled => simp
    | succeeded => exact absurd (fits.iff.1.1.mp status) unsuccessful
    | failed => exact absurd (fits.iff.1.2.1.mp status) unfailed
  · cases status : job.status with
    | succeeded => exact absurd status unsuccessful
    | failed => exact absurd status unfailed
    | cancelled => exact fun _ => rfl
    | pending | running | retryWait => exact fun terminal => nomatch terminal
  · obtain ⟨events, log, authorized⟩ := there.dispatches continued
    refine ⟨events, log, fun execution sent own => ?_⟩
    obtain ⟨t, claim, run, allowed⟩ := authorized execution sent
    -- The attempt that sends is one of the diagnosis, so it is one of the old ones.
    obtain ⟨attempt, listed, sameAttempt, -⟩ := allowed.marked
    rw [own] at listed
    obtain ⟨old, oldListed, sameOld⟩ := List.mem_map.mp ((kept run).attempts attempt listed)
    exact ⟨old, (view_attempt.mp oldListed).1, sameOld.trans sameAttempt⟩
  · constructor
    · intro row rowMember sameRow cancelled
      cases (view_run.mpr ⟨rowMember, sameRow⟩).symm.trans run_eq
      exact (later.stays_cancelled after job_eq (fits.iff.1.2.2.mp cancelled)).1
    · intro row rowMember ownsRow cancelled
      exact (later.stays_cancelled after (view_job.mpr ⟨rowMember, ownsRow⟩) cancelled).2

/-- The owner cancels once the provider has been asked, and the worker goes on to its end. -/
def cancelledWorker : List (Action Claim Oracle Move) :=
  [answered "token", .perform (sampleClaim "token") (.partialResult sampleResult), answered "token",
    answered "token", answered "token", answered "token"]

theorem cancelled_run_stays_cancelled :
    ∃ s s₁ s₂, (system plainHandlers).exec initial
        (createSample :: attemptStarts "token" "attempt" ++ providerCall "token" .success) =
          some s ∧
      (system plainHandlers).step s cancelSample = some s₁ ∧
      (system plainHandlers).exec s₁ cancelledWorker = some s₂ ∧
      s₁.world.db.runs.rows.map (·.status) = [.running] ∧
      s₂.world.db.runs.rows.map (·.status) = [.cancelled] ∧
      ∀ s₃, (system plainHandlers).Run s₂ s₃ →
        ∃ run ∈ s₃.world.db.runs.rows, run.id = "run" ∧ run.status = .cancelled := by
  have ran : (((system plainHandlers).exec initial (createSample ::
        attemptStarts "token" "attempt" ++ providerCall "token" .success)).bind fun s =>
      ((system plainHandlers).step s cancelSample).bind fun s₁ =>
        ((system plainHandlers).exec s₁ cancelledWorker).map fun s₂ =>
          (s₁.world.db.runs.rows.map (·.status),
            s₂.world.db.runs.rows.map fun run => (run.id, run.status))) =
      some ([.running], [("run", .cancelled)]) := by
    decide +kernel
  obtain ⟨s, asked, ran⟩ := Option.bind_eq_some_iff.mp ran
  obtain ⟨s₁, requested, ran⟩ := Option.bind_eq_some_iff.mp ran
  obtain ⟨s₂, ended, statuses⟩ := Option.map_eq_some_iff.mp ran
  obtain ⟨before, after⟩ := Prod.mk.inj statuses
  obtain ⟨run, member, same⟩ : ∃ run ∈ s₂.world.db.runs.rows, (run.id, run.status) =
      ("run", RunStatus.cancelled) := List.mem_map.mp (by simp [after])
  obtain ⟨own, cancelled⟩ := Prod.mk.inj same
  refine ⟨s, s₁, s₂, asked, requested, ended, before, ?_, fun s₃ later => ?_⟩
  · simpa using congrArg (List.map Prod.snd) after
  · exact ((Reachable.cancellation_wins (Machine.exec_run asked) requested
      (Machine.exec_run ended)).2.2.2 s₃ later).1 run member own cancelled

end Requested

end RepoLens
