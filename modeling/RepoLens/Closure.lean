import RepoLens.Cancellation

/-!
What a finished diagnosis leaves behind. A finished run has no RUNNING attempt and
names the highest attempt of its last generation, unless an earlier step has left an
attempt behind: a retry that is scheduled while the attempt is RUNNING, a cancellation
of a waiting diagnosis that has been attempted, and a reaper pass that cancels an
execution without an attempt of its own.
-/

namespace RepoLens

open Relational Transaction Interleaving

variable {rules : RunRules} {runID : String} {v v' : RunView}

def RunView.Supervised (v : RunView) : Prop :=
  ∀ attempt ∈ v.attempts, attempt.status = .running → ∃ job, v.job = some job ∧
    job.status = .running ∧ job.executionStarted = true ∧ Current job attempt

section Supervision
variable {attempt : DiagnosisAttempt} {job : AnalysisJob}

theorem RunView.Supervised.idle (supervised : v.Supervised) (job_eq : v.job = some job)
    (idle : ¬(job.status = .running ∧ job.executionStarted = true)) :
    ∀ attempt ∈ v.attempts, attempt.status ≠ .running := by
  intro attempt member running
  obtain ⟨owner, owner_eq, active, started, -⟩ := supervised attempt member running
  cases owner_eq.symm.trans job_eq
  exact idle ⟨active, started⟩

theorem RunView.Supervised.current (supervised : v.Supervised) (job_eq : v.job = some job)
    (member : attempt ∈ v.attempts) (running : attempt.status = .running) :
    Current job attempt := by
  obtain ⟨owner, owner_eq, -, -, current⟩ := supervised attempt member running
  cases owner_eq.symm.trans job_eq
  exact current

theorem RunView.Current.same (proper : v.Proper) {left right : DiagnosisAttempt}
    (leftMember : left ∈ v.attempts) (rightMember : right ∈ v.attempts)
    (leftCurrent : Current job left) (rightCurrent : Current job right) : left = right :=
  proper.numbers left leftMember right rightMember (leftCurrent.1.trans rightCurrent.1.symm)
    (leftCurrent.2.trans rightCurrent.2.symm)

theorem RunView.Supervised.of_idle (idle : ∀ attempt ∈ v.attempts, attempt.status ≠ .running) :
    v.Supervised :=
  fun attempt member running => absurd running (idle attempt member)

theorem RunView.of_mem_putAttempt {row : DiagnosisAttempt} (written : row ∈ v.putAttempt attempt) :
    row = attempt ∨ (row ∈ v.attempts ∧ row.id ≠ attempt.id) := by
  obtain ⟨old, present, rfl⟩ := List.mem_map.mp written
  by_cases hit : old.id = attempt.id
  · exact .inl (if_pos hit)
  · rw [if_neg hit]
    exact .inr ⟨present, hit⟩

theorem RunView.Supervised.put (supervised : v.Supervised) (proper : v.Proper)
    (job_eq : v.job = some job) {attempt' : DiagnosisAttempt} (member : attempt ∈ v.attempts)
    (current : Current job attempt) (same : attempt'.id = attempt.id)
    (closed : attempt'.status ≠ .running) :
    ∀ row ∈ v.putAttempt attempt', row.status ≠ .running := by
  intro row written running
  rcases RunView.of_mem_putAttempt written with rfl | ⟨present, other⟩
  · exact closed running
  · cases RunView.Current.same proper present member (supervised.current job_eq present running)
      current
    exact other same.symm

theorem RunView.Supervised.close (supervised : v.Supervised) (job_eq : v.job = some job)
    {p : DiagnosisAttempt → Prop} [DecidablePred p] {close : DiagnosisAttempt → DiagnosisAttempt}
    (all : ∀ row, Current job row → p row) (closed : ∀ row, (close row).status ≠ .running) :
    ∀ row ∈ v.closeAttempts p close, row.status ≠ .running := by
  intro row written running
  obtain ⟨old, present, rfl⟩ := List.mem_map.mp written
  by_cases hit : p old ∧ old.status = .running
  · rw [if_pos hit] at running
    exact closed old running
  · rw [if_neg hit] at running
    exact hit ⟨all old (supervised.current job_eq present running), running⟩

theorem Closing.closed {attemptID : String} {cancelled : Bool} {attemptStatus : AttemptStatus}
    {runStatus : RunStatus} {jobStatus : JobStatus} {reports : List Report}
    (closing : Closing attemptID cancelled attemptStatus runStatus jobStatus reports) :
    attemptStatus ≠ .running := by
  cases closing <;> decide

theorem RunView.Locked.current {claim : Claim} {cancelled : Bool} {run : DiagnosisRun}
    (locked : v.Locked claim cancelled job run attempt) (numbered : v.Numbered) :
    Current job attempt :=
  ⟨locked.generation, locked.number.trans
    (AnalysisJob.expectedAttemptNo_charged (numbered.charged locked.job_eq locked.started))⟩

theorem RunStep.supervised (step : RunStep rules runID v v') (proper : v.Proper)
    (numbered : v.Numbered) (strict : ∀ job, ¬rules.strands job) (supervised : v.Supervised) :
    v'.Supervised := by
  cases step with
  | created noJob =>
    apply RunView.Supervised.of_idle
    intro attempt member
    change attempt ∈ v.attempts at member
    rw [(numbered.idle noJob).1] at member
    cases member
  | claimed found waiting | cancelled found waiting =>
    apply RunView.Supervised.of_idle
    apply supervised.idle found
    rintro ⟨running, -⟩
    rcases waiting with status | status <;> cases status.symm.trans running
  | began found _ unstarted | released found _ unstarted =>
    apply RunView.Supervised.of_idle
    apply supervised.idle found
    rintro ⟨-, started⟩
    cases unstarted.symm.trans started
  | requeued found failed =>
    apply RunView.Supervised.of_idle
    apply supervised.idle found
    rintro ⟨running, -⟩
    cases failed.symm.trans running
  | renewed found | flagged found =>
    intro attempt member running
    obtain ⟨owner, owner_eq, active, started, current⟩ := supervised attempt member running
    cases owner_eq.symm.trans found
    exact ⟨_, rfl, active, started, current⟩
  | retried found _ _ _ _ _ _ allowed =>
    apply RunView.Supervised.of_idle
    intro attempt member running
    exact strict _ (allowed ⟨attempt, member, supervised.current found member running, running⟩)
  | attemptStarted _ found held started _ _ _ _ generation number =>
    intro attempt member running
    rcases List.mem_append.mp member with old | new
    · exact supervised attempt old running
    · cases List.mem_singleton.mp new
      exact ⟨_, found, held.running, started, generation, number.trans
        (AnalysisJob.expectedAttemptNo_charged (numbered.charged found started))⟩
  | marked _ locked mark =>
    intro attempt member running
    rcases RunView.of_mem_putAttempt member with rfl | ⟨old, -⟩
    · have same := mark.step locked.unclosed
      have current := locked.current numbered
      exact ⟨_, locked.job_eq, locked.held.running, locked.started,
        same.generation.trans current.1, same.number.trans current.2⟩
    · exact supervised attempt old running
  | closedForRetry _ locked _ marks closed =>
    apply RunView.Supervised.of_idle
    apply supervised.put proper locked.job_eq locked.member (locked.current numbered) marks.id
    rw [closed]
    decide
  | abandoned member unclosed content closed =>
    obtain ⟨owner, owner_eq, -, -, current⟩ := supervised _ member unclosed
    apply RunView.Supervised.of_idle
    apply supervised.put proper owner_eq member current
      (DiagnosisAttempt.sameMarks_of_content content).id
    rw [closed]
    decide
  | closed _ locked closing _ marks status =>
    apply RunView.Supervised.of_idle
    apply supervised.put proper locked.job_eq locked.member (locked.current numbered) marks.id
    rw [status]
    exact closing.closed
  | failedByJob found _ _ _ _ _ status =>
    apply RunView.Supervised.of_idle
    apply supervised.close found (fun _ current => current.1)
    intro row
    rcases status with rfl | rfl <;> simp
  | cancelledByJob found =>
    apply RunView.Supervised.of_idle
    apply supervised.close found (fun _ current => current.1)
    simp
  | reapedCancelled found =>
    apply RunView.Supervised.of_idle
    apply supervised.close found (fun _ current => current)
    simp
  | reapedUnknown found _ _ _ _ _ member current _ content closed =>
    apply RunView.Supervised.of_idle
    apply supervised.put proper found member current
      (DiagnosisAttempt.sameMarks_of_content content).id
    rw [closed]
    decide
  | reapedRetry found _ _ _ _ _ closed =>
    apply RunView.Supervised.of_idle
    apply supervised.close found (fun _ current => current)
    intro row
    rw [closed]
    decide

end Supervision

section Naming

variable {attempts attempts' : List DiagnosisAttempt} {generation : Nat} {job : AnalysisJob}

def Highest (attempts : List DiagnosisAttempt) (generation : Nat) (id : Option String) : Prop :=
  ∃ attempt ∈ attempts, id = some attempt.id ∧ attempt.executionGeneration = generation ∧
    ∀ other ∈ attempts, other.executionGeneration = generation →
      other.attemptNo ≤ attempt.attemptNo

theorem Highest.step {id : Option String} (highest : Highest attempts generation id)
    (step : AttemptsStep attempts attempts') : Highest attempts' generation id := by
  obtain ⟨f, rfl, moves⟩ := step
  obtain ⟨attempt, member, rfl, own, bound⟩ := highest
  have same := moves attempt member
  refine ⟨f attempt, List.mem_map_of_mem member, by rw [same.id], same.generation.trans own, ?_⟩
  intro other' member' own'
  obtain ⟨other, present, rfl⟩ := List.mem_map.mp member'
  have kept := moves other present
  rw [kept.number, same.number]
  exact bound other present (kept.generation.symm.trans own')

theorem highestAttempt_le {highest : DiagnosisAttempt}
    (found : highestAttempt attempts = some highest) :
    ∀ attempt ∈ attempts, attempt.attemptNo ≤ highest.attemptNo := by
  induction attempts generalizing highest with
  | nil => cases found
  | cons first rest ih =>
    intro attempt member
    simp only [highestAttempt] at found
    cases other : highestAttempt rest with
    | none =>
      rw [other] at found
      cases found
      rw [highestAttempt_none other, List.mem_singleton] at member
      rw [member]
    | some later =>
      have bound := ih other
      simp only [other] at found
      rcases List.mem_cons.mp member with rfl | member
      · split at found <;> cases found <;> omega
      · have := bound attempt member
        split at found <;> cases found <;> omega

theorem latestOf_highest (own : ∃ attempt ∈ attempts, attempt.executionGeneration = generation) :
    Highest attempts generation (latestOf attempts generation) := by
  obtain ⟨attempt, member, same⟩ := own
  have listed : attempt ∈ attempts.filter fun row => row.executionGeneration = generation :=
    List.mem_filter.mpr ⟨member, decide_eq_true same⟩
  cases found : highestAttempt (attempts.filter fun row => row.executionGeneration =
    generation) with
  | none =>
    rw [highestAttempt_none found] at listed
    cases listed
  | some highest =>
    obtain ⟨present, own⟩ := List.mem_filter.mp (highestAttempt_mem found)
    refine ⟨highest, present, by rw [latestOf, found]; rfl, of_decide_eq_true own, ?_⟩
    intro other otherMember otherOwn
    exact highestAttempt_le found other
      (List.mem_filter.mpr ⟨otherMember, decide_eq_true otherOwn⟩)

theorem RunView.Current.highest (numbered : v.Numbered) (job_eq : v.job = some job)
    (member : attempt ∈ v.attempts) (current : Current job attempt) :
    Highest v.attempts job.executionGeneration (some attempt.id) := by
  refine ⟨attempt, member, rfl, current.1, fun other present own => ?_⟩
  rw [current.2]
  rcases numbered.bounded job_eq other present with older | ⟨-, bound⟩
  · omega
  · exact bound

theorem currentOf_highest (numbered : v.Numbered) (job_eq : v.job = some job)
    (own : ∃ attempt ∈ v.attempts, RunView.Current job attempt) :
    Highest v.attempts job.executionGeneration
      ((currentOf v.attempts job).map DiagnosisAttempt.id) := by
  cases found : currentOf v.attempts job with
  | none =>
    obtain ⟨attempt, member, current⟩ := own
    have missed := List.find?_eq_none.mp found attempt member
    exact absurd (decide_eq_true current) missed
  | some attempt =>
    have hit := List.find?_some found
    have current : RunView.Current job attempt := of_decide_eq_true hit
    exact current.highest numbered job_eq (List.mem_of_find?_eq_some found)

def RunView.Named (v : RunView) : Prop :=
  ∀ {job run}, v.job = some job → v.run = some run → job.status.terminal = true →
    v.Attempted job → Highest v.attempts job.executionGeneration run.finalAttemptID

theorem RunView.Attempted.before (step : AttemptsStep attempts attempts')
    (attempted : ∃ attempt ∈ attempts', attempt.executionGeneration = generation) :
    ∃ attempt ∈ attempts, attempt.executionGeneration = generation := by
  obtain ⟨f, rfl, moves⟩ := step
  obtain ⟨attempt', member', own⟩ := attempted
  obtain ⟨attempt, member, rfl⟩ := List.mem_map.mp member'
  exact ⟨attempt, member, (moves attempt member).generation.symm.trans own⟩

theorem RunStep.named (step : RunStep rules runID v v') (proper : v.Proper)
    (numbered : v.Numbered) (strict : ∀ job, ¬rules.strands job) (named : v.Named) :
    v'.Named := by
  intro job' run' job_eq' run_eq' terminal attempted
  -- No attempt starts in a step after which the job is finished.
  have moves : AttemptsStep v.attempts v'.attempts := by
    refine (step.attempts_cases proper).resolve_right ?_
    rintro ⟨job, attempt, starts⟩
    cases starts.job_eq'.symm.trans job_eq'
    rw [starts.running] at terminal
    cases terminal
  have before := RunView.Attempted.before moves attempted
  suffices named : Highest v.attempts job'.executionGeneration run'.finalAttemptID from
    named.step moves
  cases step with
  | created | claimed | released | requeued =>
    cases job_eq'
    cases terminal
  | began _ running | renewed _ running | flagged _ running =>
    cases job_eq'
    simp [running, JobStatus.terminal] at terminal
  | retried _ _ _ _ _ _ waiting | reapedRetry _ _ _ _ _ _ _ _ waiting =>
    cases job_eq'
    rw [waiting] at terminal
    cases terminal
  | attemptStarted _ found held =>
    cases found.symm.trans job_eq'
    rw [held.running] at terminal
    cases terminal
  | marked _ locked | closedForRetry _ locked =>
    cases locked.job_eq.symm.trans job_eq'
    rw [locked.held.running] at terminal
    cases terminal
  | abandoned _ _ _ _ versioned =>
    rcases versioned with rfl | ⟨row, version, row_eq, rfl⟩
    · exact named job_eq' run_eq' terminal before
    · cases run_eq'
      have kept := named job_eq' row_eq terminal before
      exact kept
  | closed _ locked closing _ marks status same =>
    cases job_eq'
    cases run_eq'
    rw [same.executionGeneration]
    exact (locked.current numbered).highest numbered locked.job_eq locked.member
  | failedByJob found _ _ _ _ _ _ same =>
    cases job_eq'
    cases run_eq'
    rw [same.executionGeneration] at before ⊢
    exact latestOf_highest before
  | cancelledByJob found _ _ _ _ _ same =>
    cases job_eq'
    cases run_eq'
    rw [same.executionGeneration] at before ⊢
    obtain ⟨attempt, member, latest, rest⟩ := latestOf_highest before
    exact ⟨attempt, member, by rw [latest, Option.some_or], rest⟩
  | reapedCancelled found _ _ _ _ same _ allowed =>
    cases job_eq'
    cases run_eq'
    rw [same.executionGeneration] at before ⊢
    apply currentOf_highest numbered found
    by_contra none
    exact strict _ (allowed ⟨before, fun attempt member current =>
      none ⟨attempt, member, current⟩⟩)
  | reapedUnknown found _ _ _ _ _ member current _ _ _ same =>
    cases job_eq'
    cases run_eq'
    rw [same.executionGeneration]
    exact current.highest numbered found member
  | cancelled found _ _ _ allowed =>
    cases job_eq'
    exact absurd (allowed before) (strict _)

end Naming

section System

variable {handlers : Handlers} {s s' : SystemState} {a : Action Claim Oracle Move}

def LeavesNoAttempt (s : SystemState) : Action Claim Oracle Move → Prop
  | .perform claim _ => ∀ actor failure next,
      s.procs claim = some (.call (.store (.conditionalFinalizeFailure actor failure)) next) →
      failure.isTerminal = false → ∀ job ∈ s.world.db.jobs.rows, job.HeldBy actor →
        job.StartedDiagnosis → ¬(s.world.db.view job.resourceID).Unclosed job
  | .move (.request (.requestCancellation runID _) _) =>
    ∀ job, (s.world.db.view runID).job = some job → job.status ≠ .running →
      ¬(s.world.db.view runID).Attempted job
  | .move (.request (.reapExpiredJobs _ pick _) outside) =>
    ∀ job ∈ s.world.db.jobs.rows, job.Expired pick outside.now → job.jobType = .runDiagnosis →
      job.cancelRequested = true → ¬(s.world.db.view job.resourceID).Skipped job
  | _ => True

def closingRules : RunRules := { RunRules.free with strands := fun _ => False }

theorem LeavesNoAttempt.view (leaves : LeavesNoAttempt s a) (reachable : Reachable handlers s)
    (stepped : (system handlers).step s a = some s') :
    ViewStep closingRules s.world.db s'.world.db := by
  apply reachable.step_view stepped
  · exact fun _ => ⟨fun _ _ => trivial, fun _ _ => trivial, fun _ _ => trivial⟩
  · exact fun _ _ _ _ _ _ => trivial
  · rintro claim oracle call next rfl live
    cases call with
    | conditionalFinalizeFailure actor failure =>
      intro job member held started
      exact ⟨fun _ _ _ _ _ => trivial, fun nonterminal unclosed =>
        leaves actor failure next live nonterminal job member held started unclosed⟩
    | _ => trivial
  · rintro request outside rfl
    cases request with
    | requestCancellation => exact leaves
    | retryDiagnosis => exact fun _ _ => trivial
    | reapExpiredJobs =>
      intro job member expired
      exact ⟨fun _ _ _ _ _ _ => trivial, fun _ _ _ _ _ => trivial,
        leaves job member expired⟩
    | _ => trivial

/-- Where no step leaves an attempt behind, a finished diagnosis has no RUNNING attempt and names
the highest one of its last generation. -/
theorem finished_run_closed (run : RunWhere (system handlers) LeavesNoAttempt initial s)
    {row : DiagnosisRun} {job : AnalysisJob} (member : row ∈ s.world.db.runs.rows)
    (finished : row.status.terminal = true) (present : job ∈ s.world.db.jobs.rows)
    (owns : job.For .runDiagnosis row.id) :
    (∀ attempt ∈ s.world.db.attempts.rows, attempt.diagnosisRunID = row.id →
      attempt.status ≠ .running) ∧
    ((∃ attempt ∈ s.world.db.attempts.rows, attempt.Of row.id job.executionGeneration) →
      ∃ attempt ∈ s.world.db.attempts.rows, attempt.Of row.id job.executionGeneration ∧
        row.finalAttemptID = some attempt.id ∧
        ∀ other ∈ s.world.db.attempts.rows, other.Of row.id job.executionGeneration →
          other.attemptNo ≤ attempt.attemptNo) := by
  have begun : Reachable handlers initial := .start
  have reachable : Reachable handlers s := run.weaken fun _ _ _ => trivial
  have closed : (s.world.db.view row.id).Supervised ∧ (s.world.db.view row.id).Named :=
    begun.keeps_where (P := fun v => v.Supervised ∧ v.Named) run
      (fun there leaves stepped => leaves.view there stepped)
      (fun v v' proper sound step holds =>
        ⟨step.supervised proper sound.numbered (fun _ => id) holds.1,
          step.named proper sound.numbered (fun _ => id) holds.2⟩)
      ⟨fun _ member => absurd member List.not_mem_nil, fun job_eq => by cases job_eq⟩
  have run_eq : (s.world.db.view row.id).run = some row := view_run.mpr ⟨member, rfl⟩
  have job_eq : (s.world.db.view row.id).job = some job := view_job.mpr ⟨present, owns⟩
  have terminal : job.status.terminal = true := by
    have fits := (reachable.sound row.id).agrees.fits job_eq run_eq
    cases status : job.status with
    | succeeded | failed | cancelled => rfl
    | pending | running | retryWait =>
        rw [status] at fits
        rcases RunStatus.active_iff.mp fits with active | active <;> rw [active] at finished <;>
          cases finished
  constructor
  · intro attempt attemptMember own running
    refine closed.1.idle job_eq (fun open_ => ?_) attempt
      (view_attempt.mpr ⟨attemptMember, own⟩) running
    rw [open_.1] at terminal
    cases terminal
  · rintro ⟨attempt, attemptMember, own, generation⟩
    obtain ⟨highest, listed, named, sameGeneration, bound⟩ := closed.2 job_eq run_eq terminal
      ⟨attempt, view_attempt.mpr ⟨attemptMember, own⟩, generation⟩
    obtain ⟨there, ofRun⟩ := view_attempt.mp listed
    refine ⟨highest, there, ⟨ofRun, sameGeneration⟩, named, fun other otherMember otherOwn => ?_⟩
    exact bound other (view_attempt.mpr ⟨otherMember, otherOwn.1⟩) otherOwn.2

def isQuiet (s : SystemState) : Action Claim Oracle Move → Bool
  | .perform claim _ =>
    match s.procs claim with
    | some (.call (.store (.conditionalFinalizeFailure ..)) _) => false
    | _ => true
  | .move (.request (.requestCancellation ..) _) | .move (.request (.reapExpiredJobs ..) _) =>
    false
  | _ => true

theorem LeavesNoAttempt.of_quiet (quiet : isQuiet s a = true) : LeavesNoAttempt s a := by
  cases a with
  | perform claim oracle =>
    intro actor failure next live
    simp only [isQuiet, live] at quiet
    cases quiet
  | stop claim => trivial
  | move m =>
    cases m with
    | request request outside =>
      cases request with
      | requestCancellation | reapExpiredJobs => cases quiet
      | _ => trivial
    | _ => trivial

theorem diagnosisSucceeds_quietly :
    ((system plainHandlers).execWhile isQuiet initial diagnosisSucceeds).isSome = true := by
  decide +kernel

def quietlySucceeded : SystemState :=
  ((system plainHandlers).execWhile isQuiet initial diagnosisSucceeds).get
    diagnosisSucceeds_quietly

theorem succeeded_run_closed :
    succeededRun ∈ quietlySucceeded.world.db.runs.rows ∧
      ∀ attempt ∈ quietlySucceeded.world.db.attempts.rows, attempt.diagnosisRunID = "run" →
        attempt.status ≠ .running := by
  have run : RunWhere (system plainHandlers) LeavesNoAttempt initial quietlySucceeded :=
    Machine.execWhile_run (Option.some_get diagnosisSucceeds_quietly).symm
      fun _ _ quiet => .of_quiet quiet
  have member : succeededRun ∈ quietlySucceeded.world.db.runs.rows := by decide +kernel
  obtain ⟨job, present, owns⟩ :
      ∃ job ∈ quietlySucceeded.world.db.jobs.rows, job.For .runDiagnosis "run" := by
    decide +kernel
  exact ⟨member, (finished_run_closed run member rfl present owns).1⟩

def cancelledWhileWaiting : List (Action Claim Oracle Move) :=
  createSample :: attemptStarts "token" "attempt" ++
    [.stop (sampleClaim "token"), reapSample, cancelSample]

theorem cancelledWhileWaiting_runs :
    ((system plainHandlers).exec initial cancelledWhileWaiting).isSome = true := by
  decide +kernel

/-- The finished run names no attempt although its generation has one. -/
theorem cancelled_run_names_no_attempt :
    ∃ s : SystemState, Reachable plainHandlers s ∧
      (∃ run ∈ s.world.db.runs.rows, run.id = "run" ∧ run.status = .cancelled ∧
        run.finalAttemptID = none) ∧
      ∃ job ∈ s.world.db.jobs.rows, job.For .runDiagnosis "run" ∧
        ∃ attempt ∈ s.world.db.attempts.rows, attempt.Of "run" job.executionGeneration := by
  refine ⟨((system plainHandlers).exec initial cancelledWhileWaiting).get
    cancelledWhileWaiting_runs, Machine.exec_run (Option.some_get _).symm, ?_, ?_⟩
  · decide +kernel
  · decide +kernel

end System

end RepoLens
