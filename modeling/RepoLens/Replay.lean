import RepoLens.Dispatch

/-!
Automatic replay of provider calls. A worker that ends an execution with a provider call
unresolved asks for a terminal failure, and the reaper fails what a dead worker leaves.
-/

namespace RepoLens

open Relational Transaction Interleaving

section Views
variable {attempt attempt' : DiagnosisAttempt} {job : AnalysisJob} {rules : RunRules}
  {runID : String} {v v' : RunView}

/-- Where an unresolved attempt comes from: it was unresolved before, or the execution that has it
locked marks it now. -/
structure UnresolvedFrom (rules : RunRules) (v v' : RunView)
    (attempt attempt' : DiagnosisAttempt) : Prop where
  member : attempt ∈ v.attempts
  place : attempt.SamePlace attempt'
  marked : attempt.providerDispatchUnresolved = true ∨
    (v'.job = v.job ∧ ∃ claim job run, rules.acts claim ∧ v.Locked claim false job run attempt)
  status : attempt'.status = attempt.status ∨ attempt'.status = .abandoned ∨
    ∃ job', v'.job = some job' ∧ job'.status.terminal = true

theorem UnresolvedFrom.kept (member : attempt ∈ v.attempts)
    (unresolved : attempt.providerDispatchUnresolved = true) :
    UnresolvedFrom rules v v' attempt attempt :=
  ⟨member, ⟨rfl, rfl, rfl⟩, .inl unresolved, .inl rfl⟩

theorem UnresolvedFrom.rewritten (member : attempt ∈ v.attempts)
    (marks : attempt.SameMarks attempt') (unresolved : attempt'.providerDispatchUnresolved = true)
    (ended : attempt'.status = .abandoned ∨ ∃ job', v'.job = some job' ∧
      job'.status.terminal = true) :
    UnresolvedFrom rules v v' attempt attempt' :=
  ⟨member, marks.place, .inl (marks.providerDispatchUnresolved.symm.trans unresolved), .inr ended⟩

theorem RunStep.unresolved_cases (step : RunStep rules runID v v')
    (member' : attempt' ∈ v'.attempts) (unresolved : attempt'.providerDispatchUnresolved = true) :
    ∃ attempt, UnresolvedFrom rules v v' attempt attempt' := by
  -- A row that a bulk statement has closed kept its markers.
  have close : ∀ {p : DiagnosisAttempt → Prop} [DecidablePred p]
      {close : DiagnosisAttempt → DiagnosisAttempt}, v'.attempts = v.closeAttempts p close →
      (∀ row, (close row).content = row.content) →
      (∀ row, (close row).status = .abandoned ∨
        ∃ job', v'.job = some job' ∧ job'.status.terminal = true) →
      ∃ attempt, UnresolvedFrom rules v v' attempt attempt' := by
    intro p _ close written same ended
    rw [written] at member'
    obtain ⟨old, present, rfl⟩ := List.mem_map.mp member'
    by_cases hit : p old ∧ old.status = .running
    · rw [if_pos hit] at unresolved ⊢
      exact ⟨old, .rewritten present (DiagnosisAttempt.sameMarks_of_content (same old)) unresolved
        (ended old)⟩
    · rw [if_neg hit] at unresolved ⊢
      exact ⟨old, .kept present unresolved⟩
  -- So did a row that was written on its own, unless it is the one that is marked.
  have put : ∀ (row : DiagnosisAttempt) {row' : DiagnosisAttempt}, v'.attempts = v.putAttempt row' →
      (row'.providerDispatchUnresolved = true → UnresolvedFrom rules v v' row row') →
      ∃ attempt, UnresolvedFrom rules v v' attempt attempt' := by
    intro row row' written own
    rw [written] at member'
    rcases RunView.of_mem_putAttempt member' with rfl | ⟨old, -⟩
    · exact ⟨row, own unresolved⟩
    · exact ⟨attempt', .kept old unresolved⟩
  cases step with
  | created | claimed | began | released | renewed | retried | flagged | cancelled | requeued =>
    exact ⟨attempt', .kept member' unresolved⟩
  | attemptStarted _ _ _ _ _ _ _ _ _ _ _ _ resolved =>
    rcases List.mem_append.mp member' with old | new
    · exact ⟨attempt', .kept old unresolved⟩
    · cases List.mem_singleton.mp new
      cases resolved.symm.trans unresolved
  | marked acting locked mark =>
    apply put _ rfl
    intro _
    refine ⟨locked.member, mark.place, .inr ⟨rfl, _, _, _, acting, locked⟩, .inl ?_⟩
    cases mark <;> rfl
  | closedForRetry _ locked resolved marks =>
    apply put attempt' rfl
    intro marked
    cases (marks.providerDispatchUnresolved.trans resolved).symm.trans marked
  | abandoned member _ content closed =>
    apply put _ rfl
    intro marked
    exact .rewritten member (DiagnosisAttempt.sameMarks_of_content content) marked (.inl closed)
  | closed _ locked closing _ marks _ _ status =>
    apply put _ rfl
    intro marked
    refine .rewritten locked.member marks marked (.inr ⟨_, rfl, ?_⟩)
    rw [status]
    cases closing <;> rfl
  | reapedUnknown _ _ _ _ _ _ member _ _ content _ _ status =>
    apply put _ rfl
    intro marked
    refine .rewritten member (DiagnosisAttempt.sameMarks_of_content content) marked
      (.inr ⟨_, rfl, ?_⟩)
    rw [status]
    rfl
  | failedByJob _ _ _ _ _ _ _ _ status | cancelledByJob _ _ _ _ _ _ _ status
  | reapedCancelled _ _ _ _ _ _ status =>
    refine close rfl (fun _ => rfl) fun _ => .inr ⟨_, rfl, ?_⟩
    rw [status]
    rfl
  | reapedRetry _ _ _ _ _ content closed => exact close rfl content fun row => .inl (closed row)

/-- The job of an unresolved attempt. -/
def Standing (job : AnalysisJob) (attempt : DiagnosisAttempt) : Prop :=
  attempt.executionGeneration < job.executionGeneration ∨
    (RunView.Current job attempt ∧
      (job.status = .failed ∨ job.status = .cancelled ∨
        (job.status = .running ∧ job.executionStarted = true ∧
          (attempt.status = .running ∨ attempt.status = .abandoned))))

structure RunView.Unreplayed (v : RunView) : Prop where
  last : ∀ attempt ∈ v.attempts, attempt.providerDispatchUnresolved = true →
    ∀ other ∈ v.attempts, other.executionGeneration = attempt.executionGeneration →
      other.attemptNo ≤ attempt.attemptNo
  standing : ∀ attempt ∈ v.attempts, attempt.providerDispatchUnresolved = true →
    ∀ {job}, v.job = some job → Standing job attempt

theorem RunView.Locked.standing {claim : Claim} {cancelled : Bool} {run : DiagnosisRun}
    (locked : v.Locked claim cancelled job run attempt) (numbered : v.Numbered) :
    Standing job attempt :=
  .inr ⟨locked.current numbered,
    .inr (.inr ⟨locked.held.running, locked.started, .inl locked.unclosed⟩)⟩

theorem Standing.older (standing : Standing job attempt)
    (waiting : job.status ≠ .failed ∧ job.status ≠ .cancelled ∧
      ¬(job.status = .running ∧ job.executionStarted = true)) :
    attempt.executionGeneration < job.executionGeneration := by
  obtain ⟨notFailed, notCancelled, idle⟩ := waiting
  rcases standing with older | ⟨-, failed | cancelled | ⟨running, started, -⟩⟩
  · exact older
  · exact absurd failed notFailed
  · exact absurd cancelled notCancelled
  · exact absurd ⟨running, started⟩ idle

def RunRules.Honest (rules : RunRules) (v : RunView) : Prop :=
  ∀ job, v.job = some job → job.executionStarted = true → job.cancelRequested = false →
    rules.excused job → v.Resolved job

theorem RunStep.standing (step : RunStep rules runID v v') (proper : v.Proper)
    (numbered : v.Numbered) (honest : rules.Honest v)
    (origin : UnresolvedFrom rules v v' attempt attempt')
    (before : ∀ {job}, v.job = some job → Standing job attempt) {job' : AnalysisJob}
    (job_eq' : v'.job = some job') : Standing job' attempt' := by
  obtain ⟨member, place, marked, kept⟩ := origin
  have older : ∀ {job : AnalysisJob}, attempt.executionGeneration < job.executionGeneration →
      job'.executionGeneration = job.executionGeneration → Standing job' attempt' := by
    intro job less same
    left
    rw [place.generation, same]
    exact less
  -- A job that goes on RUNNING: the attempt stays as it is or is abandoned.
  have running : ∀ {job : AnalysisJob}, v.job = some job → job.status = .running →
      job.executionStarted = true → job'.executionGeneration = job.executionGeneration →
      job'.attemptCount = job.attemptCount → job'.status = .running →
      job'.executionStarted = true → Standing job' attempt' := by
    intro job job_eq active started generation count active' started'
    rcases before job_eq with less | ⟨current, closed⟩
    · exact older less generation
    · right
      refine ⟨?_, .inr (.inr ⟨active', started', ?_⟩)⟩
      · rw [RunView.Current, place.generation, place.number, generation, count]
        exact current
      · rcases closed with failed | cancelled | ⟨-, -, unclosed⟩
        · cases active.symm.trans failed
        · cases active.symm.trans cancelled
        · rcases kept with same | abandoned | ⟨other, found, terminal⟩
          · rw [same]
            exact unclosed
          · exact .inr abandoned
          · cases found.symm.trans job_eq'
            rw [active'] at terminal
            cases terminal
  -- A job that ends FAILED or CANCELLED.
  have ended : ∀ {job : AnalysisJob}, v.job = some job → job.SameExecution job' →
      job'.status = .failed ∨ job'.status = .cancelled → Standing job' attempt' := by
    intro job job_eq same closed
    rcases before job_eq with less | ⟨current, -⟩
    · exact older less same.executionGeneration
    · right
      refine ⟨?_, closed.imp_right .inl⟩
      rw [RunView.Current, place.generation, place.number, same.executionGeneration,
        same.attemptCount]
      exact current
  -- A job that waits for another execution: its current attempt was resolved.
  have waits : ∀ {job : AnalysisJob}, v.job = some job → job.SameExecution job' →
      (job.status = .running → attempt.providerDispatchUnresolved = true →
        attempt.status = .running ∨ attempt.status = .abandoned → ¬RunView.Current job attempt) →
      job.status = .running → job'.status = .retryWait → Standing job' attempt' := by
    intro job job_eq same settled active waiting
    rcases before job_eq with less | ⟨current, failed | cancelled | ⟨-, -, unclosed⟩⟩
    · exact older less same.executionGeneration
    · cases active.symm.trans failed
    · cases active.symm.trans cancelled
    · rcases marked with unresolved | ⟨same, -⟩
      · exact absurd current (settled active unresolved unclosed)
      · cases job_eq.symm.trans (same.symm.trans job_eq')
        cases active.symm.trans waiting
  cases step with
  | created noJob =>
    rw [(numbered.idle noJob).1] at member
    cases member
  | claimed found waiting | cancelled found waiting =>
    cases job_eq'
    refine older ((before found).older ?_) rfl
    rcases waiting with status | status <;> simp [status]
  | began found active unstarted | released found active unstarted =>
    cases job_eq'
    refine older ((before found).older ?_) rfl
    simp [active, unstarted]
  | renewed found active | flagged found active =>
    cases job_eq'
    rcases before found with less | standing
    · exact older less rfl
    · obtain ⟨current, failed | cancelled | ⟨-, started, -⟩⟩ := standing
      · cases active.symm.trans failed
      · cases active.symm.trans cancelled
      · exact running found active started rfl rfl active started
  | retried found active started unflagged settled same waiting =>
    cases job_eq'
    refine waits found same (fun _ unresolved _ current => ?_) active waiting
    have resolved : v.Resolved _ := settled.elim id (honest _ found started unflagged)
    cases unresolved.symm.trans (resolved attempt member current)
  | attemptStarted _ found held started =>
    cases found.symm.trans job_eq'
    exact running found held.running started rfl rfl held.running started
  | marked _ locked | closedForRetry _ locked =>
    cases locked.job_eq.symm.trans job_eq'
    exact running locked.job_eq locked.held.running locked.started rfl rfl locked.held.running
      locked.started
  | abandoned there unclosed =>
    rcases before job_eq' with less | ⟨current, failed | cancelled | ⟨active, started, -⟩⟩
    · exact older less rfl
    · exact .inr ⟨by rw [RunView.Current, place.generation, place.number]; exact current,
        .inl failed⟩
    · exact .inr ⟨by rw [RunView.Current, place.generation, place.number]; exact current,
        .inr (.inl cancelled)⟩
    · exact running job_eq' active started rfl rfl active started
  | closed _ locked closing resolved _ _ same status =>
    cases job_eq'
    cases closing with
    | succeeded =>
      -- The attempt that succeeds is resolved, so the unresolved one is older.
      rcases before locked.job_eq with less | ⟨current, -⟩
      · exact older less same.executionGeneration
      · cases RunView.Current.same proper member locked.member current
          (locked.current numbered)
        rcases marked with unresolved | ⟨unchanged, -⟩
        · cases unresolved.symm.trans (resolved rfl)
        · cases locked.job_eq.symm.trans unchanged.symm
          cases locked.held.running.symm.trans status
    | invalid | failed => exact ended locked.job_eq same (.inl status)
    | cancelled => exact ended locked.job_eq same (.inr status)
  | failedByJob found _ _ _ _ _ _ same status
  | reapedUnknown found _ _ _ _ _ _ _ _ _ _ same status =>
    cases job_eq'
    exact ended found same (.inl status)
  | cancelledByJob found _ _ _ _ _ same status | reapedCancelled found _ _ _ _ same status =>
    cases job_eq'
    exact ended found same (.inr status)
  | reapedRetry found active _ _ known _ _ same waiting =>
    cases job_eq'
    refine waits found same (fun _ unresolved unclosed current => ?_) active waiting
    cases unresolved.symm.trans (known attempt member current unclosed)
  | requeued found =>
    cases job_eq'
    left
    rw [place.generation]
    rcases before found with less | ⟨current, -⟩
    · exact Nat.lt_succ_of_lt less
    · exact Nat.lt_succ_of_le current.1.le

theorem RunStep.unreplayed (step : RunStep rules runID v v') (proper : v.Proper)
    (numbered : v.Numbered) (honest : rules.Honest v) (unreplayed : v.Unreplayed) :
    v'.Unreplayed := by
  have numbered' := step.numbered proper numbered
  -- What holds of an attempt that is unresolved afterwards holds of its origin before.
  have standing : ∀ {attempt attempt'}, UnresolvedFrom rules v v' attempt attempt' →
      ∀ {job}, v.job = some job → Standing job attempt := by
    intro attempt attempt' origin job job_eq
    rcases origin.marked with unresolved | ⟨-, claim, owner, run, -, locked⟩
    · exact unreplayed.standing attempt origin.member unresolved job_eq
    · cases locked.job_eq.symm.trans job_eq
      exact locked.standing numbered
  constructor
  · intro attempt' member' unresolved other' otherMember' same
    obtain ⟨attempt, origin⟩ := step.unresolved_cases member' unresolved
    have place := origin.place
    rw [place.number]
    rw [place.generation] at same
    rcases step.attempts_cases proper with ⟨f, rows, moves⟩ | ⟨job, started, starts⟩
    · rw [rows] at otherMember'
      obtain ⟨other, otherMember, rfl⟩ := List.mem_map.mp otherMember'
      rw [(moves other otherMember).number]
      rw [(moves other otherMember).generation] at same
      rcases origin.marked with marked | ⟨-, claim, owner, run, -, locked⟩
      · exact unreplayed.last attempt origin.member marked other otherMember same
      · obtain ⟨generation, number⟩ := locked.current numbered
        have bounded := numbered.bounded locked.job_eq other otherMember
        omega
    · -- A new attempt has the number of the execution, and so has the unresolved one.
      have bounded := numbered'.bounded starts.job_eq' other' otherMember'
      rcases standing origin starts.job_eq with older | ⟨⟨generation, number⟩, -⟩
      · rw [starts.attempts_eq] at otherMember'
        rcases List.mem_append.mp otherMember' with old | new
        · rcases origin.marked with marked | ⟨-, claim, owner, run, -, locked⟩
          · exact unreplayed.last attempt origin.member marked other' old same
          · cases locked.job_eq.symm.trans starts.job_eq
            have current := locked.generation
            omega
        · cases List.mem_singleton.mp new
          have current := starts.generation
          omega
      · omega
  · intro attempt' member' unresolved job' job_eq'
    obtain ⟨attempt, origin⟩ := step.unresolved_cases member' unresolved
    exact step.standing proper numbered honest origin (standing origin) job_eq'

theorem RunStep.generation (step : RunStep rules runID v v') (job_eq : v.job = some job) :
    ∃ job', v'.job = some job' ∧ (job'.executionGeneration = job.executionGeneration ∨
      ∃ run, v.run = some run ∧ rules.requeues run) := by
  cases step with
  | created noJob => cases noJob.symm.trans job_eq
  | claimed found | began found | released found | renewed found | flagged found
  | cancelled found =>
    cases found.symm.trans job_eq
    exact ⟨_, rfl, .inl rfl⟩
  | retried found _ _ _ _ same | failedByJob found _ _ _ _ _ _ same
  | cancelledByJob found _ _ _ _ _ same | reapedCancelled found _ _ _ _ same
  | reapedUnknown found _ _ _ _ _ _ _ _ _ _ same | reapedRetry found _ _ _ _ _ _ same =>
    cases found.symm.trans job_eq
    exact ⟨_, rfl, .inl same.executionGeneration⟩
  | closed _ locked _ _ _ _ same =>
    cases locked.job_eq.symm.trans job_eq
    exact ⟨_, rfl, .inl same.executionGeneration⟩
  | attemptStarted | marked | closedForRetry | abandoned => exact ⟨job, job_eq, .inl rfl⟩
  | requeued found _ run_eq _ allowed =>
    cases found.symm.trans job_eq
    exact ⟨_, rfl, .inr ⟨_, run_eq, allowed⟩⟩

theorem RunStep.executing (step : RunStep rules runID v v') {job' : AnalysisJob}
    (job_eq' : v'.job = some job') (running : job'.status = .running)
    (started : job'.executionStarted = true) :
    ∃ job, v.job = some job ∧
      ((job.Continues job' ∧ ∀ claim, job'.HeldBy claim → job.HeldBy claim) ∨
        (v'.attempts = v.attempts ∧ job'.executionGeneration = job.executionGeneration ∧
          job'.attemptCount = job.attemptCount + 1)) := by
  have ended : ∀ {status : JobStatus}, job'.status = status → status ≠ .running → False :=
    fun same other => other (same.symm.trans running)
  cases step with
  | created =>
    cases job_eq'
    cases started
  | claimed =>
    cases job_eq'
    cases started
  | released | requeued | cancelled =>
    cases job_eq'
    cases running
  | began found =>
    cases job_eq'
    exact ⟨_, found, .inr ⟨rfl, rfl, rfl⟩⟩
  | renewed found =>
    cases job_eq'
    exact ⟨_, found, .inl ⟨⟨rfl, rfl, rfl, rfl, rfl, rfl, rfl, id⟩, fun _ held => held⟩⟩
  | flagged found =>
    cases job_eq'
    exact ⟨_, found, .inl ⟨⟨rfl, rfl, rfl, rfl, rfl, rfl, rfl, fun _ => rfl⟩, fun _ held => held⟩⟩
  | attemptStarted | marked | closedForRetry | abandoned =>
    exact ⟨job', job_eq', .inl ⟨.refl job', fun _ held => held⟩⟩
  | retried _ _ _ _ _ _ status | reapedRetry _ _ _ _ _ _ _ _ status
  | failedByJob _ _ _ _ _ _ _ _ status | cancelledByJob _ _ _ _ _ _ _ status
  | reapedCancelled _ _ _ _ _ _ status | reapedUnknown _ _ _ _ _ _ _ _ _ _ _ _ status =>
    cases job_eq'
    exact (ended status JobStatus.noConfusion).elim
  | closed _ _ closing _ _ _ _ status =>
    cases job_eq'
    refine (ended status ?_).elim
    cases closing <;> exact JobStatus.noConfusion

end Views

section System

variable {handlers : Handlers} {s s' : SystemState} {a : Action Claim Oracle Move}

def AnalysisJob.MayRetry (job : AnalysisJob) : Prop :=
  job.StartedDiagnosis ∧ job.attemptCount < job.maxAttempts

/-- The step puts no cause that asks for a retry in the place of a handler's failure policy
while a provider call of the attempt is unresolved. -/
def KeepsPolicy (s : SystemState) : Action Claim Oracle Move → Prop
  | .perform claim _ => ∀ policy cause next,
      s.procs claim = some (.call (.dropPolicy policy cause) next) →
      (classifyError cause).1 = .retryable → ∀ job ∈ s.world.db.jobs.rows, job.HeldBy claim →
        job.MayRetry → (s.world.db.view job.resourceID).Resolved job
  | _ => True

def World.Answers (w : World) (claim : Claim) : Prop :=
  ∀ job ∈ w.db.jobs.rows, job.HeldBy claim → job.MayRetry →
    (w.db.view job.resourceID).Resolved job

theorem World.Answers.step {rules : RunRules} {w w' : World} {claim : Claim}
    (answers : w.Answers claim) (inv : w.Inv) (views : ViewStep rules w.db w'.db)
    (passive : ¬rules.acts claim) : w'.Answers claim := by
  intro job' member' held' retry' attempt' present' current'
  have diagnosis := retry'.1.1
  have job_eq' : (w'.db.view job'.resourceID).job = some job' :=
    view_job.mpr ⟨member', diagnosis, rfl⟩
  by_contra open_
  have unresolved : attempt'.providerDispatchUnresolved = true := by simpa using open_
  rcases views job'.resourceID with same | step
  · rw [same] at job_eq' present'
    have member := (view_job.mp job_eq').1
    exact open_ (answers job' member held' retry' attempt' present' current')
  obtain ⟨attempt, origin⟩ := step.unresolved_cases present' unresolved
  have place := origin.place
  obtain ⟨job, job_eq, ⟨continues, holds⟩ | ⟨rows, generation, count⟩⟩ :=
    step.executing job_eq' held'.running retry'.1.2.1
  · have held := holds claim held'
    rcases origin.marked with marked | ⟨-, actor, owner, run, acting, locked⟩
    · obtain ⟨member, -, resource⟩ := view_job.mp job_eq
      have unflagged : job.cancelRequested = false := by
        by_contra flag
        cases retry'.1.2.2.symm.trans (continues.flag (by simpa using flag))
      have retry : job.MayRetry := by
        refine ⟨⟨continues.jobType.symm.trans diagnosis,
          continues.executionStarted.symm.trans retry'.1.2.1, unflagged⟩, ?_⟩
        rw [← continues.attemptCount, ← continues.maxAttempts]
        exact retry'.2
      have current : RunView.Current job attempt := by
        rw [RunView.Current, ← place.generation, ← place.number, ← continues.executionGeneration,
          ← continues.attemptCount]
        exact current'
      have resolved := answers job member held retry
      rw [resource] at resolved
      cases marked.symm.trans (resolved attempt origin.member current)
    · cases locked.job_eq.symm.trans job_eq
      cases locked.held.unique held
      exact passive acting
  · -- No attempt has the number of an execution that has just been charged.
    have bounded := (inv.sound job'.resourceID).numbered.bounded job_eq attempt origin.member
    have sameGeneration := current'.1
    have sameNumber := current'.2
    rw [place.generation] at sameGeneration
    rw [place.number] at sameNumber
    omega

def replayRules (w : World) : RunRules :=
  { RunRules.free with
    excused := fun job => job.StartedDiagnosis → (w.db.view job.resourceID).Resolved job
    acts := fun claim => ¬w.Overridden claim }

theorem Reachable.step_replay (reachable : Reachable handlers s)
    (answered : ∀ claim, s.world.Overridden claim → s.world.Answers claim)
    (stepped : (system handlers).step s a = some s') :
    ViewStep (replayRules s.world) s.world.db s'.world.db := by
  apply reachable.step_view stepped
  · refine fun claim => ⟨?_, fun _ _ => trivial, fun _ _ => trivial⟩
    rintro actor ⟨rfl, undropped⟩ ⟨policy, cause, recorded, -⟩
    exact undropped ⟨policy, cause, recorded⟩
  · exact fun claim overridden job member held left started =>
      answered claim overridden job member held ⟨started, left⟩
  · exact fun _ _ call _ _ _ => call.aborting (fun _ => trivial) (fun _ => trivial) s.world.db
  · exact fun request outside _ => request.granted (fun _ => trivial) (fun _ => trivial)
      (fun _ => trivial) (fun _ => trivial) s.world.db outside

theorem Reachable.overridden_cases (reachable : Reachable handlers s)
    (stepped : (system handlers).step s a = some s') {claim : Claim}
    (overridden : s'.world.Overridden claim) :
    s.world.Overridden claim ∨ (s'.world.db = s.world.db ∧ ∃ oracle policy cause next,
      a = .perform claim oracle ∧ s.procs claim = some (.call (.dropPolicy policy cause) next) ∧
      (classifyError cause).1 = .retryable) := by
  obtain ⟨policy, cause, recorded, retryable⟩ := overridden
  rcases reachable.step_cases stepped with
    ⟨actor, oracle, c, next, reply, rfl, live, allowed, performed⟩ | same | ⟨m, started, -, moved⟩
  · by_cases store : ∃ call, c = .store call
    · obtain ⟨call, rfl⟩ := store
      rw [(World.perform_store performed).log] at recorded
      rcases List.mem_append.mp recorded with new | old
      · exact absurd new StoreCall.events_undropped
      · exact .inl ⟨policy, cause, old, retryable⟩
    · have world := World.perform_other (fun call same => store ⟨call, same⟩) performed
      rw [world] at recorded ⊢
      rcases List.mem_append.mp recorded with new | old
      · cases c with
        | dropPolicy =>
          cases List.mem_singleton.mp new
          exact .inr ⟨rfl, oracle, policy, cause, next, rfl, live, retryable⟩
        | store call => exact absurd ⟨call, rfl⟩ store
        | dispatch | receive | invokeHandler | recordFinalizationError =>
          cases List.mem_singleton.mp new
        | _ => cases new
      · exact .inl ⟨policy, cause, old, retryable⟩
  · rw [same] at recorded
    exact .inl ⟨policy, cause, recorded, retryable⟩
  · rw [moved.log] at recorded
    exact .inl ⟨policy, cause, recorded, retryable⟩

def RetriesRun (runID : String) (a : Action Claim Oracle Move) : Prop :=
  ∃ outside, a = .move (.request (.retryDiagnosis runID) outside)

theorem Reachable.step_retrying (reachable : Reachable handlers s)
    (stepped : (system handlers).step s a = some s') :
    ViewStep { RunRules.free with requeues := fun run => RetriesRun run.id a } s.world.db
      s'.world.db := by
  apply reachable.step_view stepped
  · exact fun _ => ⟨fun _ _ => trivial, fun _ _ => trivial, fun _ _ => trivial⟩
  · exact fun _ _ _ _ _ _ => trivial
  · exact fun _ _ call _ _ _ => call.aborting (fun _ => trivial) (fun _ => trivial) s.world.db
  · rintro request outside rfl
    cases request with
    | requestCancellation => exact fun _ _ _ _ => trivial
    | retryDiagnosis runID =>
      rintro run rfl
      exact ⟨outside, rfl⟩
    | reapExpiredJobs => exact fun _ _ _ =>
      ⟨fun _ _ _ _ _ _ => trivial, fun _ _ _ _ _ => trivial, fun _ _ _ => trivial⟩
    | _ => trivial

theorem unreplayed_of_run (run : RunWhere (system handlers) KeepsPolicy initial s) :
    (∀ claim, s.world.Overridden claim → s.world.Answers claim) ∧
      ∀ runID, (s.world.db.view runID).Unreplayed := by
  induction run with
  | start =>
    refine ⟨fun claim overridden => ?_, fun runID => ⟨?_, ?_⟩⟩
    · obtain ⟨_, _, recorded, -⟩ := overridden
      cases recorded
    · exact fun attempt member => absurd member List.not_mem_nil
    · exact fun attempt member => absurd member List.not_mem_nil
  | @step s₁ s₂ a first keeps stepped ih =>
    obtain ⟨answered, unreplayed⟩ := ih
    have reachable : Reachable handlers s₁ := first.weaken fun _ _ _ => trivial
    have views := reachable.step_replay answered stepped
    constructor
    · intro claim overridden
      rcases reachable.overridden_cases stepped overridden with old |
        ⟨same, oracle, policy, cause, next, rfl, live, retryable⟩
      · exact (answered claim old).step reachable.holds.inv views fun acts => acts old
      · rw [World.Answers, same]
        exact keeps policy cause next live retryable
    · intro runID
      rcases views runID with same | step
      · rw [same]
        exact unreplayed runID
      · apply step.unreplayed (s₁.world.db.view_proper runID)
          (reachable.holds.inv.sound runID).numbered ?_ (unreplayed runID)
        intro job job_eq started unflagged excused
        obtain ⟨-, diagnosis, resource⟩ := view_job.mp job_eq
        rw [← resource]
        exact excused ⟨diagnosis, started, unflagged⟩

theorem Reachable.keeps_generation {runID : String} (reachable : Reachable handlers s)
    (run : RunWhere (system handlers) (fun _ a => ¬RetriesRun runID a) s s')
    (job_eq : (s.world.db.view runID).job = some job) :
    ∃ job', (s'.world.db.view runID).job = some job' ∧
      job'.executionGeneration = job.executionGeneration := by
  induction run with
  | start => exact ⟨job, job_eq, rfl⟩
  | @step s₁ s₂ a first quiet stepped ih =>
    obtain ⟨job₁, job_eq₁, kept⟩ := ih
    have there : Reachable handlers s₁ :=
      RunWhere.trans reachable (first.weaken fun _ _ _ => trivial)
    rcases there.step_retrying stepped runID with same | step
    · rw [same]
      exact ⟨job₁, job_eq₁, kept⟩
    · obtain ⟨job₂, job_eq₂, generation | ⟨run, run_eq, requeued⟩⟩ := step.generation job_eq₁
      · exact ⟨job₂, job_eq₂, generation.trans kept⟩
      · obtain ⟨outside, sent⟩ := requeued
        rw [(view_run.mp run_eq).2] at sent
        exact absurd ⟨outside, sent⟩ quiet

/-- Where every policy is kept, an attempt with an unresolved provider call is the last one of its
generation, and its job is RUNNING, FAILED or CANCELLED until the user asks for a retry. -/
theorem no_provider_replay (run : RunWhere (system handlers) KeepsPolicy initial s)
    {attempt : DiagnosisAttempt} (member : attempt ∈ s.world.db.attempts.rows)
    (unresolved : attempt.providerDispatchUnresolved = true) :
    (∀ other ∈ s.world.db.attempts.rows,
      other.Of attempt.diagnosisRunID attempt.executionGeneration →
      other.attemptNo ≤ attempt.attemptNo) ∧
    (∀ execution, .dispatched execution ∈ s.world.log →
      execution.runID = attempt.diagnosisRunID →
      execution.generation = attempt.executionGeneration →
      execution.attemptNo ≤ attempt.attemptNo) ∧
    ∃ job ∈ s.world.db.jobs.rows, job.For .runDiagnosis attempt.diagnosisRunID ∧
      (attempt.executionGeneration < job.executionGeneration ∨
        (job.executionGeneration = attempt.executionGeneration ∧
          (job.status = .running ∨ job.status = .failed ∨ job.status = .cancelled))) ∧
      ∀ s', RunWhere (system handlers) (fun _ a => ¬RetriesRun attempt.diagnosisRunID a) s s' →
        ∃ job' ∈ s'.world.db.jobs.rows, job'.For .runDiagnosis attempt.diagnosisRunID ∧
          job'.executionGeneration = job.executionGeneration := by
  have reachable : Reachable handlers s := run.weaken fun _ _ _ => trivial
  have unreplayed := (unreplayed_of_run run).2 attempt.diagnosisRunID
  have listed : attempt ∈ (s.world.db.view attempt.diagnosisRunID).attempts :=
    view_attempt.mpr ⟨member, rfl⟩
  have last := unreplayed.last attempt listed unresolved
  refine ⟨?_, ?_, ?_⟩
  · intro other otherMember own
    exact last other (view_attempt.mpr ⟨otherMember, own.1⟩) own.2
  · -- A provider call went out for an attempt that is still there.
    intro execution sent own generation
    obtain ⟨row, present, -, rowGeneration, number, -⟩ := reachable.tracked.marked execution sent
    rw [own] at present
    rw [← number]
    exact last row present (rowGeneration.trans generation)
  · cases job_eq : (s.world.db.view attempt.diagnosisRunID).job with
    | none =>
        rw [((reachable.sound _).numbered.idle job_eq).1] at listed
        cases listed
    | some job =>
        obtain ⟨present, owns⟩ := view_job.mp job_eq
        refine ⟨job, present, owns, ?_, fun s' continued => ?_⟩
        · rcases unreplayed.standing attempt listed unresolved job_eq with older |
            ⟨current, failed | cancelled | ⟨running, -⟩⟩
          · exact .inl older
          · exact .inr ⟨current.1.symm, .inr (.inl failed)⟩
          · exact .inr ⟨current.1.symm, .inr (.inr cancelled)⟩
          · exact .inr ⟨current.1.symm, .inl running⟩
        · obtain ⟨job', job_eq', generation⟩ := reachable.keeps_generation continued job_eq
          obtain ⟨present', owns'⟩ := view_job.mp job_eq'
          exact ⟨job', present', owns', generation⟩

def isFaithful (s : SystemState) : Action Claim Oracle Move → Bool
  | .perform claim _ =>
    match s.procs claim with
    | some (.call (.dropPolicy ..) _) => false
    | _ => true
  | _ => true

theorem KeepsPolicy.of_faithful (faithful : isFaithful s a = true) : KeepsPolicy s a := by
  cases a with
  | perform claim oracle =>
    intro policy cause next live
    simp only [isFaithful, live] at faithful
    cases faithful
  | stop | move => trivial

def deadWorkerReaped : List (Action Claim Oracle Move) := workerDies ++ [reapSample]

theorem deadWorkerReaped_faithfully :
    ((system plainHandlers).execWhile isFaithful initial deadWorkerReaped).isSome = true := by
  decide +kernel

def reapedDeadWorker : SystemState :=
  ((system plainHandlers).execWhile isFaithful initial deadWorkerReaped).get
    deadWorkerReaped_faithfully

theorem reaped_call_not_replayed :
    ∃ attempt ∈ reapedDeadWorker.world.db.attempts.rows,
      attempt.providerDispatchUnresolved = true ∧
      ∀ execution, .dispatched execution ∈ reapedDeadWorker.world.log →
        execution.runID = attempt.diagnosisRunID →
        execution.generation = attempt.executionGeneration →
        execution.attemptNo ≤ attempt.attemptNo := by
  have run : RunWhere (system plainHandlers) KeepsPolicy initial reapedDeadWorker :=
    Machine.execWhile_run (Option.some_get deadWorkerReaped_faithfully).symm
      fun _ _ faithful => .of_faithful faithful
  obtain ⟨attempt, member, unresolved⟩ : ∃ attempt ∈ reapedDeadWorker.world.db.attempts.rows,
      attempt.providerDispatchUnresolved = true := by
    decide +kernel
  exact ⟨attempt, member, unresolved, (no_provider_replay run member unresolved).2.1⟩

def unreachable (token : String) : Action Claim Oracle Move :=
  .perform (sampleClaim token) (.store (.lost (.driver "connection reset")) .any)

def outageReplays : List (Action Claim Oracle Move) :=
  createSample :: attemptStarts "token" "attempt" ++ providerCall "token" .success ++
    [answered "token", .perform (sampleClaim "token") (.agent (.finish sampleResult)),
      unreachable "token", unreachable "token",
      .move (.endContext (sampleClaim "token") (.leaseFailure (.driver "connection reset")) .any),
      answered "token", .perform (sampleClaim "token") .ok, .perform (sampleClaim "token") .ok,
      .perform (sampleClaim "token") (.time 0), .perform (sampleClaim "token") (.flag false),
      answered "token"] ++
    attemptStarts "second" "retry" ++ providerCall "second" .success

theorem outageReplays_runs :
    ((system plainHandlers).exec initial outageReplays).isSome = true := by
  decide +kernel

def replayedState : SystemState :=
  ((system plainHandlers).exec initial outageReplays).get outageReplays_runs

/-- The second attempt of a generation calls the provider although the call of the first one
is unresolved. -/
theorem unresolved_call_replayed :
    ∃ s : SystemState, Reachable plainHandlers s ∧
      ∃ attempt ∈ s.world.db.attempts.rows, attempt.providerDispatchUnresolved = true ∧
        ∃ execution, .dispatched execution ∈ s.world.log ∧
          execution.runID = attempt.diagnosisRunID ∧
          execution.generation = attempt.executionGeneration ∧
          attempt.attemptNo < execution.attemptNo := by
  refine ⟨replayedState, Machine.exec_run (Option.some_get outageReplays_runs).symm, ?_⟩
  obtain ⟨attempt, member, unresolved, event, logged, execution, -, rfl, later⟩ :
      ∃ attempt ∈ replayedState.world.db.attempts.rows,
        attempt.providerDispatchUnresolved = true ∧
        ∃ event ∈ replayedState.world.log, ∃ execution ∈ event.execution,
          event = .dispatched execution ∧ execution.runID = attempt.diagnosisRunID ∧
          execution.generation = attempt.executionGeneration ∧
          attempt.attemptNo < execution.attemptNo := by
    decide +kernel
  exact ⟨attempt, member, unresolved, execution, logged, later⟩

end System

end RepoLens
