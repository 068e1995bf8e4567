import RepoLens.Agreement

/-!
Who may still write to an attempt. The attempt of a charged execution belongs to the claim that
holds the job; once that claim is gone, no later claim executes under the same number, so the
attempt's dispatch markers and checkpoint are final.
-/

namespace RepoLens

open Relational Transaction

variable {rules : RunRules} {runID : String} {v v' : RunView} {claim : Claim}
  {generation number : Nat}

def RunView.contentsUpTo (v : RunView) (generation number : Nat) : List DiagnosisAttempt :=
  (v.attempts.map DiagnosisAttempt.content).filter fun attempt =>
    attempt.executionGeneration = generation ∧ attempt.attemptNo ≤ number

def AnalysisJob.Beyond (job : AnalysisJob) (generation number : Nat) : Prop :=
  generation < job.executionGeneration ∨
    (generation = job.executionGeneration ∧
      (number < job.attemptCount ∨
        (number = job.attemptCount ∧
          ¬(job.status = .running ∧ job.executionStarted = true))))

def AnalysisJob.ExecutedBy (job : AnalysisJob) (claim : Claim) (generation number : Nat) : Prop :=
  job.HeldBy claim ∧ job.executionStarted = true ∧ job.executionGeneration = generation ∧
    job.attemptCount = number

def RunView.Owned (v : RunView) (claim : Claim) (generation number : Nat) : Prop :=
  ∃ job, v.job = some job ∧
    (job.ExecutedBy claim generation number ∨ job.Beyond generation number)

theorem AnalysisJob.HeldBy.unique {job : AnalysisJob} {other : Claim} (held : job.HeldBy claim)
    (also : job.HeldBy other) : claim = other := by
  obtain ⟨jobID, -, workerID, token⟩ := held
  obtain ⟨jobID', -, workerID', token'⟩ := also
  cases claim
  cases other
  simp_all

theorem RunStep.content_cases (step : RunStep rules runID v v') (proper : v.Proper) :
    v'.attempts.map DiagnosisAttempt.content = v.attempts.map DiagnosisAttempt.content ∨
    (∃ actor job attempt, rules.acts actor ∧ job.HeldBy actor ∧ v.Starts v' job attempt) ∨
    ∃ actor cancelled job run attempt attempt', rules.acts actor ∧
      v.Locked actor cancelled job run attempt ∧ AttemptStep attempt attempt' ∧
      v'.attempts = v.putAttempt attempt' := by
  have put : ∀ {attempt attempt' : DiagnosisAttempt}, attempt ∈ v.attempts →
      attempt'.content = attempt.content →
      (v.putAttempt attempt').map DiagnosisAttempt.content =
        v.attempts.map DiagnosisAttempt.content := by
    intro attempt attempt' member same
    rw [RunView.putAttempt, List.map_map]
    refine List.map_congr_left fun row present => ?_
    by_cases own : row.id = attempt'.id
    · cases proper.ids row present attempt member
        (own.trans (DiagnosisAttempt.sameMarks_of_content same).id)
      rw [Function.comp_apply, if_pos own, same]
    · rw [Function.comp_apply, if_neg own]
  have close : ∀ {p : DiagnosisAttempt → Prop} [DecidablePred p]
      {close : DiagnosisAttempt → DiagnosisAttempt},
      (∀ row, (close row).content = row.content) →
      (v.closeAttempts p close).map DiagnosisAttempt.content =
        v.attempts.map DiagnosisAttempt.content := by
    intro p _ close same
    rw [RunView.closeAttempts, List.map_map]
    refine List.map_congr_left fun row _ => ?_
    by_cases hit : p row ∧ row.status = .running
    · rw [Function.comp_apply, if_pos hit, same row]
    · rw [Function.comp_apply, if_neg hit]
  cases step with
  | attemptStarted acting job_eq held started unflagged _ _ _ generation number unclosed _
      resolved =>
    exact .inr (.inl ⟨_, _, _, acting, held, job_eq, job_eq, held.running, started, unflagged,
      rfl, rfl, generation, number, unclosed, resolved⟩)
  | marked acting locked mark =>
    exact .inr (.inr ⟨_, _, _, _, _, _, acting, locked, mark.step locked.unclosed, rfl⟩)
  | closedForRetry acting locked _ same =>
    exact .inr (.inr ⟨_, _, _, _, _, _, acting, locked, same.step (.inl locked.unclosed), rfl⟩)
  | closed acting locked _ _ marks =>
    exact .inr (.inr ⟨_, _, _, _, _, _, acting, locked, marks.step (.inl locked.unclosed), rfl⟩)
  | abandoned member _ same => exact .inl (put member same)
  | reapedUnknown _ _ _ _ _ _ member _ _ same => exact .inl (put member same)
  | failedByJob | cancelledByJob | reapedCancelled => exact .inl (close fun _ => rfl)
  | reapedRetry _ _ _ _ _ same => exact .inl (close same)
  | created | claimed | began | released | renewed | retried | flagged | cancelled | requeued =>
    exact .inl rfl

theorem AnalysisJob.beyond_of_idle {job job' : AnalysisJob}
    (before : job.ExecutedBy claim generation number ∨ job.Beyond generation number)
    (generations : job'.executionGeneration = job.executionGeneration)
    (counts : job'.attemptCount = job.attemptCount)
    (idle : ¬(job'.status = .running ∧ job'.executionStarted = true)) :
    job'.Beyond generation number := by
  unfold AnalysisJob.Beyond
  rw [generations, counts]
  rcases before with ⟨-, -, rfl, rfl⟩ | later | ⟨rfl, later | ⟨rfl, -⟩⟩
  · exact .inr ⟨rfl, .inr ⟨rfl, idle⟩⟩
  · exact .inl later
  · exact .inr ⟨rfl, .inl later⟩
  · exact .inr ⟨rfl, .inr ⟨rfl, idle⟩⟩

theorem RunStep.owned (step : RunStep rules runID v v')
    (owned : v.Owned claim generation number) : v'.Owned claim generation number := by
  obtain ⟨job, job_eq, before⟩ := owned
  have waits : ∀ {status : JobStatus} {started : Bool}, status ≠ .running →
      ¬(status = .running ∧ started = true) := fun idle both => idle both.1
  cases step with
  | created noJob => cases noJob.symm.trans job_eq
  | claimed found waiting =>
    cases found.symm.trans job_eq
    exact ⟨_, rfl, .inr (AnalysisJob.beyond_of_idle before rfl rfl fun both => nomatch both.2)⟩
  | released found _ unstarted =>
    cases found.symm.trans job_eq
    exact ⟨_, rfl, .inr (AnalysisJob.beyond_of_idle before rfl rfl (waits JobStatus.noConfusion))⟩
  | cancelled found waiting =>
    cases found.symm.trans job_eq
    exact ⟨_, rfl, .inr (AnalysisJob.beyond_of_idle before rfl rfl (waits JobStatus.noConfusion))⟩
  | began found running unstarted =>
    cases found.symm.trans job_eq
    refine ⟨_, rfl, .inr ?_⟩
    rcases before with ⟨-, started, -⟩ | later | ⟨same, later⟩
    · cases unstarted.symm.trans started
    · exact .inl later
    · refine .inr ⟨same, .inl ?_⟩
      rcases later with later | ⟨rfl, -⟩
      · exact Nat.lt_succ_of_lt later
      · exact Nat.lt_succ_self _
  | renewed found | flagged found =>
    cases found.symm.trans job_eq
    exact ⟨_, rfl, before⟩
  | retried found _ _ _ _ same status | failedByJob found _ _ _ _ _ _ same status
  | cancelledByJob found _ _ _ _ _ same status | reapedCancelled found _ _ _ _ same status
  | reapedUnknown found _ _ _ _ _ _ _ _ _ _ same status
  | reapedRetry found _ _ _ _ _ _ same status =>
    cases found.symm.trans job_eq
    exact ⟨_, rfl, .inr (AnalysisJob.beyond_of_idle before same.executionGeneration
      same.attemptCount (waits (status ▸ JobStatus.noConfusion)))⟩
  | closed _ locked closing _ _ _ same status =>
    cases locked.job_eq.symm.trans job_eq
    refine ⟨_, rfl, .inr (AnalysisJob.beyond_of_idle before same.executionGeneration
      same.attemptCount (waits ?_))⟩
    rw [status]
    cases closing <;> exact JobStatus.noConfusion
  | attemptStarted | marked | closedForRetry | abandoned => exact ⟨job, job_eq, before⟩
  | requeued found failed =>
    cases found.symm.trans job_eq
    refine ⟨_, rfl, .inr (.inl ?_)⟩
    rcases before with ⟨held, -⟩ | later | ⟨rfl, -⟩
    · cases failed.symm.trans held.running
    · exact Nat.lt_succ_of_lt later
    · exact Nat.lt_succ_self _

theorem filter_map_congr {α β : Type} {q : β → Bool} {f g : α → β} {l : List α}
    (same : ∀ a ∈ l, f a = g a ∨ (q (f a) = false ∧ q (g a) = false)) :
    (l.map f).filter q = (l.map g).filter q := by
  induction l with
  | nil => rfl
  | cons a rest ih =>
    have tail := ih fun b member => same b (List.mem_cons_of_mem a member)
    rcases same a List.mem_cons_self with equal | ⟨first, second⟩
    · simp only [List.map_cons, List.filter_cons, equal, tail]
    · simp only [List.map_cons, List.filter_cons, first, second, tail, Bool.false_eq_true,
        ↓reduceIte]

theorem RunStep.frozen (step : RunStep rules runID v v') (proper : v.Proper) (numbered : v.Numbered)
    (others : ¬rules.acts claim) (owned : v.Owned claim generation number) :
    v'.contentsUpTo generation number = v.contentsUpTo generation number := by
  obtain ⟨job, job_eq, before⟩ := owned
  -- An actor executes under a number that the owned execution has left behind.
  have above : ∀ {actor}, rules.acts actor → job.HeldBy actor → job.executionStarted = true →
      ¬(job.executionGeneration = generation ∧ job.attemptCount ≤ number) := by
    intro actor acting held started ⟨same, below⟩
    rcases before with ⟨own, -⟩ | later | ⟨-, later | ⟨-, idle⟩⟩
    · exact others (own.unique held ▸ acting)
    · omega
    · omega
    · exact idle ⟨held.running, started⟩
  rcases step.content_cases proper with same | ⟨actor, starter, attempt, acting, held, starts⟩ |
    ⟨actor, _, locker, run, attempt, attempt', acting, locked, place, attempts_eq⟩
  · rw [RunView.contentsUpTo, same]
    rfl
  · cases starts.job_eq.symm.trans job_eq
    have number_eq := starts.number.trans
      (AnalysisJob.expectedAttemptNo_charged (numbered.charged job_eq starts.started))
    have apart := above acting held starts.started
    rw [← starts.generation, ← number_eq] at apart
    have added : ([attempt].map DiagnosisAttempt.content).filter (fun row =>
        row.executionGeneration = generation ∧ row.attemptNo ≤ number) = [] := by
      simpa [DiagnosisAttempt.content] using apart
    rw [RunView.contentsUpTo, starts.attempts_eq, List.map_append, List.filter_append, added,
      List.append_nil]
    rfl
  · cases locked.job_eq.symm.trans job_eq
    have apart := above acting locked.held locked.started
    have number_eq := locked.number.trans
      (AnalysisJob.expectedAttemptNo_charged (numbered.charged job_eq locked.started))
    rw [← locked.generation, ← number_eq] at apart
    rw [RunView.contentsUpTo, RunView.contentsUpTo, attempts_eq, RunView.putAttempt, List.map_map]
    refine filter_map_congr fun row present => ?_
    by_cases own : row.id = attempt'.id
    · cases proper.ids row present attempt locked.member (own.trans place.id)
      rw [Function.comp_apply, if_pos own]
      exact .inr ⟨decide_eq_false (by
        rwa [DiagnosisAttempt.content, place.generation, place.number]), decide_eq_false apart⟩
    · rw [Function.comp_apply, if_neg own]
      exact .inl rfl

end RepoLens
