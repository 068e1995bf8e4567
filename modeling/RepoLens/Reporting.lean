import RepoLens.Consistency

/-!
What `executeJob` reports about a job that its handler has already finished.
-/

namespace RepoLens

open Relational Transaction Interleaving

def Answering (stopped : Bool) : Call → Oracle → Prop
  | .store _, .store delivery _ => delivery = .answered
  | .finalizationStopped, .flag value => value = stopped
  | _, _ => True

/-- The program ends, and it leaves nothing behind: no row is written and no
error is recorded. -/
def EndsQuietly (handlers : Handlers) (stopped : Bool) (claim : Claim) (program : Prog Unit)
    (w : World) : Prop :=
  (∃ w', Alone (system handlers) (Answering stopped) claim program w () w') ∧
    ∀ w', Alone (system handlers) (Answering stopped) claim program w () w' → w' = w

structure EndedUnder (w : World) (job row : AnalysisJob) : Prop where
  member : row ∈ w.db.jobs.rows
  same : row.id = job.id
  claimed : sameExecutionClaim job row job.claim.workerID = true
  terminal : row.status.terminal = true

def Finalized (status : JobStatus) (err : Err) : Prop :=
  (err = .nil ∧ status = .succeeded) ∨ err = errAlreadyFinalized ∨
    ∃ cause policy, err.asAtomicFinalization = some (status, cause, policy)

def AnalysisJob.exhaustedBy (job row : AnalysisJob) (code : String) : Prop :=
  job.maxAttempts ≤ job.attemptCount ∧ row.status = .failed ∧
    row.lastErrorClass = some .retryable ∧ row.lastErrorCode = some code ∧
    row.terminalReason = some .retryableExhausted

namespace ContextEnd

def retryable : ContextEnd → Bool
  | .leaseFailure _ | .cancelPollError _ | .parentCanceled => true
  | _ => false

def code (reason : ContextEnd) : String := (classifyError reason.err).2

theorem classified {reason : ContextEnd} (failure : reason.retryable = true) :
    classifyError reason.err = (.retryable, reason.code) := by
  cases reason with
  | leaseFailure fault | cancelPollError fault => cases fault <;> rfl
  | parentCanceled => rfl
  | userCancel | ownershipLost | shutdown => cases failure

theorem plain {reason : ContextEnd} (failure : reason.retryable = true) :
    reason.err ≠ .nil ∧ reason.err.is .alreadyFinalized = false ∧
      reason.err.is (.stop .ownershipLost) = false ∧
      reason.err.is (.stop .shutdown) = false := by
  cases reason with
  | leaseFailure fault | cancelPollError fault =>
    refine ⟨Err.noConfusion, ?_, ?_, ?_⟩ <;> cases fault <;> rfl
  | parentCanceled => exact ⟨Err.noConfusion, rfl, rfl, rfl⟩
  | userCancel | ownershipLost | shutdown => cases failure

end ContextEnd

section Calls

variable {handlers : Handlers} {stopped : Bool} {w w' : World} {job row : AnalysisJob}
  {claim : Claim}

theorem alone_store {call : StoreCall} {answer reply : Except Err call.Answer}
    (answers : ∀ outside, w.store call .answered outside = (answer, w)) :
    Alone (system handlers) (Answering stopped) claim (askStore call) w reply w' ↔
      reply = answer ∧ w' = w := by
  refine Alone.ask_iff.trans ⟨?_, ?_⟩
  · rintro ⟨oracle, ok, performed⟩
    cases oracle <;> simp only [system, World.perform, reduceCtorEq] at performed
    simp only [Answering] at ok
    rw [ok, answers] at performed
    cases performed
    exact ⟨rfl, rfl⟩
  · rintro ⟨rfl, rfl⟩
    exact ⟨.store .answered .any, rfl, congrArg some (answers .any)⟩

variable {err : Err}

theorem store_refused {call : StoreCall} {outside : Outside}
    (failed : call.tx outside w.db = .error err)
    (silent : call.events w.db w.db (.error err) = []) :
    w.store call .answered outside = (.error err, w) := by
  simp only [World.store, deliveryErr, deliver, failed, silent, List.nil_append]

theorem alone_getJobByID (ended : EndedUnder w job row) {reply : Except Err AnalysisJob} :
    Alone (α := Except Err AnalysisJob) (system handlers) (Answering stopped) claim
        (askStore (.getJobByID job.claim.jobID)) w reply w' ↔ reply = .ok row ∧ w' = w := by
  refine alone_store fun outside => ?_
  have found : w.db.jobs.select (fun row => row.id = job.id) = some row :=
    (Table.select_iff_of_unique fun _ left _ right leftID rightID =>
      w.db.jobs.eq_of_key left right (leftID.trans rightID.symm)).mpr
        ⟨ended.member, ended.same⟩
  have ran : RepoLens.getJobByID job.id w.db = .ok (row, w.db) :=
    bind_ok.mpr ⟨_, _, (Place.select_ok _).mpr ⟨rfl, rfl⟩, expect_ok.mpr ⟨found, rfl⟩⟩
  simp only [World.store, StoreCall.tx, AnalysisJob.claim, deliveryErr, deliver, ran,
    StoreCall.events]
  rfl

theorem EndedUnder.unheld (ended : EndedUnder w job row) (started : Bool) :
    w.db.jobs.select (fun row => row.HeldBy job.claim ∧ row.executionStarted = started) =
      none := by
  refine Table.select_eq_none.mpr fun other member held => ?_
  cases w.db.jobs.eq_of_key member ended.member (held.1.1.trans ended.same.symm)
  have terminal := ended.terminal
  rw [held.1.2.1] at terminal
  cases terminal

theorem alone_finalization (ended : EndedUnder w job row) (finalization : Finalization)
    {reply : Except Err Unit} :
    Alone (system handlers) (Answering stopped) claim (finalization.perform job.claim) w reply
      w' ↔ reply = .error errOwnershipLost ∧ w' = w := by
  have load : loadOwnedRunningJobTx job.claim w.db = .error errOwnershipLost := by
    simp only [loadOwnedRunningJobTx, bind, Place.select, Place.jobs_get, ended.unheld true]
    rfl
  -- All three read the row that they own before they do anything else.
  cases finalization with
  | success =>
    exact alone_store fun outside =>
      (store_refused (bind_error load) rfl :
        w.store (.conditionalFinalizeSuccess job.claim) .answered outside = _)
  | failure outcome =>
    exact alone_store fun outside =>
      (store_refused (bind_error load) rfl :
        w.store (.conditionalFinalizeFailure job.claim outcome) .answered outside = _)
  | cancel =>
    exact alone_store fun outside =>
      (store_refused (bind_error load) rfl :
        w.store (.conditionalFinalizeCancel job.claim) .answered outside = _)

def judged (job row : AnalysisJob) (finalization : Finalization) : Err :=
  if finalization.expected row then .nil
  else .message ("job " ++ toString job.claim.jobID ++
    " left the active claim without reaching the expected terminal state: status=" ++
    row.status.text)

theorem judgeFinalization_ended (ended : EndedUnder w job row) (finalization : Finalization) :
    judgeFinalization job.claim job finalization (.ok row) =
      some (judged job row finalization) := by
  have left : row.status ≠ .running := by
    intro running
    have terminal := ended.terminal
    rw [running] at terminal
    cases terminal
  simp only [judgeFinalization, ended.claimed, ↓reduceIte, judged]
  split <;> simp [left]

theorem alone_finalizationStopped {reply : Bool} :
    Alone (α := Bool) (system handlers) (Answering stopped) claim (ask .finalizationStopped) w
        reply w' ↔
      reply = stopped ∧ w' = w := by
  refine Alone.ask_iff.trans ⟨?_, ?_⟩
  · rintro ⟨oracle, ok, performed⟩
    cases oracle <;> cases performed
    exact ⟨ok, rfl⟩
  · rintro ⟨rfl, rfl⟩
    exact ⟨.flag reply, rfl, rfl⟩

variable {rounds : Nat}

theorem alone_resolveFinalization (ended : EndedUnder w job row) (finalization : Finalization)
    {reply : Option Err} :
    Alone (system handlers) (Answering stopped) claim
        (resolveFinalization job.claim job finalization (rounds + 1) .nil) w reply w' ↔
      reply = some (if stopped then errWorkerShutdown else judged job row finalization) ∧
        w' = w := by
  simp only [resolveFinalization, Alone.bind_iff, alone_finalizationStopped]
  cases stopped with
  | true => simp [finalizationEnded]
  | false =>
    simp [alone_finalization ended, alone_getJobByID ended, judgeFinalization_ended ended]

theorem alone_recordFinalizationError {u : Unit} :
    Alone (α := Unit) (system handlers) (Answering stopped) claim
        (ask (.recordFinalizationError err)) w u w' ↔
      w' = w.record (.finalizationError claim err) := by
  refine Alone.ask_iff.trans ⟨?_, ?_⟩
  · rintro ⟨oracle, -, performed⟩
    cases oracle <;> cases performed
    rfl
  · rintro rfl
    exact ⟨.ok, trivial, rfl⟩

theorem alone_clearFinalizationError {u : Unit} :
    Alone (α := Unit) (system handlers) (Answering stopped) claim (ask .clearFinalizationError) w
      u w' ↔ w' = w := by
  refine Alone.ask_iff.trans ⟨?_, ?_⟩
  · rintro ⟨oracle, -, performed⟩
    cases oracle <;> cases performed
    rfl
  · rintro rfl
    exact ⟨.ok, trivial, rfl⟩

theorem alone_cause {reply : Err} :
    Alone (α := Err) (system handlers) (Answering stopped) claim (ask .cause) w reply w' ↔
      reply = w.cause claim ∧ w' = w := by
  refine Alone.ask_iff.trans ⟨?_, ?_⟩
  · rintro ⟨oracle, -, performed⟩
    cases oracle <;> cases performed
    exact ⟨rfl, rfl⟩
  · rintro ⟨rfl, rfl⟩
    exact ⟨.ok, trivial, rfl⟩

theorem record_ne (w : World) (event : Event) : w.record event ≠ w := by
  intro same
  have length := congrArg (fun w : World => w.log.length) same
  simp [World.record] at length

theorem alone_finish (ended : EndedUnder w job row) (finalization : Finalization) :
    Alone (system handlers) (Answering stopped) claim
        (finish job.claim job (rounds + 1) finalization) w () w' ↔
      w' = if stopped = false ∧ finalization.expected row = true then w
        else w.record (.finalizationError claim
          (if stopped then errWorkerShutdown else judged job row finalization)) := by
  simp only [finish, Alone.bind_iff, alone_resolveFinalization ended]
  cases stopped with
  | true => simp [Err.is, alone_recordFinalizationError]
  | false =>
    by_cases expected : finalization.expected row = true
    · simp [judged, expected, alone_clearFinalizationError]
    · simp [judged, expected, Err.is, alone_recordFinalizationError]

theorem finish_quiet (ended : EndedUnder w job row) (finalization : Finalization) :
    EndsQuietly handlers stopped claim (finish job.claim job (rounds + 1) finalization) w ↔
      stopped = false ∧ finalization.expected row = true := by
  simp only [EndsQuietly, alone_finish ended, exists_eq, true_and, forall_eq]
  split <;> simp_all [record_ne]

theorem alone_nextRunAt {reply : Time} :
    Alone (α := Time) (system handlers) (Answering stopped) claim (ask .nextRunAt) w reply w' ↔
      w' = w := by
  refine Alone.ask_iff.trans ⟨?_, ?_⟩
  · rintro ⟨oracle, -, performed⟩
    cases oracle <;> cases performed
    rfl
  · rintro rfl
    exact ⟨.time reply, trivial, rfl⟩

theorem settleOutcome_failure_quiet (ended : EndedUnder w job row) {reason : ContextEnd}
    (failure : reason.retryable = true) :
    EndsQuietly handlers stopped claim (settleOutcome job.claim job (rounds + 1) none reason.err)
        w ↔
      stopped = false ∧
        (cancelledFinalizationExpected row = true ∨ job.exhaustedBy row reason.code) := by
  have classified := ContextEnd.classified failure
  have plain := ContextEnd.plain failure
  generalize reason.code = code at classified ⊢
  generalize reason.err = err at classified plain ⊢
  have expected : ∀ time, (Finalization.failure (ordinaryFailure job err time)).expected row =
      true ↔ cancelledFinalizationExpected row = true ∨ job.exhaustedBy row code := by
    intro time
    have waiting : row.status ≠ .retryWait := by
      intro waiting
      have terminal := ended.terminal
      rw [waiting] at terminal
      cases terminal
    by_cases exhausted : job.maxAttempts ≤ job.attemptCount <;>
      simp [Finalization.expected, failureFinalizationExpected, ordinaryFailure, classified,
        AnalysisJob.exhaustedBy, exhausted, waiting]
  have program : settleOutcome job.claim job (rounds + 1) none err = (do
      let nextRunAt : Time ← ask .nextRunAt
      finish job.claim job (rounds + 1) (.failure (ordinaryFailure job err nextRunAt))) := by
    simp [settleOutcome, decidedClass, classified, plain]
  have quiet : ∀ time, EndsQuietly handlers stopped claim
      (finish job.claim job (rounds + 1) (.failure (ordinaryFailure job err time))) w ↔
        stopped = false ∧ (cancelledFinalizationExpected row = true ∨ job.exhaustedBy row code) :=
    fun time => (finish_quiet ended _).trans (and_congr_right fun _ => expected time)
  rw [program]
  simp only [EndsQuietly, Alone.bind_iff, alone_nextRunAt] at quiet ⊢
  constructor
  · rintro ⟨-, only⟩
    exact (quiet 0).mp ⟨⟨_, (alone_finish ended _).mpr rfl⟩, fun w' ran => only w' ⟨0, w, rfl, ran⟩⟩
  · intro holds
    obtain ⟨w', ran⟩ := ((quiet 0).mpr holds).1
    refine ⟨⟨w', 0, w, rfl, ran⟩, ?_⟩
    rintro w'' ⟨time, w₁, rfl, later⟩
    exact ((quiet time).mpr holds).2 w'' later

theorem pure_quiet : EndsQuietly handlers stopped claim (pure ()) w :=
  ⟨⟨w, Alone.pure_iff.mpr ⟨rfl, rfl⟩⟩, fun _ ran => (Alone.pure_iff.mp ran).2⟩

theorem applyCause_quiet :
    EndsQuietly handlers stopped job.claim (applyCause job.claim job rounds none err) w ↔
      EndsQuietly handlers stopped job.claim
        (if (w.cause job.claim).is (.stop .shutdown) = true then pure ()
          else settleOutcome job.claim job rounds none
            (if w.cause job.claim = .nil then err else w.cause job.claim)) w := by
  simp only [EndsQuietly, applyCause, Alone.bind_iff, alone_cause, exists_and_left, and_assoc,
    exists_eq_left, preserveProviderOutcomeUnknownPolicy, Option.any_none, Bool.not_false,
    Bool.and_true, or_true, and_true, ne_eq, ite_not]
  split
  · rfl
  · split <;> rfl

theorem applyCause_failure_quiet (ended : EndedUnder w job row) {reason : ContextEnd}
    (failure : reason.retryable = true) (stop : w.cause job.claim = reason.err) :
    EndsQuietly handlers stopped job.claim (applyCause job.claim job (rounds + 1) none err) w ↔
      stopped = false ∧
        (cancelledFinalizationExpected row = true ∨ job.exhaustedBy row reason.code) := by
  obtain ⟨ended', -, -, running⟩ := ContextEnd.plain failure
  rw [applyCause_quiet, stop, running, if_neg Bool.false_ne_true, if_neg ended']
  exact settleOutcome_failure_quiet ended failure

theorem resolveOutcome_named_quiet (ended : EndedUnder w job row) {cause : Err}
    {policy : Option AtomicHandlerFailurePolicy}
    (named : err.asAtomicFinalization = some (row.status, cause, policy)) :
    EndsQuietly handlers stopped job.claim (resolveOutcome job.claim job rounds err) w := by
  have accepted : resolveAtomicHandlerFinalization job.claim job row.status (.ok row) =
      .accepted := by
    simp [resolveAtomicHandlerFinalization, ended.claimed, ended.terminal]
  simp only [EndsQuietly, resolveOutcome, named, Alone.bind_iff, alone_getJobByID ended,
    exists_and_left, and_assoc, exists_eq_left, accepted, alone_clearFinalizationError,
    exists_eq, true_and, imp_self, implies_true]

end Calls

/-- When the rest of `executeJob` is quiet: the handler's error names the state that the job
reached. -/
def Reconciled (job row : AnalysisJob) (err : Err) (stopped : Bool) : Option ContextEnd → Prop
  | none => err = errAlreadyFinalized ∨ stopped = false
  | some .shutdown | some .ownershipLost => True
  | some .userCancel => stopped = false ∧ cancelledFinalizationExpected row = true
  | some reason => stopped = false ∧
      (cancelledFinalizationExpected row = true ∨ job.exhaustedBy row reason.code)

/-- Once its handler has finished the job, `executeJob` ends without writing or recording an error
exactly if the handler's error names the state of the row, or the row fits the stop cause. -/
theorem resolveOutcome_quiet_iff (handlers : Handlers) {w : World} {job row : AnalysisJob}
    {err : Err} {stopped : Bool} (reason : Option ContextEnd) (rounds : Nat)
    (ended : EndedUnder w job row) (returned : Finalized row.status err)
    (stop : w.cause job.claim = (reason.map ContextEnd.err).getD .nil) :
    EndsQuietly handlers stopped job.claim (resolveOutcome job.claim job (rounds + 1) err) w ↔
      err.asAtomicFinalization.isSome = true ∨ Reconciled job row err stopped reason := by
  rcases or_assoc.mpr returned with direct | ⟨cause, policy, named⟩
  · have unnamed : err.asAtomicFinalization = none := by
      rcases direct with ⟨rfl, -⟩ | rfl <;> rfl
    have rest : resolveOutcome job.claim job (rounds + 1) err =
        applyCause job.claim job (rounds + 1) none err := by
      rw [resolveOutcome, unnamed]
    rw [rest, unnamed, Option.isSome_none, Bool.false_eq_true, false_or]
    cases reason with
    | none =>
        rw [applyCause_quiet, stop]
        rcases direct with ⟨rfl, succeeded⟩ | rfl
        · refine (finish_quiet ended .success).trans ?_
          simp [Reconciled, Finalization.expected, successFinalizationExpected, succeeded]
        · exact iff_of_true pure_quiet (.inl rfl)
    | some reason =>
        cases reason with
        | shutdown | ownershipLost =>
            rw [applyCause_quiet, stop]
            exact iff_of_true pure_quiet trivial
        | userCancel =>
            rw [applyCause_quiet, stop]
            exact finish_quiet ended .cancel
        | leaseFailure fault => exact applyCause_failure_quiet ended rfl stop
        | cancelPollError fault => exact applyCause_failure_quiet ended rfl stop
        | parentCanceled => exact applyCause_failure_quiet ended rfl stop
  · refine iff_of_true (resolveOutcome_named_quiet ended named) (.inl ?_)
    rw [named, Option.isSome_some]

def renewalFailsAfterSuccess : List (Action Claim Oracle Move) :=
  let claim : Claim := ⟨1, "worker", "token"⟩
  [.move (.request (.createLegacySnapshot "snapshot" "repository" "commit" 1) .any),
    .move (.claimJobs "worker" 1 100 (fun _ => true) (fun _ => "token") 0 true 2),
    .perform claim (.flag false),
    .perform claim (.store .answered .any),
    .perform claim (.flag false),
    .perform claim .ok,
    .perform claim (.store .answered .any),
    .perform claim (.stage (.ok "commit")),
    .perform claim (.store .answered .any),
    .move (.endContext claim (.leaseFailure (.driver "connection reset")) .any)]

theorem renewalFailsAfterSuccess_runs :
    ((system plainHandlers).exec initial renewalFailsAfterSuccess).isSome = true := by
  decide

def renewalFailed : SystemState :=
  ((system plainHandlers).exec initial renewalFailsAfterSuccess).get renewalFailsAfterSuccess_runs

def materializedJob : AnalysisJob :=
  { newJob 1 .materializeSnapshot "snapshot" 1 3 0 with
    status := .running
    attemptCount := 1
    executionStarted := true
    workerID := some "worker"
    claimToken := some "token"
    leaseUntil := some 100 }

theorem renewalFailed_ended :
    EndedUnder renewalFailed.world materializedJob
      { materializedJob with status := .succeeded } where
  member := by decide
  same := rfl
  claimed := by decide
  terminal := rfl

/-- The job succeeded and the handler returned nil; the worker puts the failed lease renewal in its
place, does not find the failure in the row, and records an error. -/
theorem renewal_failure_reports_finished_job :
    Reachable plainHandlers renewalFailed ∧
      renewalFailed.procs materializedJob.claim =
        some (resolveOutcome materializedJob.claim materializedJob 2 .nil) ∧
      EndedUnder renewalFailed.world materializedJob
        { materializedJob with status := .succeeded } ∧
      Finalized .succeeded .nil ∧
      renewalFailed.world.cause materializedJob.claim =
        (ContextEnd.leaseFailure (.driver "connection reset")).err ∧
      ¬EndsQuietly plainHandlers false materializedJob.claim
        (resolveOutcome materializedJob.claim materializedJob 2 .nil) renewalFailed.world := by
  refine ⟨Machine.exec_run (Option.some_get renewalFailsAfterSuccess_runs).symm, rfl,
    renewalFailed_ended, .inl ⟨rfl, rfl⟩, rfl, fun quiet => ?_⟩
  have failure : (ContextEnd.leaseFailure (.driver "connection reset")).retryable = true := rfl
  obtain ⟨-, cancelled | exhausted⟩ :=
    (applyCause_failure_quiet renewalFailed_ended failure rfl).mp quiet
  · cases cancelled
  · cases exhausted.2.1

/-- Without a stop cause the same job is finished quietly. -/
theorem resolveOutcome_quiet_after_success :
    EndsQuietly plainHandlers false materializedJob.claim
      (resolveOutcome materializedJob.claim materializedJob 2 .nil)
      { renewalFailed.world with cause := fun _ => .nil } :=
  have ended : EndedUnder { renewalFailed.world with cause := fun _ => .nil } materializedJob
      { materializedJob with status := .succeeded } :=
    ⟨renewalFailed_ended.member, rfl, renewalFailed_ended.claimed, rfl⟩
  (resolveOutcome_quiet_iff plainHandlers none 1 ended (.inl ⟨rfl, rfl⟩) rfl).mpr
    (.inr (.inr rfl))

end RepoLens
