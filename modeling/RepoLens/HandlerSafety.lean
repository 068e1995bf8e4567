import RepoLens.AgentSafety

/-!
The diagnosis handler keeps to the discipline, and what it returns can be acted on.
-/

namespace RepoLens

open Relational Transaction Interleaving

structure World.Handled (job : AnalysisJob) (err : Err) (w : World) : Prop where
  handling : w.Handling job
  done : err = .nil → w.db.NoDiagnosis job.claim
  terminal : ∀ {expected cause policy},
    err.asAtomicFinalization = some (expected, cause, some policy) → policy.terminal = true
  settled : w.Settled job.claim ∨
    (∃ expected cause policy, err.asAtomicFinalization = some (expected, cause, some policy)) ∨
    (w.cause job.claim).is (.stop .shutdown) = true ∨
    (w.cause job.claim).is (.stop .ownershipLost) = true

structure AttemptContext.For (c : AttemptContext) (job : AnalysisJob) : Prop where
  same : c.job = job
  claim : c.claim = job.claim
  run : c.run.id = c.execution.runID
  execution : c.execution.Of job
  diagnosis : job.jobType = .runDiagnosis
  started : job.executionStarted = true

variable {claim : Claim} {code message : String} {result : Option ExecutionResult}

section Endings
variable {err : Err} {handlers : Handlers} {job : AnalysisJob} {c : AttemptContext}
  {row : DiagnosisAttempt} {w w' : World}

theorem World.Handled.plain {err : Err} (handling : w.Handling job) (failure : err ≠ .nil)
    (plain : err.Plain) (settled : w.Settled job.claim) : w.Handled job err := by
  refine ⟨handling, fun none => absurd none failure, fun atomic => ?_, .inl settled⟩
  cases plain.symm.trans atomic

theorem World.Handled.genuine (handling : w.Handling job) (genuine : err.Genuine)
    (settled : w.Settled job.claim) : w.Handled job err :=
  .plain handling genuine.ne_nil genuine.plain settled

theorem World.Handled.wrapped {expected : JobStatus} (handling : w.Handling job)
    (genuine : err.Genuine) (settled : w.Settled job.claim) :
    w.Handled job (wrapAtomicHandlerFinalization expected err) := by
  unfold wrapAtomicHandlerFinalization
  split
  · exact .genuine handling genuine settled
  · refine ⟨handling, Err.noConfusion, fun atomic => ?_, .inl settled⟩
    cases atomic

theorem World.Handled.stopped (handling : w.Handling job) (inv : w.Inv)
    (stop : (w.cause job.claim).is (.stop .shutdown) = true ∨
      (w.cause job.claim).is (.stop .ownershipLost) = true) :
    w.Handled job (w.cause job.claim) := by
  refine ⟨handling, fun none => ?_, fun atomic => ?_, .inr (.inr stop)⟩
  · rw [none] at stop
    rcases stop with shutdown | lost
    · cases shutdown
    · cases lost
  · have plain : (w.cause job.claim).asAtomicFinalization = none := inv.cause_plain job.claim
    cases plain.symm.trans atomic

theorem World.Settled.congr (settled : w.Settled claim) (same : w'.db = w.db) :
    w'.Settled claim := by
  rw [World.Settled, same]
  exact settled

theorem World.Settled.outcome {call : StoreCall} {answer : Except Err call.Answer}
    (settled : w.Settled claim) (outcome : call.Outcome w answer w')
    (ends : ∀ outside, Establishes (Unheld claim) (call.tx outside)) : w'.Settled claim := by
  rcases outcome.effect.inv with ⟨outside, a, ran, -⟩ | ⟨same, -⟩
  · exact Unheld.settled (ends outside _ _ _ ran)
  · exact settled.congr same

theorem cancelAttempt_obeys (own : c.claim = job.claim) (handling : w.Handling job)
    (settled : w.Settled job.claim) :
    Obeys handlers job.claim (cancelAttempt c)
      (fun err w => w.Handled job err ∧ w.Settled job.claim) w := by
  refine Safe.bind (Obeys.store (P := fun w => w.Handling job ∧ w.Settled job.claim) ?_
    ⟨handling, settled⟩ ?_ ?_)
  · exact fun _ _ rely _ ⟨handling, settled⟩ =>
      ⟨handling.stays rely.stays, settled.rely handling.issued rely⟩
  · exact fun w _ ⟨handling, _⟩ => ⟨handling.issued, ⟨own, handling.undropped⟩, trivial⟩
  intro w answer w' inv ⟨handling, settled⟩ outcome _
  have after := handling.stays (outcome.stays (show w.Acting job.claim c.claim from
    ⟨own, handling.undropped⟩) fun _ _ => StoreCall.noConfusion)
  have settled' : w'.Settled job.claim :=
    settled.outcome outcome fun outside => own ▸ finalizeCancellation_unheld _ _
  cases answer with
  | ok u => exact ⟨.plain after Err.noConfusion rfl settled', settled'⟩
  | error err =>
    have genuine := outcome.effect.genuine fun outside => finalizeCancellation_genuine _ _ _
    exact ⟨.wrapped after genuine settled', settled'⟩

def World.FailureWritten (job : AnalysisJob) (err : Err) (w : World) : Prop :=
  w.Handled job err ∧ (w.Settled job.claim ∨
    (err ≠ .nil ∧ err.is .alreadyFinalized = false ∧ err.is (.stop .userCancel) = false ∧
      err.is (.stop .ownershipLost) = false))

structure World.Owns (w : World) (job : AnalysisJob) (c : AttemptContext)
    (row : DiagnosisAttempt) : Prop where
  handling : w.Handling job
  runs : w.Runs c.execution row
  heeds : c.cancelSeen = true → w.Flagged job.claim

theorem World.Owns.rely (own : c.For job) (owns : w.Owns job c row)
    (rely : World.Rely job.claim w w') : w'.Owns job c row :=
  ⟨owns.handling.stays rely.stays, owns.runs.rely (own.execution.claim ▸ rely),
    fun seen => (owns.heeds seen).stays owns.handling.issued rely.stays⟩

theorem World.Owns.stable (own : c.For job) :
    Stable (discipline handlers) job.claim fun w => w.Owns job c row :=
  fun _ _ rely _ owns => owns.rely own rely

theorem World.Owns.execution (own : c.For job) (owns : w.Owns job c row) :
    OwnExecution w.db c.claim c.job.executionGeneration c.run.id c.execution.attemptID where
  job held member holds := by
    rw [own.claim] at holds
    have continues := owns.handling.same held member holds
    refine ⟨⟨continues.jobType.trans own.diagnosis, ?_⟩,
      continues.executionStarted.trans own.started, ?_⟩
    · rw [continues.resourceID, ← own.execution.runID, own.run]
    · rw [continues.executionGeneration, own.same]
  worker attempt member mine := by
    have content := owns.runs.attempt member mine
    have worker : attempt.content.workerID = c.execution.claim.workerID :=
      content ▸ owns.runs.worker
    rw [own.claim, ← own.execution.claim]
    exact worker

theorem StoreFault.silent (fault : StoreFault) (db : Database) (claim : Claim) :
    Speaks db claim fault.err := by
  cases fault <;> exact .silent rfl rfl rfl

theorem writeDiagnosisFailure_obeys {errorClass : ErrorClass} (own : c.For job)
    (owns : w.Owns job c row) :
    Obeys handlers job.claim (writeDiagnosisFailure c errorClass code message result)
      (World.FailureWritten job) w := by
  refine Safe.bind (Obeys.store (World.Owns.stable own) owns ?_ ?_)
  · exact fun w _ owns => ⟨owns.handling.issued, ⟨own.claim, owns.handling.undropped⟩, trivial⟩
  intro w answer w' inv owns outcome _
  have after := owns.handling.stays (outcome.stays (show w.Acting job.claim c.claim from
    ⟨own.claim, owns.handling.undropped⟩) fun _ _ => StoreCall.noConfusion)
  cases answer with
  | ok u =>
    rcases outcome.effect.inv with ⟨outside, a, ran, -⟩ | ⟨-, err, error, -⟩
    · have unheld : Unheld job.claim w'.db :=
        own.claim ▸ finalizeDiagnosisFailure_unheld _ _ _ _ _ _ _ _ _ _ ran
      exact ⟨.plain after Err.noConfusion rfl (Unheld.settled unheld), .inl (Unheld.settled unheld)⟩
    · cases error
  | error err =>
    have genuine := outcome.effect.genuine fun outside =>
      finalizeDiagnosisFailure_genuine _ _ _ _ _ _ _ _
    -- A refusal says what it says about the job as it is now.
    have speaks : Speaks w'.db job.claim err := by
      rcases outcome.effect.inv with ⟨_, _, _, seen⟩ | ⟨same, other, error, reason⟩
      · obtain ⟨fault, equal⟩ := seen.resolve_left nofun
        cases equal
        exact fault.silent _ _
      · cases error
        rcases reason with ⟨fault, rfl⟩ | ⟨outside, failed⟩
        · exact fault.silent _ _
        · rw [same, ← own.claim]
          exact finalizeDiagnosisFailure_refused (inv.sound _).agrees (owns.execution own) failed
    dsimp only
    by_cases cancelled : err.is (.stop .userCancel) = true
    · rw [if_pos cancelled]
      have flagged : w'.Flagged job.claim := speaks.2 cancelled
      exact (cancelAttempt_obeys own.claim after flagged.settled).weaken
        fun _ _ ⟨handled, settled⟩ => ⟨handled, .inl settled⟩
    rw [if_neg cancelled]
    by_cases lost : err.is (.stop .ownershipLost) = true
    · rw [if_pos lost]
      have settled := Unheld.settled (speaks.1 (.inl lost))
      exact ⟨.plain after Err.noConfusion rfl settled, .inl settled⟩
    rw [if_neg lost]
    change World.FailureWritten job (wrapAtomicHandlerFailureFinalization _ _) w'
    unfold wrapAtomicHandlerFailureFinalization
    split
    · next unwrapped =>
        have finished : err.is .alreadyFinalized = true := by
          simpa [passesUnwrapped, newRetryableError, Err.is, cancelled, lost] using unwrapped
        have settled := Unheld.settled (speaks.1 (.inr finished))
        exact ⟨.plain after Err.noConfusion genuine.plain.categorized settled, .inl settled⟩
    · next wrapped =>
        refine ⟨⟨after, Err.noConfusion, fun atomic => ?_, .inr (.inl ⟨_, _, _, rfl⟩)⟩,
          .inr ⟨Err.noConfusion, ?_⟩⟩
        · cases atomic
          rfl
        · simp only [passesUnwrapped, newRetryableError, Err.is] at wrapped ⊢
          simp_all

theorem World.Owns.settled (own : c.For job) (owns : w.Owns job c row)
    (resolved : row.providerDispatchUnresolved = false) : w.Settled job.claim :=
  owns.runs.settled own.execution owns.handling resolved

theorem World.Owns.cancelled (owns : w.Owns job c row) (inv : w.Inv)
    (stop : ((w.cause job.claim).is (.stop .userCancel) || c.cancelSeen) = true) :
    w.Flagged job.claim := by
  rcases Bool.or_eq_true_iff.mp stop with user | seen
  · exact inv.heeded job.claim user
  · exact owns.heeds seen

theorem World.Owns.cause (own : c.For job) (owns : w.Owns job c row) {α : Type}
    {post : α → World → Prop} {next : Err → Prog α}
    (continues : ∀ w : World, w.Inv → w.Owns job c row →
      Obeys handlers job.claim (next (w.cause job.claim)) post w) :
    Obeys handlers job.claim (RepoLens.ask .cause >>= next) post w :=
  Safe.bind (Obeys.cause (World.Owns.stable own) owns (fun _ owns => owns.handling.issued)
    continues)

theorem cancelFlagged_obeys (own : c.For job) (owns : w.Owns job c row)
    (flagged : w.Flagged job.claim) :
    Obeys handlers job.claim (cancelAttempt c) (fun err w => w.Handled job err) w :=
  (cancelAttempt_obeys own.claim owns.handling flagged.settled).weaken fun _ _ done => done.1

theorem finalizeFailureOnJobContext_obeys {errorClass : ErrorClass} {allowShutdown : Bool}
    (own : c.For job) (owns : w.Owns job c row) :
    Obeys handlers job.claim
      (finalizeFailureOnJobContext c errorClass code message result allowShutdown)
      (fun err w => w.Handled job err) w := by
  refine owns.cause own fun w inv owns => ?_
  split
  · next stop =>
      refine .stopped owns.handling inv ?_
      simp only [Bool.or_eq_true, Bool.and_eq_true] at stop
      exact stop.elim .inr fun stop => .inl stop.1
  split
  · next stop => exact cancelFlagged_obeys own owns (owns.cancelled inv stop)
  · exact (writeDiagnosisFailure_obeys own owns).weaken fun _ _ written => written.1

theorem finalizeFailureOnOwnContext_obeys (own : c.For job) (owns : w.Owns job c row) :
    Obeys handlers job.claim (finalizeFailureOnOwnContext c code message result)
      (World.FailureWritten job) w := by
  unfold finalizeFailureOnOwnContext
  split
  · next seen =>
      exact (cancelAttempt_obeys own.claim owns.handling (owns.heeds seen).settled).weaken
        fun _ _ ⟨handled, settled⟩ => ⟨handled, .inl settled⟩
  · exact writeDiagnosisFailure_obeys own owns

theorem refuseReplay_obeys (own : c.For job) (owns : w.Owns job c row) :
    Obeys handlers job.claim (refuseReplay c code message result)
      (fun err w => w.Handled job err) w := by
  refine Safe.bind ((finalizeFailureOnOwnContext_obeys own owns).weaken fun err w written => ?_)
  obtain ⟨handled, outcome⟩ := written
  split
  · next finished =>
      have settled := outcome.resolve_right fun ⟨failure, unfinished, _⟩ =>
        finished.elim failure fun finished => by simp [unfinished] at finished
      exact .plain handled.handling Err.noConfusion rfl settled
  split
  · next cancelled =>
      have settled := outcome.resolve_right fun ⟨_, _, uncancelled, _⟩ => by
        simp [uncancelled] at cancelled
      exact (cancelAttempt_obeys own.claim handled.handling settled).weaken fun _ _ done => done.1
  split
  · next lost =>
      have settled := outcome.resolve_right fun ⟨_, _, _, unlost⟩ => by simp [unlost] at lost
      exact .plain handled.handling Err.noConfusion rfl settled
  · exact handled

end Endings

section Retries

variable {handlers : Handlers} {job : AnalysisJob} {c : AttemptContext} {row : DiagnosisAttempt}
  {w w' : World}

theorem finalizeRetryableAttempt_ok {generation : Nat} {runID attemptID : String} {counts : Counts}
    {u : Unit} {db db' : Database}
    (ran : finalizeRetryableAttempt claim generation runID attemptID code message counts db =
      .ok (u, db')) :
    ∃ attempt ∈ (db.view runID).attempts, ∃ attempt', attempt.SameMarks attempt' ∧
      Focus runID (fun v => { v with attempts := v.putAttempt attempt' }) db db' := by
  obtain ⟨⟨job, run, attempt⟩, db₁, lock, ran₁⟩ := bind_ok.mp ran
  obtain ⟨rfl, locked, -, -⟩ := lockDiagnosisExecutionTx_ok lock
  obtain ⟨affected, rfl⟩ := (Place.update_require_ok _).mp ran₁
  refine ⟨attempt, locked.member, _, ?_, Focus.put locked.member (fun row hit => hit.1)
    (hit_of_affected locked.member (fun row hit => hit.1) affected)⟩
  constructor <;> first | rfl | exact fun completed => completed

theorem World.Settled.closed {generation : Nat} {runID attemptID : String} {counts : Counts}
    {u : Unit} (settled : w.Settled job.claim) (issued : job.claim ∈ w.issued)
    (stays : World.Stays job.claim w w')
    (ran : finalizeRetryableAttempt claim generation runID attemptID code message counts w.db =
      .ok (u, w'.db)) :
    w'.Settled job.claim := by
  obtain ⟨attempt, member, attempt', marks, focus⟩ := finalizeRetryableAttempt_ok ran
  intro held present holds started diagnosis
  obtain ⟨before, present', holds', continues⟩ := stays.held issued held present holds
  rw [continues.executionStarted] at started
  rw [continues.jobType] at diagnosis
  refine (settled before present' holds' started diagnosis).imp continues.flag fun resolved => ?_
  have carry : ∀ found ∈ (w.db.view before.resourceID).attempts, RunView.Current held found →
      found.providerDispatchUnresolved = false := fun found there current =>
    resolved found there ⟨current.1.trans continues.executionGeneration,
      current.2.trans continues.attemptCount⟩
  rw [continues.resourceID]
  intro found there current
  by_cases same : before.resourceID = runID
  · rw [same] at carry there
    rw [focus.1] at there
    rcases RunView.mem_putAttempt_cases there with rfl | old
    · rw [marks.providerDispatchUnresolved]
      exact carry attempt member ⟨marks.executionGeneration.symm.trans current.1,
        marks.attemptNo.symm.trans current.2⟩
    · exact carry found old current
  · rw [focus.2 _ same] at there
    exact carry found there current

theorem closeRetryableAttempt_obeys (own : c.For job) (owns : w.Owns job c row)
    (resolved : row.providerDispatchUnresolved = false) :
    Obeys handlers job.claim (closeRetryableAttempt c code message result)
      (fun err w => w.Handling job ∧ w.Settled job.claim ∧ err.Plain) w := by
  refine owns.cause own fun w inv owns => ?_
  split
  · exact ⟨owns.handling, owns.settled own resolved, inv.cause_plain _⟩
  split
  · exact ⟨owns.handling, owns.settled own resolved, rfl⟩
  have allowed : ∀ w : World, w.Owns job c row →
      (StoreCall.finalizeRetryableAttempt c.claim c.job.executionGeneration c.run.id
        c.execution.attemptID code message (executionCounts result)).Allowed job.claim w := by
    refine fun w owns => ⟨⟨own.claim, owns.handling.undropped⟩, fun attempt member mine => ?_⟩
    have content := owns.runs.attempt member mine
    rw [← content] at resolved
    exact resolved
  refine Safe.bind (Obeys.store (World.Owns.stable own) owns
    (fun w _ owns => ⟨owns.handling.issued, allowed w owns, trivial⟩) ?_)
  intro w answer w' inv owns outcome _
  have stays := outcome.stays (allowed w owns) fun _ _ => StoreCall.noConfusion
  have settled : w'.Settled job.claim := by
    rcases outcome.effect.inv with ⟨outside, a, ran, -⟩ | ⟨same, -⟩
    · exact (owns.settled own resolved).closed owns.handling.issued stays ran
    · exact (owns.settled own resolved).congr same
  cases answer with
  | ok u => exact ⟨owns.handling.stays stays, settled, rfl⟩
  | error err =>
    exact ⟨owns.handling.stays stays, settled, (outcome.effect.genuine fun outside =>
      finalizeRetryableAttempt_genuine _ _ _ _ _ _ _).plain⟩

theorem retryLater_obeys (own : c.For job) (owns : w.Owns job c row)
    (resolved : row.providerDispatchUnresolved = false) (failure : err ≠ .nil) (plain : err.Plain) :
    Obeys handlers job.claim (retryLater c code message result err)
      (fun err w => w.Handled job err) w := by
  refine Safe.bind ((closeRetryableAttempt_obeys own owns resolved).weaken
    fun closeErr w ⟨handling, settled, closePlain⟩ => ?_)
  split
  · exact .plain handling failure plain settled
  split
  · exact (cancelAttempt_obeys own.claim handling settled).weaken fun _ _ done => done.1
  · exact .plain handling Err.noConfusion closePlain.categorized settled

end Retries

section Conclusions

variable {handlers : Handlers} {job : AnalysisJob} {c : AttemptContext} {row : DiagnosisAttempt}
  {w w' : World}

def World.Sourced (h : DiagnosisHandler) (execution : Execution)
    (result : Option ExecutionResult) (err : Err) (w : World) : Prop :=
  (∀ earlier ∈ (w.db.view execution.runID).contentsUpTo execution.generation execution.attemptNo,
    earlier.attemptNo < execution.attemptNo → earlier.checkpointKind.final = false) ∨
  ∃ checkpoint : DiagnosisAttempt, checkpoint.checkpointKind.final = true ∧
    (resumedResult h checkpoint execution.attemptID).1 = result ∧
    (err = .nil → (resumedResult h checkpoint execution.attemptID).2 = .nil) ∧
    ((∃ held ∈ w.db.jobs.rows, held.HeldBy execution.claim) →
      checkpoint.attemptNo < execution.attemptNo ∧
        checkpoint.content ∈ (w.db.view execution.runID).contentsUpTo execution.generation
          execution.attemptNo)

variable {h : DiagnosisHandler}

theorem World.Sourced.rely (own : c.For job) (owns : w.Owns job c row)
    (sourced : w.Sourced h c.execution result err) (rely : World.Rely job.claim w w') :
    w'.Sourced h c.execution result err := by
  rw [← own.execution.claim] at rely
  have issued : c.execution.claim ∈ w.issued := own.execution.claim ▸ owns.handling.issued
  have same := (rely.owned owns.runs.owned).2
  refine sourced.imp (fun none => same ▸ none) ?_
  rintro ⟨checkpoint, final, result, clean, present⟩
  refine ⟨checkpoint, final, result, clean, fun ⟨held, member, holds⟩ => ?_⟩
  obtain ⟨before, member', holds', -⟩ := rely.held issued held member holds
  exact same ▸ present ⟨before, member', holds'⟩

theorem World.Sourced.congr {execution : Execution} (sourced : w.Sourced h execution result err)
    (same : w'.db = w.db) :
    w'.Sourced h execution result err := by
  rw [World.Sourced, same]
  exact sourced

theorem World.Sourced.marked {execution : Execution} {attempt attempt' : DiagnosisAttempt}
    (sourced : w.Sourced h execution result err) (mine : execution.claim = claim)
    (issued : claim ∈ w.issued) (stays : World.Stays claim w w')
    (marked : Marked execution attempt attempt' w.db w'.db)
    (number : attempt'.attemptNo = attempt.attemptNo) (id : attempt'.id = attempt.id) :
    w'.Sourced h execution result err := by
  subst mine
  have below : ∀ found : DiagnosisAttempt, found.attemptNo < execution.attemptNo →
      found ∈ (w.db.view execution.runID).contentsUpTo execution.generation execution.attemptNo →
      found ∈ (w'.db.view execution.runID).contentsUpTo execution.generation
        execution.attemptNo := by
    intro found earlier present
    obtain ⟨old, member, rfl, generation, le⟩ := RunView.mem_contentsUpTo.mp present
    obtain ⟨_, _, locked, _⟩ := marked.locked
    refine RunView.mem_contentsUpTo.mpr ⟨old, ?_, rfl, generation, le⟩
    rw [marked.focus.1]
    refine List.mem_map.mpr ⟨old, member, if_neg fun same => ?_⟩
    -- The attempt that was marked has the execution's own number.
    have equal := view_attempt_unique locked.member member (same.trans id)
    rw [equal] at earlier
    exact absurd marked.number (Nat.ne_of_lt earlier)
  refine sourced.imp (fun none earlier present lower => ?_) ?_
  · rw [marked.focus.1] at present
    obtain ⟨found, member, rfl, generation, le⟩ := RunView.mem_contentsUpTo.mp present
    rcases RunView.mem_putAttempt_cases member with rfl | old
    · exact absurd (number.trans marked.number) (Nat.ne_of_lt lower)
    · exact none _ (RunView.mem_contentsUpTo.mpr ⟨found, old, rfl, generation, le⟩) lower
  · rintro ⟨checkpoint, final, result, clean, present⟩
    refine ⟨checkpoint, final, result, clean, fun ⟨held, member, holds⟩ => ?_⟩
    obtain ⟨before, member', holds', -⟩ := stays.held issued held member holds
    obtain ⟨earlier, there⟩ := present ⟨before, member', holds'⟩
    exact ⟨earlier, below checkpoint.content earlier there⟩

theorem World.Sourced.fromCheckpoint (owns : w.Owns job c row)
    (sourced : w.Sourced h c.execution result err) {from_ : DiagnosisAttempt → Prop}
    (uses : ∀ checkpoint, (resumedResult h checkpoint c.execution.attemptID).1 = result →
      (err = .nil → (resumedResult h checkpoint c.execution.attemptID).2 = .nil) →
      from_ checkpoint) :
    w.FromCheckpoint c.execution.claim c.execution.runID c.execution.attemptID from_ := by
  intro held mine present same earlierFinal
  have content := owns.runs.attempt (view_attempt.mp present).1 same
  have number : mine.attemptNo = c.execution.attemptNo :=
    (congrArg DiagnosisAttempt.attemptNo content).trans owns.runs.number
  obtain ⟨written, _, writtenContent, generation, _⟩ :=
    RunView.mem_contentsUpTo.mp owns.runs.content
  have mineGeneration : mine.executionGeneration = c.execution.generation :=
    (congrArg DiagnosisAttempt.executionGeneration (content.trans writtenContent.symm)).trans
      generation
  rcases sourced with none | ⟨checkpoint, final, from_result, clean, there⟩
  · obtain ⟨earlier, member, sameGeneration, lower, final⟩ := earlierFinal
    have notFinal := none earlier.content (RunView.mem_contentsUpTo.mpr
      ⟨earlier, member, rfl, sameGeneration.trans mineGeneration, by omega⟩) (number ▸ lower)
    exact Bool.noConfusion (notFinal.symm.trans final)
  · obtain ⟨lower, there⟩ := there held
    obtain ⟨found, member, equal, foundGeneration, -⟩ := RunView.mem_contentsUpTo.mp there
    -- The columns that closing an attempt writes are not read.
    have reads : ∀ attempt : DiagnosisAttempt, resumedResult h attempt.content
        c.execution.attemptID = resumedResult h attempt c.execution.attemptID := fun _ => rfl
    have resumed : resumedResult h found c.execution.attemptID =
        resumedResult h checkpoint c.execution.attemptID := by
      rw [← reads found, equal, reads]
    have marks := DiagnosisAttempt.sameMarks_of_content equal
    refine ⟨found, ⟨member, foundGeneration.trans mineGeneration.symm, ?_, ?_⟩,
      uses found (resumed ▸ from_result) (resumed ▸ clean)⟩
    · rw [marks.attemptNo, number]
      exact lower
    · rw [marks.checkpointKind]
      exact final

variable {execErr : Err}

theorem reportedFailure_keeps {P : Err → Prop} (holds : P execErr)
    (wraps : ∀ code message err, P err → P (newPermanentError code message err)) :
    P (reportedFailure result execErr).1 := by
  have pick : ∀ {c : Prop} [Decidable c] {a b : Err × String}, P a.1 → P b.1 →
      P (if c then a else b).1 := by
    intro c _ a b left right
    split
    · exact left
    · exact right
  unfold reportedFailure
  extract_lets outcome progress
  have outcomeHolds : P outcome.1 := pick (wraps _ _ _ holds) (pick (wraps _ _ _ holds) holds)
  have progressHolds : P progress.1 := pick (wraps _ _ _ outcomeHolds) outcomeHolds
  split
  · exact wraps _ _ _ progressHolds
  · exact progressHolds

theorem reportedFailure_unknown (unknown : execErr.isOutcomeUnknown = true) :
    (classifyError (reportedFailure result execErr).1).1 = .permanent := by
  unfold reportedFailure
  rw [if_pos unknown]
  dsimp only
  split <;> split <;> rfl

theorem concludeFailure_obeys (own : c.For job) (owns : w.Owns job c row) (failure : execErr ≠ .nil)
    (plain : execErr.Plain)
    (known : execErr.isOutcomeUnknown = true ∨ row.providerDispatchUnresolved = false) :
    Obeys handlers job.claim (concludeFailure c result execErr)
      (fun err w => w.Handled job err) w := by
  unfold concludeFailure
  dsimp only
  have permanent : row.providerDispatchUnresolved = false ∨
      (classifyError (reportedFailure result execErr).1).1 = .permanent :=
    known.symm.imp_right reportedFailure_unknown
  have reported : (reportedFailure result execErr).1.Plain ∧
      (reportedFailure result execErr).1 ≠ .nil :=
    reportedFailure_keeps (P := fun err => err.Plain ∧ err ≠ .nil) ⟨plain, failure⟩
      fun _ _ _ ⟨plain, _⟩ => ⟨plain.categorized, Err.noConfusion⟩
  split
  · next lost =>
      have resolved := permanent.resolve_right fun same => nomatch same.symm.trans lost
      exact .plain owns.handling Err.noConfusion rfl (owns.settled own resolved)
  split
  · next cancelled =>
      have resolved := permanent.resolve_right fun same => nomatch same.symm.trans cancelled.1
      exact (cancelAttempt_obeys own.claim owns.handling (owns.settled own resolved)).weaken
        fun _ _ done => done.1
  refine owns.cause own fun w inv owns => ?_
  split
  · next stop =>
      refine .stopped owns.handling inv ?_
      simp only [Bool.or_eq_true, Bool.and_eq_true] at stop
      exact stop.elim .inr fun stop => .inl stop.1
  split
  · next stop => exact cancelFlagged_obeys own owns (owns.cancelled inv stop)
  split
  · exact finalizeFailureOnJobContext_obeys own owns
  · next retry =>
      have resolved := permanent.resolve_right fun same => retry (.inl same)
      exact retryLater_obeys own owns resolved reported.2 reported.1

theorem concludeEmpty_obeys (own : c.For job) (owns : w.Owns job c row)
    (resolved : row.providerDispatchUnresolved = false) :
    Obeys handlers job.claim (concludeEmpty c result) (fun err w => w.Handled job err) w := by
  unfold concludeEmpty
  dsimp only
  split
  · exact finalizeFailureOnJobContext_obeys own owns
  · exact retryLater_obeys own owns resolved Err.noConfusion rfl

structure World.Concluding (w : World) (h : DiagnosisHandler) (job : AnalysisJob)
    (c : AttemptContext) (row : DiagnosisAttempt) (result : Option ExecutionResult) (err : Err) :
    Prop extends w.Owns job c row where
  sourced : w.Sourced h c.execution result err

theorem World.Concluding.stable (own : c.For job) :
    Stable (discipline handlers) job.claim fun w =>
      w.Concluding handlers.diagnosis job c row result err :=
  fun _ _ rely _ concluding => ⟨concluding.toOwns.rely own rely,
    concluding.sourced.rely own concluding.toOwns rely⟩

theorem World.Concluding.fromCheckpoint (own : c.For job)
    (concluding : w.Concluding h job c row result err) {from_ : DiagnosisAttempt → Prop}
    (uses : ∀ checkpoint, (resumedResult h checkpoint c.execution.attemptID).1 = result →
      (err = .nil → (resumedResult h checkpoint c.execution.attemptID).2 = .nil) →
      from_ checkpoint) :
    w.FromCheckpoint c.claim c.run.id c.execution.attemptID from_ := by
  rw [own.claim, ← own.execution.claim, own.run]
  exact concluding.sourced.fromCheckpoint concluding.toOwns uses

theorem World.Concluding.newID {α : Type} {post : α → World → Prop} {next : String → Prog α}
    (own : c.For job) (concluding : w.Concluding handlers.diagnosis job c row result err)
    (continues : ∀ (w : World) id, w.Concluding handlers.diagnosis job c row result err →
      Obeys handlers job.claim (next id) post w) :
    Obeys handlers job.claim (RepoLens.ask .newID >>= next) post w :=
  Safe.bind (Obeys.ask (World.Concluding.stable own) concluding
    (fun _ concluding => concluding.handling.issued) (fun _ issued => ⟨issued, trivial⟩)
    (fun _ => Call.noConfusion) (fun _ => rfl) fun w id _ => continues w id)

theorem concludeInvalid_obeys (own : c.For job)
    (concluding : w.Concluding handlers.diagnosis job c row result err)
    (resolved : row.providerDispatchUnresolved = false) :
    Obeys handlers job.claim (concludeInvalid handlers.diagnosis c result)
      (fun err w => w.Handled job err) w := by
  refine concluding.newID own fun w id concluding => ?_
  refine Safe.bind (Obeys.store (World.Concluding.stable own) concluding ?_ ?_)
  · refine fun w _ concluding => ⟨concluding.handling.issued,
      ⟨own.claim, concluding.handling.undropped⟩, concluding.fromCheckpoint own ?_⟩
    rintro checkpoint rfl -
    exact ⟨c, id, _, rfl⟩
  intro w answer w' inv concluding outcome _
  have after := concluding.handling.stays (outcome.stays (show w.Acting job.claim c.claim from
    ⟨own.claim, concluding.handling.undropped⟩) fun _ _ => StoreCall.noConfusion)
  have settled : w'.Settled job.claim := (concluding.toOwns.settled own resolved).outcome outcome
    fun outside => own.claim ▸ finalizeInvalidStructuredReport_unheld _ _ _ _ _ _ _
  cases answer with
  | ok u => exact .plain after Err.noConfusion rfl settled
  | error err =>
    have genuine := outcome.effect.genuine fun outside =>
      finalizeInvalidStructuredReport_genuine _ _ _ _ _ _ _ _
    dsimp only
    split
    · exact .plain after Err.noConfusion rfl settled
    split
    · exact (cancelAttempt_obeys own.claim after settled).weaken fun _ _ done => done.1
    split
    · exact .plain after Err.noConfusion rfl settled
    change World.Handled job (wrapAtomicHandlerFailureFinalization _ _) w'
    unfold wrapAtomicHandlerFailureFinalization
    split
    · exact .plain after Err.noConfusion genuine.plain.categorized settled
    · refine ⟨after, Err.noConfusion, fun atomic => ?_, .inl settled⟩
      cases atomic
      rfl

theorem finalizeReport_obeys {result : ExecutionResult} {report : Report}
    {citations : List Citation} {data : DiagnosisReportData} {id : String}
    {status : ReportStatus} {quality : Err} (own : c.For job)
    (concluding : w.Concluding handlers.diagnosis job c row (some result) .nil)
    (resolved : row.providerDispatchUnresolved = false) (data_eq : result.report = some data)
    (report_eq : report = successReport handlers.diagnosis c id result
      (stampReport handlers.diagnosis c id data) status quality) :
    Obeys handlers job.claim (finalizeReport c result report citations)
      (fun err w => w.Handled job err) w := by
  have allowed : ∀ w : World, w.Concluding handlers.diagnosis job c row (some result) .nil →
      (StoreCall.finalizeSuccess c.claim c.run.id c.execution.attemptID report citations
        (executionCounts (some result))).Allowed job.claim w := by
    refine fun w concluding => ⟨⟨own.claim, concluding.handling.undropped⟩,
      fun attempt member mine => ?_⟩
    have content := concluding.runs.attempt member mine
    rw [← content] at resolved
    exact resolved
  refine Safe.bind (Obeys.store (World.Concluding.stable own) concluding ?_ ?_)
  · refine fun w _ concluding => ⟨concluding.handling.issued, allowed w concluding,
      concluding.fromCheckpoint own ?_⟩
    intro checkpoint from_result clean
    exact ⟨c, id, result, data, status, quality, Prod.ext from_result (clean rfl), data_eq,
      report_eq⟩
  intro w answer w' inv concluding outcome _
  have after := concluding.handling.stays (outcome.stays (allowed w concluding)
    fun _ _ => StoreCall.noConfusion)
  have settled : w'.Settled job.claim := (concluding.toOwns.settled own resolved).outcome outcome
    fun outside => own.claim ▸ finalizeSuccess_unheld _ _ _ _ _ _ _
  cases answer with
  | ok u =>
    rcases outcome.effect.inv with ⟨outside, a, ran, -⟩ | ⟨-, err, error, -⟩
    · have unheld : Unheld job.claim w'.db :=
        own.claim ▸ finalizeSuccess_unheld _ _ _ _ _ _ _ _ _ _ ran
      refine ⟨after, fun _ held member holds => absurd holds (unheld held member),
        fun atomic => ?_, .inl settled⟩
      cases atomic
    · cases error
  | error err =>
    have genuine := outcome.effect.genuine fun outside => finalizeSuccess_genuine _ _ _ _ _ _ _ _
    dsimp only
    split
    · exact (cancelAttempt_obeys own.claim after settled).weaken fun _ _ done => done.1
    split
    · exact .plain after Err.noConfusion rfl settled
    split
    · exact .plain after Err.noConfusion rfl settled
    split
    · next tooLarge =>
        -- A report is too large only for a transaction that was rolled back.
        have unchanged : w'.db = w.db := by
          rcases outcome.effect.inv with ⟨_, _, _, seen⟩ | ⟨unchanged, -⟩
          · obtain ⟨fault, equal⟩ := seen.resolve_left nofun
            cases equal
            cases fault <;> cases tooLarge
          · exact unchanged
        have owns : w'.Owns job c row := ⟨after, concluding.runs.congr unchanged, fun seen =>
          (concluding.heeds seen).stays concluding.handling.issued
            (outcome.stays (allowed w concluding) fun _ _ => StoreCall.noConfusion)⟩
        exact finalizeFailureOnJobContext_obeys own owns
    · exact .wrapped after genuine.plain.genuine_categorized settled

theorem concludeReport_obeys {result : ExecutionResult} {data : DiagnosisReportData}
    (own : c.For job) (concluding : w.Concluding handlers.diagnosis job c row (some result) .nil)
    (resolved : row.providerDispatchUnresolved = false) (data_eq : result.report = some data) :
    Obeys handlers job.claim (concludeReport handlers.diagnosis c result data)
      (fun err w => w.Handled job err) w := by
  refine Safe.bind (Obeys.cause (World.Concluding.stable own) concluding
    (fun _ concluding => concluding.handling.issued) fun w inv concluding => ?_)
  split
  · next stop => exact .stopped concluding.handling inv (Bool.or_eq_true_iff.mp stop)
  split
  · next stop =>
      exact cancelFlagged_obeys own concluding.toOwns (concluding.toOwns.cancelled inv stop)
  refine concluding.newID own fun w id concluding => ?_
  dsimp only
  split
  · exact finalizeFailureOnJobContext_obeys own concluding.toOwns
  · exact finalizeReport_obeys own concluding resolved data_eq rfl

theorem settle_obeys (own : c.For job)
    (concluding : w.Concluding handlers.diagnosis job c row result execErr) (plain : execErr.Plain)
    (known : execErr.isOutcomeUnknown = true ∨ row.providerDispatchUnresolved = false)
    (invalid : execErr.is .invalidStructuredReport = true →
      row.providerDispatchUnresolved = false) :
    Obeys handlers job.claim (settle handlers.diagnosis c result execErr)
      (fun err w => w.Handled job err) w := by
  refine Safe.bind (Obeys.cause (World.Concluding.stable own) concluding
    (fun _ concluding => concluding.handling.issued) fun w inv concluding => ?_)
  split
  · next stop =>
      refine .stopped concluding.handling inv ?_
      simp only [Bool.or_eq_true, Bool.and_eq_true] at stop
      exact stop.elim .inr fun stop => .inl stop.1
  split
  · next stop =>
      exact cancelFlagged_obeys own concluding.toOwns (concluding.toOwns.cancelled inv stop)
  split
  · next unstructured => exact concludeInvalid_obeys own concluding (invalid unstructured)
  split
  · next failure => exact concludeFailure_obeys own concluding.toOwns failure plain known
  · next success =>
      obtain rfl : execErr = .nil := Decidable.not_not.mp success
      have resolved := known.resolve_left nofun
      split
      · exact concludeEmpty_obeys own concluding.toOwns resolved
      split
      · exact concludeEmpty_obeys own concluding.toOwns resolved
      · next data_eq => exact concludeReport_obeys own concluding resolved data_eq

end Conclusions

end RepoLens
