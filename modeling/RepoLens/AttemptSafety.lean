import RepoLens.HandlerSafety

/-!
The diagnosis handler from its start to the end of its attempt.
-/

namespace RepoLens

open Relational Transaction Interleaving

section Verification

variable {handlers : Handlers} {job : AnalysisJob} {c : AttemptContext} {row : DiagnosisAttempt}
  {w w' : World} {result : Option ExecutionResult} {execErr : Err}

theorem World.Sourced.of_err {h : DiagnosisHandler} {execution : Execution} {err : Err}
    (sourced : w.Sourced h execution result execErr) (clean : err = .nil → execErr = .nil) :
    w.Sourced h execution result err := by
  refine sourced.imp_right ?_
  rintro ⟨checkpoint, final, from_result, fine, there⟩
  exact ⟨checkpoint, final, from_result, fun none => fine (clean none), there⟩

/-- What the durable marker can make of an error. -/
structure Verified (row : DiagnosisAttempt) (result : Option ExecutionResult)
    (execErr verified : Err) : Prop where
  plain : verified.Plain
  clean : verified = .nil → execErr = .nil
  invalid : verified.is .invalidStructuredReport = true →
    execErr.is .invalidStructuredReport = true
  known : verified.isOutcomeUnknown = true ∨ row.providerDispatchUnresolved = false ∨
    (verified = execErr ∧ ((execErr = .nil ∧ result.isSome = true) ∨
      execErr.is .invalidStructuredReport = true))

theorem Verified.same (plain : execErr.Plain)
    (known : row.providerDispatchUnresolved = false ∨ (execErr = .nil ∧ result.isSome = true) ∨
      execErr.is .invalidStructuredReport = true) : Verified row result execErr execErr :=
  ⟨plain, id, id, .inr (known.imp_right fun known => ⟨rfl, known⟩)⟩

theorem cause_or_message (text : String) (plain : execErr.Plain) :
    (if execErr = .nil then .message text else execErr : Err).Plain ∧
      (if execErr = .nil then .message text else execErr : Err).is .invalidStructuredReport =
        execErr.is .invalidStructuredReport ∧
      (if execErr = .nil then .message text else execErr : Err).isOutcomeUnknown =
        execErr.isOutcomeUnknown := by
  split
  · next none => exact none ▸ ⟨rfl, rfl, rfl⟩
  · exact ⟨plain, rfl, rfl⟩

theorem verifyDispatchState_obeys (own : c.For job)
    (concluding : w.Concluding handlers.diagnosis job c row result execErr)
    (plain : execErr.Plain) :
    Obeys handlers job.claim (verifyDispatchState c result execErr)
      (fun verified w => w.Concluding handlers.diagnosis job c row result execErr ∧
        Verified row result execErr verified) w := by
  unfold verifyDispatchState
  split
  · next done =>
      refine ⟨concluding, .same plain (.inr (.inl ⟨done.1, ?_⟩))⟩
      cases result with
      | none => cases done.2
      | some result => rfl
  refine Safe.bind (Obeys.store (World.Concluding.stable own) concluding
    (fun w _ concluding => ⟨concluding.handling.issued, trivial, trivial⟩) ?_)
  intro w answer w' inv concluding outcome _
  obtain rfl : w' = w :=
    outcome.read (fun _ _ _ ran => (Place.select_expect_ok ran).1) fun _ _ _ => rfl
  cases answer with
  | error stateErr =>
    have genuine := outcome.effect.genuine fun outside =>
      .bind Place.select_fails fun _ => .expect rfl
    have unrelated : stateErr.is .invalidStructuredReport = false := by
      rcases outcome.effect.inv with ⟨_, _, _, seen | ⟨fault, seen⟩⟩ | ⟨-, err, error, reason⟩
      · cases seen
      · cases seen
        cases fault <;> rfl
      · cases error
        rcases reason with ⟨fault, rfl⟩ | ⟨outside, failed⟩
        · cases fault <;> rfl
        · have fails : Fails (fun err : Err => err.is .invalidStructuredReport = false)
              (getAttempt c.execution.attemptID) := .bind Place.select_fails fun _ => .expect rfl
          exact fails _ _ failed
    obtain ⟨causePlain, same, -⟩ := cause_or_message "executor returned no report" plain
    refine ⟨concluding, ?_, Err.noConfusion, fun unstructured => ?_, .inl rfl⟩
    · exact (causePlain.join genuine.plain).wrap.outcomeUnknown
    · simpa only [Err.is, unrelated, Bool.or_false, same] using unstructured
  | ok persisted =>
    dsimp only
    split
    · next resolved =>
        refine ⟨concluding, .same plain (.inl ?_)⟩
        rcases outcome.effect.inv with
          ⟨outside, a, ran, seen | ⟨fault, seen⟩⟩ | ⟨-, err, error, -⟩
        · cases seen
          obtain ⟨-, member, mine⟩ := Place.select_expect_ok ran
          rw [← concluding.runs.attempt member mine]
          exact resolved
        · cases seen
        · cases error
    · obtain ⟨causePlain, same, sameUnknown⟩ := cause_or_message
        "executor returned no report after provider dispatch" plain
      rw [same, sameUnknown]
      split
      · next ordinary =>
          refine ⟨concluding, causePlain.outcomeUnknown, Err.noConfusion,
            fun unstructured => ?_, .inl rfl⟩
          simpa only [Err.is, same] using unstructured
      · next special =>
          refine ⟨concluding, plain, id, id, ?_⟩
          simp only [not_and_or, Bool.not_eq_false] at special
          exact special.imp_right fun invalid => .inr ⟨rfl, .inr invalid⟩

end Verification

section Saving

variable {handlers : Handlers} {job : AnalysisJob} {c : AttemptContext} {row : DiagnosisAttempt}
  {w w' : World} {result : Option ExecutionResult} {execErr : Err}

structure Saved (row row' : DiagnosisAttempt) (result : Option ExecutionResult) (err : Err) :
    Prop where
  keeps : row.providerDispatchUnresolved = false → row'.providerDispatchUnresolved = false
  final : result.isSome = true → (checkpointKindOf err).final = true →
    row'.providerDispatchUnresolved = false

theorem World.Concluding.saved {u : Unit} {checkpoint : AttemptCheckpoint} {now : Time}
    (own : c.For job) (concluding : w.Concluding handlers.diagnosis job c row result execErr)
    (inv : w.Inv) (follows : World.Follows job.claim w w') (stays : World.Stays job.claim w w')
    (ran : updateAttemptCheckpointWithClaim c.execution checkpoint now w.db = .ok (u, w'.db)) :
    ∃ row', w'.Concluding handlers.diagnosis job c row' result execErr ∧
      (row.providerDispatchUnresolved = false → row'.providerDispatchUnresolved = false) ∧
      (checkpoint.kind.final = true → row'.providerDispatchUnresolved = false) := by
  obtain ⟨attempt, marked⟩ := updateAttemptCheckpointWithClaim_ok ran
  have unclosed := marked.unclosed
  obtain ⟨content, runs⟩ := marked.runs concluding.runs follows inv
    ⟨rfl, rfl, rfl, .inr (.inl unclosed)⟩ rfl
  refine ⟨_, ⟨⟨concluding.handling.stays stays, runs, fun seen =>
    (concluding.heeds seen).stays concluding.handling.issued stays⟩,
    concluding.sourced.marked own.execution.claim concluding.handling.issued stays marked rfl rfl⟩,
    fun resolved => ?_, fun final => ?_⟩
  · rw [← content] at resolved
    change (if checkpoint.kind.final then false else attempt.providerDispatchUnresolved) = false
    split
    · rfl
    · exact resolved
  · exact if_pos final

theorem saveAttemptCheckpoint_obeys (own : c.For job)
    (concluding : w.Concluding handlers.diagnosis job c row result execErr)
    (fresh : row.checkpointKind = .none) :
    Obeys handlers job.claim (saveAttemptCheckpoint handlers.diagnosis c result execErr)
      (fun saveErr w => ∃ row', w.Concluding handlers.diagnosis job c row' result execErr ∧
        (saveErr = .nil → Saved row row' result execErr)) w := by
  unfold saveAttemptCheckpoint
  split
  · exact ⟨row, concluding, fun _ => ⟨id, fun some => nomatch some⟩⟩
  rename_i result
  have allowed : ∀ w : World, w.Concluding handlers.diagnosis job c row (some result) execErr →
      (StoreCall.updateAttemptCheckpointWithClaim c.execution
        (attemptCheckpoint handlers.diagnosis c result execErr)).Allowed job.claim w := by
    refine fun w concluding => ⟨⟨own.execution.claim, concluding.handling.undropped⟩,
      fun attempt member mine => ?_⟩
    have content := concluding.runs.attempt member mine
    rw [← content] at fresh
    exact fresh
  refine Safe.bind (Obeys.store (World.Concluding.stable own) concluding ?_ ?_)
  · refine fun w _ concluding => ⟨concluding.handling.issued, allowed w concluding,
      concluding.sourced.fromCheckpoint concluding.toOwns ?_⟩
    intro checkpoint from_result _
    exact ⟨c, result, execErr, from_result, rfl⟩
  intro w answer w' inv concluding outcome _
  have stays := outcome.stays (allowed w concluding) fun _ _ => StoreCall.noConfusion
  have follows := outcome.follows inv (allowed w concluding)
  cases answer with
  | ok u =>
    rcases outcome.effect.inv with ⟨outside, a, ran, -⟩ | ⟨-, err, error, -⟩
    · obtain ⟨row', concluding', keeps, final⟩ := concluding.saved own inv follows stays ran
      exact ⟨row', concluding', fun _ => ⟨keeps, fun _ => final⟩⟩
    · cases error
  | error err =>
    have genuine := outcome.effect.genuine fun outside =>
      updateAttemptCheckpointWithClaim_genuine _ _ _
    rcases outcome.effect.inv with ⟨outside, a, ran, -⟩ | ⟨same, -⟩
    · obtain ⟨row', concluding', -⟩ := concluding.saved own inv follows stays ran
      exact ⟨row', concluding', fun none => absurd none genuine.ne_nil⟩
    · refine ⟨row, ⟨⟨concluding.handling.stays stays, concluding.runs.congr same, fun seen =>
        (concluding.heeds seen).stays concluding.handling.issued stays⟩,
        concluding.sourced.congr same⟩, fun none => absurd none genuine.ne_nil⟩

theorem checkpointKindOf_invalid {err : Err} (invalid : err.is .invalidStructuredReport = true) :
    (checkpointKindOf err).final = true := by
  rw [checkpointKindOf, if_pos invalid]
  rfl

theorem checkedResult_plain {h : DiagnosisHandler} (plain : execErr.Plain) :
    (checkedResult h result execErr).2.Plain := by
  unfold checkedResult
  split
  · unfold checkStructure
    split
    · dsimp only
      split <;> rfl
    · rfl
  · exact plain

theorem checkedResult_none {h : DiagnosisHandler}
    (none : (checkedResult h result execErr).1 = none) :
    result = .none ∧ (checkedResult h result execErr).2 = execErr := by
  unfold checkedResult at none ⊢
  split at none
  · cases none
  · next unchecked => exact ⟨none, rfl⟩

theorem conclude_obeys (own : c.For job)
    (concluding : w.Concluding handlers.diagnosis job c row
      (checkedResult handlers.diagnosis result execErr).1
      (checkedResult handlers.diagnosis result execErr).2)
    (fresh : row.checkpointKind = .none) (plain : execErr.Plain)
    (early : result = none → execErr.is .invalidStructuredReport = true →
      row.providerDispatchUnresolved = false) :
    Obeys handlers job.claim (conclude handlers.diagnosis c result execErr)
      (fun err w => w.Handled job err) w := by
  unfold conclude
  dsimp only
  generalize checked_eq : checkedResult handlers.diagnosis result execErr = checked at concluding ⊢
  have checkedPlain : checked.2.Plain := checked_eq ▸ checkedResult_plain plain
  have earlyChecked : checked.1 = none → checked.2.is .invalidStructuredReport = true →
      row.providerDispatchUnresolved = false := by
    subst checked_eq
    intro none invalid
    obtain ⟨absent, same⟩ := checkedResult_none none
    exact early absent (same ▸ invalid)
  refine Safe.bind ((verifyDispatchState_obeys own concluding checkedPlain).weaken
    fun verified w ⟨concluding, done⟩ => ?_)
  have concluding : w.Concluding handlers.diagnosis job c row checked.1 verified :=
    ⟨concluding.toOwns, concluding.sourced.of_err done.clean⟩
  refine Safe.bind ((saveAttemptCheckpoint_obeys own concluding fresh).weaken
    fun saveErr w ⟨row', concluding, saved⟩ => ?_)
  split
  · exact refuseReplay_obeys own concluding.toOwns
  · next success =>
      obtain ⟨keeps, final⟩ := saved (Decidable.not_not.mp success)
      -- An invalid report resolves the attempt: its checkpoint is final, or there was
      -- no provider call.
      have invalid : verified.is .invalidStructuredReport = true →
          row'.providerDispatchUnresolved = false := by
        intro unstructured
        cases none : checked.1 with
        | none => exact keeps (earlyChecked none (done.invalid unstructured))
        | some _ => exact final (none ▸ rfl) (checkpointKindOf_invalid unstructured)
      refine settle_obeys own concluding done.plain ?_ invalid
      rcases done.known with unknown | resolved | ⟨rfl, ⟨none, some⟩ | unstructured⟩
      · exact .inl unknown
      · exact .inr (keeps resolved)
      · exact .inr (final some (by rw [none]; rfl))
      · exact .inr (invalid unstructured)

end Saving

section Executing

variable {handlers : Handlers} {job : AnalysisJob} {c : AttemptContext} {row : DiagnosisAttempt}
  {w w' : World}

theorem highestAttempt_mem {attempts : List DiagnosisAttempt} {highest : DiagnosisAttempt}
    (found : highestAttempt attempts = some highest) : highest ∈ attempts := by
  induction attempts generalizing highest with
  | nil => cases found
  | cons attempt rest ih =>
    simp only [highestAttempt] at found
    split at found
    · cases found
      exact List.mem_cons_self
    · next best rest_eq =>
        split at found
        · cases found
          exact List.mem_cons_of_mem _ (ih rest_eq)
        · cases found
          exact List.mem_cons_self

theorem highestAttempt_none {attempts : List DiagnosisAttempt}
    (none : highestAttempt attempts = none) : attempts = [] := by
  cases attempts with
  | nil => rfl
  | cons attempt rest =>
    simp only [highestAttempt] at none
    split at none
    · cases none
    · split at none <;> cases none

/-- The attempt has just been started: it has no provider call behind it. -/
structure World.Opened (w : World) (job : AnalysisJob) (c : AttemptContext) : Prop extends
    w.Owns job c (newAttempt c.execution) where
  silent : ∀ event ∈ w.own job.claim, event.execution = none

theorem World.Opened.stable (own : c.For job) :
    Stable (discipline handlers) job.claim fun w => w.Opened job c :=
  fun _ _ rely _ opened => ⟨opened.toOwns.rely own rely, rely.own ▸ opened.silent⟩

theorem World.Opened.ready (own : c.For job) (opened : w.Opened job c)
    (unsaved : w.Unsaved c.execution) :
    w.Ready job c.execution (newAttempt c.execution) where
  handling := opened.handling
  own := own.execution
  runs := opened.runs
  fresh := rfl
  unsaved := unsaved
  only event member other about := by
    rw [own.execution.claim] at member
    cases (opened.silent event member).symm.trans about
  known := by
    right
    rw [own.execution.claim]
    refine ⟨?_, fun reply member => nomatch opened.silent _ member⟩
    rw [List.countP_eq_zero.mpr, List.countP_eq_zero.mpr]
    · intro event member received
      cases event with
      | received => cases opened.silent _ member
      | _ => cases received
    · intro event member dispatched
      cases of_decide_eq_true dispatched
      cases opened.silent _ member

theorem World.Unsaved.sourced {h : DiagnosisHandler} {execution : Execution}
    {result : Option ExecutionResult} {err : Err} (unsaved : w.Unsaved execution) :
    w.Sourced h execution result err :=
  .inl fun earlier member _ => unsaved earlier member

theorem resumeCheckpoint_obeys {checkpoint : DiagnosisAttempt} (own : c.For job)
    (opened : w.Opened job c) (final : checkpoint.checkpointKind.final = true)
    (there : (∃ held ∈ w.db.jobs.rows, held.HeldBy c.execution.claim) →
      checkpoint.attemptNo < c.execution.attemptNo ∧
        checkpoint.content ∈ (w.db.view c.execution.runID).contentsUpTo c.execution.generation
          c.execution.attemptNo) :
    Obeys handlers job.claim (resumeCheckpoint handlers.diagnosis c checkpoint)
      (fun err w => w.Handled job err) w := by
  unfold resumeCheckpoint
  split
  · exact refuseReplay_obeys own opened.toOwns
  · refine conclude_obeys own ⟨opened.toOwns, .inr ⟨checkpoint, final, rfl, id, there⟩⟩ rfl ?_
      fun none => nomatch none
    unfold checkpointErr
    split <;> rfl

theorem World.Opened.earlier {checkpoint : DiagnosisAttempt} (own : c.For job)
    (opened : w.Opened job c) (inv : w.Inv)
    (present : checkpoint ∈ (w.db.view c.execution.runID).attempts)
    (generation : checkpoint.executionGeneration = c.execution.generation)
    (final : checkpoint.checkpointKind.final = true)
    (held : ∃ held ∈ w.db.jobs.rows, held.HeldBy c.execution.claim) :
    checkpoint.attemptNo < c.execution.attemptNo ∧
      checkpoint.content ∈ (w.db.view c.execution.runID).contentsUpTo c.execution.generation
        c.execution.attemptNo := by
  obtain ⟨held, member, holds⟩ := held
  have continues := opened.handling.same held member (own.execution.claim ▸ holds)
  have job_eq : (w.db.view c.execution.runID).job = some held :=
    view_job.mpr ⟨member, continues.jobType.trans own.diagnosis,
      continues.resourceID.trans own.execution.runID.symm⟩
  have bounded : checkpoint.attemptNo ≤ c.execution.attemptNo := by
    rcases (inv.sound c.execution.runID).numbered.bounded job_eq checkpoint present with
      lower | ⟨-, le⟩
    · rw [generation, own.execution.generation, continues.executionGeneration] at lower
      exact absurd lower (Nat.lt_irrefl _)
    · rw [own.execution.number, ← continues.attemptCount]
      exact le
  obtain ⟨mine, presentMine, content, mineGeneration, -⟩ :=
    RunView.mem_contentsUpTo.mp opened.runs.content
  have other : checkpoint.attemptNo ≠ c.execution.attemptNo := by
    intro same
    have marks := DiagnosisAttempt.sameMarks_of_content
      (show mine.content = (newAttempt c.execution).content from content)
    have equal : checkpoint = mine :=
      (w.db.view_proper c.execution.runID).numbers checkpoint present mine presentMine
        (generation.trans mineGeneration.symm) (same.trans marks.attemptNo.symm)
    rw [equal, marks.checkpointKind] at final
    cases final
  exact ⟨Nat.lt_of_le_of_ne bounded other,
    RunView.mem_contentsUpTo.mpr ⟨checkpoint, present, rfl, generation, bounded⟩⟩

theorem runAttempt_obeys (own : c.For job) (opened : w.Opened job c)
    (unseen : c.cancelSeen = false) :
    Obeys handlers job.claim (runAttempt handlers.diagnosis c)
      (fun err w => w.Handled job err) w := by
  refine Safe.bind (Obeys.store (World.Opened.stable own) opened
    (fun w _ opened => ⟨opened.handling.issued, trivial, trivial⟩) ?_)
  intro w answer w' inv opened outcome _
  obtain rfl : w' = w := outcome.read (fun outside a db' ran => by
    obtain ⟨found, db₁, selected, rest⟩ := bind_ok.mp ran
    obtain ⟨-, rfl⟩ := (Place.selectAll_ok _).mp selected
    exact (pure_ok.mp rest).2) fun _ _ _ => rfl
  cases answer with
  | error err =>
    have genuine := outcome.effect.genuine fun outside =>
      .bind Place.selectAll_fails fun _ => .pure _
    exact .plain opened.handling Err.noConfusion genuine.plain.categorized
      (opened.toOwns.settled own rfl)
  | ok found =>
    have found_eq : found = highestAttempt (w'.db.attempts.selectAll fun attempt =>
        attempt.Of c.run.id c.execution.generation ∧ attempt.checkpointKind.final = true ∧
          attempt.providerCompletedAt.isSome = true) := by
      rcases outcome.effect.inv with ⟨outside, a, ran, seen⟩ | ⟨-, err, error, -⟩
      · obtain ⟨found, db₁, selected, rest⟩ := bind_ok.mp ran
        obtain ⟨rfl, rfl⟩ := (Place.selectAll_ok _).mp selected
        cases seen.resolve_right nofun
        exact (pure_ok.mp rest).1
      · cases error
    rw [own.run] at found_eq
    cases found with
    | some checkpoint =>
      have member := highestAttempt_mem found_eq.symm
      obtain ⟨present, of, final, -⟩ := Table.mem_selectAll.mp member
      refine resumeCheckpoint_obeys own opened final fun held => ?_
      exact opened.earlier own inv (view_attempt.mpr ⟨present, of.1⟩) of.2 final held
    | none =>
      have unsaved : w'.Unsaved c.execution := by
        intro row member
        obtain ⟨attempt, present, rfl, generation, -⟩ := RunView.mem_contentsUpTo.mp member
        refine Bool.eq_false_iff.mpr fun final => ?_
        obtain ⟨there, ofRun⟩ := view_attempt.mp present
        have completed := (inv.sound c.execution.runID).completed attempt present final
        have listed : attempt ∈ ([] : List DiagnosisAttempt) :=
          highestAttempt_none found_eq.symm ▸
            Table.mem_selectAll.mpr ⟨there, ⟨ofRun, generation⟩, final, completed⟩
        cases listed
      refine Safe.bind ((executeAgent_obeys _ _ ⟨_, opened.ready own unsaved, rfl⟩).weaken
        fun executed w ⟨plain, row, active, early⟩ => ?_)
      have owns : w.Owns job c row :=
        ⟨active.handling, active.runs, fun seen => nomatch unseen.symm.trans seen⟩
      exact conclude_obeys own ⟨owns, active.unsaved.sourced⟩ active.fresh plain early

end Executing

section Starting

variable {handlers : Handlers} {job : AnalysisJob} {c : AttemptContext} {run : DiagnosisRun}
  {claim : Claim} {w w' : World}

def World.Unattempted (w : World) (claim : Claim) : Prop :=
  ∀ row ∈ w.db.jobs.rows, row.HeldBy claim → row.executionStarted = true →
    row.jobType = .runDiagnosis →
    ∀ attempt ∈ (w.db.view row.resourceID).attempts, ¬RunView.Current row attempt

theorem World.Unattempted.settled (unattempted : w.Unattempted claim) : w.Settled claim :=
  fun row member held started diagnosis => .inr fun attempt present current =>
    absurd current (unattempted row member held started diagnosis attempt present)

theorem World.Unattempted.rely (issued : claim ∈ w.issued) (unattempted : w.Unattempted claim)
    (rely : World.Rely claim w w') : w'.Unattempted claim := by
  intro row member held started diagnosis attempt present current
  obtain ⟨before, member', held', continues⟩ := rely.held issued row member held
  rw [continues.executionStarted] at started
  rw [continues.jobType] at diagnosis
  obtain ⟨-, same⟩ := rely.owned (held'.owned member' started diagnosis)
  have written : attempt.content ∈ (w'.db.view before.resourceID).contentsUpTo
      before.executionGeneration before.attemptCount :=
    RunView.mem_contentsUpTo.mpr ⟨attempt, continues.resourceID ▸ present, rfl,
      current.1.trans continues.executionGeneration,
      Nat.le_of_eq (current.2.trans continues.attemptCount)⟩
  rw [same] at written
  obtain ⟨old, present', equal, generation, -⟩ := RunView.mem_contentsUpTo.mp written
  refine unattempted before member' held' started diagnosis old present' ⟨generation, ?_⟩
  exact (DiagnosisAttempt.sameMarks_of_content equal).attemptNo.trans
    (current.2.trans continues.attemptCount)

structure World.Charged (w : World) (job : AnalysisJob) : Prop where
  handling : w.Handling job
  unattempted : w.Unattempted job.claim
  silent : ∀ event ∈ w.own job.claim, event.execution = none

theorem World.Charged.stable :
    Stable (discipline handlers) job.claim fun w => w.Charged job :=
  fun _ _ rely _ charged => ⟨charged.handling.stays rely.stays,
    charged.unattempted.rely charged.handling.issued rely, rely.own ▸ charged.silent⟩

structure AttemptContext.Opens (c : AttemptContext) (job : AnalysisJob) : Prop where
  same : c.job = job
  claim : c.claim = job.claim
  executor : c.execution.claim = job.claim
  run : c.run.id = job.resourceID
  runID : c.execution.runID = c.run.id
  number : c.execution.attemptNo = job.expectedAttemptNo
  diagnosis : job.jobType = .runDiagnosis
  started : job.executionStarted = true

theorem World.Charged.opened {u : Unit} {now : Time} (opens : c.Opens job) (charged : w.Charged job)
    (inv : w.Inv) (stays : World.Stays job.claim w w') (own : w'.own job.claim = w.own job.claim)
    (heeds : c.cancelSeen = true → w.Flagged job.claim)
    (ran : startAttemptWithClaim c.claim c.execution.generation c.run.id (newAttempt c.execution)
      now w.db = .ok (u, w'.db)) :
    c.For job ∧ w'.Opened job c := by
  obtain ⟨held, run, version, ⟨job_eq, holds, generation, started, -⟩, -, ⟨-, -, -⟩, focus⟩ :=
    startAttemptWithClaim_ok ran
  obtain ⟨member, _⟩ := view_job.mp job_eq
  have continues := charged.handling.same held member (opens.claim ▸ holds)
  have positive := (inv.sound c.run.id).numbered.charged job_eq started
  have count : c.execution.attemptNo = held.attemptCount := by
    rw [opens.number, AnalysisJob.expectedAttemptNo_charged (continues.attemptCount ▸ positive),
      continues.attemptCount]
  have own' : c.For job :=
    { same := opens.same
      claim := opens.claim
      run := opens.runID.symm
      execution :=
        { claim := opens.executor
          generation := generation.symm.trans continues.executionGeneration
          runID := opens.runID.trans opens.run
          number := count.trans continues.attemptCount }
      diagnosis := opens.diagnosis
      started := opens.started }
  refine ⟨own', ⟨charged.handling.stays stays, ?_, fun seen =>
    (heeds seen).stays charged.handling.issued stays⟩, own ▸ charged.silent⟩
  refine ⟨⟨held, ?_, .inl ⟨?_, started, generation, count.symm⟩⟩, ?_, rfl, rfl, rfl⟩
  · rw [opens.runID, focus.1]
    exact job_eq
  · rw [opens.executor, ← opens.claim]
    exact holds
  · rw [opens.runID, focus.1]
    exact RunView.mem_contentsUpTo.mpr
      ⟨newAttempt c.execution, List.mem_append_right _ List.mem_cons_self, rfl, rfl, Nat.le_refl _⟩

theorem startAttempt_obeys (opens : c.Opens job) (charged : w.Charged job)
    (heeds : c.cancelSeen = true → w.Flagged job.claim) :
    Obeys handlers job.claim (startAttempt handlers.diagnosis c)
      (fun err w => w.Handled job err) w := by
  have allowed : ∀ w : World, w.Charged job → (StoreCall.startAttemptWithClaim c.claim
      c.execution.generation c.run.id (newAttempt c.execution)).Allowed job.claim w :=
    fun w charged => ⟨⟨opens.claim, charged.handling.undropped⟩, rfl, rfl⟩
  refine Safe.bind (Obeys.store
    (P := fun w => w.Charged job ∧ (c.cancelSeen = true → w.Flagged job.claim))
    (fun w w' rely inv ⟨charged, heeds⟩ => ⟨World.Charged.stable w w' rely inv charged,
      fun seen => (heeds seen).stays charged.handling.issued rely.stays⟩)
    ⟨charged, heeds⟩
    (fun w _ ⟨charged, _⟩ => ⟨charged.handling.issued, allowed w charged, trivial⟩) ?_)
  intro w answer w' inv ⟨charged, heeds⟩ outcome _
  have stays := outcome.stays (allowed w charged) fun _ _ => StoreCall.noConfusion
  have own : w'.own job.claim = w.own job.claim := by
    rw [World.own, outcome.log]
    rfl
  cases answer with
  | ok u =>
    rcases outcome.effect.inv with ⟨outside, a, ran, -⟩ | ⟨-, err, error, -⟩
    · obtain ⟨own', opened⟩ := charged.opened opens inv stays own heeds ran
      dsimp only
      split
      · next seen =>
          exact cancelFlagged_obeys own' opened.toOwns (opened.heeds seen)
      · next unseen => exact runAttempt_obeys own' opened (Bool.eq_false_iff.mpr unseen)
    · cases error
  | error err =>
    have genuine := outcome.effect.genuine fun outside => startAttemptWithClaim_genuine _ _ _ _ _
    have settled : w'.Settled job.claim := by
      rcases outcome.effect.inv with ⟨outside, a, ran, -⟩ | ⟨same, -⟩
      · obtain ⟨own', opened⟩ := charged.opened opens inv stays own heeds ran
        exact opened.toOwns.settled own' rfl
      · exact charged.unattempted.settled.congr same
    dsimp only
    split
    · exact .genuine (charged.handling.stays stays) genuine settled
    · exact .plain (charged.handling.stays stays) Err.noConfusion genuine.plain.categorized
        settled

theorem executeRun_obeys (charged : w.Charged job) (run_id : run.id = job.resourceID)
    (diagnosis : job.jobType = .runDiagnosis) (started : job.executionStarted = true)
    (ended : run.status.terminal = true → Unheld job.claim w.db)
    (flagged : run.cancelRequested = true → w.Flagged job.claim) :
    Obeys handlers job.claim (executeRun handlers.diagnosis job run)
      (fun err w => w.Handled job err) w := by
  have heeds : ∀ {w : World}, w.Handling job → (run.cancelRequested = true → w.Flagged job.claim) →
      (run.cancelRequested || job.cancelRequested) = true → w.Flagged job.claim := by
    intro w handling flagged seen row member held
    rcases Bool.or_eq_true_iff.mp seen with ofRun | ofJob
    · exact flagged ofRun row member held
    · exact (handling.same row member held).flag ofJob
  unfold executeRun
  split
  · next terminal =>
      have unheld := ended terminal
      refine ⟨charged.handling, fun _ row member held => absurd held (unheld row member),
        fun atomic => ?_, .inl (Unheld.settled unheld)⟩
      cases atomic
  split
  · next workerID claimToken worker token =>
      refine Safe.bind (Obeys.ask
        (P := fun w => w.Charged job ∧ (run.cancelRequested = true → w.Flagged job.claim))
        (fun w w' rely inv ⟨charged, flagged⟩ => ⟨World.Charged.stable w w' rely inv charged,
          fun seen => (flagged seen).stays charged.handling.issued rely.stays⟩)
        ⟨charged, flagged⟩ (fun _ ⟨charged, _⟩ => charged.handling.issued)
        (fun _ issued => ⟨issued, trivial⟩) (fun _ => Call.noConfusion) (fun _ => rfl)
        fun w attemptID inv ⟨charged, flagged⟩ => ?_)
      have claim : (⟨job.id, workerID, claimToken⟩ : Claim) = job.claim := by
        rw [AnalysisJob.claim, worker, token]
        rfl
      refine startAttempt_obeys ⟨rfl, claim, claim, run_id, rfl, rfl, diagnosis, started⟩ charged ?_
      exact heeds charged.handling flagged
  · exact .plain charged.handling Err.noConfusion rfl charged.unattempted.settled

theorem executeDiagnosis_obeys (charged : w.Charged job) (diagnosis : job.jobType = .runDiagnosis)
    (started : job.executionStarted = true) :
    Obeys handlers job.claim (handlers.diagnosis.execute job)
      (fun err w => w.Handled job err) w := by
  have issued : ∀ w : World, w.Charged job → job.claim ∈ w.issued :=
    fun _ charged => charged.handling.issued
  refine Safe.bind (Obeys.cause World.Charged.stable charged issued fun w inv charged => ?_)
  split
  · exact .plain charged.handling Err.noConfusion rfl charged.unattempted.settled
  refine Safe.bind (Obeys.cause World.Charged.stable charged issued fun w inv charged => ?_)
  split
  · exact .plain charged.handling Err.noConfusion rfl charged.unattempted.settled
  refine Safe.bind (Obeys.store World.Charged.stable charged
    (fun w _ charged => ⟨issued w charged, trivial, trivial⟩) ?_)
  intro w answer w' inv charged outcome _
  obtain rfl : w' = w :=
    outcome.read (fun _ _ _ ran => (Place.select_expect_ok ran).1) fun _ _ _ => rfl
  cases answer with
  | error err =>
    have genuine := outcome.effect.genuine fun outside =>
      .bind Place.select_fails fun _ => .expect rfl
    exact .plain charged.handling Err.noConfusion genuine.plain.categorized
      charged.unattempted.settled
  | ok run =>
    have read : run ∈ w'.db.runs.rows ∧ run.id = job.resourceID := by
      rcases outcome.effect.inv with ⟨outside, a, ran, seen⟩ | ⟨-, err, error, -⟩
      · cases seen.resolve_right nofun
        exact (Place.select_expect_ok ran).2
      · cases error
    -- The run agrees with the job that the claim holds.
    have agreed : ∀ row ∈ w'.db.jobs.rows, row.HeldBy job.claim →
        run.status.active = true ∧ run.cancelRequested = row.cancelRequested := by
      intro row member held
      have continues := charged.handling.same row member held
      have job_eq : (w'.db.view job.resourceID).job = some row :=
        view_job.mpr ⟨member, continues.jobType.trans diagnosis, continues.resourceID⟩
      obtain ⟨found, run_eq, active, flag⟩ :=
        (inv.sound job.resourceID).agrees.activeRun job_eq (by rw [held.running]; rfl)
      cases run_eq.symm.trans (view_run.mpr read)
      exact ⟨active, flag⟩
    refine executeRun_obeys charged read.2 diagnosis started (fun terminal row member held => ?_)
      fun seen row member held => (agreed row member held).2 ▸ seen
    have live : ∀ status : RunStatus, status.active = true → status.terminal = false := by
      rintro (_ | _ | _ | _ | _) <;> decide
    cases (live run.status (agreed row member held).1).symm.trans terminal

end Starting

end RepoLens
