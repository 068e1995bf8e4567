import RepoLens.AttemptSafety

/-!
The handlers of the pipeline stages keep to the discipline: they finish the job
that their claim holds, and never a diagnosis.
-/

namespace RepoLens

open Relational Transaction Interleaving

variable {handlers : Handlers} {job : AnalysisJob} {w w' : World}

def Err.Unpolicied (err : Err) : Prop :=
  ∀ expected cause policy, err.asAtomicFinalization ≠ some (expected, cause, some policy)

theorem Err.Plain.unpolicied {err : Err} (plain : err.Plain) : err.Unpolicied := by
  intro expected cause policy atomic
  cases plain.symm.trans atomic

theorem wrapAtomicHandlerFinalization_unpolicied {expected : JobStatus} {err : Err}
    (plain : err.Plain) : (wrapAtomicHandlerFinalization expected err).Unpolicied := by
  unfold wrapAtomicHandlerFinalization
  split
  · exact plain.unpolicied
  · intro _ _ _ atomic
    cases atomic

theorem World.Handling.noDiagnosis (handling : w.Handling job)
    (other : job.jobType ≠ .runDiagnosis) : w.db.NoDiagnosis job.claim :=
  fun row member held same => other ((handling.same row member held).jobType ▸ same)

theorem World.Handled.stage {err : Err} (handling : w.Handling job)
    (other : job.jobType ≠ .runDiagnosis) (unpolicied : err.Unpolicied) : w.Handled job err where
  handling := handling
  done _ := handling.noDiagnosis other
  terminal atomic := absurd atomic (unpolicied _ _ _)
  settled := .inl fun row member held _ diagnosis =>
    absurd diagnosis (handling.noDiagnosis other row member held)

theorem World.Handling.stable :
    Stable (discipline handlers) job.claim fun w => w.Handling job :=
  fun _ _ rely _ handling => handling.stays rely.stays

theorem stageStep_obeys {call : StageCall} {failed : Err → Err} {next : Prog Err}
    (other : job.jobType ≠ .runDiagnosis) (handling : w.Handling job)
    (addressed : ∀ row, job.Continues row → call.Addresses row)
    (unpolicied : ∀ err : Err, err.Genuine → (failed err).Unpolicied)
    (continues : ∀ w : World, w.Handling job →
      Obeys handlers job.claim next (fun err w => w.Handled job err) w) :
    Obeys handlers job.claim (stageStep job.claim call failed next)
      (fun err w => w.Handled job err) w := by
  have allowed : ∀ w : World, w.Handling job →
      (StoreCall.stage job.claim call).Allowed job.claim w :=
    fun w handling => ⟨rfl, handling.noDiagnosis other,
      fun row member held => addressed row (handling.same row member held)⟩
  refine Safe.bind (Obeys.store World.Handling.stable handling
    (fun w _ handling => ⟨handling.issued, allowed w handling, trivial⟩) ?_)
  intro w answer w' inv handling outcome _
  have after := handling.stays (outcome.stays (allowed w handling) fun _ _ => StoreCall.noConfusion)
  cases answer with
  | ok u => exact continues w' after
  | error err =>
    have genuine := outcome.effect.genuine fun outside => StageCall.tx_genuine _ _ _
    exact .stage after other (unpolicied err genuine)

theorem stageWork_obeys {next : String → Prog Err} (other : job.jobType ≠ .runDiagnosis)
    (handling : w.Handling job)
    (continues : ∀ commitSHA (w : World), w.Handling job →
      Obeys handlers job.claim (next commitSHA) (fun err w => w.Handled job err) w) :
    Obeys handlers job.claim (stageWork next) (fun err w => w.Handled job err) w := by
  refine Safe.bind (Obeys.ask World.Handling.stable handling (fun _ handling => handling.issued)
    (fun _ issued => ⟨issued, trivial⟩) (fun _ => Call.noConfusion) (fun _ => rfl)
    fun w outcome _ handling => ?_)
  cases outcome with
  | error failure => exact .stage handling other failure.plain.unpolicied
  | ok commitSHA => exact continues commitSHA w handling

theorem finished_obeys (other : job.jobType ≠ .runDiagnosis) (w : World)
    (handling : w.Handling job) :
    Obeys handlers job.claim (pure .nil) (fun err w => w.Handled job err) w :=
  .stage handling other (Err.Plain.unpolicied rfl)

theorem read_obeys {call : StoreCall} {next : Except Err call.Answer → Prog Err}
    {P : call.Answer → Prop} (handling : w.Handling job)
    (free : ∀ w : World, call.Allowed job.claim w ∧ call.Resumes handlers.diagnosis w)
    (reads : ∀ outside db a db', call.tx outside db = .ok (a, db') → db' = db ∧ P a)
    (silent : ∀ before after answer, call.events before after answer = [])
    (genuine : ∀ outside, Fails Err.Genuine (call.tx outside))
    (fails : ∀ (w : World) err, w.Handling job → err.Genuine →
      Obeys handlers job.claim (next (.error err)) (fun err w => w.Handled job err) w)
    (continues : ∀ (w : World) a, w.Handling job → P a →
      Obeys handlers job.claim (next (.ok a)) (fun err w => w.Handled job err) w) :
    Obeys handlers job.claim (askStore call >>= next) (fun err w => w.Handled job err) w := by
  refine Safe.bind (Obeys.store World.Handling.stable handling
    (fun w _ handling => ⟨handling.issued, free w⟩) ?_)
  intro w answer w' inv handling outcome _
  obtain rfl : w' = w :=
    outcome.read (fun outside a db' ran => (reads outside _ a db' ran).1) silent
  cases answer with
  | error err => exact fails w' err handling (outcome.effect.genuine genuine)
  | ok a =>
    rcases outcome.effect.inv with ⟨outside, found, ran, seen⟩ | ⟨-, err, error, -⟩
    · cases seen.resolve_right nofun
      exact continues w' a handling (reads outside _ _ _ ran).2
    · cases error

theorem executeSnapshotJob_obeys (kind : job.jobType = .materializeSnapshot)
    (handling : w.Handling job) :
    Obeys handlers job.claim (executeSnapshotJob job) (fun err w => w.Handled job err) w := by
  have other : job.jobType ≠ .runDiagnosis := by rw [kind]; decide
  refine read_obeys (P := fun snap => snap.id = job.resourceID) handling
    (fun w => ⟨trivial, trivial⟩)
    (fun _ _ _ _ ran => (Place.select_expect_ok ran).imp_right And.right)
    (fun _ _ _ => rfl) (fun _ => .bind Place.select_fails fun _ => .expect rfl)
    (fun w err handling genuine =>
      .stage handling other genuine.plain.categorized.unpolicied) fun w snap handling found => ?_
  have materialized : ∀ w : World, w.Handling job →
      Obeys handlers job.claim (materialize job.claim snap) (fun err w => w.Handled job err) w := by
    refine fun w handling => stageWork_obeys other handling fun commitSHA w handling => ?_
    split
    · refine stageStep_obeys other handling (fun _ _ => trivial) (fun err genuine => ?_)
        (finished_obeys other)
      unfold legacySnapshotFailure
      split
      · exact genuine.plain.unpolicied
      · exact wrapAtomicHandlerFinalization_unpolicied genuine.plain.categorized
    · refine stageStep_obeys other handling (fun row continues => ?_)
        (fun err genuine => wrapAtomicHandlerFinalization_unpolicied genuine.plain)
        (finished_obeys other)
      exact ⟨continues.jobType.trans kind, continues.resourceID.trans found.symm⟩
  dsimp only
  split
  · split
    · exact stageStep_obeys other handling (fun _ _ => trivial)
        (fun err genuine => genuine.plain.categorized.unpolicied) (finished_obeys other)
    · exact finished_obeys other w handling
  split
  · exact stageStep_obeys other handling (fun _ _ => trivial)
      (fun err genuine => genuine.plain.categorized.unpolicied) materialized
  · exact materialized w handling

theorem executeCodeIndexJob_obeys (kind : job.jobType = .buildCodeIndex)
    (handling : w.Handling job) :
    Obeys handlers job.claim (executeCodeIndexJob job) (fun err w => w.Handled job err) w := by
  have other : job.jobType ≠ .runDiagnosis := by rw [kind]; decide
  refine read_obeys (P := fun build => toString build.id = job.resourceID) handling
    (fun w => ⟨trivial, trivial⟩)
    (fun _ _ _ _ ran => (Place.select_expect_ok ran).imp_right And.right)
    (fun _ _ _ => rfl) (fun _ => .bind Place.select_fails fun _ => .expect rfl)
    (fun w err handling genuine => .stage handling other genuine.plain.wrap.unpolicied)
    fun w build handling found => ?_
  have built : ∀ w : World, w.Handling job → Obeys handlers job.claim
      (buildCodeIndex job.claim build) (fun err w => w.Handled job err) w := by
    refine fun w handling => stageWork_obeys other handling fun _ w handling => ?_
    split
    · refine stageStep_obeys other handling (fun _ _ => trivial) (fun err genuine => ?_)
        (finished_obeys other)
      unfold legacyCodeIndexFailure
      split
      · exact wrapAtomicHandlerFinalization_unpolicied genuine.plain
      · exact wrapAtomicHandlerFinalization_unpolicied genuine.plain.categorized
    · refine stageStep_obeys other handling (fun row continues => ?_)
        (fun err genuine => wrapAtomicHandlerFinalization_unpolicied genuine.plain)
        (finished_obeys other)
      exact ⟨continues.jobType.trans kind, continues.resourceID.trans found.symm⟩
  dsimp only
  split
  · split
    · exact stageStep_obeys other handling (fun _ _ => trivial)
        (fun err genuine => genuine.plain.categorized.unpolicied) (finished_obeys other)
    · exact finished_obeys other w handling
  · exact stageStep_obeys other handling (fun _ _ => trivial)
      (fun err genuine => genuine.plain.categorized.unpolicied) built

theorem executeRetrievalJob_obeys (kind : job.jobType = .buildRetrieval)
    (handling : w.Handling job) :
    Obeys handlers job.claim (executeRetrievalJob job) (fun err w => w.Handled job err) w := by
  have other : job.jobType ≠ .runDiagnosis := by rw [kind]; decide
  refine read_obeys (P := fun build => toString build.id = job.resourceID) handling
    (fun w => ⟨trivial, trivial⟩)
    (fun _ _ _ _ ran => (Place.select_expect_ok ran).imp_right And.right)
    (fun _ _ _ => rfl) (fun _ => .bind Place.select_fails fun _ => .expect rfl)
    (fun w err handling genuine => .stage handling other genuine.plain.wrap.unpolicied)
    fun w build handling found => ?_
  have built : ∀ w : World, w.Handling job → Obeys handlers job.claim
      (buildRetrieval job.claim build) (fun err w => w.Handled job err) w := by
    refine fun w handling => stageWork_obeys other handling fun _ w handling => ?_
    split
    · exact stageStep_obeys other handling (fun _ _ => trivial)
        (fun err genuine => wrapAtomicHandlerFinalization_unpolicied genuine.plain)
        (finished_obeys other)
    · refine stageStep_obeys other handling (fun row continues => ?_)
        (fun err genuine => wrapAtomicHandlerFinalization_unpolicied genuine.plain)
        (finished_obeys other)
      exact ⟨continues.jobType.trans kind, continues.resourceID.trans found.symm⟩
  dsimp only
  split
  · exact finished_obeys other w handling
  · exact stageStep_obeys other handling (fun _ _ => trivial)
      (fun err genuine => genuine.plain.categorized.unpolicied) built

theorem Handlers.execute_obeys (charged : w.Charged job) (started : job.executionStarted = true) :
    Obeys handlers job.claim (handlers.execute job) (fun err w => w.Handled job err) w := by
  unfold Handlers.execute
  split
  · next kind => exact executeSnapshotJob_obeys kind charged.handling
  · next kind => exact executeCodeIndexJob_obeys kind charged.handling
  · next kind => exact executeRetrievalJob_obeys kind charged.handling
  · next kind => exact executeDiagnosis_obeys charged kind started

end RepoLens
