import RepoLens.JobSteps

/-!
What the transactions of the analysis pipeline do to jobs. None of them touches a diagnosis: they
create jobs of the pipeline's own types, put such a job back to work, and end the job that their
caller owns.
-/

namespace RepoLens

open Relational Transaction

def SameDiagnoses (db db' : Database) : Prop :=
  db'.jobs = db.jobs ∧ db'.runs = db.runs ∧ db'.attempts = db.attempts ∧ db'.reports = db.reports

/-- A table of the pipeline: writing it leaves every diagnosis alone. -/
class PipelinePlace {Row κ ι : Type} {key : Row → κ} {index : Row → ι}
    (place : Place Database key index) : Prop where
  apart : ∀ t db, SameDiagnoses db (place.set t db)

instance : PipelinePlace Place.snapshots := ⟨fun _ _ => ⟨rfl, rfl, rfl, rfl⟩⟩
instance : PipelinePlace Place.codeIndexBuilds := ⟨fun _ _ => ⟨rfl, rfl, rfl, rfl⟩⟩
instance : PipelinePlace Place.retrievalBuilds := ⟨fun _ _ => ⟨rfl, rfl, rfl, rfl⟩⟩
instance : PipelinePlace Place.revisions := ⟨fun _ _ => ⟨rfl, rfl, rfl, rfl⟩⟩

variable {R : Database → Database → Prop} [Std.Refl R] [IsTrans Database R]

section Elsewhere

variable (elsewhere : ∀ db db', SameDiagnoses db db' → R db db')

include elsewhere

omit [Std.Refl R] [IsTrans Database R] in
theorem elsewhere_update {Row κ ι : Type} {key : Row → κ} {index : Row → ι}
    {place : Place Database key index} [PipelinePlace place]
    {q : Row → Prop} [DecidablePred q] {g : Row → Row} {kept : Table.Keeps key index g} :
    Ensures R (place.update q g kept : Tx Nat) :=
  Place.update_ensures fun db => elsewhere _ _ (PipelinePlace.apart _ db)

omit [Std.Refl R] [IsTrans Database R] in
theorem elsewhere_insert {Row κ ι : Type} [DecidableEq κ] [DecidableEq ι] {key : Row → κ}
    {index : Row → ι} {place : Place Database key index} [PipelinePlace place]
    {row : Row} {duplicate : Err} :
    Ensures R (place.insert row duplicate : Tx Unit) :=
  Place.insert_ensures fun db _ _ => elsewhere _ _ (PipelinePlace.apart _ db)

theorem elsewhere_mark {Row κ ι : Type} {key : Row → κ} {index : Row → ι}
    {place : Place Database key index} [PipelinePlace place]
    {q : Row → Prop} [DecidablePred q] {g : Row → Row} {kept : Table.Keeps key index g}
    {check : Nat → Prop} [DecidablePred check] {err : Err} :
    Ensures R (do
      let affected ← place.update q g kept
      require (check affected) err : Tx Unit) :=
  .bind (elsewhere_update elsewhere) fun _ => .require _ _

theorem restoreBusinessTx_ensures {jobType : JobType} (other : jobType ≠ .runDiagnosis)
    (resourceID : String) : Ensures R (restoreBusinessTx jobType resourceID) := by
  cases jobType with
  | materializeSnapshot | buildCodeIndex | buildRetrieval =>
    exact .bind (elsewhere_update elsewhere) fun _ =>
      .bind Place.select_ensures fun _ => .pure _
  | runDiagnosis => exact absurd rfl other

theorem handOverCodeIndexTx_ensures (identity : BuildIdentity) (existing : Nat)
    (revisionID snapshotID : String) (drawn : Drawn) :
    Ensures R (handOverCodeIndexTx identity existing revisionID snapshotID drawn) :=
  .ite (fun _ => .bind (elsewhere_insert elsewhere) fun _ =>
      .pure _) fun _ =>
    .bind Place.select_ensures fun _ => .bind (.expect _ _) fun _ =>
      .bind (.require _ _) fun _ => .pure _

theorem handOverRetrievalTx_ensures (identity : BuildIdentity) (existing : Nat)
    (revisionID : String) (buildID : Nat) (drawn : Drawn) :
    Ensures R (handOverRetrievalTx identity existing revisionID buildID drawn) :=
  .ite (fun _ => .bind (elsewhere_insert elsewhere) fun _ =>
      .pure _) fun _ =>
    .bind Place.select_ensures fun _ => .bind (.expect _ _) fun _ =>
      .bind (.require _ _) fun _ =>
        .bind (elsewhere_update elsewhere) fun _ => .pure _

theorem ensureCodeIndexBuildTx_ensures (identity : BuildIdentity)
    (revisionID snapshotID : String) (drawn : Nat) :
    Ensures R (ensureCodeIndexBuildTx identity revisionID snapshotID drawn) :=
  .bind Place.select_ensures fun
    | some _ => .bind (.require _ _) fun _ =>
      .bind (elsewhere_update elsewhere) fun _ => .pure _
    | none => .bind (elsewhere_insert elsewhere) fun _ => .pure _

theorem ensureRetrievalBuildTx_ensures (identity : BuildIdentity) (revisionID : String)
    (codeIndexBuildID drawn : Nat) :
    Ensures R (ensureRetrievalBuildTx identity revisionID codeIndexBuildID drawn) :=
  .bind Place.select_ensures fun
    | some _ => .bind (.require _ _) fun _ =>
      .bind (elsewhere_update elsewhere) fun _ => .pure _
    | none => .bind (elsewhere_insert elsewhere) fun _ => .pure _

theorem stageRevisionTx_ensures (revisionID : String) (stage : RevisionStage)
    (codeIndexBuildID retrievalBuildID : Nat) :
    Ensures R (stageRevisionTx revisionID stage codeIndexBuildID retrievalBuildID) :=
  .bind (elsewhere_update elsewhere) fun _ => .pure _

theorem resetCodeBuildTx_ensures (buildID : Nat) : Ensures R (resetCodeBuildTx buildID) :=
  .bind (elsewhere_update elsewhere) fun _ => .pure _

theorem resetRetrievalBuildTx_ensures (buildID : Nat) :
    Ensures R (resetRetrievalBuildTx buildID) :=
  .bind (elsewhere_update elsewhere) fun _ => .pure _

section Creating

variable (created : ∀ id jobType resourceID generation now, jobType ≠ .runDiagnosis →
  Ensures R (Place.jobs.insert (newJob id jobType resourceID generation 3 now) errDuplicate))

include created

theorem createPreparation_ensures (revision : AnalysisRevision) (snapshotID : String)
    (jobID : Nat) (now : Time) :
    Ensures R (createPreparation revision snapshotID jobID now) :=
  .bind (.require _ _) fun _ =>
    .bind (elsewhere_insert elsewhere) fun _ =>
      .bind (elsewhere_insert elsewhere) fun _ =>
        created _ _ _ _ _ JobType.noConfusion

omit [Std.Refl R] in
theorem createLegacySnapshot_ensures (snapshotID repositoryID commitSHA : String) (jobID : Nat)
    (now : Time) :
    Ensures R (createLegacySnapshot snapshotID repositoryID commitSHA jobID now) :=
  .bind (elsewhere_insert elsewhere) fun _ =>
    created _ _ _ _ _ JobType.noConfusion

omit elsewhere in
theorem ensureAnalysisJobTx_ensures {jobType : JobType} (other : jobType ≠ .runDiagnosis)
    (resourceID : String) (generation jobID : Nat) (now : Time) :
    Ensures R (ensureAnalysisJobTx jobType resourceID generation jobID now) :=
  .bind Place.select_ensures fun
    | some _ => .pure _
    | none => created _ _ _ _ _ other

theorem getOrCreateBuildTx_ensures (snapshotID identity : String) (generation : Nat)
    (drawn : Drawn) (now : Time) :
    Ensures R (getOrCreateBuildTx snapshotID identity generation drawn now) :=
  .bind Place.select_ensures fun
    | some _ => ensureAnalysisJobTx_ensures created JobType.noConfusion _ _ _ _
    | none => .bind (elsewhere_insert elsewhere) fun _ =>
      ensureAnalysisJobTx_ensures created JobType.noConfusion _ _ _ _

theorem getOrCreateRetrievalBuildTx_ensures (codeIndexBuildID : Nat) (identity : String)
    (generation : Nat) (drawn : Drawn) (now : Time) :
    Ensures R (getOrCreateRetrievalBuildTx codeIndexBuildID identity generation drawn now) :=
  .bind Place.select_ensures fun
    | some _ => ensureAnalysisJobTx_ensures created JobType.noConfusion _ _ _ _
    | none => .bind (elsewhere_insert elsewhere) fun _ =>
      ensureAnalysisJobTx_ensures created JobType.noConfusion _ _ _ _

theorem StageCall.tx_ensures {claim : Claim} (ended : Ensures R (finalizeOwnedJob claim))
    (outside : Outside) (call : StageCall) : Ensures R (call.tx claim outside) := by
  cases call with
  | getOrCreateBuild snapshotID => exact getOrCreateBuildTx_ensures elsewhere created _ _ _ _ _
  | getOrCreateRetrievalBuild buildID =>
    exact getOrCreateRetrievalBuildTx_ensures elsewhere created _ _ _ _ _
  | markMaterializing | markBuildBuilding | markRetrievalBuilding =>
    exact elsewhere_mark elsewhere
  | finalizeSnapshotSuccessWithRevision snapshotID revisionID commitSHA =>
    exact .bind (.bind Place.select_ensures fun _ => .expect _ _) fun _ =>
      .bind (elsewhere_mark elsewhere) fun _ =>
        .bind Place.select_ensures fun _ =>
          .bind (handOverCodeIndexTx_ensures elsewhere _ _ _ _ _) fun _ =>
            .bind (ensureAnalysisJobTx_ensures created JobType.noConfusion _ _ _ _) fun _ =>
              .bind (elsewhere_update elsewhere) fun _ =>
                .bind (.require _ _) fun _ => ended
  | finalizeLegacySnapshotSuccess snapshotID commitSHA =>
    exact .bind (.bind Place.select_ensures fun _ => .expect _ _) fun _ =>
      .bind (elsewhere_mark elsewhere) fun _ =>
        .bind (getOrCreateBuildTx_ensures elsewhere created _ _ _ _ _) fun _ => ended
  | finalizeCodeIndexSuccessWithRevision buildID revisionID =>
    exact .bind (.bind Place.select_ensures fun _ => .expect _ _) fun _ =>
      .bind Place.select_ensures fun _ => .bind (.expect _ _) fun _ =>
        .bind Place.select_ensures fun _ => .bind (.expect _ _) fun _ =>
          .bind (.require _ _) fun _ =>
            .bind (elsewhere_mark elsewhere) fun _ =>
              .bind (handOverRetrievalTx_ensures elsewhere _ _ _ _ _) fun _ =>
                .bind (ensureAnalysisJobTx_ensures created JobType.noConfusion _ _ _ _) fun _ =>
                  .bind (elsewhere_update elsewhere) fun _ =>
                    .bind (.require _ _) fun _ => ended
  | finalizeLegacyCodeIndexSuccess buildID =>
    exact .bind (.bind Place.select_ensures fun _ => .expect _ _) fun _ =>
      .bind Place.select_ensures fun _ => .bind (.expect _ _) fun _ =>
        .bind (elsewhere_mark elsewhere) fun _ =>
          .bind (getOrCreateRetrievalBuildTx_ensures elsewhere created _ _ _ _ _) fun _ => ended
  | finalizeRetrievalSuccess buildID =>
    exact .bind (.bind Place.select_ensures fun _ => .expect _ _) fun _ =>
      .bind (elsewhere_mark elsewhere) fun _ => ended
  | finalizeRetrievalSuccessWithRevision buildID revisionID =>
    exact .bind (.bind Place.select_ensures fun _ => .expect _ _) fun _ =>
      .bind Place.select_ensures fun _ => .bind (.expect _ _) fun _ =>
        .bind Place.select_ensures fun _ => .bind (.expect _ _) fun _ =>
          .bind (.require _ _) fun _ => .bind Place.select_ensures fun _ =>
            .bind (.expect _ _) fun _ => .bind (.require _ _) fun _ =>
              .bind (elsewhere_mark elsewhere) fun _ =>
                .bind (elsewhere_update elsewhere) fun _ =>
                  .bind (.require _ _) fun _ => ended

section Resetting

variable (reset : ∀ jobType resourceID generation now, jobType ≠ .runDiagnosis →
  Ensures R (Place.jobs.update (fun job => job.For jobType resourceID)
    (fun job => job.requeued generation now) fun _ => ⟨rfl, rfl⟩ : Tx Nat))

include reset

omit elsewhere in
theorem resetJobTx_ensures {jobType : JobType} (other : jobType ≠ .runDiagnosis)
    (resourceID : String) (generation jobID : Nat) (now : Time) :
    Ensures R (resetJobTx jobType resourceID generation jobID now) :=
  .bind (reset _ _ _ _ other) fun _ => .ite (fun _ => created _ _ _ _ _ other) fun _ => .pure _

theorem retrySnapshotTx_ensures (revision : AnalysisRevision) (snap : RepositorySnapshot)
    (drawn : Drawn) (now : Time) : Ensures R (retrySnapshotTx revision snap drawn now) :=
  .bind (elsewhere_update elsewhere) fun _ =>
    .bind (.ite (fun _ => .pure _) fun _ => resetCodeBuildTx_ensures elsewhere _) fun _ =>
      .bind (.ite (fun _ => .pure _) fun _ => resetRetrievalBuildTx_ensures elsewhere _) fun _ =>
        resetJobTx_ensures created reset JobType.noConfusion _ _ _ _

theorem retryRetrievalTx_ensures (identity : BuildIdentity) (revision : AnalysisRevision)
    (drawn : Drawn) (now : Time) :
    Ensures R (retryRetrievalTx identity revision drawn now) :=
  .ite (fun _ => .bind (ensureRetrievalBuildTx_ensures elsewhere _ _ _ _) fun _ =>
      .bind (stageRevisionTx_ensures elsewhere _ _ _ _) fun _ =>
        resetJobTx_ensures created reset JobType.noConfusion _ _ _ _) fun _ =>
    .bind Place.select_ensures fun _ => .bind (.expect _ _) fun _ =>
      .bind (.require _ _) fun _ =>
        .ite (fun _ => .bind (resetRetrievalBuildTx_ensures elsewhere _) fun _ =>
            .bind (stageRevisionTx_ensures elsewhere _ _ _ _) fun _ =>
              resetJobTx_ensures created reset JobType.noConfusion _ _ _ _) fun _ =>
          .bind (elsewhere_update elsewhere) fun _ => .pure _

theorem retryCodeIndexTx_ensures (identity : BuildIdentity) (revision : AnalysisRevision)
    (drawn : Drawn) (now : Time) :
    Ensures R (retryCodeIndexTx identity revision drawn now) :=
  .ite (fun _ => .bind (ensureCodeIndexBuildTx_ensures elsewhere _ _ _ _) fun _ =>
      .bind (stageRevisionTx_ensures elsewhere _ _ _ _) fun _ =>
        resetJobTx_ensures created reset JobType.noConfusion _ _ _ _) fun _ =>
    .bind Place.select_ensures fun _ => .bind (.expect _ _) fun _ =>
      .bind (.require _ _) fun _ =>
        .ite (fun _ => .bind (resetCodeBuildTx_ensures elsewhere _) fun _ =>
            .bind (stageRevisionTx_ensures elsewhere _ _ _ _) fun _ =>
              resetJobTx_ensures created reset JobType.noConfusion _ _ _ _) fun _ =>
          retryRetrievalTx_ensures elsewhere created reset _ _ _ _

theorem retryPreparation_ensures (identity : BuildIdentity) (revisionID : String)
    (drawn : Drawn) (now : Time) :
    Ensures R (retryPreparation identity revisionID drawn now) :=
  .bind Place.select_ensures fun _ => .bind (.expect _ _) fun _ =>
    .bind (.require _ _) fun _ =>
      .bind (elsewhere_update elsewhere) fun _ =>
        .bind (.require _ _) fun _ => .bind Place.select_ensures fun _ =>
          .bind (.expect _ _) fun _ => .bind (.require _ _) fun _ =>
            .ite (fun _ => retrySnapshotTx_ensures elsewhere created reset _ _ _ _) fun _ =>
              retryCodeIndexTx_ensures elsewhere created reset _ _ _ _

end Resetting

end Creating

end Elsewhere

end RepoLens
