import RepoLens.Runtime

/-!
The handlers of the pipeline stages: `internal/indexing/job_handler.go`,
`internal/codeintel/job_handler.go` and `internal/retrieval/job_handler.go`, as production wires
them.
-/

namespace RepoLens

open Interleaving

def AnalysisJob.claim (job : AnalysisJob) : Claim :=
  ⟨job.id, job.workerID.getD "", job.claimToken.getD ""⟩

def stageStep (claim : Claim) (call : StageCall) (failed : Err → Err) (next : Prog Err) :
    Prog Err := do
  let answer : Except Err Unit ← askStore (.stage claim call)
  match answer with
  | .error err => pure (failed err)
  | .ok _ => next

def stageWork (next : String → Prog Err) : Prog Err := do
  let outcome : Except StageFailure String ← ask .stageWork
  match outcome with
  | .error failure => pure failure.err
  | .ok commitSHA => next commitSHA

def legacySnapshotFailure (err : Err) : Err :=
  if err.is (.stop .ownershipLost) || err.is (.stop .userCancel) then err
  else wrapAtomicHandlerFinalization .succeeded
    (newRetryableError "CODE_INDEX_HANDOFF_FAILED"
      "legacy snapshot finalization and CodeIndex handoff transaction failed" err)

def legacyCodeIndexFailure (err : Err) : Err :=
  if err.is (.stop .ownershipLost) || err.is (.stop .userCancel) then
    wrapAtomicHandlerFinalization .succeeded err
  else wrapAtomicHandlerFinalization .succeeded
    (newRetryableError "RETRIEVAL_HANDOFF_FAILED"
      "legacy CodeIndex finalization and Retrieval handoff transaction failed" err)

def materialize (claim : Claim) (snap : RepositorySnapshot) : Prog Err :=
  stageWork fun commitSHA =>
    if snap.analysisRevisionID = "" then
      stageStep claim (.finalizeLegacySnapshotSuccess snap.id commitSHA) legacySnapshotFailure
        (pure .nil)
    else
      stageStep claim
        (.finalizeSnapshotSuccessWithRevision snap.id snap.analysisRevisionID commitSHA)
        (wrapAtomicHandlerFinalization .succeeded) (pure .nil)

def executeSnapshotJob (job : AnalysisJob) : Prog Err := do
  let answer : Except Err RepositorySnapshot ← askStore (.getSnapshot job.resourceID)
  match answer with
  | .error err =>
    pure (newPermanentError "SNAPSHOT_NOT_FOUND"
      ("snapshot " ++ job.resourceID ++ " not found: " ++ err.error) err)
  | .ok snap =>
    if snap.status = .ready then
      if snap.analysisRevisionID = "" then
        stageStep job.claim (.getOrCreateBuild snap.id)
          (newRetryableError "CODE_INDEX_HANDOFF_FAILED"
            "snapshot is READY but automatic code index build creation failed") (pure .nil)
      else pure .nil
    else if snap.status = .created then
      stageStep job.claim (.markMaterializing snap.id)
        (fun err => newRetryableError "SNAPSHOT_STATE_UPDATE_FAILED" err.error err)
        (materialize job.claim snap)
    else materialize job.claim snap

def buildCodeIndex (claim : Claim) (build : CodeIndexBuild) : Prog Err :=
  stageWork fun _ =>
    if build.analysisRevisionID = "" then
      stageStep claim (.finalizeLegacyCodeIndexSuccess build.id) legacyCodeIndexFailure (pure .nil)
    else
      stageStep claim (.finalizeCodeIndexSuccessWithRevision build.id build.analysisRevisionID)
        (wrapAtomicHandlerFinalization .succeeded) (pure .nil)

def executeCodeIndexJob (job : AnalysisJob) : Prog Err := do
  let answer : Except Err CodeIndexBuild ← askStore (.getCodeIndexBuild job.resourceID)
  match answer with
  | .error err =>
    pure (.wrap ("failed fetching code index build " ++ job.resourceID ++ ": ") err)
  | .ok build =>
    if build.status = .ready then
      if build.analysisRevisionID = "" then
        stageStep job.claim (.getOrCreateRetrievalBuild build.id)
          (newRetryableError "RETRIEVAL_HANDOFF_FAILED"
            "CodeIndexBuild is READY but automatic RetrievalBuild creation failed") (pure .nil)
      else pure .nil
    else
      stageStep job.claim (.markBuildBuilding build.id)
        (fun err => newRetryableError "BUILD_STATE_UPDATE_FAILED" err.error err)
        (buildCodeIndex job.claim build)

def buildRetrieval (claim : Claim) (build : RetrievalBuild) : Prog Err :=
  stageWork fun _ =>
    if build.analysisRevisionID = "" then
      stageStep claim (.finalizeRetrievalSuccess build.id)
        (wrapAtomicHandlerFinalization .succeeded) (pure .nil)
    else
      stageStep claim (.finalizeRetrievalSuccessWithRevision build.id build.analysisRevisionID)
        (wrapAtomicHandlerFinalization .succeeded) (pure .nil)

def executeRetrievalJob (job : AnalysisJob) : Prog Err := do
  let answer : Except Err RetrievalBuild ← askStore (.getRetrievalBuild job.resourceID)
  match answer with
  | .error err =>
    pure (.wrap ("failed fetching retrieval build " ++ job.resourceID ++ ": ") err)
  | .ok build =>
    if build.status = .ready then pure .nil
    else
      stageStep job.claim (.markRetrievalBuilding build.id)
        (fun err => newRetryableError "RETRIEVAL_STATE_UPDATE_FAILED" err.error err)
        (buildRetrieval job.claim build)

end RepoLens
