import RepoLens.JobStore

/-!
The transactions of the analysis pipeline that touch jobs.
-/

namespace RepoLens

open Relational Transaction

def errLineage : Err := .message "analysis revision lineage is incomplete or inconsistent"

/-- The identity columns of a build with the current versions and the default context, and of a
retrieval build. -/
structure BuildIdentity where
  codeIndex : String
  retrieval : String

def createPreparation (revision : AnalysisRevision) (snapshotID : String) (jobID : Nat)
    (now : Time) : Tx Unit := do
  require (revision.repositoryID ≠ "" ∧ revision.commitSHA.length = 40 ∧
    revision.pipelineFingerprint ≠ "")
    (.message "invalid analysis revision preparation identity")
  Place.revisions.insert
    { revision with
      snapshotID
      codeIndexBuildID := 0
      retrievalBuildID := 0
      status := .preparing
      stage := .materializing
      errorCode := ""
      errorMessage := ""
      executionGeneration := 1
      version := 1 } errDuplicate
  Place.snapshots.insert
    { id := snapshotID
      repositoryID := revision.repositoryID
      commitSHA := revision.commitSHA
      analysisRevisionID := revision.id
      status := .materializing
      errorCode := "" } errDuplicate
  Place.jobs.insert (newJob jobID .materializeSnapshot snapshotID 1 3 now) errDuplicate

/-- `resetJobTx`: the job takes the generation of the revision, whatever
generation and state it is in. -/
def resetJobTx (jobType : JobType) (resourceID : String) (generation jobID : Nat) (now : Time) :
    Tx Unit := do
  let affected ← Place.jobs.update (fun job => job.For jobType resourceID)
    (fun job => job.requeued generation now) fun _ => ⟨rfl, rfl⟩
  if affected = 0 then
    Place.jobs.insert (newJob jobID jobType resourceID generation 3 now) errDuplicate
  else pure ()

def resetCodeBuildTx (buildID : Nat) : Tx Unit := do
  let _ ← Place.codeIndexBuilds.update (fun build => build.id = buildID)
    (fun build => { build with status := .created, errorCode := "" }) CodeIndexBuild.keeps_created
  pure ()

def resetRetrievalBuildTx (buildID : Nat) : Tx Unit := do
  let _ ← Place.retrievalBuilds.update (fun build => build.id = buildID)
    (fun build => { build with status := .created, errorCode := "" }) RetrievalBuild.keeps_created
  pure ()

def whenBuilt (buildID : Nat) (step : Tx Unit) : Tx Unit :=
  if buildID = 0 then pure () else step

def ensureCodeIndexBuildTx (identity : BuildIdentity) (revisionID snapshotID : String)
    (drawn : Nat) : Tx Nat := do
  match ← Place.codeIndexBuilds.select fun build =>
      build.snapshotID = snapshotID ∧ build.identity = identity.codeIndex with
  | some build =>
    require (build.analysisRevisionID = "" ∨ build.analysisRevisionID = revisionID) errLineage
    let _ ← Place.codeIndexBuilds.update
      (fun row => row.id = build.id ∧ row.analysisRevisionID = "")
      (fun row => { row with analysisRevisionID := revisionID }) fun _ => ⟨rfl, rfl⟩
    pure build.id
  | none =>
    Place.codeIndexBuilds.insert
      ⟨drawn + 1, snapshotID, identity.codeIndex, revisionID, .created, ""⟩ errDuplicate
    pure (drawn + 1)

def ensureRetrievalBuildTx (identity : BuildIdentity) (revisionID : String)
    (codeIndexBuildID drawn : Nat) : Tx Nat := do
  match ← Place.retrievalBuilds.select fun build =>
      build.codeIndexBuildID = codeIndexBuildID ∧ build.identity = identity.retrieval with
  | some build =>
    require (build.analysisRevisionID = "" ∨ build.analysisRevisionID = revisionID) errLineage
    let _ ← Place.retrievalBuilds.update
      (fun row => row.id = build.id ∧ row.analysisRevisionID = "")
      (fun row => { row with analysisRevisionID := revisionID }) fun _ => ⟨rfl, rfl⟩
    pure build.id
  | none =>
    Place.retrievalBuilds.insert
      ⟨drawn + 1, codeIndexBuildID, identity.retrieval, revisionID, .created, ""⟩ errDuplicate
    pure (drawn + 1)

def stageRevisionTx (revisionID : String) (stage : RevisionStage)
    (codeIndexBuildID retrievalBuildID : Nat) : Tx Unit := do
  let _ ← Place.revisions.update (fun revision => revision.id = revisionID)
    (fun revision => { revision with stage, codeIndexBuildID, retrievalBuildID })
    fun _ => ⟨rfl, rfl⟩
  pure ()

/-- What `RetryPreparation` draws from outside: identifiers of new rows. -/
structure Drawn where
  jobID : Nat
  buildID : Nat

def retryRetrievalTx (identity : BuildIdentity) (revision : AnalysisRevision) (drawn : Drawn)
    (now : Time) : Tx Unit := do
  if revision.retrievalBuildID = 0 then
    let buildID ← ensureRetrievalBuildTx identity revision.id revision.codeIndexBuildID
      drawn.buildID
    stageRevisionTx revision.id .buildingSearch revision.codeIndexBuildID buildID
    resetJobTx .buildRetrieval (toString buildID) revision.executionGeneration drawn.jobID now
  else
    let build ← expect
      (← Place.retrievalBuilds.select fun build => build.id = revision.retrievalBuildID)
      errNoRows
    require (build.codeIndexBuildID = revision.codeIndexBuildID ∧
      build.analysisRevisionID = revision.id) errLineage
    if build.status ≠ .ready then
      resetRetrievalBuildTx build.id
      stageRevisionTx revision.id .buildingSearch revision.codeIndexBuildID
        revision.retrievalBuildID
      resetJobTx .buildRetrieval (toString build.id) revision.executionGeneration drawn.jobID now
    else
      let _ ← Place.revisions.update (fun row => row.id = revision.id)
        (fun row => { row with status := .ready, stage := .ready }) fun _ => ⟨rfl, rfl⟩
      pure ()

def retryCodeIndexTx (identity : BuildIdentity) (revision : AnalysisRevision) (drawn : Drawn)
    (now : Time) : Tx Unit := do
  if revision.codeIndexBuildID = 0 then
    let buildID ← ensureCodeIndexBuildTx identity revision.id revision.snapshotID drawn.buildID
    stageRevisionTx revision.id .buildingCode buildID revision.retrievalBuildID
    resetJobTx .buildCodeIndex (toString buildID) revision.executionGeneration drawn.jobID now
  else
    let build ← expect
      (← Place.codeIndexBuilds.select fun build => build.id = revision.codeIndexBuildID)
      errNoRows
    require (build.snapshotID = revision.snapshotID ∧ build.analysisRevisionID = revision.id)
      errLineage
    if build.status ≠ .ready then
      resetCodeBuildTx build.id
      stageRevisionTx revision.id .buildingCode revision.codeIndexBuildID
        revision.retrievalBuildID
      resetJobTx .buildCodeIndex (toString build.id) revision.executionGeneration drawn.jobID now
    else retryRetrievalTx identity revision drawn now

def retrySnapshotTx (revision : AnalysisRevision) (snap : RepositorySnapshot) (drawn : Drawn)
    (now : Time) : Tx Unit := do
  let _ ← Place.snapshots.update (fun row => row.id = snap.id)
    (fun row => { row with status := .materializing, errorCode := "" }) fun _ => ⟨rfl, rfl⟩
  whenBuilt revision.codeIndexBuildID (resetCodeBuildTx revision.codeIndexBuildID)
  whenBuilt revision.retrievalBuildID (resetRetrievalBuildTx revision.retrievalBuildID)
  resetJobTx .materializeSnapshot snap.id revision.executionGeneration drawn.jobID now

/-- `retryPreparationOnce`: a FAILED revision restarts at its first unfinished
stage, one generation later. -/
def retryPreparation (identity : BuildIdentity) (revisionID : String) (drawn : Drawn)
    (now : Time) : Tx Unit := do
  let revision ← expect (← Place.revisions.select fun revision => revision.id = revisionID)
    (.message "analysis revision not found")
  require (revision.status = .failed) (.message "analysis revision cannot be retried")
  let restarted : AnalysisRevision := { revision with
    status := .preparing
    stage := .materializing
    errorCode := ""
    errorMessage := ""
    executionGeneration := revision.executionGeneration + 1
    version := revision.version + 1 }
  let affected ← Place.revisions.update
    (fun row => row.id = revisionID ∧ row.status = .failed ∧ row.version = revision.version ∧
      row.executionGeneration = revision.executionGeneration)
    (fun row => { row with
      status := .preparing
      stage := .materializing
      errorCode := ""
      errorMessage := ""
      executionGeneration := revision.executionGeneration + 1
      version := revision.version + 1 }) fun _ => ⟨rfl, rfl⟩
  require (affected = 1) (.message "analysis revision retry conflict")
  let snap ← expect (← Place.snapshots.select fun snap => snap.id = revision.snapshotID)
    errNoRows
  require (snap.analysisRevisionID = revision.id ∧ snap.repositoryID = revision.repositoryID ∧
    snap.commitSHA = revision.commitSHA) errLineage
  if snap.status ≠ .ready then retrySnapshotTx restarted snap drawn now
  else retryCodeIndexTx identity restarted drawn now

def createLegacySnapshot (snapshotID repositoryID commitSHA : String) (jobID : Nat)
    (now : Time) : Tx Unit := do
  Place.snapshots.insert ⟨snapshotID, repositoryID, commitSHA, "", .materializing, ""⟩ errDuplicate
  Place.jobs.insert (newJob jobID .materializeSnapshot snapshotID 1 3 now) errDuplicate

def ensureAnalysisJobTx (jobType : JobType) (resourceID : String) (generation jobID : Nat)
    (now : Time) : Tx Unit := do
  match ← Place.jobs.select fun job => job.For jobType resourceID with
  | some _ => pure ()
  | none =>
    Place.jobs.insert
      (newJob jobID jobType resourceID (if generation < 1 then 1 else generation) 3 now)
      errDuplicate

/-- `getOrCreateBuildTx` and the transactions of `GetOrCreateBuild`. -/
def getOrCreateBuildTx (snapshotID identity : String) (generation : Nat) (drawn : Drawn)
    (now : Time) : Tx Unit := do
  match ← Place.codeIndexBuilds.select fun build =>
      build.snapshotID = snapshotID ∧ build.identity = identity with
  | some build =>
    ensureAnalysisJobTx .buildCodeIndex (toString build.id) generation drawn.jobID now
  | none =>
    Place.codeIndexBuilds.insert
      ⟨drawn.buildID + 1, snapshotID, identity, "", .created, ""⟩ errDuplicate
    ensureAnalysisJobTx .buildCodeIndex (toString (drawn.buildID + 1)) generation drawn.jobID
      now

/-- `getOrCreateRetrievalBuildTx` and the transactions of
`GetOrCreateRetrievalBuild`. -/
def getOrCreateRetrievalBuildTx (codeIndexBuildID : Nat) (identity : String)
    (generation : Nat) (drawn : Drawn) (now : Time) : Tx Unit := do
  match ← Place.retrievalBuilds.select fun build =>
      build.codeIndexBuildID = codeIndexBuildID ∧ build.identity = identity with
  | some build =>
    ensureAnalysisJobTx .buildRetrieval (toString build.id) generation drawn.jobID now
  | none =>
    Place.retrievalBuilds.insert
      ⟨drawn.buildID + 1, codeIndexBuildID, identity, "", .created, ""⟩ errDuplicate
    ensureAnalysisJobTx .buildRetrieval (toString (drawn.buildID + 1)) generation drawn.jobID
      now

/-- `GetByID` of the snapshot store. -/
def getSnapshot (snapshotID : String) : Tx RepositorySnapshot := do
  expect (← Place.snapshots.select fun snap => snap.id = snapshotID) errNoRows

/-- `GetByID` of the code index store, by the decimal identifier of a job. -/
def getCodeIndexBuild (resourceID : String) : Tx CodeIndexBuild := do
  expect (← Place.codeIndexBuilds.select fun build => toString build.id = resourceID) errNoRows

/-- `GetRetrievalBuildByID`, by the decimal identifier of a job. -/
def getRetrievalBuild (resourceID : String) : Tx RetrievalBuild := do
  expect (← Place.retrievalBuilds.select fun build => toString build.id = resourceID) errNoRows

def markMaterializing (snapshotID : String) : Tx Unit := do
  let affected ← Place.snapshots.update
    (fun snap => snap.id = snapshotID ∧ snap.status = .created)
    (fun snap => { snap with status := .materializing }) fun _ => ⟨rfl, rfl⟩
  require (affected ≠ 0) (.message "snapshot status transition conflict")

def markBuildBuilding (buildID : Nat) : Tx Unit := do
  let affected ← Place.codeIndexBuilds.update
    (fun build => build.id = buildID ∧ (build.status = .created ∨ build.status = .building))
    (fun build => { build with status := .building }) fun _ => ⟨rfl, rfl⟩
  require (affected ≠ 0) (.message "code index build is not claimable")

def markRetrievalBuilding (buildID : Nat) : Tx Unit := do
  let affected ← Place.retrievalBuilds.update
    (fun build => build.id = buildID ∧ (build.status = .created ∨ build.status = .building))
    (fun build => { build with status := .building }) fun _ => ⟨rfl, rfl⟩
  require (affected ≠ 0) (.message "retrieval build is not claimable")

def AnalysisJob.Owned (job : AnalysisJob) (claim : Claim) : Prop :=
  job.HeldBy claim ∧ job.executionStarted = true ∧ job.cancelRequested = false

instance (job : AnalysisJob) (claim : Claim) : Decidable (job.Owned claim) :=
  inferInstanceAs (Decidable (_ ∧ _))

/-- `requireOwnedJob`, with the row that it finds. -/
def requireOwnedJob (claim : Claim) : Tx AnalysisJob := do
  expect (← Place.jobs.select fun job => job.Owned claim) errOwnershipLost

def requireOwnedPipelineJobTx (claim : Claim) (jobType : JobType) (resourceID : String) :
    Tx AnalysisJob := do
  expect (← Place.jobs.select fun job => job.Owned claim ∧ job.For jobType resourceID)
    errOwnershipLost

def finalizeOwnedJob (claim : Claim) : Tx Unit := do
  let affected ← Place.jobs.update (fun job => job.Owned claim)
    (fun job => { job with status := .succeeded }) AnalysisJob.keeps_succeeded
  require (affected = 1) errOwnershipLost

def publishSnapshotTx (snapshotID revisionID commitSHA : String) : Tx Unit := do
  let affected ← Place.snapshots.update
    (fun snap => snap.id = snapshotID ∧ snap.status = .materializing ∧
      snap.analysisRevisionID = revisionID)
    (fun snap => { snap with status := .ready, commitSHA }) fun _ => ⟨rfl, rfl⟩
  require (affected = 1) (.message "snapshot materialization finalize conflict")

/-- The state change of `saveAnalysisResultTx`. -/
def publishCodeIndexTx (buildID : Nat) : Tx Unit := do
  let affected ← Place.codeIndexBuilds.update
    (fun build => build.id = buildID ∧ build.status = .building)
    (fun build => { build with status := .ready }) fun _ => ⟨rfl, rfl⟩
  require (affected = 1) (.message "code index build finalize conflict")

def publishRetrievalTx (buildID : Nat) : Tx Unit := do
  let affected ← Place.retrievalBuilds.update
    (fun build => build.id = buildID ∧ build.status = .building)
    (fun build => { build with status := .ready }) fun _ => ⟨rfl, rfl⟩
  require (affected = 1) (.message "retrieval build finalize conflict")

def handOverCodeIndexTx (identity : BuildIdentity) (existing : Nat)
    (revisionID snapshotID : String) (drawn : Drawn) : Tx Nat :=
  if existing = 0 then do
    Place.codeIndexBuilds.insert
      ⟨drawn.buildID + 1, snapshotID, identity.codeIndex, revisionID, .created, ""⟩ errDuplicate
    pure (drawn.buildID + 1)
  else do
    let build ← expect (← Place.codeIndexBuilds.select fun build => build.id = existing)
      errNoRows
    require (build.analysisRevisionID = revisionID ∧ build.snapshotID = snapshotID) errLineage
    pure existing

def finalizeSnapshotSuccessWithRevision (identity : BuildIdentity) (claim : Claim)
    (snapshotID revisionID commitSHA : String) (drawn : Drawn) (now : Time) : Tx Unit := do
  let job ← requireOwnedJob claim
  publishSnapshotTx snapshotID revisionID commitSHA
  let revision ← Place.revisions.select fun revision =>
    revision.id = revisionID ∧ revision.status = .preparing ∧ revision.snapshotID = snapshotID
  let buildID ← handOverCodeIndexTx identity
    ((revision.map AnalysisRevision.codeIndexBuildID).getD 0) revisionID snapshotID drawn
  ensureAnalysisJobTx .buildCodeIndex (toString buildID) job.executionGeneration drawn.jobID now
  let affected ← Place.revisions.update
    (fun revision => revision.id = revisionID ∧ revision.status = .preparing ∧
      revision.snapshotID = snapshotID)
    (fun revision => { revision with
      stage := .buildingCode
      codeIndexBuildID := buildID
      version := revision.version + 1 }) fun _ => ⟨rfl, rfl⟩
  require (affected = 1) (.message "analysis revision lineage transition conflict")
  finalizeOwnedJob claim

def finalizeLegacySnapshotSuccess (identity : BuildIdentity) (claim : Claim)
    (snapshotID commitSHA : String) (drawn : Drawn) (now : Time) : Tx Unit := do
  let owned ← requireOwnedPipelineJobTx claim .materializeSnapshot snapshotID
  publishSnapshotTx snapshotID "" commitSHA
  getOrCreateBuildTx snapshotID identity.codeIndex owned.executionGeneration drawn now
  finalizeOwnedJob claim

def handOverRetrievalTx (identity : BuildIdentity) (existing : Nat) (revisionID : String)
    (buildID : Nat) (drawn : Drawn) : Tx Nat :=
  if existing = 0 then do
    Place.retrievalBuilds.insert
      ⟨drawn.buildID + 1, buildID, identity.retrieval, revisionID, .created, ""⟩ errDuplicate
    pure (drawn.buildID + 1)
  else do
    let build ← expect (← Place.retrievalBuilds.select fun build => build.id = existing)
      errNoRows
    require (build.codeIndexBuildID = buildID ∧
      (build.analysisRevisionID = "" ∨ build.analysisRevisionID = revisionID)) errLineage
    let _ ← Place.retrievalBuilds.update
      (fun row => row.id = existing ∧ row.analysisRevisionID = "")
      (fun row => { row with analysisRevisionID := revisionID }) fun _ => ⟨rfl, rfl⟩
    pure existing

def finalizeCodeIndexSuccessWithRevision (identity : BuildIdentity) (claim : Claim)
    (buildID : Nat) (revisionID : String) (drawn : Drawn) (now : Time) : Tx Unit := do
  let _ ← requireOwnedJob claim
  let revision ← expect
    (← Place.revisions.select fun revision => revision.id = revisionID ∧
      revision.status = .preparing ∧ revision.codeIndexBuildID = buildID) errLineage
  let build ← expect (← Place.codeIndexBuilds.select fun build => build.id = buildID) errNoRows
  require (build.analysisRevisionID = revisionID ∧ build.snapshotID = revision.snapshotID ∧
    build.status = .building) errLineage
  publishCodeIndexTx buildID
  let retrievalID ← handOverRetrievalTx identity revision.retrievalBuildID revisionID buildID
    drawn
  ensureAnalysisJobTx .buildRetrieval (toString retrievalID) revision.executionGeneration
    drawn.jobID now
  let affected ← Place.revisions.update
    (fun row => row.id = revisionID ∧ row.status = .preparing ∧
      row.codeIndexBuildID = buildID)
    (fun row => { row with
      stage := .buildingSearch
      retrievalBuildID := retrievalID
      version := row.version + 1 }) fun _ => ⟨rfl, rfl⟩
  require (affected = 1) errLineage
  finalizeOwnedJob claim

def finalizeLegacyCodeIndexSuccess (identity : BuildIdentity) (claim : Claim) (buildID : Nat)
    (drawn : Drawn) (now : Time) : Tx Unit := do
  let owned ← requireOwnedPipelineJobTx claim .buildCodeIndex (toString buildID)
  let _ ← expect
    (← Place.codeIndexBuilds.select fun build => build.id = buildID ∧
      build.analysisRevisionID = "" ∧ build.status = .building)
    (.message "legacy code index build is not BUILDING")
  publishCodeIndexTx buildID
  getOrCreateRetrievalBuildTx buildID identity.retrieval owned.executionGeneration drawn now
  finalizeOwnedJob claim

def finalizeRetrievalSuccess (claim : Claim) (buildID : Nat) : Tx Unit := do
  let _ ← requireOwnedJob claim
  publishRetrievalTx buildID
  finalizeOwnedJob claim

def finalizeRetrievalSuccessWithRevision (claim : Claim) (buildID : Nat) (revisionID : String) :
    Tx Unit := do
  let _ ← requireOwnedJob claim
  let revision ← expect
    (← Place.revisions.select fun revision => revision.id = revisionID ∧
      revision.status = .preparing ∧ revision.retrievalBuildID = buildID) errLineage
  let retrieval ← expect (← Place.retrievalBuilds.select fun build => build.id = buildID)
    errNoRows
  require (retrieval.analysisRevisionID = revisionID ∧
    retrieval.codeIndexBuildID = revision.codeIndexBuildID ∧ retrieval.status = .building)
    errLineage
  let code ← expect
    (← Place.codeIndexBuilds.select fun build => build.id = revision.codeIndexBuildID) errNoRows
  require (code.analysisRevisionID = revisionID ∧ code.snapshotID = revision.snapshotID ∧
    code.status = .ready) errLineage
  publishRetrievalTx buildID
  let affected ← Place.revisions.update
    (fun row => row.id = revisionID ∧ row.status = .preparing ∧
      row.retrievalBuildID = buildID)
    (fun row => { row with status := .ready, stage := .ready, version := row.version + 1 })
    fun _ => ⟨rfl, rfl⟩
  require (affected = 1) errLineage
  finalizeOwnedJob claim

end RepoLens
