import RepoLens.Worker

/-!
The whole system: every claim's program, and what happens beside them.
-/

namespace RepoLens

open Relational Transaction Interleaving

/-- The transactions that no claim's program starts. -/
inductive Request where
  | createDiagnosis (run : DiagnosisRun) (jobID : Nat)
  | requestCancellation (runID userID : String)
  | retryDiagnosis (runID : String)
  | createPreparation (revision : AnalysisRevision) (snapshotID : String) (jobID : Nat)
  | retryPreparation (revisionID : String)
  | createLegacySnapshot (snapshotID repositoryID commitSHA : String) (jobID : Nat)
  | getOrCreateBuild (snapshotID : String)
  | getOrCreateRetrievalBuild (codeIndexBuildID : Nat)
  | renewLease (claim : Claim)
  | recoverStaleAttempt (attemptID runID : String)
  | reapExpiredJobs (batchSize : Nat) (pick : AnalysisJob → Bool) (jitter : Nat → Nat)

def Request.tx (outside : Outside) : Request → Tx Unit
  | .createDiagnosis run jobID => RepoLens.createDiagnosis run jobID outside.now
  | .requestCancellation runID userID => RepoLens.requestCancellation runID userID
  | .retryDiagnosis runID => RepoLens.retryDiagnosis runID outside.now
  | .createPreparation revision snapshotID jobID =>
    RepoLens.createPreparation revision snapshotID jobID outside.now
  | .retryPreparation revisionID =>
    RepoLens.retryPreparation outside.identity revisionID outside.drawn outside.now
  | .createLegacySnapshot snapshotID repositoryID commitSHA jobID =>
    RepoLens.createLegacySnapshot snapshotID repositoryID commitSHA jobID outside.now
  | .getOrCreateBuild snapshotID =>
    getOrCreateBuildTx snapshotID outside.identity.codeIndex 1 outside.drawn outside.now
  | .getOrCreateRetrievalBuild codeIndexBuildID =>
    getOrCreateRetrievalBuildTx codeIndexBuildID outside.identity.retrieval 1 outside.drawn
      outside.now
  | .renewLease claim => RepoLens.renewLease claim outside.leaseUntil outside.now
  | .recoverStaleAttempt attemptID runID =>
    RepoLens.recoverStaleAttempt attemptID runID outside.now
  | .reapExpiredJobs batchSize pick jitter => do
      let _ ← RepoLens.reapExpiredJobs batchSize pick jitter outside.now
      pure ()

inductive ContextEnd where
  | userCancel
  | ownershipLost
  | leaseFailure (fault : StoreFault)
  | cancelPollError (fault : StoreFault)
  | shutdown
  | parentCanceled
  deriving DecidableEq, Repr

/-- The cause that `context.Cause` then returns. -/
def ContextEnd.err : ContextEnd → Err
  | .userCancel => errUserCancellation
  | .ownershipLost => errOwnershipLost
  | .leaseFailure fault => .join ": " (.sentinel (.stop .leaseFailure)) fault.err
  | .cancelPollError fault => .join ": " (.sentinel (.stop .cancelPollError)) fault.err
  | .shutdown => errWorkerShutdown
  | .parentCanceled => .sentinel .contextCanceled

/-- What the renewer or the poller must have read for this cause. -/
def ContextEnd.observed (db : Database) (claim : Claim) (outside : Outside) :
    ContextEnd → Bool
  | .userCancel =>
    match isCancelRequested claim db with
    | .ok (requested, _) => requested
    | .error _ => false
  | .ownershipLost =>
    match isCancelRequested claim db, renewLease claim outside.leaseUntil outside.now db with
    | .ok _, .ok _ => false
    | _, _ => true
  | _ => true

/-- A row of this resource exists and belongs to no revision: what the callers of `ManualRequeue`
check. -/
def Database.unlinked (db : Database) : JobType → String → Bool
  | .materializeSnapshot, resourceID =>
    (db.snapshots.select fun snap => snap.id = resourceID).any fun snap =>
      snap.analysisRevisionID = ""
  | .buildCodeIndex, resourceID =>
    (db.codeIndexBuilds.select fun build => toString build.id = resourceID).any fun build =>
      build.analysisRevisionID = ""
  | .buildRetrieval, resourceID =>
    (db.retrievalBuilds.select fun build => toString build.id = resourceID).any fun build =>
      build.analysisRevisionID = ""
  | .runDiagnosis, _ => false

/-- What happens beside the programs. -/
inductive Move where
  | request (request : Request) (outside : Outside)
  /-- `ClaimJobs`; the answer may be lost after the commit. -/
  | claimJobs (workerID : String) (batchSize leaseDuration : Nat) (pick : AnalysisJob → Bool)
      (tokens : Nat → String) (now : Time) (answered : Bool) (rounds : Nat)
  | endContext (claim : Claim) (reason : ContextEnd) (outside : Outside)
  /-- A requeue request reads its resource. -/
  | seeUnlinked (jobType : JobType) (resourceID : String)
  /-- `ManualRequeue` of a resource that was read before. -/
  | manualRequeue (jobType : JobType) (resourceID : String) (now : Time)

def World.commit (w : World) (tx : Tx Unit) : Option World :=
  match tx w.db with
  | .ok (_, db) => some { w with db }
  | .error _ => none

/-- The tokens of a batch are new and different from each other. -/
def World.Fresh (w : World) (claimedJobs : List AnalysisJob) : Prop :=
  (claimedJobs.map fun job => job.claim.claimToken).Nodup ∧
    ∀ job ∈ claimedJobs, ∀ claim ∈ w.issued, claim.claimToken ≠ job.claim.claimToken

instance (w : World) (claimedJobs : List AnalysisJob) : Decidable (w.Fresh claimedJobs) :=
  inferInstanceAs (Decidable (_ ∧ _))

def World.claim (handlers : Handlers) (w : World) (claimedJobs : List AnalysisJob)
    (db : Database) (answered : Bool) (rounds : Nat) :
    Option (World × List (Claim × Prog Unit)) :=
  if w.Fresh claimedJobs then
    some ({ w with db, issued := claimedJobs.map AnalysisJob.claim ++ w.issued },
      if answered then
        claimedJobs.map fun job => (job.claim, startAndDispatchClaim handlers job rounds)
      else [])
  else none

def World.move (handlers : Handlers) : Move → World → Option (World × List (Claim × Prog Unit))
  | .request request outside, w => (w.commit (request.tx outside)).map fun w => (w, [])
  | .claimJobs workerID batchSize leaseDuration pick tokens now answered rounds, w =>
    match claimJobs workerID batchSize leaseDuration pick tokens now w.db with
    | .ok (claimedJobs, db) => w.claim handlers claimedJobs db answered rounds
    | .error _ => none
  | .endContext claim reason outside, w =>
    if claim ∈ w.issued ∧ w.cause claim = .nil ∧ reason.observed w.db claim outside = true then
      some ({ w with cause := Function.update w.cause claim reason.err }, [])
    else none
  | .seeUnlinked jobType resourceID, w =>
    if w.db.unlinked jobType resourceID then
      some ({ w with unlinked := (jobType, resourceID) :: w.unlinked }, [])
    else none
  | .manualRequeue jobType resourceID now, w =>
    if (jobType, resourceID) ∈ w.unlinked then
      (w.commit (RepoLens.manualRequeue jobType resourceID now)).map fun w => (w, [])
    else none

def system (handlers : Handlers) : Machine runtime World Claim Oracle Move where
  perform := World.perform
  move := World.move handlers

abbrev SystemState := State runtime World Claim

def World.empty : World := ⟨.empty, [], fun _ => .nil, [], []⟩

def initial : SystemState := ⟨World.empty, fun _ => none⟩

def Reachable (handlers : Handlers) (s : SystemState) : Prop := (system handlers).Run initial s

/-- An arbitrary answer from outside, for calls that do not depend on it. -/
def Outside.any : Outside := ⟨0, fun _ => "", ⟨0, 0⟩, ⟨"", ""⟩, 0⟩

/-- Handlers for concrete runs: every job type has its handler, and the functions
on report contents are the simplest ones. -/
def plainHandlers : Handlers where
  registered _ := true
  diagnosis :=
    { retries := fun _ => 2
      rounds := 3
      hasEvidenceIssuer := false
      marshalReport := fun report => (report.map DiagnosisReportData.summary).getD ""
      unmarshalReport := fun text => some { emptyReport with summary := text }
      marshalDraft := fun draft => draft.getD ""
      unmarshalDraft := some
      rebindDraft := fun _ _ draft => draft
      resolveDraft := fun _ draft => { emptyReport with summary := draft }
      validateReportStructure := fun _ => .nil
      classifyReport := fun _ _ => (.valid, .nil)
      validateCitation := id
      redactSecrets := id
      marshalFindings := fun _ => "[]"
      marshalStrings := fun _ => "[]" }

end RepoLens
