import RepoLens.SnapshotPolicy
import RepoLens.Redaction

/-!
The evidence items of `internal/evidence`: the server's record of a source range that an attempt
was shown.
-/

namespace RepoLens

open SnapshotPolicy

namespace Evidence

inductive SourceKind where
  | initialRetrieval
  | searchCode
  | readFile
  | unsupported (name : String)
  deriving DecidableEq, Repr

inductive EvidenceErr where
  | notFound
  | attemptMismatch
  | lineageMismatch
  | sourceUnavailable (cause : String)
  | hashMismatch
  | other (text : String)
  deriving DecidableEq, Repr

structure Item where
  id : String
  attemptID : String
  diagnosisRunID : String
  snapshotID : String
  codeIndexBuildID : Int
  sourceKind : SourceKind
  sourceStepSeq : Option Int
  retrievalChunkID : String
  filePath : String
  startLine : Int
  endLine : Int
  totalLines : Nat
  rawContentHash : String
  displayExcerpt : Bytes
  redactionApplied : Bool
  truncated : Bool
  createdAt : Nat
  deriving DecidableEq, Repr

structure IssueRequest where
  attemptID : String
  diagnosisRunID : String
  repositoryID : String
  snapshotID : String
  codeIndexBuildID : Int
  sourceKind : SourceKind
  sourceStepSeq : Int
  retrievalChunkID : String
  filePath : String
  startLine : Int
  endLine : Int
  maxBytes : Int
  deriving DecidableEq, Repr

structure DraftLineage where
  attemptID : String
  diagnosisRunID : String
  repositoryID : String
  snapshotID : String
  codeIndexBuildID : Int
  deriving DecidableEq, Repr

def IssueRequest.lineage (request : IssueRequest) : DraftLineage :=
  ⟨request.attemptID, request.diagnosisRunID, request.repositoryID, request.snapshotID,
    request.codeIndexBuildID⟩

/-- The row that `validateLineage` selects for an attempt. -/
structure LineageRow where
  diagnosisRunID : String
  repositoryID : String
  snapshotID : String
  codeIndexBuildID : Int
  deriving DecidableEq, Repr

/-- `sha256Hex`, of which only the form of the digest is used. -/
structure Sha256 where
  hex : Bytes → String
  digits : ∀ content, validHash (hex content) = true

def Sha256.Apart (sha : Sha256) (one two : Bytes) : Prop := sha.hex one = sha.hex two → one = two

/-- `EvidenceIssuerService`; one without a database does not check the lineage. The store compares
paths by their form under the collation of the table, which by default sees no case. -/
structure Service where
  db : Option (String → Except String LineageRow)
  storeFS : Option LocalSnapshotStore
  sha256 : Sha256
  collate : String → String

structure StoreFaults where
  find : Option String
  create : Option (String × List Item)
  refind : Option String

def StoreFaults.none : StoreFaults := ⟨.none, .none, .none⟩

structure IssueCall where
  request : IssueRequest
  id : String
  now : Nat
  buffering : Buffering
  faults : StoreFaults

structure Identity where
  attemptID : String
  snapshotID : String
  filePath : String
  startLine : Int
  endLine : Int
  rawHash : String
  deriving DecidableEq, Repr

def Service.identity (service : Service) (item : Item) : Identity :=
  ⟨item.attemptID, item.snapshotID, service.collate item.filePath, item.startLine, item.endLine,
    item.rawContentHash⟩

def Service.findCanonical (service : Service) (rows : List Item) (identity : Identity) :
    Option Item :=
  rows.find? fun item => service.identity item == identity

def getByAttemptAndID (rows : List Item) (attemptID evidenceID : String) :
    Except EvidenceErr Item :=
  match rows.find? fun item => item.attemptID == attemptID && item.id == evidenceID with
  | some item => .ok item
  | none => .error .notFound

def findByID (rows : List Item) (evidenceID : String) : Except EvidenceErr Item :=
  match rows.find? fun item => item.id == evidenceID with
  | some item => .ok item
  | none => .error .notFound

def validateIssueRequest (request : IssueRequest) : Except EvidenceErr Unit :=
  if request.attemptID = "" ∨ request.diagnosisRunID = "" ∨ request.repositoryID = "" ∨
      request.snapshotID = "" ∨ request.filePath = "" then
    .error (.sourceUnavailable "")
  else
    match request.sourceKind with
    | .unsupported name => .error (.other ("unsupported evidence source kind \"" ++ name ++ "\""))
    | _ => .ok ()

namespace Service

variable (service : Service)

def validateLineage (request : IssueRequest) : Except EvidenceErr Unit :=
  match service.db with
  | none => .ok ()
  | some select =>
    match select request.attemptID with
    | .error err => .error (.other ("validate evidence lineage: " ++ err))
    | .ok row =>
      if row.diagnosisRunID = "" then .error .notFound
      else if row = ⟨request.diagnosisRunID, request.repositoryID, request.snapshotID,
          request.codeIndexBuildID⟩ then .ok ()
      else .error .lineageMismatch

/-- The policy check and the read that `Issue` and `Verify` share. -/
def readEvidence (buffering : Buffering) (repositoryID snapshotID filePath : String)
    (startLine endLine maxBytes : Int) : Except EvidenceErr FileRange :=
  match service.storeFS with
  | none => .error (.sourceUnavailable "")
  | some storeFS =>
    let decision := canIssueEvidenceFromSnapshot storeFS.fs
      (storeFS.getSourcePath repositoryID snapshotID) filePath
    if decision.allowed then
      (storeFS.readFileRangeBounded buffering repositoryID snapshotID filePath startLine endLine
        maxBytes).mapError fun err => .sourceUnavailable err.error
    else .error (.sourceUnavailable ("file access denied (" ++ decision.reason ++ ")"))

/-- `Issue` as far as it does not look at the item store. -/
def fetch (buffering : Buffering) (request : IssueRequest) : Except EvidenceErr FileRange := do
  validateIssueRequest request
  service.validateLineage request
  service.readEvidence buffering request.repositoryID request.snapshotID request.filePath
    request.startLine request.endLine request.maxBytes

def newItem (call : IssueCall) (fileRange : FileRange) : Item where
  id := "ev_" ++ call.id
  attemptID := call.request.attemptID
  diagnosisRunID := call.request.diagnosisRunID
  snapshotID := call.request.snapshotID
  codeIndexBuildID := call.request.codeIndexBuildID
  sourceKind := call.request.sourceKind
  sourceStepSeq := if 0 < call.request.sourceStepSeq then some call.request.sourceStepSeq else none
  retrievalChunkID := call.request.retrievalChunkID
  filePath := fileRange.path
  startLine := fileRange.startLine
  endLine := fileRange.endLine
  totalLines := fileRange.totalLines
  rawContentHash := service.sha256.hex fileRange.content
  displayExcerpt := redactSecrets fileRange.content
  redactionApplied := redactSecrets fileRange.content != fileRange.content
  truncated := fileRange.truncated
  createdAt := call.now

def record (call : IssueCall) (fileRange : FileRange) (rows : List Item) :
    Except EvidenceErr Item × List Item :=
  let item := service.newItem call fileRange
  match call.faults.find with
  | some err => (.error (.other err), rows)
  | none =>
    match service.findCanonical rows (service.identity item) with
    | some existing => (.ok existing, rows)
    | none =>
      match call.faults.create with
      | none => (.ok item, rows ++ [item])
      | some (err, others) =>
        match call.faults.refind,
          service.findCanonical (rows ++ others) (service.identity item) with
        | none, some existing => (.ok existing, rows ++ others)
        | _, _ => (.error (.other ("persist evidence item: " ++ err)), rows ++ others)

def issue (call : IssueCall) (rows : List Item) : Except EvidenceErr Item × List Item :=
  match service.fetch call.buffering call.request with
  | .error err => (.error err, rows)
  | .ok fileRange => service.record call fileRange rows

def rowsAfter : List IssueCall → List Item → List Item
  | [], rows => rows
  | call :: calls, rows => rowsAfter calls (service.issue call rows).2

def verify (buffering : Buffering) (item : Item) (lineage : DraftLineage) :
    Except EvidenceErr Unit := do
  if item.attemptID ≠ lineage.attemptID then throw .attemptMismatch
  if item.diagnosisRunID ≠ lineage.diagnosisRunID ∨ item.snapshotID ≠ lineage.snapshotID ∨
      item.codeIndexBuildID ≠ lineage.codeIndexBuildID then
    throw .lineageMismatch
  let fileRange ← service.readEvidence buffering lineage.repositoryID item.snapshotID item.filePath
    item.startLine item.endLine 0
  if service.sha256.hex fileRange.content ≠ item.rawContentHash ∨
      fileRange.startLine ≠ item.startLine ∨ fileRange.endLine ≠ item.endLine then
    throw .hashMismatch

end Service

def resolve (rows : List Item) (attemptID evidenceID : String) : Except EvidenceErr Item :=
  if attemptID = "" ∨ evidenceID = "" then .error .notFound
  else
    match getByAttemptAndID rows attemptID evidenceID with
    | .ok item => .ok item
    | .error err =>
      match findByID rows evidenceID with
      | .ok foreign => if foreign.attemptID ≠ attemptID then .error .attemptMismatch else .error err
      | .error _ => .error err

end Evidence

end RepoLens
