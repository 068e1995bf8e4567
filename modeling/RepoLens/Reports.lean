import RepoLens.Evidence
import RepoLens.Database
import RepoLens.Lib.Json

/-!
Report drafts and reports of `internal/evidence`.
-/

namespace RepoLens

open Json

namespace Evidence

inductive ConclusionKind where
  | rootCause
  | insufficientEvidence
  | other (text : String)
  deriving DecidableEq, Repr

def ConclusionKind.text : ConclusionKind → String
  | .rootCause => "ROOT_CAUSE"
  | .insufficientEvidence => "INSUFFICIENT_EVIDENCE"
  | .other text => text

inductive CitationStatus where
  | valid
  | invalid
  | unchecked
  /-- Not set yet. -/
  | unset
  deriving DecidableEq, Repr

def CitationStatus.text : CitationStatus → String
  | .unset => ""
  | .valid => "VALID"
  | .invalid => "INVALID"
  | .unchecked => "UNCHECKED"

/-- Without the negative zero, which Go prints with its sign. -/
inductive Float64 where
  | finite (value : Rat)
  | nan
  | infinite (negative : Bool)
  deriving DecidableEq, Repr

def Float64.outside : Float64 → Bool
  | .finite value => decide (value < 0 ∨ 1 < value)
  | .nan => false
  | .infinite _ => true

structure Citation where
  id : String
  reportID : String
  evidenceID : String
  snapshotID : String
  codeIndexBuildID : Int
  filePath : String
  startLine : Int
  endLine : Int
  excerpt : Bytes
  reason : String
  contentHash : String
  validationStatus : CitationStatus
  validationError : String
  createdAt : String
  deriving DecidableEq, Repr

structure Finding where
  title : String
  reasoning : String
  citations : List Citation
  deriving DecidableEq, Repr

/-- `DiagnosisReportData`; its field `Confidence` is never set. -/
structure DiagnosisReportData where
  conclusionKind : ConclusionKind
  summary : String
  rootCause : String
  findings : List Finding
  recommendedChecks : List String
  modelClaimedConfidence : Option Float64
  confirmedFacts : List String
  limitations : List String
  deriving DecidableEq, Repr

structure CitationRef where
  evidenceID : String
  reason : String
  legacyPath : String
  legacyStartLine : Int
  legacyEndLine : Int
  legacyExcerpt : String
  deriving DecidableEq, Repr

structure FindingDraft where
  title : String
  reasoning : String
  citations : List CitationRef
  deriving DecidableEq, Repr

structure ReportDraft where
  conclusionKind : ConclusionKind
  summary : String
  rootCause : String
  findings : List FindingDraft
  recommendedChecks : List String
  confirmedFacts : List String
  limitations : List String
  modelClaimedConfidence : Option Float64
  legacyConfidence : Option Float64
  deriving DecidableEq, Repr

def omitEmpty (key : String) (empty : Bool) (value : Value) : List (String × Value) :=
  if empty then [] else [(key, value)]

def omitEmptyString (key value : String) : List (String × Value) :=
  omitEmpty key (value == "") (.ofString value)

def Citation.json (citation : Citation) : Value :=
  .object ([("id", .ofString citation.id)] ++
    omitEmptyString "report_id" citation.reportID ++
    omitEmptyString "evidence_id" citation.evidenceID ++
    [("snapshot_id", .ofString citation.snapshotID),
      ("code_index_build_id", .ofInt citation.codeIndexBuildID),
      ("file_path", .ofString citation.filePath),
      ("start_line", .ofInt citation.startLine),
      ("end_line", .ofInt citation.endLine)] ++
    omitEmpty "excerpt" citation.excerpt.isEmpty (.string (Utf8.decode citation.excerpt)) ++
    omitEmptyString "reason" citation.reason ++
    omitEmptyString "content_hash" citation.contentHash ++
    [("validation_status", .ofString citation.validationStatus.text)] ++
    omitEmptyString "validation_error" citation.validationError ++
    [("created_at", .ofString citation.createdAt)])

def Finding.json (finding : Finding) : Value :=
  .object ([("title", .ofString finding.title), ("reasoning", .ofString finding.reasoning)] ++
    omitEmpty "citations" finding.citations.isEmpty (.array (finding.citations.map Citation.json)))

def textsJson (texts : List String) : Value :=
  if texts.isEmpty then .null else .array (texts.map .ofString)

/-- The number that a finite `float64` is written as. -/
abbrev FloatFormat := Rat → List Char

def Float64.json (format : FloatFormat) : Float64 → Except String Value
  | .finite value => .ok (.number (format value))
  | .nan => .error "json: unsupported value: NaN"
  | .infinite negative =>
    .error ("json: unsupported value: " ++ if negative then "-Inf" else "+Inf")

def DiagnosisReportData.marshal (format : FloatFormat) (data : DiagnosisReportData) :
    Except String (List Char) := do
  let confidence ← match data.modelClaimedConfidence with
    | none => .ok []
    | some value => (value.json format).map fun json => [("model_claimed_confidence", json)]
  return (Value.object ([("conclusion_kind", .ofString data.conclusionKind.text),
      ("summary", .ofString data.summary), ("root_cause", .ofString data.rootCause),
      ("findings", .array (data.findings.map Finding.json)),
      ("recommended_checks", textsJson data.recommendedChecks), ("confidence", .number ['0'])] ++
    confidence ++
    [("confirmed_facts", textsJson data.confirmedFacts),
      ("limitations", textsJson data.limitations)])).encode

inductive ReportErr where
  | message (text : String)
  /-- Wraps `ErrReportTooLarge`. -/
  | tooLarge (field : String) (limit : Nat)
  deriving DecidableEq, Repr

def maxReportBytes : Nat := 4 * 1024 * 1024

def validateReportBytes (field : String) (value : List Char) (limit : Nat) :
    Except ReportErr Unit :=
  if limit < byteLength value then .error (.tooLarge field limit) else .ok ()

def len (s : String) : Nat := byteLength s.toList

def isBlank (s : String) : Bool := Utf8.trimSpace s == ""

def validateCitation (citation : Citation) : Except ReportErr Unit :=
  if 512 < len citation.filePath ∨ 32 * 1024 < citation.excerpt.length ∨
      2 * 1024 < len citation.reason then
    .error (.message "citation exceeds the configured limit")
  else .ok ()

def validateFinding (finding : Finding) : Except ReportErr Unit := do
  if isBlank finding.title ∨ isBlank finding.reasoning then
    throw (.message "finding title and reasoning are required")
  if 2 * 1024 < len finding.title ∨ 8 * 1024 < len finding.reasoning ∨
      16 < finding.citations.length then
    throw (.message "finding exceeds the configured limit")
  finding.citations.forM validateCitation

def validateHeader (data : DiagnosisReportData) : Except ReportErr Unit := do
  match data.conclusionKind with
  | .other _ => throw (.message "conclusion_kind is invalid")
  | .insufficientEvidence =>
    if data.confirmedFacts = [] ∨ data.limitations = [] ∨ data.recommendedChecks = [] then
      throw (.message
        "insufficient evidence report needs confirmed facts, limitations, and next checks")
  | .rootCause =>
    if isBlank data.summary ∨ isBlank data.rootCause ∨ data.findings = [] then
      throw (.message "root cause report is missing required fields")
  if data.modelClaimedConfidence.any Float64.outside then
    throw (.message "model_claimed_confidence must be between 0 and 1")
  if 16 * 1024 < len data.summary ∨ 16 * 1024 < len data.rootCause then
    throw (.message "report summary or root cause exceeds the configured limit")
  if 64 < data.findings.length ∨ 32 < data.recommendedChecks.length ∨
      32 < data.confirmedFacts.length ∨ 32 < data.limitations.length then
    throw (.message "report contains too many items")
  if (data.recommendedChecks ++ data.confirmedFacts ++ data.limitations ++
      [data.summary, data.rootCause]).any fun value => decide (8 * 1024 < len value) then
    throw (.message "report field exceeds the configured limit")

def validateReportStructure (format : FloatFormat) (data : DiagnosisReportData) :
    Except ReportErr Unit := do
  validateHeader data
  data.findings.forM validateFinding
  match data.marshal format with
  | .error err => throw (.message ("serialize report: " ++ err))
  | .ok serialized => validateReportBytes "structured_report" serialized maxReportBytes

structure Issuer where
  resolve : String → String → Except EvidenceErr Item
  verify : Option (Item → DraftLineage → Except EvidenceErr Unit)

def Service.issuer (service : Service) (buffering : Buffering) (rows : List Item) : Issuer :=
  ⟨Evidence.resolve rows, some (service.verify buffering)⟩

def takeBytes : Nat → List Char → List Char
  | _, [] => []
  | limit, c :: text => if c.utf8Size ≤ limit then c :: takeBytes (limit - c.utf8Size) text else []

def limitCitationReason (reason : String) : String :=
  if 2048 < len (Utf8.trimSpace reason) then
    String.ofList (takeBytes 2048 (Utf8.trimSpace reason).toList)
  else Utf8.trimSpace reason

def evidenceResolveError : EvidenceErr → String
  | .notFound => "EVIDENCE_NOT_FOUND"
  | .attemptMismatch => "EVIDENCE_ATTEMPT_MISMATCH"
  | .lineageMismatch => "EVIDENCE_LINEAGE_MISMATCH"
  | .hashMismatch => "EVIDENCE_CONTENT_HASH_MISMATCH"
  | .sourceUnavailable _ => "EVIDENCE_SOURCE_UNAVAILABLE"
  | .other _ => "EVIDENCE_SOURCE_UNAVAILABLE"

def zeroTime : String := "0001-01-01T00:00:00Z"

/-- A citation that carries only what the reference says. -/
def CitationRef.bare (ref : CitationRef) : Citation where
  id := ""
  reportID := ""
  evidenceID := ref.evidenceID
  snapshotID := ""
  codeIndexBuildID := 0
  filePath := ""
  startLine := 0
  endLine := 0
  excerpt := []
  reason := limitCitationReason ref.reason
  contentHash := ""
  validationStatus := .unset
  validationError := ""
  createdAt := zeroTime

/-- The report with everything that does not depend on the evidence. -/
def ReportDraft.data (draft : ReportDraft) (findings : List Finding) : DiagnosisReportData where
  conclusionKind := draft.conclusionKind
  summary := draft.summary
  rootCause := draft.rootCause
  findings := findings
  recommendedChecks := draft.recommendedChecks
  modelClaimedConfidence := draft.modelClaimedConfidence.or draft.legacyConfidence
  confirmedFacts := draft.confirmedFacts
  limitations := draft.limitations

def ReportDraft.findingsBy (draft : ReportDraft) (cite : CitationRef → Citation) : List Finding :=
  draft.findings.map fun finding =>
    ⟨finding.title, finding.reasoning, finding.citations.map cite⟩

def validateReportDraftStructure (format : FloatFormat) (draft : ReportDraft) :
    Except ReportErr Unit :=
  validateReportStructure format (draft.data (draft.findingsBy CitationRef.bare))

def evidenceFor (issuer : Option Issuer) (lineage : DraftLineage) (evidenceID : String) :
    Except String Item := do
  if evidenceID = "" then throw "EVIDENCE_ID_EMPTY"
  let some issuer := issuer | throw "EVIDENCE_SOURCE_UNAVAILABLE"
  let item ← (issuer.resolve lineage.attemptID evidenceID).mapError evidenceResolveError
  if item.attemptID ≠ lineage.attemptID then throw "EVIDENCE_ATTEMPT_MISMATCH"
  if item.diagnosisRunID ≠ lineage.diagnosisRunID ∨ item.snapshotID ≠ lineage.snapshotID ∨
      item.codeIndexBuildID ≠ lineage.codeIndexBuildID then
    throw "EVIDENCE_LINEAGE_MISMATCH"
  match issuer.verify with
  | none => return item
  | some verify => do
      (verify item lineage).mapError evidenceResolveError
      return item

/-- The body of the loop of `ResolveReportDraft`. -/
def resolveCitation (issuer : Option Issuer) (lineage : DraftLineage) (ref : CitationRef) :
    Citation :=
  let citation : Citation := { ref.bare with
    evidenceID := Utf8.trimSpace ref.evidenceID
    snapshotID := lineage.snapshotID
    codeIndexBuildID := lineage.codeIndexBuildID
    validationStatus := .invalid }
  match evidenceFor issuer lineage (Utf8.trimSpace ref.evidenceID) with
  | .error err => { citation with validationError := err }
  | .ok item => { citation with
      filePath := item.filePath
      startLine := item.startLine
      endLine := item.endLine
      excerpt := item.displayExcerpt
      contentHash := item.rawContentHash
      validationStatus := .valid }

def resolveReportDraft (format : FloatFormat) (issuer : Option Issuer) (draft : Option ReportDraft)
    (lineage : DraftLineage) : Except ReportErr DiagnosisReportData := do
  let some draft := draft | throw (.message "report draft is nil")
  validateReportDraftStructure format draft
  return draft.data (draft.findingsBy (resolveCitation issuer lineage))

structure ReportQuality where
  status : ReportStatus
  findingCount : Nat
  supportedFindingCount : Nat
  unsupportedFindingCount : Nat
  validCitationCount : Nat
  invalidCitationCount : Nat
  citationCoverage : Option Rat
  deriving DecidableEq, Repr

def ReportQuality.empty (status : ReportStatus) : ReportQuality :=
  ⟨status, 0, 0, 0, 0, 0, none⟩

def Finding.count (status : CitationStatus) (finding : Finding) : Nat :=
  finding.citations.countP fun citation => citation.validationStatus == status

def Finding.supported (finding : Finding) : Bool := 0 < finding.count .valid

def classifyReport (format : FloatFormat) (data : Option DiagnosisReportData) (structured : Bool) :
    ReportQuality × Option ReportErr :=
  match structured, data with
  | true, some data =>
    match validateReportStructure format data with
    | .error err => (.empty .invalid, some err)
    | .ok () =>
      if data.conclusionKind = .insufficientEvidence then (.empty .insufficientEvidence, none)
      else
        let supported := data.findings.countP Finding.supported
        let unsupported := data.findings.countP (! ·.supported)
        let invalid := (data.findings.map (Finding.count .invalid)).sum
        let quality : ReportQuality := {
          status := if 0 < unsupported ∨ 0 < invalid then .degraded else .valid
          findingCount := data.findings.length
          supportedFindingCount := supported
          unsupportedFindingCount := unsupported
          validCitationCount := (data.findings.map (Finding.count .valid)).sum
          invalidCitationCount := invalid
          citationCoverage :=
            if 0 < data.findings.length then some (supported / data.findings.length) else none }
        (quality, none)
  | _, _ => (.empty .invalid, some (.message "structured report is invalid"))

end Evidence

end RepoLens
