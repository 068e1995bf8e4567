import RepoLens.Reports
import RepoLens.EvidenceIssue

/-!
What resolution makes of a draft. A citation is valid only through the item that the
issuer vouches for, the locations that a model writes into its references take no part,
and the report is as well formed as the draft up to the sizes that the items bring in.
-/

namespace RepoLens

open Json

namespace Evidence

variable (format : FloatFormat) (issuer : Option Issuer) (lineage : DraftLineage)

structure Backed (evidenceID : String) (item : Item) : Prop where
  named : evidenceID ≠ ""
  vouched : ∃ service, issuer = some service ∧
    service.resolve lineage.attemptID evidenceID = .ok item ∧
    ∀ verify, service.verify = some verify → verify item lineage = .ok ()
  attempt : item.attemptID = lineage.attemptID
  run : item.diagnosisRunID = lineage.diagnosisRunID
  snapshot : item.snapshotID = lineage.snapshotID
  build : item.codeIndexBuildID = lineage.codeIndexBuildID

variable {issuer lineage}

theorem evidenceFor_ok_iff {evidenceID : String} {item : Item} :
    evidenceFor issuer lineage evidenceID = .ok item ↔ Backed issuer lineage evidenceID item := by
  constructor
  · intro found
    unfold evidenceFor at found
    by_cases named : evidenceID = ""
    · simp [named, bind, Except.bind, throw, throwThe, MonadExceptOf.throw] at found
    · cases issuer with
      | none => simp [named, throw, throwThe, MonadExceptOf.throw] at found
      | some service =>
        cases resolved : service.resolve lineage.attemptID evidenceID with
        | error err => simp [named, resolved, bind, Except.bind, Except.mapError] at found
        | ok item_ =>
          by_cases attempt : item_.attemptID = lineage.attemptID
          · by_cases other : item_.diagnosisRunID ≠ lineage.diagnosisRunID ∨
                item_.snapshotID ≠ lineage.snapshotID ∨
                item_.codeIndexBuildID ≠ lineage.codeIndexBuildID
            · simp [named, resolved, attempt, other, bind, Except.bind, Except.mapError, throw,
                throwThe, MonadExceptOf.throw] at found
            · rw [not_or, not_or, not_not, not_not, not_not] at other
              obtain ⟨run, snapshot, build⟩ := other
              have kept : item_ = item ∧
                  ∀ verify, service.verify = some verify → verify item_ lineage = .ok () := by
                cases checks : service.verify with
                | none =>
                  simpa [named, resolved, attempt, run, snapshot, build, checks, bind,
                    Except.bind, Except.mapError, pure, Except.pure] using found
                | some verify =>
                  cases verified : verify item_ lineage with
                  | error err =>
                    simp [named, resolved, attempt, run, snapshot, build, checks, verified,
                      bind, Except.bind, Except.mapError] at found
                  | ok _ =>
                    simpa [named, resolved, attempt, run, snapshot, build, checks, verified,
                      bind, Except.bind, Except.mapError, pure, Except.pure] using found
              obtain ⟨rfl, verified⟩ := kept
              exact ⟨named, ⟨service, rfl, resolved, verified⟩, attempt, run, snapshot, build⟩
          · simp [named, resolved, attempt, bind, Except.bind, Except.mapError, throw, throwThe,
              MonadExceptOf.throw] at found
  · rintro ⟨named, ⟨service, rfl, resolved, verified⟩, attempt, run, snapshot, build⟩
    unfold evidenceFor
    cases checks : service.verify with
    | none =>
      simp [named, resolved, attempt, run, snapshot, build, checks, bind, Except.bind,
        Except.mapError, pure, Except.pure]
    | some verify =>
      simp [named, resolved, attempt, run, snapshot, build, checks, verified verify checks, bind,
        Except.bind, Except.mapError, pure, Except.pure]

theorem resolveCitation_valid_iff {ref : CitationRef} :
    (resolveCitation issuer lineage ref).validationStatus = .valid ↔
      ∃ item, Backed issuer lineage (Utf8.trimSpace ref.evidenceID) item := by
  unfold resolveCitation
  cases found : evidenceFor issuer lineage (Utf8.trimSpace ref.evidenceID) with
  | error err =>
    simp only [reduceCtorEq, false_iff, not_exists]
    intro item backed
    rw [evidenceFor_ok_iff.mpr backed] at found
    cases found
  | ok item => simpa using ⟨item, evidenceFor_ok_iff.mp found⟩

def CitationRef.withoutLocation (ref : CitationRef) : CitationRef :=
  ⟨ref.evidenceID, ref.reason, "", 0, 0, ""⟩

def ReportDraft.withoutLocations (draft : ReportDraft) : ReportDraft :=
  { draft with findings := draft.findings.map fun finding =>
      { finding with citations := finding.citations.map CitationRef.withoutLocation } }

theorem findingsBy_withoutLocations (draft : ReportDraft) {cite : CitationRef → Citation}
    (blind : ∀ ref, cite ref.withoutLocation = cite ref) :
    draft.withoutLocations.findingsBy cite = draft.findingsBy cite := by
  simp only [ReportDraft.findingsBy, ReportDraft.withoutLocations, List.map_map]
  apply List.map_congr_left
  intro finding _
  simp [Function.comp_def, blind]

theorem resolveReportDraft_withoutLocations (draft : Option ReportDraft) :
    resolveReportDraft format issuer (draft.map ReportDraft.withoutLocations) lineage =
      resolveReportDraft format issuer draft lineage := by
  cases draft with
  | none => rfl
  | some draft =>
    have bare := @findingsBy_withoutLocations draft CitationRef.bare fun _ => rfl
    have cited := @findingsBy_withoutLocations draft (resolveCitation issuer lineage) fun _ => rfl
    simp only [resolveReportDraft, validateReportDraftStructure, Option.map_some, bare, cited]
    rfl

theorem resolveReportDraft_ok {draft : ReportDraft} {report : DiagnosisReportData}
    (resolved : resolveReportDraft format issuer (some draft) lineage = .ok report) :
    report = draft.data (draft.findingsBy (resolveCitation issuer lineage)) := by
  unfold resolveReportDraft at resolved
  cases valid : validateReportDraftStructure format draft with
  | error err => simp [valid, bind, Except.bind] at resolved
  | ok _ => simpa [valid, bind, Except.bind, pure, Except.pure, eq_comm] using resolved

variable (issuer lineage) in

/-- A citation of the report stands for the reference at its place: under its trimmed id,
and valid only if the issuer vouches for an item under that id. -/
def Cites (ref : CitationRef) (citation : Citation) : Prop :=
  citation.evidenceID = Utf8.trimSpace ref.evidenceID ∧
    (citation.validationStatus = .valid →
      ∃ item, Backed issuer lineage (Utf8.trimSpace ref.evidenceID) item)

theorem resolveCitation_cites (ref : CitationRef) :
    Cites issuer lineage ref (resolveCitation issuer lineage ref) := by
  refine ⟨?_, resolveCitation_valid_iff.mp⟩
  unfold resolveCitation
  cases evidenceFor issuer lineage (Utf8.trimSpace ref.evidenceID) <;> rfl

/-- Drafts that differ in the claimed locations only are resolved alike, and the report
has the findings and citations of the draft in their order. -/
theorem resolveReportDraft_ignores_locations (format : FloatFormat) (issuer : Option Issuer)
    (lineage : DraftLineage) (first second : Option ReportDraft)
    (same : first.map ReportDraft.withoutLocations = second.map ReportDraft.withoutLocations) :
    resolveReportDraft format issuer first lineage =
      resolveReportDraft format issuer second lineage ∧
      ∀ draft report, first = some draft →
        resolveReportDraft format issuer first lineage = .ok report →
        List.Forall₂ (fun finding resolved =>
            resolved.title = finding.title ∧ resolved.reasoning = finding.reasoning ∧
              List.Forall₂ (Cites issuer lineage) finding.citations resolved.citations)
          draft.findings report.findings := by
  constructor
  · rw [← resolveReportDraft_withoutLocations, same, resolveReportDraft_withoutLocations]
  · rintro draft report rfl resolved
    rw [resolveReportDraft_ok format resolved]
    simp only [ReportDraft.data, ReportDraft.findingsBy, List.forall₂_map_right_iff]
    apply List.forall₂_same.mpr
    intro finding _
    refine ⟨rfl, rfl, ?_⟩
    exact List.forall₂_same.mpr fun ref _ => resolveCitation_cites ref

def oneCitation (ref : CitationRef) : ReportDraft where
  conclusionKind := .rootCause
  summary := "summary"
  rootCause := "cause"
  findings := [⟨"title", "reasoning", [ref]⟩]
  recommendedChecks := []
  confirmedFacts := []
  limitations := []
  modelClaimedConfidence := none
  legacyConfidence := none

/-- A reference to the same id that claims other lines of another file. -/
theorem resolveReportDraft_ignores_locations_moved :
    let service := oneFileService (Utf8.ofString "one\ntwo")
    let call := readCall "1" "a.go" 1 1 0
    let issuer := service.issuer .byLine (service.rowsAfter [call] [])
    let resolved (ref : CitationRef) := resolveReportDraft (fun _ => []) (some issuer)
      (some (oneCitation ref)) call.request.lineage
    resolved ⟨"ev_1", "why", "a.go", 1, 1, "one"⟩ = resolved ⟨"ev_1", "why", "b.go", 7, 9, "two"⟩ ∧
      (resolved ⟨"ev_1", "why", "a.go", 1, 1, "one"⟩).toOption.isSome := by
  intro service call issuer resolved
  exact ⟨(resolveReportDraft_ignores_locations (fun _ => []) (some issuer) call.request.lineage
    (some (oneCitation ⟨"ev_1", "why", "a.go", 1, 1, "one"⟩))
    (some (oneCitation ⟨"ev_1", "why", "b.go", 7, 9, "two"⟩)) rfl).1, by decide +kernel⟩

/-- The citation shows an item of its attempt, and the snapshot still holds what the item was
issued for. -/
structure Evidenced (service : Service) (buffering : Buffering) (rows : List Item)
    (lineage : DraftLineage) (citation : Citation) (item : Item) : Prop where
  stored : item ∈ rows ∧ item.id = citation.evidenceID
  backed : Backed (some (service.issuer buffering rows)) lineage citation.evidenceID item
  shown : (citation.filePath, citation.startLine, citation.endLine, citation.excerpt,
    citation.contentHash, citation.snapshotID, citation.codeIndexBuildID) = (item.filePath,
      item.startLine, item.endLine, item.displayExcerpt, item.rawContentHash, item.snapshotID,
      item.codeIndexBuildID)
  held : ∃ range, service.readEvidence buffering lineage.repositoryID item.snapshotID item.filePath
      item.startLine item.endLine 0 = .ok range ∧
    service.sha256.hex range.content = item.rawContentHash ∧
    range.startLine = item.startLine ∧ range.endLine = item.endLine

theorem resolve_ok {rows : List Item} {attemptID evidenceID : String} {item : Item}
    (found : resolve rows attemptID evidenceID = .ok item) : item ∈ rows ∧
      item.id = evidenceID := by
  unfold resolve getByAttemptAndID at found
  split at found
  · cases found
  · cases first : rows.find? fun item => item.attemptID == attemptID && item.id == evidenceID with
    | none =>
      simp only [first] at found
      split at found
      · split at found <;> cases found
      · cases found
    | some row =>
      simp only [first, Except.ok.injEq] at found
      subst found
      have matches_ := List.find?_some first
      simp only [Bool.and_eq_true, beq_iff_eq] at matches_
      exact ⟨List.mem_of_find?_eq_some first, matches_.2⟩

theorem verify_ok {service : Service} {buffering : Buffering} {item : Item} {lineage : DraftLineage}
    (verified : service.verify buffering item lineage = .ok ()) :
    ∃ range, service.readEvidence buffering lineage.repositoryID item.snapshotID item.filePath
        item.startLine item.endLine 0 = .ok range ∧
      service.sha256.hex range.content = item.rawContentHash ∧
      range.startLine = item.startLine ∧ range.endLine = item.endLine := by
  unfold Service.verify at verified
  simp only [bind, Except.bind, throw, throwThe, MonadExceptOf.throw, pure, Except.pure] at verified
  split at verified
  · cases verified
  split at verified
  · cases verified
  split at verified
  · cases verified
  · next range read =>
      split at verified
      · cases verified
      · next same =>
          simp only [not_or, not_not] at same
          exact ⟨range, read, same⟩

theorem resolveCitation_evidenced {service : Service} {buffering : Buffering} {rows : List Item}
    {ref : CitationRef}
    (valid : (resolveCitation (some (service.issuer buffering rows)) lineage ref).validationStatus ≠
      .invalid) :
    ∃ item, Evidenced service buffering rows lineage
      (resolveCitation (some (service.issuer buffering rows)) lineage ref) item := by
  unfold resolveCitation at valid ⊢
  cases found : evidenceFor (some (service.issuer buffering rows)) lineage
      (Utf8.trimSpace ref.evidenceID) with
  | error err => simp [found] at valid
  | ok item =>
    have backed := evidenceFor_ok_iff.mp found
    obtain ⟨_, ⟨⟩, resolved, verified⟩ := backed.vouched
    exact ⟨item, resolve_ok resolved, backed, by simp [backed.snapshot, backed.build],
      verify_ok (verified _ rfl)⟩

theorem classifyReport_valid {data : DiagnosisReportData}
    (valid : (classifyReport format (some data) true).1.status = .valid) :
    data.conclusionKind = .rootCause ∧ data.findings ≠ [] ∧ ∀ finding ∈ data.findings,
      finding.supported = true ∧ finding.count .invalid = 0 := by
  unfold classifyReport at valid
  cases accepted : validateReportStructure format data with
  | error err => simp [accepted, ReportQuality.empty] at valid
  | ok _ =>
    by_cases insufficient : data.conclusionKind = .insufficientEvidence
    · simp [accepted, insufficient, ReportQuality.empty] at valid
    · have header : validateHeader data = .ok () := by
        cases checked : validateHeader data with
        | error err => simp [validateReportStructure, checked, bind, Except.bind] at accepted
        | ok _ => rfl
      have cause : data.conclusionKind = .rootCause ∧ data.findings ≠ [] := by
        unfold validateHeader at header
        cases kind : data.conclusionKind with
        | insufficientEvidence => exact absurd kind insufficient
        | other text =>
          simp [kind, bind, Except.bind, throw, throwThe, MonadExceptOf.throw] at header
        | rootCause =>
          refine ⟨rfl, fun empty => ?_⟩
          simp [kind, empty, bind, Except.bind, throw, throwThe, MonadExceptOf.throw] at header
      simp only [accepted, insufficient, if_false] at valid
      split at valid
      · cases valid
      · next clean =>
          simp only [not_or, Nat.not_lt, Nat.le_zero, List.countP_eq_zero, List.sum_eq_zero_iff,
            List.forall_mem_map] at clean
          exact ⟨cause.1, cause.2, fun finding member =>
            ⟨by simpa using clean.1 finding member, clean.2 finding member⟩⟩

/-- Whatever a model has drafted: a resolved report is classified as VALID only if it has findings,
and each of them citations, all of items of this attempt that the snapshot still holds. -/
theorem valid_report_evidenced (format : FloatFormat) (service : Service) (buffering : Buffering)
    (rows : List Item) (lineage : DraftLineage) (draft : Option ReportDraft)
    (report : DiagnosisReportData)
    (resolved : resolveReportDraft format (some (service.issuer buffering rows)) draft lineage =
      .ok report) (valid : (classifyReport format (some report) true).1.status = .valid) :
    report.findings ≠ [] ∧ ∀ finding ∈ report.findings, finding.citations ≠ [] ∧
      ∀ citation ∈ finding.citations, citation.validationStatus = .valid ∧
        ∃ item, Evidenced service buffering rows lineage citation item := by
  obtain ⟨-, findings, each⟩ := classifyReport_valid format valid
  refine ⟨findings, fun finding member => ?_⟩
  obtain ⟨supported, clean⟩ := each finding member
  refine ⟨?_, fun citation cited => ?_⟩
  · intro empty
    simp [Finding.supported, Finding.count, empty] at supported
  · have sound : citation.validationStatus ≠ .invalid := by
      have checked := List.countP_eq_zero.mp clean citation cited
      simpa using checked
    cases draft with
    | none => cases resolved
    | some draft =>
      rw [resolveReportDraft_ok format resolved] at member
      obtain ⟨source, -, rfl⟩ := List.mem_map.mp member
      obtain ⟨ref, -, rfl⟩ := List.mem_map.mp cited
      refine ⟨?_, resolveCitation_evidenced sound⟩
      unfold resolveCitation at sound ⊢
      split
      · next failed => simp [failed] at sound
      · rfl

theorem valid_report_evidenced_one :
    let service := oneFileService (Utf8.ofString "one\ntwo")
    let call := readCall "1" "a.go" 1 1 0
    let resolved := resolveReportDraft (fun _ => [])
      (some (service.issuer .byLine (service.rowsAfter [call] [])))
      (some (oneCitation ⟨"ev_1", "why", "b.go", 7, 9, "two"⟩)) call.request.lineage
    ∃ report, resolved = .ok report ∧ ∀ finding ∈ report.findings, ∀ citation ∈ finding.citations,
      citation.validationStatus = .valid := by
  intro service call resolved
  have accepted : (match resolved with
      | .ok report => decide ((classifyReport (fun _ => []) (some report) true).1.status = .valid)
      | .error _ => false) = true := by decide +kernel
  cases same : resolved with
  | error err => simp [same] at accepted
  | ok report =>
    refine ⟨report, rfl, fun finding member citation cited => ?_⟩
    simp only [same, decide_eq_true_eq] at accepted
    exact (((valid_report_evidenced _ _ _ _ _ _ report same accepted).2 finding member).2
      citation cited).1

end Evidence

end RepoLens
