import RepoLens.ReportResolution

/-!
The structural contract of a report that was resolved from an accepted draft.
-/

namespace RepoLens

open Json

namespace Evidence

variable {format : FloatFormat} {issuer : Option Issuer} {lineage : DraftLineage}

def Sound (result : Except ReportErr Unit) : Prop :=
  result = .ok () ∨ ∃ field limit, result = .error (.tooLarge field limit)

def Plain (result : Except ReportErr Unit) : Prop :=
  ∀ err, result = .error err → ∃ text, err = .message text

theorem sound_bind_iff {first : Except ReportErr Unit} {second : Unit → Except ReportErr Unit}
    (plain : Plain first) : Sound (first >>= second) ↔ first = .ok () ∧ Sound (second ()) := by
  cases first with
  | error err =>
    obtain ⟨text, rfl⟩ := plain err rfl
    simp [Sound, bind, Except.bind]
  | ok _ => simp [bind, Except.bind]

theorem validateHeader_plain (data : DiagnosisReportData) : Plain (validateHeader data) := by
  intro err failed
  unfold validateHeader at failed
  simp only [bind, Except.bind, pure, Except.pure, throw, throwThe, MonadExceptOf.throw] at failed
  repeat' split at failed
  all_goals cases failed
  all_goals exact ⟨_, rfl⟩

theorem validateCitation_plain (citation : Citation) : Plain (validateCitation citation) := by
  intro err failed
  unfold validateCitation at failed
  split at failed
  · simp only [Except.error.injEq] at failed
    exact ⟨_, failed.symm⟩
  · cases failed

theorem forM_cons {α : Type} (check : α → Except ReportErr Unit) (head : α) (tail : List α) :
    (head :: tail).forM check = check head >>= fun _ => tail.forM check :=
  rfl

theorem forM_ok_iff {α : Type} {check : α → Except ReportErr Unit} {list : List α} :
    list.forM check = .ok () ↔ ∀ a ∈ list, check a = .ok () := by
  induction list with
  | nil => simp [pure, Except.pure]
  | cons head tail ih =>
    rw [forM_cons]
    cases checked : check head with
    | error err => simp [checked, bind, Except.bind]
    | ok _ => simpa [checked, bind, Except.bind] using ih

theorem forM_plain {α : Type} {check : α → Except ReportErr Unit} (plain : ∀ a, Plain (check a))
    (list : List α) : Plain (list.forM check) := by
  induction list with
  | nil =>
    intro err failed
    cases failed
  | cons head tail ih =>
    intro err failed
    rw [forM_cons] at failed
    cases checked : check head with
    | error err_ =>
      simp only [checked, bind, Except.bind, Except.error.injEq] at failed
      exact plain head err (failed ▸ checked)
    | ok _ =>
      simp only [checked, bind, Except.bind] at failed
      exact ih err failed

def Finding.WellFormed (title reasoning : String) (citations : Nat) : Prop :=
  ¬ (isBlank title ∨ isBlank reasoning) ∧
    ¬ (2 * 1024 < len title ∨ 8 * 1024 < len reasoning ∨ 16 < citations)

theorem validateFinding_of_wellFormed {finding : Finding}
    (wellFormed : Finding.WellFormed finding.title finding.reasoning finding.citations.length) :
    validateFinding finding = finding.citations.forM validateCitation := by
  unfold validateFinding
  rw [if_neg wellFormed.1]
  simp only [if_neg wellFormed.2]

theorem validateFinding_of_not_wellFormed {finding : Finding}
    (malformed : ¬ Finding.WellFormed finding.title finding.reasoning finding.citations.length) :
    ∃ text, validateFinding finding = .error (.message text) := by
  unfold validateFinding
  by_cases blank : isBlank finding.title ∨ isBlank finding.reasoning
  · rw [if_pos blank]
    exact ⟨_, rfl⟩
  · rw [if_neg blank]
    have long := not_and_not_right.mp malformed blank
    simp only [if_pos long]
    exact ⟨_, rfl⟩

theorem validateFinding_ok_iff {finding : Finding} :
    validateFinding finding = .ok () ↔
      Finding.WellFormed finding.title finding.reasoning finding.citations.length ∧
        ∀ citation ∈ finding.citations, validateCitation citation = .ok () := by
  by_cases wellFormed : Finding.WellFormed finding.title finding.reasoning finding.citations.length
  · rw [validateFinding_of_wellFormed wellFormed, forM_ok_iff]
    simp [wellFormed]
  · obtain ⟨text, failed⟩ := validateFinding_of_not_wellFormed wellFormed
    simp [failed, wellFormed]

theorem validateFinding_plain (finding : Finding) : Plain (validateFinding finding) := by
  intro err failed
  by_cases wellFormed : Finding.WellFormed finding.title finding.reasoning finding.citations.length
  · rw [validateFinding_of_wellFormed wellFormed] at failed
    exact forM_plain validateCitation_plain finding.citations err failed
  · obtain ⟨text, message⟩ := validateFinding_of_not_wellFormed wellFormed
    rw [message, Except.error.injEq] at failed
    exact ⟨text, failed.symm⟩

theorem sound_validateReportStructure_iff {data : DiagnosisReportData} :
    Sound (validateReportStructure format data) ↔
      validateHeader data = .ok () ∧
        (∀ finding ∈ data.findings, validateFinding finding = .ok ()) ∧
        ∃ serialized, data.marshal format = .ok serialized := by
  unfold validateReportStructure
  rw [sound_bind_iff (validateHeader_plain data),
    sound_bind_iff (forM_plain validateFinding_plain data.findings), forM_ok_iff]
  apply and_congr_right'
  apply and_congr_right'
  cases data.marshal format with
  | error err => simp [Sound, throw, throwThe, MonadExceptOf.throw]
  | ok serialized =>
    simp only [Except.ok.injEq, exists_eq', iff_true]
    unfold validateReportBytes
    split
    · exact .inr ⟨_, _, rfl⟩
    · exact .inl rfl

theorem validateHeader_findings (draft : ReportDraft) {first second : List Finding}
    (size : first.length = second.length) :
    validateHeader (draft.data first) = validateHeader (draft.data second) := by
  cases first with
  | nil => rw [List.length_eq_zero_iff.mp size.symm]
  | cons _ first =>
    cases second with
    | nil => cases size
    | cons _ second =>
      rw [List.length_cons, List.length_cons, Nat.add_right_cancel_iff] at size
      unfold validateHeader ReportDraft.data
      simp only [List.length_cons, size, reduceCtorEq]

theorem marshal_findings (draft : ReportDraft) (first second : List Finding) :
    (∃ serialized, (draft.data first).marshal format = .ok serialized) →
      ∃ serialized, (draft.data second).marshal format = .ok serialized := by
  unfold DiagnosisReportData.marshal ReportDraft.data
  cases draft.modelClaimedConfidence.or draft.legacyConfidence with
  | none => exact fun _ => ⟨_, rfl⟩
  | some value =>
    cases value <;> simp [Float64.json, Except.map, bind, Except.bind, pure, Except.pure]

theorem validateCitation_resolved_iff {ref : CitationRef}
    (bare : validateCitation ref.bare = .ok ()) :
    validateCitation (resolveCitation issuer lineage ref) = .ok () ↔
      ∀ item, Backed issuer lineage (Utf8.trimSpace ref.evidenceID) item →
        len item.filePath ≤ 512 ∧ item.displayExcerpt.length ≤ 32 * 1024 := by
  have reason : ¬ 2 * 1024 < len ref.bare.reason := by
    intro long
    unfold validateCitation at bare
    rw [if_pos (.inr (.inr long))] at bare
    cases bare
  unfold validateCitation resolveCitation
  cases found : evidenceFor issuer lineage (Utf8.trimSpace ref.evidenceID) with
  | error err =>
    have none : ∀ item, ¬ Backed issuer lineage (Utf8.trimSpace ref.evidenceID) item := by
      intro item backed
      rw [evidenceFor_ok_iff.mpr backed] at found
      cases found
    simp only [reason, or_false]
    simp [CitationRef.bare, len, byteLength, none]
  | ok item =>
    have only : ∀ other, Backed issuer lineage (Utf8.trimSpace ref.evidenceID) other ↔
        other = item := by
      intro other
      rw [← evidenceFor_ok_iff, found, Except.ok.injEq, eq_comm]
    simp only [reason, or_false, only, forall_eq]
    by_cases long : 512 < len item.filePath ∨ 32 * 1024 < item.displayExcerpt.length
    · rw [if_pos long]
      simp only [reduceCtorEq, false_iff]
      omega
    · rw [if_neg long]
      simp only [true_iff]
      omega

theorem resolveReportDraft_accepted {draft : ReportDraft}
    (accepted : validateReportDraftStructure format draft = .ok ()) :
    resolveReportDraft format issuer (some draft) lineage =
      .ok (draft.data (draft.findingsBy (resolveCitation issuer lineage))) := by
  simp only [resolveReportDraft, accepted]
  rfl

def ReportDraft.ItemsFit (issuer : Option Issuer) (lineage : DraftLineage) (draft : ReportDraft) :
    Prop :=
  ∀ finding ∈ draft.findings, ∀ ref ∈ finding.citations, ∀ item,
    Backed issuer lineage (Utf8.trimSpace ref.evidenceID) item →
      len item.filePath ≤ 512 ∧ item.displayExcerpt.length ≤ 32 * 1024

/-- The report of an accepted draft meets the structural contract, up to its whole size,
exactly when the items that it cites fit. -/
theorem resolved_report_sound_iff (format : FloatFormat) (issuer : Option Issuer)
    (lineage : DraftLineage) (draft : ReportDraft)
    (accepted : validateReportDraftStructure format draft = .ok ()) :
    (∃ report, resolveReportDraft format issuer (some draft) lineage = .ok report ∧
      Sound (validateReportStructure format report)) ↔
      draft.ItemsFit issuer lineage := by
  have report := @resolveReportDraft_accepted format issuer lineage draft accepted
  obtain ⟨header, findings, serialized⟩ := sound_validateReportStructure_iff.mp (.inl accepted)
  rw [@validateHeader_findings draft _ (draft.findingsBy (resolveCitation issuer lineage))
    (by simp [ReportDraft.findingsBy])] at header
  have written := marshal_findings draft _ (draft.findingsBy (resolveCitation issuer lineage))
    serialized
  simp only [report, Except.ok.injEq, exists_eq_left', sound_validateReportStructure_iff, header,
    written, true_and, and_true]
  simp only [ReportDraft.data, ReportDraft.findingsBy, List.forall_mem_map, validateFinding_ok_iff,
    List.length_map] at findings ⊢
  apply forall₂_congr
  intro finding among
  obtain ⟨shape, bare⟩ := findings finding among
  simp only [shape, true_and]
  apply forall₂_congr
  intro ref member
  exact validateCitation_resolved_iff (bare ref member)

def refTo (evidenceID : String) : CitationRef := ⟨evidenceID, "why", "", 0, 0, ""⟩

theorem resolved_report_sound_iff_short :
    let service := oneFileService (Utf8.ofString "one\ntwo")
    let call := readCall "1" "a.go" 1 1 0
    let issuer := some (service.issuer .byLine (service.rowsAfter [call] []))
    ∃ report, resolveReportDraft (fun _ => []) issuer (some (oneCitation (refTo "ev_1")))
        call.request.lineage = .ok report ∧
      Sound (validateReportStructure (fun _ => []) report) := by
  intro service call issuer
  apply (resolved_report_sound_iff (fun _ => []) issuer call.request.lineage
    (oneCitation (refTo "ev_1")) (by decide +kernel)).mpr
  have sizes : (evidenceFor issuer call.request.lineage (Utf8.trimSpace "ev_1")).map
      (fun item => (len item.filePath, item.displayExcerpt.length)) = .ok (4, 3) := by
    decide +kernel
  intro finding among ref member item backed
  simp only [oneCitation, List.mem_singleton] at among
  subst among
  rw [List.mem_singleton] at member
  subst member
  rw [show (refTo "ev_1").evidenceID = "ev_1" from rfl] at backed
  rw [evidenceFor_ok_iff.mpr backed] at sizes
  simp only [Except.map, Except.ok.injEq, Prod.mk.injEq] at sizes
  omega

def paddedSecret (padding : Nat) : Utf8.Text :=
  List.replicate padding (.char 'x') ++ Utf8.chars "\npassword=12345678"

theorem encode_replicate (n : Nat) :
    Utf8.encode (List.replicate n (.char 'x')) = List.replicate n 120 := by
  induction n with
  | zero => rfl
  | succ n ih =>
    rw [List.replicate_succ, Utf8.encode_cons, ih]
    rfl

theorem paddedSecret_lines (n : Nat) :
    (Utf8.encode (paddedSecret n)).splitOn newline =
      [List.replicate n 120, Utf8.ofString "password=12345678"] := by
  rw [paddedSecret, Utf8.encode_append, encode_replicate, Lines.splitOn_append_of_notMem newline]
  · have rest : (Utf8.encode (Utf8.chars "\npassword=12345678")).splitOn newline =
        [[], Utf8.ofString "password=12345678"] := by
      decide +kernel
    rw [rest]
    simp
  · intro member
    have same := List.eq_of_mem_replicate member
    exact absurd same (by decide)

theorem paddedSecret_redacted {n : Nat} (some : 0 < n) :
    (redactSecrets (Utf8.encode (paddedSecret n))).length = n + 27 := by
  have whole : Redaction.Whole (paddedSecret n) := by
    apply Redaction.Whole.append _ (Redaction.whole_chars _)
    intro rune member
    exact ⟨'x', List.eq_of_mem_replicate member⟩
  have inert : ∀ rune ∈ List.replicate n (Utf8.Rune.char 'x'), Redaction.Inert rune := by
    intro rune member
    rw [List.eq_of_mem_replicate member]
    decide +kernel
  have behind : Redaction.passes.foldl (fun text pass =>
        Regex.replaceFrom Redaction.word pass.1 pass.2 0 (Option.some (.char 'x')) text)
      (Utf8.chars "\npassword=12345678") = Utf8.chars "\npassword=[REDACTED_SECRET]" := by
    decide +kernel
  have last : (List.replicate n (Utf8.Rune.char 'x')).getLast? = Option.some (.char 'x') := by
    rw [List.getLast?_replicate, if_neg some.ne']
  rw [(redactSecrets_encode whole).1, paddedSecret, Redaction.redactText_inert inert, last, behind,
    Utf8.encode_append, encode_replicate, List.length_append, List.length_replicate]
  have marker : (Utf8.encode (Utf8.chars "\npassword=[REDACTED_SECRET]")).length = 27 := by
    decide +kernel
  omega

def packetCall : IssueCall where
  request := ⟨"attempt", "run", "repo", "snap", 1, .initialRetrieval, 0, "", "a.go", 1, 80,
    32 * 1024⟩
  id := "1"
  now := 0
  buffering := .byLine
  faults := .none

theorem packetCall_item (n : Nat) (fits : n + 18 ≤ 32 * 1024) :
    let service := oneFileService (Utf8.encode (paddedSecret n))
    ∃ item, item.displayExcerpt = redactSecrets (Utf8.encode (paddedSecret n)) ∧
      evidenceFor (some (service.issuer .byLine (service.rowsAfter [packetCall] [])))
        packetCall.request.lineage "ev_1" = .ok item := by
  intro service
  have lines := paddedSecret_lines n
  have chosen : packetCall.request.query.selection
      [List.replicate n 120, Utf8.ofString "password=12345678"] =
        [List.replicate n 120, Utf8.ofString "password=12345678"] := rfl
  have text : Lines.join newline [List.replicate n 120, Utf8.ofString "password=12345678"] =
      Utf8.encode (paddedSecret n) := by
    rw [← lines, Lines.join, List.intercalate_splitOn]
  have size : (Utf8.encode (paddedSecret n)).length = n + 18 := by
    rw [paddedSecret, Utf8.encode_append, encode_replicate, List.length_append,
      List.length_replicate]
    have rest : (Utf8.encode (Utf8.chars "\npassword=12345678")).length = 18 := by decide +kernel
    omega
  have all : packetCall.request.query.taken
      [List.replicate n 120, Utf8.ofString "password=12345678"] =
        [List.replicate n 120, Utf8.ofString "password=12345678"] := by
    rw [RangeQuery.taken, chosen]
    apply Lines.fitting_eq_of_length
    apply Lines.length_le_fitting newline List.prefix_rfl
    rw [text, size]
    right
    simp only [packetCall, IssueRequest.query]
    omega
  unfold service
  generalize Utf8.encode (paddedSecret n) = content at *
  have fetched : (oneFileService content).fetch packetCall.buffering packetCall.request =
      .ok (packetCall.request.query.found "a.go" (content.splitOn newline)) := by
    apply Service.fetch_ok_iff.mpr
    refine ⟨⟨rfl, rfl⟩, content, oneFileService_content content, ⟨⟨by decide, by decide⟩, ?_⟩, ?_⟩
    · rw [lines, all]
      exact List.cons_ne_nil _ _
    · rfl
  have stored : (oneFileService content).rowsAfter [packetCall] [] =
      [(oneFileService content).newItem packetCall
        (packetCall.request.query.found "a.go" (content.splitOn newline))] := by
    simp only [Service.rowsAfter, Service.issue, fetched]
    rfl
  rw [stored]
  refine ⟨(oneFileService content).newItem packetCall
    (packetCall.request.query.found "a.go" (content.splitOn newline)), ?_, ?_⟩
  · simp only [Service.newItem, RangeQuery.found, lines, all, text]
  · apply evidenceFor_ok_iff.mpr
    refine ⟨by decide, ⟨_, rfl, rfl, ?_⟩, rfl, rfl, rfl, rfl⟩
    rintro verify ⟨rfl⟩
    exact Service.verify_ok fetched rfl rfl .byLine rfl rfl rfl rfl rfl

theorem oneCitation_invalid {format : FloatFormat} {ref : CitationRef}
    {cite : CitationRef → Citation}
    {err : ReportErr} (failed : validateCitation (cite ref) = .error err) :
    validateReportStructure format ((oneCitation ref).data ((oneCitation ref).findingsBy cite)) =
      .error err := by
  have header : validateHeader ((oneCitation ref).data ((oneCitation ref).findingsBy cite)) =
      .ok () := by
    have same : validateHeader ((oneCitation ref).data [⟨"", "", []⟩]) =
        validateHeader ((oneCitation (refTo "")).data [⟨"", "", []⟩]) := rfl
    rw [@validateHeader_findings (oneCitation ref) ((oneCitation ref).findingsBy cite)
      [⟨"", "", []⟩] rfl, same]
    decide +kernel
  have finding : validateFinding ⟨"title", "reasoning", [cite ref]⟩ = .error err := by
    have wellFormed : Finding.WellFormed "title" "reasoning" 1 := by
      unfold Finding.WellFormed
      decide +kernel
    rw [@validateFinding_of_wellFormed ⟨"title", "reasoning", [cite ref]⟩ wellFormed, forM_cons,
      failed]
    rfl
  unfold validateReportStructure
  rw [header]
  simp only [oneCitation, ReportDraft.data, ReportDraft.findingsBy, List.map_cons, List.map_nil,
    forM_cons, finding]
  rfl

theorem refTo_accepted :
    validateReportDraftStructure (fun _ => []) (oneCitation (refTo "ev_1")) = .ok () := by
  decide +kernel

theorem resolveCitation_too_long {item : Item}
    (found : evidenceFor issuer lineage "ev_1" = .ok item)
    (long : 32 * 1024 < item.displayExcerpt.length) :
    validateCitation (resolveCitation issuer lineage (refTo "ev_1")) =
      .error (.message "citation exceeds the configured limit") := by
  have trimmed : Utf8.trimSpace (refTo "ev_1").evidenceID = "ev_1" := by decide +kernel
  simp only [validateCitation, resolveCitation, trimmed, found]
  rw [if_pos (.inr (.inl long))]

/-- 32750 characters and a line with a secret fill the packet budget of 32 KiB; the excerpt
that they are shown as is 9 bytes too long for a citation. -/
theorem packet_excerpt_too_long :
    let service := oneFileService (Utf8.encode (paddedSecret 32750))
    let issuer := some (service.issuer .byLine (service.rowsAfter [packetCall] []))
    let draft := oneCitation (refTo "ev_1")
    validateReportDraftStructure (fun _ => []) draft = .ok () ∧
      ∃ report, resolveReportDraft (fun _ => []) issuer (some draft) packetCall.request.lineage =
          .ok report ∧
        validateReportStructure (fun _ => []) report =
          .error (.message "citation exceeds the configured limit") := by
  intro service issuer draft
  obtain ⟨item, excerpt, found⟩ := packetCall_item 32750 (by decide)
  have long : 32 * 1024 < item.displayExcerpt.length := by
    rw [excerpt, paddedSecret_redacted (by decide)]
    decide
  exact ⟨refTo_accepted, _, resolveReportDraft_accepted refTo_accepted,
    oneCitation_invalid (resolveCitation_too_long found long)⟩

end Evidence

end RepoLens
