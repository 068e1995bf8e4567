import RepoLens.ToolResults

/-!
The `search_code` tool of `internal/tools`. Before it issues evidence for its results it
reserves the space of their rows, marshalled with placeholders, and divides what is left
of the budget among the excerpts.
-/

namespace RepoLens

open Json

namespace Evidence

structure ExpansionReason where
  seedSymbolKeyHash : String
  seedSymbol : String
  seedBM25Rank : Int
  relationType : String
  direction : String
  resolutionKind : String
  confidence : Float64
  reasonCode : String
  reason : String

structure ExpansionResultTrace where
  symbolKeyHash : String
  symbol : String
  path : String
  baseBM25Rank : Int
  expanded : Bool
  effectiveRank : Int
  finalRank : Int
  bestSeed : Option ExpansionReason
  reasons : List ExpansionReason

structure SearchResult where
  chunkID : String
  evidenceID : String
  path : String
  language : String
  symbol : String
  startLine : Int
  endLine : Int
  snippet : Bytes
  score : Float64
  retrievalSource : String
  matchedTerms : List String
  symbolKeys : List String
  retrievalReason : String
  structuralV2 : Option ExpansionResultTrace

section Marshalling

variable (format : FloatFormat)

def ExpansionReason.json (reason : ExpansionReason) : Except String Value := do
  let confidence ← reason.confidence.json format
  return .object [("seed_symbol_key_hash", .ofString reason.seedSymbolKeyHash),
    ("seed_symbol", .ofString reason.seedSymbol), ("seed_bm25_rank", .ofInt reason.seedBM25Rank),
    ("relation_type", .ofString reason.relationType), ("direction", .ofString reason.direction),
    ("resolution_kind", .ofString reason.resolutionKind), ("confidence", confidence),
    ("reason_code", .ofString reason.reasonCode), ("reason", .ofString reason.reason)]

def ExpansionResultTrace.json (trace : ExpansionResultTrace) : Except String Value := do
  let bestSeed ← trace.bestSeed.mapM (·.json format)
  let reasons ← trace.reasons.mapM (·.json format)
  return .object ([("symbol_key_hash", .ofString trace.symbolKeyHash),
      ("symbol", .ofString trace.symbol), ("path", .ofString trace.path)] ++
    omitEmpty "base_bm25_rank" (trace.baseBM25Rank == 0) (.ofInt trace.baseBM25Rank) ++
    [("expanded", .bool trace.expanded), ("effective_rank", .ofInt trace.effectiveRank),
      ("final_rank", .ofInt trace.finalRank)] ++
    (bestSeed.map fun seed => ("best_seed", seed)).toList ++
    omitEmpty "expansion_reasons" reasons.isEmpty (.array reasons))

namespace SearchResult

def strings (texts : List String) : Value := .array (texts.map .ofString)

def fields (result : SearchResult) (score : Value) (trace : Option Value) : List (String × Value) :=
  [("chunk_id", .ofString result.chunkID)] ++
    omitEmptyString "evidence_id" result.evidenceID ++
    [("path", .ofString result.path), ("language", .ofString result.language)] ++
    omitEmptyString "symbol" result.symbol ++
    [("start_line", .ofInt result.startLine), ("end_line", .ofInt result.endLine),
      ("snippet", .string (Utf8.decode result.snippet)), ("score", score),
      ("retrieval_source", .ofString result.retrievalSource)] ++
    omitEmpty "matched_terms" result.matchedTerms.isEmpty (strings result.matchedTerms) ++
    omitEmpty "symbol_keys" result.symbolKeys.isEmpty (strings result.symbolKeys) ++
    omitEmptyString "retrieval_reason" result.retrievalReason ++
    (trace.map fun trace => ("structural_v2", trace)).toList

def json (result : SearchResult) : Except String Value := do
  let score ← result.score.json format
  let trace ← result.structuralV2.mapM (·.json format)
  return .object (result.fields score trace)

def place (result : SearchResult) (evidenceID : String) (startLine endLine : Int)
    (snippet : Bytes) :
    SearchResult :=
  { result with evidenceID, startLine, endLine, snippet }

def attach (result : SearchResult) (item : Item) : SearchResult :=
  result.place item.id item.startLine item.endLine item.displayExcerpt

def reserve (snippet : Bytes) (result : SearchResult) : SearchResult :=
  result.place (String.ofList (List.replicate 64 'e')) result.startLine result.endLine snippet

end SearchResult

def marshalIndent (results : List SearchResult) : Except String (List Char) := do
  let values ← results.mapM (·.json format)
  return (Value.array values).indent 0

def fits (maxBytes : Int) (results : List SearchResult) : Bool :=
  match marshalIndent format results with
  | .error _ => false
  | .ok encoded => byteLength encoded ≤ maxBytes

def repeatX (n : Nat) : Bytes := Utf8.ofString (String.ofList (List.replicate n 'x'))

/-- The first loop of `searchResultsWithinEvidenceBudget`. -/
def reserveRows (maxBytes : Int) : List SearchResult → List SearchResult × List SearchResult →
    List SearchResult × List SearchResult
  | [], rows => rows
  | result :: results, (accepted, budgeted) =>
    let candidate := budgeted ++ [result.reserve (repeatX 1)]
    if fits format maxBytes candidate then
      reserveRows maxBytes results (accepted ++ [result], candidate)
    else (accepted, budgeted)

/-- The second loop, which gives rows up from the end. -/
def shareRest (maxBytes : Int) :
    Nat → List SearchResult → List SearchResult → List SearchResult × Int
  | 0, _, _ => ([], 0)
  | n + 1, accepted, budgeted =>
    match marshalIndent format budgeted with
    | .error _ => ([], 0)
    | .ok base =>
      let itemMaxBytes := (maxBytes - byteLength base).tdiv (budgeted.length * 6)
      if itemMaxBytes < 1 then shareRest maxBytes n accepted.dropLast budgeted.dropLast
      else
        let budgeted := budgeted.map fun row =>
          { row with snippet := repeatX (itemMaxBytes.toNat * 6) }
        if fits format maxBytes budgeted then (accepted, itemMaxBytes)
        else shareRest maxBytes n accepted.dropLast budgeted.dropLast

def searchResultsWithinEvidenceBudget (results : List SearchResult) (maxBytes : Int) :
    List SearchResult × Int :=
  if maxBytes ≤ 0 then (results, maxBytes)
  else
    let rows := reserveRows format maxBytes results ([], [])
    shareRest format maxBytes rows.1.length rows.1 rows.2

end Marshalling

structure SearchRequest where
  snapshotID : String
  codeIndexBuildID : Int
  retrievalBuildID : Int
  query : String
  topK : Int

structure SearchCodeArgs where
  query : String
  topK : Option Int

abbrev IssueAnswers := Nat → IssueRequest → Except EvidenceErr (Option Item)

structure SearchCodeTool where
  retriever : SearchRequest → Except String (List SearchResult)
  snapshotID : String
  codeIndexBuildID : Int
  retrievalBuildID : Int
  repositoryID : String
  evidence : Option IssueAnswers
  attemptID : String
  runID : String
  maxBytes : Int
  format : FloatFormat

/-- What `Execute` returns, and the evidence it has asked for. -/
structure SearchOutcome where
  issued : List IssueRequest
  result : Except ToolErr Bytes

def noMatches : Bytes := Utf8.ofString "No code matches found for the query."

namespace SearchCodeTool

variable (tool : SearchCodeTool)

def issueRequest (result : SearchResult) (itemMaxBytes : Int) : IssueRequest :=
  ⟨tool.attemptID, tool.runID, tool.repositoryID, tool.snapshotID, tool.codeIndexBuildID,
    .searchCode, 0,
    result.chunkID, result.path, result.startLine, result.endLine, itemMaxBytes⟩

/-- The loop over the kept results. -/
def issueAll (issue : IssueAnswers) (itemMaxBytes : Int) :
    Nat → List SearchResult → List IssueRequest × Except ToolErr (List SearchResult)
  | _, [] => ([], .ok [])
  | i, result :: results =>
    if result.path = "" then
      let rest := issueAll issue itemMaxBytes (i + 1) results
      (rest.1, rest.2.map (result :: ·))
    else
      let request := tool.issueRequest result itemMaxBytes
      match issue i request with
      | .error err => ([request], if i = 0 then .error (.issue err) else .ok [])
      | .ok none => ([request],
          if i = 0 then .error (.message "evidence issuer returned an empty item") else .ok [])
      | .ok (some item) =>
        let rest := issueAll issue itemMaxBytes (i + 1) results
        (request :: rest.1, rest.2.map (result.attach item :: ·))

/-- The end of `Execute`. -/
def marshal (results : List SearchResult) : Except ToolErr Bytes :=
  match marshalIndent tool.format results with
  | .error err => .error (.message err)
  | .ok text => .ok (Utf8.encode (text.map .char))

def eligible (results : List SearchResult) : List SearchResult :=
  results.filter fun result => result.path != ""

def withEvidence (issue : IssueAnswers) (results : List SearchResult) : SearchOutcome :=
  let maxBytes := if tool.maxBytes ≤ 0 then 24 * 1024 else tool.maxBytes
  let results := eligible results
  if results = [] then ⟨[], .ok noMatches⟩
  else
    let (results, itemMaxBytes) := searchResultsWithinEvidenceBudget tool.format results maxBytes
    if results = [] then ⟨[], .ok noMatches⟩
    else
      let (issued, results) := tool.issueAll issue itemMaxBytes 0 results
      ⟨issued, results.bind tool.marshal⟩

def execute (args : Except String SearchCodeArgs) : SearchOutcome :=
  match args with
  | .error err => ⟨[], .error (.message ("invalid arguments for search_code: " ++ err))⟩
  | .ok args =>
    let topK := args.topK.getD 5
    if topK < 1 ∨ 20 < topK then ⟨[], .error (.message "top_k must be between 1 and 20")⟩
    else
      match tool.retriever ⟨tool.snapshotID, tool.codeIndexBuildID, tool.retrievalBuildID,
        args.query,
          topK⟩ with
      | .error err => ⟨[], .error (.message ("retrieval failed: " ++ err))⟩
      | .ok results =>
        if results = [] then ⟨[], .ok noMatches⟩
        else
          let results := results.take topK.toNat
          match tool.evidence with
          | some issue => tool.withEvidence issue results
          | none => ⟨[], tool.marshal results⟩

end SearchCodeTool

variable {text : List Char}

section Sizes
variable {results : List SearchResult}

variable (format : FloatFormat)

-- The row of a result stands at depth one of the marshalled list.
def SearchResult.size (result : SearchResult) : Nat :=
  match result.json format with
  | .error _ => 0
  | .ok value => byteLength (value.indent 1)

def rowsSize (results : List SearchResult) : Nat :=
  (results.map fun result => 4 + result.size format).sum

@[simp] theorem rowsSize_nil : rowsSize format [] = 0 := rfl

@[simp] theorem rowsSize_cons (result : SearchResult) (results : List SearchResult) :
    rowsSize format (result :: results) = 4 + result.size format + rowsSize format results := by
  simp [rowsSize]

variable {format}

theorem itemsSize_json {values : List Value}
    (marshalled : results.mapM (·.json format) = .ok values) :
    itemsSize 1 values = rowsSize format results ∧ values.length = results.length := by
  induction results generalizing values with
  | nil =>
    cases marshalled
    exact ⟨rfl, rfl⟩
  | cons result results ih =>
    rw [List.mapM_cons] at marshalled
    cases encoded : result.json format with
    | error err => simp [encoded, bind, Except.bind] at marshalled
    | ok value =>
      cases more : results.mapM (·.json format) with
      | error err => simp [encoded, more, bind, Except.bind] at marshalled
      | ok rest =>
        obtain rfl : value :: rest = values := by
          simpa [encoded, more, bind, Except.bind, pure, Except.pure] using marshalled
        obtain ⟨size, length⟩ := ih more
        have depth : byteLength (newLine 1) = 3 := by decide
        simp [itemsSize, size, SearchResult.size, encoded, depth, length]

theorem byteLength_marshalIndent (marshalled : marshalIndent format results = .ok text) :
    byteLength text ≤ 2 + rowsSize format results ∧
      (results ≠ [] → byteLength text = 2 + rowsSize format results) := by
  simp only [marshalIndent] at marshalled
  cases encoded : results.mapM (·.json format) with
  | error err => simp [encoded, bind, Except.bind] at marshalled
  | ok values =>
    obtain rfl : (Value.array values).indent 0 = text := by
      simpa [encoded, bind, Except.bind, pure, Except.pure] using marshalled
    obtain ⟨size, length⟩ := itemsSize_json encoded
    have depth : byteLength (newLine 0) = 1 := by decide
    cases values with
    | nil =>
      obtain rfl : results = [] := List.eq_nil_of_length_eq_zero length.symm
      have two : byteLength ((Value.array []).indent 0) = 2 := by decide
      exact ⟨by simp [two], fun some_ => absurd rfl some_⟩
    | cons value values =>
      rw [byteLength_indent_array 0 (List.cons_ne_nil _ _), size, depth]
      exact ⟨le_rfl, fun _ => rfl⟩

-- Only the id, the lines and the snippet of a row depend on the evidence.
theorem size_place_le (result : SearchResult) (startLine : Int) {id other : String}
    {endLine otherEnd : Int} {snippet otherSnippet : Bytes}
    (ids : fieldsSize 2 (omitEmptyString "evidence_id" id) ≤
      fieldsSize 2 (omitEmptyString "evidence_id" other))
    (ends : byteLength ((Value.ofInt endLine).indent 2) ≤
      byteLength ((Value.ofInt otherEnd).indent 2))
    (snippets : byteLength (escapes (Utf8.decode snippet)) ≤
      byteLength (escapes (Utf8.decode otherSnippet))) :
    (result.place id startLine endLine snippet).size format ≤
      (result.place other startLine otherEnd otherSnippet).size format := by
  simp only [SearchResult.size, SearchResult.json, SearchResult.place]
  cases result.score.json format with
  | error err => simp [bind, Except.bind]
  | ok score =>
    cases result.structuralV2.mapM (·.json format) with
    | error err => simp [bind, Except.bind]
    | ok trace =>
      simp only [bind, Except.bind, pure, Except.pure]
      rw [byteLength_indent_object 1 (by simp [SearchResult.fields]),
        byteLength_indent_object 1 (by simp [SearchResult.fields])]
      simp only [SearchResult.fields, fieldsSize_append, fieldsSize, Value.indent, quoted,
        byteLength_cons, byteLength_append, Nat.reduceAdd] at *
      omega

end Sizes

def plainASCII (c : Char) : Bool :=
  decide (0x20 ≤ c.toNat ∧ c.toNat < 0x7f) && "\"\\<>&".toList.all (· != c)

theorem escape_plain {c : Char} (plain : plainASCII c = true) : escape (.char c) = [c] := by
  simp [plainASCII] at plain
  obtain ⟨⟨low, high⟩, quote, backslash, less, greater, amp⟩ := plain
  have other : ∀ d : Char, d.toNat < 0x20 ∨ 0x7f ≤ d.toNat → c ≠ d := by
    rintro d out rfl
    omega
  simp [escape, Ne.symm quote, Ne.symm backslash, Ne.symm less, Ne.symm greater, Ne.symm amp,
    other '\x08' (by decide), other '\x0c' (by decide), other '\n' (by decide),
    other '\r' (by decide), other '\t' (by decide), other '\u2028' (by decide),
    other '\u2029' (by decide), Nat.not_lt.mpr low]

theorem escapes_plain (plain : text.all plainASCII = true) :
    escapes (text.map .char) = text := by
  induction text with
  | nil => rfl
  | cons c text ih =>
    simp only [List.all_cons, Bool.and_eq_true] at plain
    have printed : escape (.char c) = [c] := escape_plain plain.1
    simp only [escapes, List.map_cons, List.flatMap_cons, printed] at ih ⊢
    rw [ih plain.2]
    rfl

theorem byteLength_escapes_repeatX (n : Nat) :
    byteLength (escapes (Utf8.decode (repeatX n))) = n := by
  have plain : (List.replicate n 'x').all plainASCII = true := by
    have x : plainASCII 'x' = true := by decide
    simp [x]
  have text : Utf8.decode (repeatX n) = (List.replicate n 'x').map .char := by
    rw [repeatX, Utf8.ofString, Utf8.chars, String.toList_ofList, Utf8.decode_encode]
  rw [text, escapes_plain plain, byteLength_ascii, List.length_replicate]
  simp +contextual [List.mem_replicate]

theorem ascii_of_plain (plain : text.all plainASCII = true) :
    ∀ c ∈ text, c.toNat < 128 := by
  intro c member
  have printed := List.all_eq_true.mp plain c member
  simp [plainASCII] at printed
  omega

-- The id takes no more space than the placeholder.
theorem fieldsSize_evidenceID {id : String} (short : id.length ≤ 64)
    (plain : id.toList.all plainASCII = true) :
    fieldsSize 2 (omitEmptyString "evidence_id" id) ≤
      fieldsSize 2 (omitEmptyString "evidence_id" (String.ofList (List.replicate 64 'e'))) := by
  by_cases empty : id = ""
  · subst empty
    exact Nat.zero_le _
  · have reserved :
        byteLength ((Value.ofString (String.ofList (List.replicate 64 'e'))).indent 2) = 66 := by
      decide +kernel
    have nonempty : (String.ofList (List.replicate 64 'e') == "") = false := by decide +kernel
    have size : byteLength ((Value.ofString id).indent 2) ≤ 66 := by
      have quote : '"'.utf8Size = 1 := by decide
      simp only [Value.ofString, Value.indent, quoted, Utf8.chars, escapes_plain plain,
        byteLength_cons, byteLength_append, byteLength_nil, byteLength_ascii (ascii_of_plain plain),
        quote, String.length_toList]
      omega
    simp only [omitEmptyString, omitEmpty, nonempty, beq_eq_false_iff_ne.mpr empty]
    simp only [Bool.false_eq_true, if_false, fieldsSize, reserved]
    omega

theorem byteLength_ofInt_le {n m : Int} (nonneg : 0 ≤ n) (le : n ≤ m) :
    byteLength ((Value.ofInt n).indent 2) ≤ byteLength ((Value.ofInt m).indent 2) := by
  obtain ⟨n, rfl⟩ := Int.eq_ofNat_of_zero_le nonneg
  obtain ⟨m, rfl⟩ := Int.eq_ofNat_of_zero_le (nonneg.trans le)
  change byteLength (Value.ofInt n).encode ≤ byteLength (Value.ofInt m).encode
  rw [byteLength_ofInt, byteLength_ofInt]
  change n.repr.length ≤ m.repr.length
  have pos : 0 < m.repr.length := by
    rw [← String.length_toList, Nat.toList_repr]
    exact Nat.length_toDigits_pos
  rw [Nat.length_repr_le_iff pos]
  have := (Nat.length_repr_le_iff pos).mp le_rfl
  omega

section Budget
variable {kept : List SearchResult} {format : FloatFormat} {maxBytes : Int}
-- Both lists of the loops stay in step.
theorem reserveRows_spec (results accepted : List SearchResult) :
    ∃ kept, kept <+: results ∧
      reserveRows format maxBytes results (accepted, accepted.map (·.reserve (repeatX 1))) =
        (accepted ++ kept, (accepted ++ kept).map (·.reserve (repeatX 1))) := by
  induction results generalizing accepted with
  | nil => exact ⟨[], List.nil_prefix, by simp [reserveRows]⟩
  | cons result results ih =>
    simp only [reserveRows]
    split
    · obtain ⟨kept, leading, same⟩ := ih (accepted ++ [result])
      refine ⟨result :: kept, List.cons_prefix_cons.mpr ⟨rfl, leading⟩, ?_⟩
      simpa using same
    · exact ⟨[], List.nil_prefix, by simp⟩

/-- What the second loop promises of the rows that it keeps. -/
structure Shared (format : FloatFormat) (maxBytes : Int) (accepted kept : List SearchResult)
    (itemMaxBytes : Int) : Prop where
  leading : kept <+: accepted
  positive : 1 ≤ itemMaxBytes
  fits : fits format maxBytes (kept.map (·.reserve (repeatX (itemMaxBytes.toNat * 6)))) = true

theorem shareRest_spec (n : Nat) {accepted : List SearchResult} {snippet : Bytes}
    {itemMaxBytes : Int}
    (shared : shareRest format maxBytes n accepted (accepted.map (·.reserve snippet)) =
      (kept, itemMaxBytes)) :
    kept = [] ∨ Shared format maxBytes accepted kept itemMaxBytes := by
  induction n generalizing accepted snippet with
  | zero => exact .inl (Prod.mk.inj shared).1.symm
  | succ n ih =>
    -- a shorter list keeps the promise for the longer one
    have shorten {snippet : Bytes} (shared : shareRest format maxBytes n accepted.dropLast
        (accepted.map (·.reserve snippet)).dropLast = (kept, itemMaxBytes)) :
        kept = [] ∨ Shared format maxBytes accepted kept itemMaxBytes := by
      rw [← List.map_dropLast] at shared
      refine (ih shared).imp_right fun promise => ?_
      exact ⟨promise.leading.trans (List.dropLast_prefix _), promise.positive, promise.fits⟩
    have again (grown : Bytes) : (accepted.map (·.reserve snippet)).map
        (fun row => { row with snippet := grown }) = accepted.map (·.reserve grown) := by
      simp [SearchResult.reserve, SearchResult.place]
    simp only [shareRest] at shared
    split at shared
    · exact .inl (Prod.mk.inj shared).1.symm
    split at shared
    · exact shorten shared
    next positive =>
    rw [again] at shared
    split at shared
    · next fitting =>
        obtain ⟨rfl, rfl⟩ := Prod.mk.inj shared
        exact .inr ⟨List.prefix_rfl, by omega, fitting⟩
    · exact shorten shared

theorem withinEvidenceBudget_spec {itemMaxBytes : Int} (positive : 0 < maxBytes)
    (shared : searchResultsWithinEvidenceBudget format results maxBytes = (kept, itemMaxBytes)) :
    kept = [] ∨ Shared format maxBytes results kept itemMaxBytes := by
  obtain ⟨accepted, leading, rows⟩ := @reserveRows_spec format maxBytes results []
  simp only [searchResultsWithinEvidenceBudget, if_neg (Int.not_le.mpr positive)] at shared
  simp only [List.map_nil, List.nil_append] at rows
  rw [rows] at shared
  refine (shareRest_spec _ shared).imp_right fun promise => ?_
  exact ⟨promise.leading.trans leading, promise.positive, promise.fits⟩

end Budget

structure Modest (request : IssueRequest) (item : Item) : Prop where
  short : item.id.length ≤ 64
  plain : item.id.toList.all plainASCII = true
  startLine : item.startLine = request.startLine
  endLine : item.endLine ≤ request.endLine
  line : 0 ≤ item.endLine
  excerpt : (byteLength (escapes (Utf8.decode item.displayExcerpt)) : Int) ≤ 6 * request.maxBytes

namespace SearchCodeTool

variable {tool : SearchCodeTool} {issue : IssueAnswers} {itemMaxBytes : Int}

theorem size_attach_le (result : SearchResult) {item : Item}
    (modest : Modest (tool.issueRequest result itemMaxBytes) item) :
    (result.attach item).size tool.format ≤
      (result.reserve (repeatX (itemMaxBytes.toNat * 6))).size tool.format := by
  have excerpt : (byteLength (escapes (Utf8.decode item.displayExcerpt)) : Int) ≤
      6 * itemMaxBytes :=
    modest.excerpt
  have startLine : item.startLine = result.startLine := modest.startLine
  rw [SearchResult.attach, SearchResult.reserve, startLine]
  apply size_place_le
  · exact fieldsSize_evidenceID modest.short modest.plain
  · exact byteLength_ofInt_le modest.line modest.endLine
  · rw [byteLength_escapes_repeatX]
    omega

theorem issueAll_requests (i : Nat) (results : List SearchResult) :
    ∀ request ∈ (tool.issueAll issue itemMaxBytes i results).1,
      request.maxBytes = itemMaxBytes := by
  induction results generalizing i with
  | nil => simp [issueAll]
  | cons result results ih =>
    simp only [issueAll]
    split
    · exact ih (i + 1)
    split
    · exact List.forall_mem_singleton.mpr rfl
    · exact List.forall_mem_singleton.mpr rfl
    · exact List.forall_mem_cons.mpr ⟨rfl, ih (i + 1)⟩

-- The attached rows follow the results one by one and end where the issuer fails.
theorem issueAll_kept
    (modest : ∀ i request item, issue i request = .ok (some item) → Modest request item) (i : Nat)
    (paths : ∀ result ∈ results, result.path ≠ "")
    (issued : (tool.issueAll issue itemMaxBytes i results).2 = .ok kept) :
    (∃ items, kept = List.zipWith SearchResult.attach results items) ∧
      rowsSize tool.format kept ≤
        rowsSize tool.format (results.map (·.reserve (repeatX (itemMaxBytes.toNat * 6)))) := by
  induction results generalizing i kept with
  | nil =>
    obtain rfl : [] = kept := by simpa [issueAll] using issued
    exact ⟨⟨[], rfl⟩, le_rfl⟩
  | cons result results ih =>
    obtain ⟨named, paths⟩ := List.forall_mem_cons.mp paths
    -- an issuer that fails later on gives up the rest
    have given_up : kept = [] →
      (∃ items, kept = List.zipWith SearchResult.attach (result :: results) items) ∧
        rowsSize tool.format kept ≤ rowsSize tool.format
          ((result :: results).map (·.reserve (repeatX (itemMaxBytes.toNat * 6)))) := by
      rintro rfl
      exact ⟨⟨[], rfl⟩, Nat.zero_le _⟩
    simp only [issueAll, if_neg named] at issued
    split at issued
    · refine given_up ?_
      simp only at issued
      split at issued <;> simp_all
    · refine given_up ?_
      simp only at issued
      split at issued <;> simp_all
    · next item answered =>
        cases rest : (tool.issueAll issue itemMaxBytes (i + 1) results).2 with
        | error err => simp [rest, Except.map] at issued
        | ok more =>
          obtain rfl : result.attach item :: more = kept := by simpa [rest, Except.map] using issued
          obtain ⟨⟨items, same⟩, size⟩ := ih (i + 1) paths rest
          refine ⟨⟨item :: items, by rw [same, List.zipWith_cons_cons]⟩, ?_⟩
          have row := size_attach_le result (modest i _ item answered)
          simp only [List.map_cons, rowsSize_cons]
          omega

theorem zipWith_append_take {α β γ : Type} (f : α → β → γ) (first rest : List α) (others : List β) :
    List.zipWith f (first ++ rest) (others.take first.length) = List.zipWith f first others := by
  induction first generalizing others with
  | nil => simp
  | cons a first ih => cases others <;> simp [ih]

/-- What the evidence path returns and asks for, of these retrieval results. -/
structure Budgeted (tool : SearchCodeTool) (results : List SearchResult) (outcome : SearchOutcome) :
    Prop where
  issued : ∀ request ∈ outcome.issued, 1 ≤ request.maxBytes
  output : ∀ out, outcome.result = .ok out → out = noMatches ∨
    (out.length : Int) ≤ tool.maxBytes ∧
      ∃ items, tool.marshal (List.zipWith SearchResult.attach (eligible results) items) = .ok out

theorem budgeted_noMatches (results : List SearchResult) :
    Budgeted tool results ⟨[], .ok noMatches⟩ where
  issued := by simp
  output := fun out returned => .inl (Except.ok.inj returned).symm

theorem marshal_ok {out : Bytes} (marshalled : tool.marshal results = .ok out) :
    out.length ≤ 2 + rowsSize tool.format results := by
  simp only [marshal] at marshalled
  cases encoded : marshalIndent tool.format results with
  | error err => simp [encoded] at marshalled
  | ok text =>
    obtain rfl : Utf8.encode (text.map .char) = out := by simpa [encoded] using marshalled
    rw [length_encode_chars]
    exact (byteLength_marshalIndent encoded).1

theorem rowsSize_fits {format : FloatFormat} {maxBytes : Int} (some_ : results ≠ [])
    (fit : fits format maxBytes results = true) :
    (2 + rowsSize format results : Int) ≤ maxBytes := by
  simp only [fits] at fit
  cases encoded : marshalIndent format results with
  | error err => simp [encoded] at fit
  | ok text =>
    have size := (byteLength_marshalIndent encoded).2 some_
    simp only [encoded, decide_eq_true_eq] at fit
    omega

theorem withEvidence_budgeted (limited : 0 < tool.maxBytes)
    (modest : ∀ i request item, issue i request = .ok (some item) → Modest request item)
    (results : List SearchResult) : Budgeted tool results (tool.withEvidence issue results) := by
  simp only [withEvidence, if_neg (Int.not_le.mpr limited)]
  split
  · exact budgeted_noMatches results
  cases shared : searchResultsWithinEvidenceBudget tool.format (eligible results) tool.maxBytes with
  | mk kept itemMaxBytes =>
    simp only
    split
    · exact budgeted_noMatches results
    next some_ =>
    obtain ⟨leading, positive, fit⟩ := (withinEvidenceBudget_spec limited shared).resolve_left some_
    have paths : ∀ result ∈ kept, result.path ≠ "" := by
      intro result member
      simpa [eligible] using (List.mem_filter.mp (leading.subset member)).2
    constructor
    · intro request asked
      rw [issueAll_requests 0 kept request asked]
      exact positive
    · intro out returned
      right
      cases issued : (tool.issueAll issue itemMaxBytes 0 kept).2 with
      | error err => simp [issued, Except.bind] at returned
      | ok attached =>
        have marshalled : tool.marshal attached = .ok out := by
          simpa [issued, Except.bind] using returned
        obtain ⟨⟨items, rfl⟩, size⟩ := issueAll_kept modest 0 paths issued
        constructor
        · have room := rowsSize_fits (by simpa using some_) fit
          have written := marshal_ok marshalled
          omega
        · -- the kept results are the first ones
          obtain ⟨rest, whole⟩ := leading
          refine ⟨items.take kept.length, ?_⟩
          rw [← whole, zipWith_append_take, marshalled]

/-- With an issuer that keeps to its requests. -/
theorem search_code_within_budget (tool : SearchCodeTool) (issue : IssueAnswers)
    (args : Except String SearchCodeArgs) (evidence : tool.evidence = some issue)
    (limited : 0 < tool.maxBytes)
    (modest : ∀ i request item, issue i request = .ok (some item) → Modest request item) :
    (∀ request ∈ (tool.execute args).issued, 1 ≤ request.maxBytes) ∧
    ∀ out, (tool.execute args).result = .ok out → out = noMatches ∨
      (out.length : Int) ≤ tool.maxBytes ∧
        ∃ decoded results items, args = .ok decoded ∧
          tool.retriever ⟨tool.snapshotID, tool.codeIndexBuildID, tool.retrievalBuildID,
            decoded.query,
            decoded.topK.getD 5⟩ = .ok results ∧
          tool.marshal (List.zipWith SearchResult.attach
            (eligible (results.take (decoded.topK.getD 5).toNat)) items) = .ok out := by
  cases args with
  | error err => exact ⟨by simp [execute], by simp [execute]⟩
  | ok decoded =>
      simp only [execute, evidence]
      split
      · simp
      split
      · simp
      next results retrieved =>
      split
      · exact ⟨by simp, fun out returned => .inl (Except.ok.inj returned).symm⟩
      have budgeted :=
        withEvidence_budgeted limited modest (results.take (decoded.topK.getD 5).toNat)
      refine ⟨budgeted.issued, fun out returned => ?_⟩
      refine (budgeted.output out returned).imp_right fun ⟨within, items, marshalled⟩ => ?_
      exact ⟨within, decoded, results, items, rfl, retrieved, marshalled⟩

def resultsTool (paths : List String) (issue : IssueAnswers) (maxBytes : Int) : SearchCodeTool where
  retriever _ := .ok (paths.map fun path =>
    ⟨"c", "", path, "go", "", 1, 1, [], .finite 1, "bm25", [], [], "", none⟩)
  snapshotID := "snap"
  codeIndexBuildID := 1
  retrievalBuildID := 1
  repositoryID := "repo"
  evidence := some issue
  attemptID := "attempt"
  runID := "run"
  maxBytes := maxBytes
  format _ := ['1']

def earlyIssuer (early : Int) : IssueAnswers := fun _ request =>
  if request.maxBytes = 1 ∧ request.endLine = 1 then
    .ok (some ⟨String.ofList (List.replicate 64 'e'), request.attemptID, request.diagnosisRunID,
      request.snapshotID, request.codeIndexBuildID, request.sourceKind, none,
        request.retrievalChunkID,
      request.filePath, request.startLine, request.endLine - early, 1, "", Utf8.ofString "code",
        false,
      false, 0⟩)
  else .ok none

theorem earlyIssuer_ok {early : Int} {i : Nat} {request : IssueRequest} {item : Item}
    (issued : earlyIssuer early i request = .ok (some item)) :
    request.maxBytes = 1 ∧ request.endLine = 1 ∧ item.id = String.ofList (List.replicate 64 'e') ∧
      item.startLine = request.startLine ∧ item.endLine = 1 - early ∧
      item.displayExcerpt = Utf8.ofString "code" := by
  simp only [earlyIssuer] at issued
  split at issued
  · next small =>
      obtain ⟨one, last⟩ := small
      cases issued
      exact ⟨one, last, rfl, rfl, by rw [last], rfl⟩
  · cases issued

/-- Three results, of which the budget keeps two. -/
theorem search_code_within_budget_two_rows :
    let tool := resultsTool ["a.go", "b.go", "c.go"] (earlyIssuer 0) 550
    ∃ out, (tool.execute (.ok ⟨"q", none⟩)).result = .ok out ∧ out.length = 540 ∧
      (out = noMatches ∨ (out.length : Int) ≤ 550) := by
  intro tool
  have modest : ∀ i request item, earlyIssuer 0 i request = .ok (some item) →
      Modest request item := by
    intro i request item issued
    obtain ⟨one, last, id, start, end_, excerpt⟩ := earlyIssuer_ok issued
    constructor
    · rw [id]
      decide +kernel
    · rw [id]
      decide +kernel
    · exact start
    · omega
    · omega
    · rw [excerpt, one]
      decide +kernel
  have written : (tool.execute (.ok ⟨"q", none⟩)).result.map List.length = .ok 540 := by
    decide +kernel
  cases returned : (tool.execute (.ok ⟨"q", none⟩)).result with
  | error err => simp [returned, Except.map] at written
  | ok out =>
      have budget := (search_code_within_budget tool (earlyIssuer 0) (.ok ⟨"q", none⟩) rfl
        (by decide) modest).2 out returned
      exact ⟨out, rfl, by simpa [returned, Except.map] using written,
        budget.imp_right fun within => within.1⟩

/-- A range may end before the first line, and the sign and digits of such a line number
are not reserved. -/
theorem search_code_negative_line :
    (∀ i request item, earlyIssuer 1000000000 i request = .ok (some item) →
      item.id.length ≤ 64 ∧ item.id.toList.all plainASCII = true ∧
      item.startLine = request.startLine ∧ item.endLine ≤ request.endLine ∧
      (byteLength (quoted (Utf8.decode item.displayExcerpt)) : Int) ≤ 6 * request.maxBytes) ∧
    ∃ out, ((resultsTool ["a.go"] (earlyIssuer 1000000000) 274).execute (.ok ⟨"q", none⟩)).result =
      .ok out ∧
      out ≠ noMatches ∧ ¬(out.length : Int) ≤ 274 := by
  constructor
  · intro i request item issued
    obtain ⟨one, last, id, start, end_, excerpt⟩ := earlyIssuer_ok issued
    refine ⟨?_, ?_, start, by omega, ?_⟩
    · rw [id]
      decide +kernel
    · rw [id]
      decide +kernel
    · rw [excerpt, one]
      decide +kernel
  · have written : ((resultsTool ["a.go"] (earlyIssuer 1000000000) 274).execute
        (.ok ⟨"q", none⟩)).result.map List.length = .ok 280 := by decide +kernel
    have short : noMatches.length ≠ 280 := by decide +kernel
    cases returned : ((resultsTool ["a.go"] (earlyIssuer 1000000000) 274).execute
      (.ok ⟨"q", none⟩)).result with
    | error err => simp [returned, Except.map] at written
    | ok out =>
        have size : out.length = 280 := by simpa [returned, Except.map] using written
        exact ⟨out, rfl, fun same => short (same ▸ size), by omega⟩

end SearchCodeTool

end Evidence

end RepoLens
