import RepoLens.Reports
import RepoLens.EvidenceDedup

/-!
The `read_file` tool of `internal/tools` and what the agent loop sends back of its result.
-/

namespace RepoLens

open Json Lines SnapshotPolicy

namespace Evidence

def evidenceContentBudget (toolResultLimit : Int) : Int :=
  let limit := if toolResultLimit ≤ 0 then 32 * 1024 else toolResultLimit
  if 4096 < limit then limit - 4096 else limit

def marshalEvidenceResponse (item : Item) : List Char :=
  (Value.object (omitEmptyString "evidence_id" item.id ++
    [("path", .ofString item.filePath),
      ("start_line", .ofInt item.startLine),
      ("end_line", .ofInt item.endLine),
      ("total_lines", .ofInt item.totalLines),
      ("content", .string (Utf8.decode item.displayExcerpt)),
      ("content_hash", .ofString item.rawContentHash),
      ("redaction_applied", .bool item.redactionApplied),
      ("truncated", .bool item.truncated)])).encode

def response (item : Item) : Bytes := Utf8.encode ((marshalEvidenceResponse item).map .char)

structure ReadFileArgs where
  path : String
  startLine : Int
  endLine : Int
  deriving DecidableEq, Repr

structure ReadFileTool where
  storeFS : LocalSnapshotStore
  repoID : String
  snapshotID : String
  evidence : Option Service
  attemptID : String
  runID : String
  buildID : Int
  maxBytes : Int

/-- What a call of the tool depends on besides its arguments. -/
structure ToolContext where
  id : String
  now : Nat
  buffering : Buffering
  faults : StoreFaults

inductive ToolErr where
  | message (text : String)
  | issue (err : EvidenceErr)
  | read (err : SnapshotErr)
  deriving DecidableEq, Repr

namespace ReadFileTool

variable (tool : ReadFileTool)

def call (context : ToolContext) (args : ReadFileArgs) : IssueCall where
  request := ⟨tool.attemptID, tool.runID, tool.repoID, tool.snapshotID, tool.buildID, .readFile,
    0, "",
    cleanPath args.path, args.startLine, args.endLine,
    if tool.maxBytes ≤ 0 then 24 * 1024 else tool.maxBytes⟩
  id := context.id
  now := context.now
  buffering := context.buffering
  faults := context.faults

def check (args : ReadFileArgs) : Except ToolErr Unit := do
  let path := cleanPath args.path
  if "..".toList.isPrefixOf path.toList || Paths.isAbs path.toList then
    throw (.message ("path traversal denied: " ++ args.path))
  let decision := canReadFromSnapshot tool.storeFS.fs
    (tool.storeFS.getSourcePath tool.repoID tool.snapshotID) path
  if decision.allowed = false then
    throw (.message ("file access denied: " ++ path ++ " (" ++ decision.reason ++ ")"))
  if tool.storeFS.fileExists tool.repoID tool.snapshotID path = false then
    throw (.message ("file not found in snapshot: " ++ path))

/-- `Execute` on decoded arguments. -/
def execute (context : ToolContext) (args : ReadFileArgs) (rows : List Item) :
    Except ToolErr Bytes × List Item :=
  match tool.check args, tool.evidence with
  | .error err, _ => (.error err, rows)
  | .ok (), some service =>
    match service.issue (tool.call context args) rows with
    | (.error err, rows) => (.error (.issue err), rows)
    | (.ok item, rows) => (.ok (response item), rows)
  | .ok (), none =>
    match tool.storeFS.readFileRangeBounded context.buffering tool.repoID tool.snapshotID
        (cleanPath args.path) args.startLine args.endLine (64 * 1024) with
    | .error err => (.error (.read err), rows)
    | .ok range => (.ok range.content, rows)

end ReadFileTool

def structuredTools : List String := ["read_file", "search_code"]

def boundToolResult (toolName : String) (result : Bytes) (maxBytes : Int) : Bytes :=
  if maxBytes ≤ 0 ∨ (result.length : Int) ≤ maxBytes then result
  else if structuredTools.contains toolName then
    Utf8.ofString
      ("\x7b\"error\":\"TOOL_RESULT_TOO_LARGE\",\"message\":\"tool output exceeded the " ++
      "configured limit; narrow the file range or search query\"\x7d")
  else Utf8.ofString "Tool output exceeded the configured limit; narrow the request."

def toolMessage (toolName : String) (result : Bytes) (maxToolResultBytes : Int) : Bytes :=
  boundToolResult toolName (redactSecrets result)
    (if maxToolResultBytes ≤ 0 then 32 * 1024 else maxToolResultBytes)

/-- The bytes that stand for a unit of a text in the JSON. -/
def escapeSize : Utf8.Rune → Nat
  | .bad _ => 6
  | .char c =>
    if c ∈ ['"', '\\', '\x08', '\x0c', '\n', '\r', '\t'] then 2
    else if c.toNat < 0x20 ∨ c ∈ ['<', '>', '&', '\u2028', '\u2029'] then 6
    else c.utf8Size

def textSize (text : Utf8.Text) : Nat := (text.map escapeSize).sum

def numberSize (n : Int) : Nat := (toString n).length

def flagSize (flag : Bool) : Nat := if flag then 4 else 5

/-- What a row takes in its response, with 117 bytes for the names of the fields and the marks. -/
def responseSize (item : Item) : Nat :=
  (if item.id = "" then 0 else 17 + textSize (Utf8.chars item.id)) +
    textSize (Utf8.chars item.filePath) + numberSize item.startLine + numberSize item.endLine +
    numberSize item.totalLines + textSize (Utf8.decode item.displayExcerpt) +
    textSize (Utf8.chars item.rawContentHash) + flagSize item.redactionApplied +
    flagSize item.truncated + 117

theorem byteLength_unicodeEscape (c : Char) : byteLength (unicodeEscape c) = 6 := by
  have digit (n : Nat) : (hexDigit n).utf8Size = 1 := by
    have each : ∀ n < 16, n.digitChar.utf8Size = 1 := by decide
    exact each _ (Nat.mod_lt _ (by decide))
  simp only [unicodeEscape, byteLength_cons, digit]
  decide

theorem byteLength_escape (rune : Utf8.Rune) : byteLength (escape rune) = escapeSize rune := by
  cases rune with
  | bad b =>
    change byteLength ['\\', 'u', 'f', 'f', 'f', 'd'] = 6
    decide
  | char c =>
    simp only [escapeSize]
    split
    · next short =>
        simp only [List.mem_cons, List.not_mem_nil, or_false] at short
        rcases short with rfl | rfl | rfl | rfl | rfl | rfl | rfl <;> decide
    · next plain =>
        simp only [List.mem_cons, List.not_mem_nil, or_false, not_or] at plain
        split
        · next long =>
            rcases long with low | among
            · simp [escape, plain, low, byteLength_unicodeEscape]
            · simp only [List.mem_cons, List.not_mem_nil, or_false] at among
              rcases among with rfl | rfl | rfl | rfl | rfl <;> decide
        · next other =>
            simp only [List.mem_cons, List.not_mem_nil, or_false, not_or] at other
            simp [escape, plain, other]

theorem byteLength_escapes (text : Utf8.Text) : byteLength (escapes text) = textSize text := by
  induction text with
  | nil => rfl
  | cons rune text ih =>
    rw [escapes, List.flatMap_cons, byteLength_append, byteLength_escape]
    exact congrArg (escapeSize rune + ·) ih

theorem length_response (item : Item) : (response item).length = responseSize item := by
  have string (text : Utf8.Text) : byteLength (Value.string text).encode = textSize text + 2 := by
    have quote : '"'.utf8Size = 1 := by decide
    simp only [Value.encode, quoted, byteLength_cons, byteLength_append, byteLength_nil,
      byteLength_escapes, quote]
    omega
  have flag (value : Bool) : byteLength (Value.bool value).encode = flagSize value := by
    cases value <;> decide
  have names : byteLength (quoted (Utf8.chars "evidence_id")) = 13 ∧
      byteLength (quoted (Utf8.chars "path")) = 6 ∧
      byteLength (quoted (Utf8.chars "start_line")) = 12 ∧
      byteLength (quoted (Utf8.chars "end_line")) = 10 ∧
      byteLength (quoted (Utf8.chars "total_lines")) = 13 ∧
      byteLength (quoted (Utf8.chars "content")) = 9 ∧
      byteLength (quoted (Utf8.chars "content_hash")) = 14 ∧
      byteLength (quoted (Utf8.chars "redaction_applied")) = 19 ∧
      byteLength (quoted (Utf8.chars "truncated")) = 11 := by decide
  have id : ((omitEmptyString "evidence_id" item.id).map fieldSize).sum =
      if item.id = "" then 0 else 17 + textSize (Utf8.chars item.id) := by
    by_cases absent : item.id = ""
    · simp [omitEmptyString, omitEmpty, absent]
    · simp only [omitEmptyString, omitEmpty, absent, beq_eq_false_iff_ne.mpr absent,
        Bool.false_eq_true, if_false, List.map_cons, List.map_nil, List.sum_cons, List.sum_nil,
        fieldSize, Value.ofString, string, names]
      omega
  rw [response, length_encode_chars, marshalEvidenceResponse,
    byteLength_encode_object (List.append_ne_nil_of_right_ne_nil _ (List.cons_ne_nil _ _)),
    List.map_append, List.sum_append, responseSize, id]
  simp only [List.map_cons, List.map_nil, List.sum_cons, List.sum_nil, fieldSize, Value.ofString,
    string, flag, byteLength_ofInt, names, numberSize]
  omega

section Clear
open Redaction

theorem clear_mark_json {mark : Char} (among : mark ∈ [',', '"', ':', '\x7b', '\x7d'])
    {before after : List Char} (one : Clear before) (two : Clear after) :
    Clear (before ++ mark :: after) := by
  have apart : [',', '"', ':', '\x7b', '\x7d'].all (fun mark => secretWords.all fun word =>
      !word.toList.contains (fold mark)) = true := by decide +kernel
  have inside := List.all_eq_true.mp apart mark among
  exact clear_mark (fun word listed => by simpa using List.all_eq_true.mp inside word listed)
    one two

theorem clear_nil : Clear [] := by decide +kernel

theorem clear_quoted {text : Utf8.Text} (clear : Clear (escapes text)) : Clear (quoted text) :=
  clear_mark_json (by simp) clear_nil (clear_mark_json (by simp) clear clear_nil)

theorem clear_fields {fields : List (String × Value)}
    (each : ∀ field ∈ fields, Clear (escapes (Utf8.chars field.1)) ∧ Clear field.2.encode)
    {text : List Char} (clear : Clear text) : Clear (text ++ encodeFields false fields) := by
  induction fields generalizing text with
  | nil => simpa [encodeFields] using clear
  | cons field fields ih =>
    obtain ⟨⟨name, value⟩, rest⟩ := List.forall_mem_cons.mp each
    simp only [encodeFields, Bool.false_eq_true, if_false, List.cons_append, List.nil_append]
    exact clear_mark_json (by simp) clear
      (clear_mark_json (by simp) (clear_quoted name) (ih rest value))

theorem clear_object {fields : List (String × Value)}
    (each : ∀ field ∈ fields, Clear (escapes (Utf8.chars field.1)) ∧ Clear field.2.encode) :
    Clear (Value.object fields).encode := by
  have inner : Clear (encodeFields true fields) := by
    cases fields with
    | nil => exact clear_nil
    | cons field fields => exact (clear_fields each clear_nil).tail
  exact clear_mark_json (by simp) clear_nil (clear_mark_json (by simp) inner clear_nil)

theorem clear_number (n : Int) : Clear (Value.ofInt n).encode := by
  apply clear_of_letters
  intro c member
  rcases toString_marks member with digit | rfl
  · have bounds : 48 ≤ c.toNat ∧ c.toNat ≤ 57 := by
      simpa [Char.isDigit, UInt32.le_iff_toNat_le] using digit
    have each : ∀ n < 58, 48 ≤ n → (fold (Char.ofNat n)).isAlpha = false := by decide +kernel
    have small := each c.toNat (by omega) bounds.1
    rwa [Char.ofNat_toNat] at small
  · decide +kernel

/-- None of the words that the redaction looks for stands in a text of the row, escaped. -/
def Item.Wordless (item : Item) : Prop :=
  ∀ text ∈ [Utf8.chars item.id, Utf8.chars item.filePath, Utf8.decode item.displayExcerpt,
    Utf8.chars item.rawContentHash], Clear (escapes text)

instance (item : Item) : Decidable item.Wordless := inferInstanceAs (Decidable (∀ _ ∈ _, _))

theorem Item.Wordless.response {item : Item} (wordless : item.Wordless) :
    redactSecrets (response item) = response item := by
  have texts (text : Utf8.Text) (among : text ∈ [Utf8.chars item.id, Utf8.chars item.filePath,
      Utf8.decode item.displayExcerpt, Utf8.chars item.rawContentHash]) :
      Clear (Value.string text).encode := clear_quoted (wordless text among)
  have flag (value : Bool) : Clear (Value.bool value).encode := by cases value <;> decide +kernel
  have names : ∀ name ∈ ["evidence_id", "path", "start_line", "end_line", "total_lines", "content",
      "content_hash", "redaction_applied", "truncated"], Clear (escapes (Utf8.chars name)) := by
    decide +kernel
  apply redactSecrets_clear
  apply clear_object
  intro field member
  simp only [omitEmptyString, omitEmpty, List.mem_append, List.mem_ite_nil_left, List.mem_cons,
    List.not_mem_nil, or_false] at member
  rcases member with ⟨-, rfl⟩ | rfl | rfl | rfl | rfl | rfl | rfl | rfl | rfl
  · exact ⟨names _ (by simp), texts _ (by simp)⟩
  · exact ⟨names _ (by simp), texts _ (by simp)⟩
  · exact ⟨names _ (by simp), clear_number _⟩
  · exact ⟨names _ (by simp), clear_number _⟩
  · exact ⟨names _ (by simp), clear_number _⟩
  · exact ⟨names _ (by simp), texts _ (by simp)⟩
  · exact ⟨names _ (by simp), texts _ (by simp)⟩
  · exact ⟨names _ (by simp), flag _⟩
  · exact ⟨names _ (by simp), flag _⟩

end Clear

theorem boundToolResult_eq_iff {toolName : String} {result : Bytes} {limit : Int}
    (large : 4096 < limit) :
    boundToolResult toolName result limit = result ↔ (result.length : Int) ≤ limit := by
  unfold boundToolResult
  constructor
  · intro same
    by_contra exceeds
    rw [if_neg (by omega)] at same
    -- what stands in for the result is shorter than the limit
    have short : result.length ≤ 4096 := by
      rw [← same]
      split <;> decide +kernel
    omega
  · intro fits
    rw [if_pos (.inr fits)]

namespace Service

variable {service : Service}

def canonical (service : Service) (call : IssueCall) (rows : List Item) (lines : List Bytes) :
    Item :=
  let item :=
    service.newItem call (call.request.query.found (cleanPath call.request.filePath) lines)
  (service.findCanonical (rows ++ call.others) (service.identity item)).getD item

theorem issue_canonical {call : IssueCall} {rows : List Item} {item : Item}
    (issued : (service.issue call rows).1 = .ok item) :
    ∃ lines, service.lines call.request = some lines ∧
      item = service.canonical call rows lines := by
  obtain ⟨found, fetched, returned⟩ := issue_ok issued
  obtain ⟨-, lines, there, -, shown⟩ := fetch_lines.mp fetched
  refine ⟨lines, there, ?_⟩
  simp only [canonical, shown]
  rcases @record_cases service call found rows with
    ⟨err, -, ends⟩ | ⟨existing, -, known, ends⟩ | ⟨-, unknown, insert, ends⟩ |
      ⟨-, ⟨existing, known, ends⟩ | ⟨err, ends⟩⟩
  all_goals rw [ends] at returned; cases returned
  · rw [findCanonical_append known, Option.getD_some]
  · rw [IssueCall.others, insert]
    simp [unknown]
  · rw [known, Option.getD_some]

theorem issue_excerpt {call : IssueCall} {rows : List Item} {item : Item} {lines : List Bytes}
    (issued : (service.issue call rows).1 = .ok item) (db : service.db.isSome)
    (reached : service.Reached rows) (others : ∀ row ∈ call.others, service.Issued row)
    (path : item.filePath = cleanPath call.request.filePath)
    (there : service.lines call.request = some lines) :
    item.displayExcerpt = redactSecrets (join newline (call.request.query.taken lines)) := by
  obtain ⟨found, fetched, returned⟩ := issue_ok issued
  obtain ⟨-, lines_, there_, shows_, rfl⟩ := fetch_lines.mp fetched
  rw [there, Option.some.injEq] at there_
  subst there_
  rcases record_ok returned with rfl | ⟨member, identity⟩
  · simp only [newItem, RangeQuery.found]
  · obtain ⟨maker, range, read, rfl⟩ : service.Issued item :=
      (List.mem_append.mp member).elim (reached.issued item) (others item)
    have lineage := lineage_eq db read fetched (congrArg Identity.attemptID identity)
    obtain ⟨-, lines_, there_, shown, rfl⟩ := fetch_lines.mp read
    obtain rfl := lines_eq lineage path there_ there
    have same := (identity_eq_iff lineage shown shows_).mp identity
    simp only [newItem, RangeQuery.found,
      RangeQuery.taken_eq_of_length shown shows_ same.start same.size]

end Service

theorem ReadFileTool.execute_ok {tool : ReadFileTool} {service : Service}
    (issuer : tool.evidence = some service) {context : ToolContext} {args : ReadFileArgs}
    {rows : List Item} {result : Bytes}
    (executed : (tool.execute context args rows).1 = .ok result) :
    ∃ item, (service.issue (tool.call context args) rows).1 = .ok item ∧
      result = response item := by
  unfold execute at executed
  rw [issuer] at executed
  cases checked : tool.check args with
  | error err => simp [checked] at executed
  | ok _ =>
    cases issued : service.issue (tool.call context args) rows with
    | mk answer after =>
      cases answer with
      | error err => simp [checked, issued] at executed
      | ok item =>
        simp only [checked, issued, Except.ok.injEq] at executed
        exact ⟨item, rfl, executed.symm⟩

def oneFileTool (content : Bytes) (limit : Int) : ReadFileTool where
  storeFS := oneFile content
  repoID := "repo"
  snapshotID := "snap"
  evidence := some (oneFileService content)
  attemptID := "attempt"
  runID := "run"
  buildID := 1
  maxBytes := evidenceContentBudget limit

def plainContext : ToolContext := ⟨"1", 0, .byLine, .none⟩

def angles (n : Nat) : Utf8.Text := List.replicate n (.char '<')

theorem encode_angles (n : Nat) : Utf8.encode (angles n) = List.replicate n 60 := by
  induction n with
  | zero => rfl
  | succ n ih =>
    rw [angles, List.replicate_succ, Utf8.encode_cons]
    exact congrArg _ ih

theorem angles_chars (n : Nat) : angles n = (List.replicate n '<').map .char := by
  rw [List.map_replicate, angles]

theorem angles_redacted (n : Nat) :
    redactSecrets (Utf8.encode (angles n)) = Utf8.encode (angles n) := by
  rw [angles_chars]
  apply redactSecrets_clear
  apply Redaction.clear_of_letters
  intro c member
  rw [List.eq_of_mem_replicate member]
  decide +kernel

theorem textSize_angles (n : Nat) : textSize (Utf8.decode (Utf8.encode (angles n))) = 6 * n := by
  have one : escapeSize (.char '<') = 6 := by decide
  rw [angles_chars, Utf8.decode_encode, ← angles_chars, textSize, angles, List.map_replicate,
    List.sum_replicate, one, Nat.nsmul_eq_mul, Nat.mul_comm]

theorem cleanPath_sample : cleanPath "a.go" = "a.go" := by
  decide +kernel

theorem oneFileTool_check (content : Bytes) (limit : Int) :
    (oneFileTool content limit).check ⟨"a.go", 1, 1⟩ = .ok () := by
  have root : (oneFile content).getSourcePath "repo" "snap" = "/s" := rfl
  have allowed : (canReadFromSnapshot (oneFile content).fs "/s" "a.go").allowed = true := by
    have same : canReadFromSnapshot (oneFile content).fs "/s" "a.go" =
        canReadFromSnapshot (oneFile []).fs "/s" "a.go" := rfl
    rw [same]
    decide +kernel
  have there : (oneFile content).fileExists "repo" "snap" "a.go" = true := by
    unfold LocalSnapshotStore.fileExists
    simp only [root, allowed, oneFile_safePath]
    rfl
  have inside : ("..".toList.isPrefixOf "a.go".toList || Paths.isAbs "a.go".toList) = false := by
    decide +kernel
  unfold ReadFileTool.check
  simp only [cleanPath_sample, oneFileTool, root, inside, allowed, there]
  rfl

theorem oneFileTool_call {limit : Int} (large : 4096 < limit) (content : Bytes) :
    (oneFileTool content limit).call plainContext ⟨"a.go", 1, 1⟩ =
      readCall "1" "a.go" 1 1 (limit - 4096) := by
  have budget : evidenceContentBudget limit = limit - 4096 := by
    simp only [evidenceContentBudget]
    split_ifs <;> omega
  simp only [ReadFileTool.call, oneFileTool, cleanPath_sample, budget, plainContext, readCall]
  rw [if_neg (by omega)]

theorem oneFileService_fetch {content : Bytes} (plain : newline ∉ content) {budget : Int}
    (fits : (content.length : Int) ≤ budget) :
    (oneFileService content).fetch .byLine (readCall "1" "a.go" 1 1 budget).request =
        .ok ((readCall "1" "a.go" 1 1 budget).request.query.found "a.go" [content]) ∧
      (readCall "1" "a.go" 1 1 budget).request.query.taken [content] = [content] := by
  have lines : content.splitOn newline = [content] := by
    have whole := Lines.splitOn_append_of_notMem newline plain []
    simpa using whole
  have taken : (readCall "1" "a.go" 1 1 budget).request.query.taken [content] = [content] := by
    have chosen : (readCall "1" "a.go" 1 1 budget).request.query.selection [content] =
        [content] := rfl
    rw [RangeQuery.taken, chosen]
    apply Lines.fitting_eq_of_length
    apply Lines.length_le_fitting newline List.prefix_rfl
    rw [Lines.join, List.intercalate_singleton]
    exact .inr fits
  refine ⟨?_, taken⟩
  have path : (readCall "1" "a.go" 1 1 budget).request.filePath = "a.go" := rfl
  have accepts : (oneFileService content).Accepts (readCall "1" "a.go" 1 1 budget).request :=
    ⟨rfl, rfl⟩
  apply Service.fetch_ok_iff.mpr
  rw [path, cleanPath_sample]
  refine ⟨accepts, content, oneFileService_content content, ?_⟩
  rw [lines]
  have proper : (readCall "1" "a.go" 1 1 budget).request.query.Proper :=
    ⟨Int.le_refl 1, .inr (Int.le_refl 1)⟩
  refine ⟨⟨proper, ?_⟩, rfl⟩
  rw [taken]
  exact List.cons_ne_nil _ _

theorem oneFileTool_execute {content : Bytes} (plain : newline ∉ content) {limit : Int}
    (large : 4096 < limit) (fits : (content.length : Int) ≤ limit - 4096) :
    ∃ item, ((oneFileTool content limit).execute plainContext ⟨"a.go", 1, 1⟩ []).1 =
        .ok (response item) ∧ item.displayExcerpt = redactSecrets content ∧
      item = (oneFileService content).canonical (readCall "1" "a.go" 1 1 (limit - 4096)) []
        (content.splitOn newline) := by
  obtain ⟨fetched, taken⟩ := oneFileService_fetch plain fits
  generalize asked : readCall "1" "a.go" 1 1 (limit - 4096) = call at fetched taken ⊢
  have issued : (oneFileService content).issue call [] =
      (.ok ((oneFileService content).newItem call (call.request.query.found "a.go" [content])),
        [(oneFileService content).newItem call (call.request.query.found "a.go" [content])]) := by
    have buffering : call.buffering = .byLine := by rw [← asked]; rfl
    have faults : call.faults = .none := by rw [← asked]; rfl
    simp only [Service.issue, buffering, fetched, Service.record, faults]
    rfl
  refine ⟨(oneFileService content).newItem call (call.request.query.found "a.go" [content]), ?_,
    ?_, ?_⟩
  · have issuer : (oneFileTool content limit).evidence = some (oneFileService content) := rfl
    unfold ReadFileTool.execute
    rw [oneFileTool_check, oneFileTool_call large, asked, issuer]
    simp only [issued]
  · simp only [Service.newItem, RangeQuery.found, taken, Lines.join, List.intercalate_singleton]
  · obtain ⟨lines, there, same⟩ := Service.issue_canonical (congrArg Prod.fst issued)
    have read : (oneFileService content).lines call.request = some (content.splitOn newline) := by
      rw [← asked]
      exact congrArg (Option.map _) (oneFileService_content content)
    rw [there, Option.some.injEq] at read
    rw [← read]
    exact same

end Evidence

end RepoLens
