import RepoLens.Evidence
import RepoLens.RangeReading

/-!
What `Issue` returns, and that `Verify` accepts it. A range of a file is read back
from its first and last line alone, so the item can be checked against the file
without the budget it was issued under.
-/

namespace RepoLens

open Lines SnapshotPolicy

namespace RangeQuery

variable {query : RangeQuery} {lines : List Bytes}

structure Shows (query : RangeQuery) (lines : List Bytes) : Prop where
  proper : query.Proper
  some : query.taken lines ≠ []

theorem Shows.selected (shows_ : query.Shows lines) : query.selection lines ≠ [] := by
  intro none
  apply shows_.some
  rw [taken, none]
  exact List.prefix_nil.mp (fitting_initial _ [])

theorem Shows.inside (shows_ : query.Shows lines) : ¬ (lines.length : Int) < query.startLine :=
  fun beyond => shows_.selected (selection_eq_nil_of_lt beyond)

def reread (query : RangeQuery) (lines : List Bytes) : RangeQuery :=
  ⟨query.startLine, query.startLine - 1 + (query.taken lines).length, 0, true⟩

theorem reread_selection (shows_ : query.Shows lines) :
    (query.reread lines).selection lines = query.taken lines := by
  have start := shows_.proper.start
  have some : 0 < (query.taken lines).length := List.length_pos_iff.mpr shows_.some
  have run : query.taken lines <+: lines.drop (query.startLine - 1).toNat := by
    apply (query.taken_prefix lines).trans
    unfold selection
    split
    · exact List.prefix_rfl
    · exact (List.take_prefix _ lines).drop _
  have bounded : ¬ query.startLine - 1 + ((query.taken lines).length : Int) ≤ 0 := by omega
  rw [selection, reread, if_neg bounded, List.drop_take]
  rw [show (query.startLine - 1 + ((query.taken lines).length : Int)).toNat -
    (query.startLine - 1).toNat = (query.taken lines).length by omega]
  exact (List.prefix_iff_eq_take.mp run).symm

theorem reread_taken (shows_ : query.Shows lines) :
    (query.reread lines).taken lines = query.taken lines := by
  rw [taken, reread_selection shows_]
  apply fitting_eq_of_length
  rw [reread]
  exact length_le_fitting newline List.prefix_rfl (.inl (le_refl _))

theorem reread_shows (shows_ : query.Shows lines) : (query.reread lines).Shows lines := by
  have start := shows_.proper.start
  have some : 0 < (query.taken lines).length := List.length_pos_iff.mpr shows_.some
  refine ⟨⟨start, .inr ?_⟩, ?_⟩
  · simp only [reread]
    omega
  · rw [reread_taken shows_]
    exact shows_.some

theorem reread_found (shows_ : query.Shows lines) (path : String) :
    ((query.reread lines).found path lines).content = join newline (query.taken lines) ∧
      ((query.reread lines).found path lines).startLine = query.startLine ∧
      ((query.reread lines).found path lines).endLine =
        query.startLine - 1 + (query.taken lines).length := by
  simp only [found, reread_taken shows_, true_and]
  exact ⟨rfl, rfl⟩

end RangeQuery

theorem readRange_start (reader : Reader) (path : String) (startLine endLine maxBytes : Int)
    (stopAtEnd : Bool) :
    readRange reader path startLine endLine maxBytes stopAtEnd =
      readRange reader path (if startLine ≤ 0 then 1 else startLine) endLine maxBytes
        stopAtEnd := by
  by_cases early : startLine ≤ 0
  · rw [if_pos early]
    unfold readRange
    simp only [if_pos early]
    rfl
  · rw [if_neg early]

theorem readRange_ok_iff {query : RangeQuery} (stop : query.stopAtEnd = true)
    (start : 1 ≤ query.startLine) {reader : Reader} {content : Bytes}
    (reads : reader.Reads content) {path : String} {found : FileRange} :
    readRange reader path query.startLine query.requestedEnd query.maxBytes true = .ok found ↔
      query.Shows (content.splitOn newline) ∧
        query.found path (content.splitOn newline) = found := by
  by_cases ordered : query.requestedEnd ≤ 0 ∨ query.startLine ≤ query.requestedEnd
  · have proper : query.Proper := ⟨start, ordered⟩
    have read := readRange_eq proper reads path
    rw [stop] at read
    rw [read]
    generalize content.splitOn newline = lines
    by_cases beyond : (lines.length : Int) < query.startLine
    · rw [if_pos beyond]
      simp only [reduceCtorEq, false_iff, not_and]
      exact fun shows_ => absurd beyond shows_.inside
    · rw [if_neg beyond]
      by_cases none : query.taken lines = []
      · have some : query.selection lines ≠ [] := by
          intro empty
          have size := congrArg List.length empty
          unfold RangeQuery.selection at size
          split at size
          · simp only [List.length_drop, List.length_nil] at size
            omega
          · simp only [List.length_drop, List.length_take, List.length_nil] at size
            omega
        rw [if_pos ⟨none, some⟩]
        simp only [reduceCtorEq, false_iff, not_and]
        exact fun shows_ => absurd none shows_.some
      · rw [if_neg fun long => none long.1]
        simp [RangeQuery.Shows.mk proper none]
  · have crossed : 0 < query.requestedEnd ∧ query.requestedEnd < query.startLine := by omega
    constructor
    · intro read
      unfold readRange at read
      rw [if_neg (show ¬ query.startLine ≤ 0 by omega)] at read
      simp only [if_pos crossed] at read
      cases read
    · intro shown
      exact absurd shown.1.proper.ordered ordered

def Reader.ofLines : List Bytes → Reader
  | [] => .eof []
  | [last] => .eof last
  | first :: rest => .line first (ofLines rest)

theorem Reader.ofLines_reads {lines : List Bytes} (some : lines ≠ [])
    (plain : ∀ line ∈ lines, newline ∉ line) : (ofLines lines).Reads (join newline lines) := by
  induction lines with
  | nil => exact absurd rfl some
  | cons first rest ih =>
    cases rest with
    | nil =>
      rw [join_singleton]
      exact .eof (plain first (by simp))
    | cons second rest =>
      have later := ih (by simp) fun line member => plain line (by simp [member])
      have whole := Reads.line (plain first (by simp)) later
      simpa [join, List.intercalate_cons_cons, ofLines] using whole

def Buffering.byLine : Buffering where
  cut := fun content => .ofLines (content.splitOn newline)
  reads := by
    intro content
    have whole := Reader.ofLines_reads (List.splitOn_ne_nil newline content)
      fun line member => (splitOn_lines newline member).1
    rwa [join, List.intercalate_splitOn] at whole

namespace Evidence

def IssueRequest.query (request : IssueRequest) : RangeQuery :=
  ⟨if request.startLine ≤ 0 then 1 else request.startLine, request.endLine, request.maxBytes, true⟩

def IssueCall.others (call : IssueCall) : List Item :=
  (call.faults.create.map Prod.snd).getD []

namespace Service

variable (service : Service)

def content (repositoryID snapshotID filePath : String) : Option Bytes :=
  match service.storeFS with
  | none => none
  | some storeFS =>
    let sourceRoot := storeFS.getSourcePath repositoryID snapshotID
    if (canIssueEvidenceFromSnapshot storeFS.fs sourceRoot filePath).allowed then
      match safePath storeFS.fs sourceRoot filePath with
      | .error _ => none
      | .ok fullPath => storeFS.fs.content fullPath
    else none

variable {service}

theorem content_cleanPath {repositoryID snapshotID filePath : String} {content : Bytes}
    (found : service.content repositoryID snapshotID filePath = some content) :
    service.content repositoryID snapshotID (cleanPath filePath) = some content := by
  rw [← found]
  unfold Service.content at found ⊢
  cases there : service.storeFS with
  | none => rfl
  | some storeFS =>
    simp only [there] at found ⊢
    by_cases issued : (canIssueEvidenceFromSnapshot storeFS.fs
        (storeFS.getSourcePath repositoryID snapshotID) filePath).allowed = true
    · have allowed := ((canIssueEvidenceFromSnapshot_allowed storeFS.fs).mp issued).1
      rw [canIssueEvidenceFromSnapshot_cleanPath storeFS.fs allowed,
        safePath_cleanPath storeFS.fs allowed]
    · simp [issued] at found

theorem readEvidence_ok_iff {buffering : Buffering} {repositoryID snapshotID filePath : String}
    {startLine endLine maxBytes : Int} {found : FileRange} :
    service.readEvidence buffering repositoryID snapshotID filePath startLine endLine maxBytes =
        .ok found ↔
      ∃ content, service.content repositoryID snapshotID filePath = some content ∧
        let query : RangeQuery := ⟨if startLine ≤ 0 then 1 else startLine, endLine, maxBytes, true⟩
        query.Shows (content.splitOn newline) ∧
          query.found (cleanPath filePath) (content.splitOn newline) = found := by
  unfold readEvidence Service.content
  cases there : service.storeFS with
  | none => simp
  | some storeFS =>
    simp only
    by_cases issued : (canIssueEvidenceFromSnapshot storeFS.fs
        (storeFS.getSourcePath repositoryID snapshotID) filePath).allowed = true
    · have readable := ((canIssueEvidenceFromSnapshot_allowed storeFS.fs).mp issued).2
      simp only [if_pos issued, LocalSnapshotStore.readFileRangeBounded,
        LocalSnapshotStore.readFileRange, if_pos readable, LocalSnapshotStore.readFileRangeAt]
      cases located : safePath storeFS.fs (storeFS.getSourcePath repositoryID snapshotID)
          filePath with
      | error refusal => simp [Except.mapError, bind, Except.bind]
      | ok fullPath =>
        cases opened : storeFS.fs.content fullPath with
        | none =>
          simp [Except.mapError, bind, Except.bind, throw, throwThe, MonadExceptOf.throw, opened]
        | some content =>
          let query : RangeQuery :=
            ⟨if startLine ≤ 0 then 1 else startLine, endLine, maxBytes, true⟩
          have start : 1 ≤ query.startLine := by
            simp only [query]
            split <;> omega
          have read := @readRange_ok_iff query rfl start _ _ (buffering.reads content)
            (cleanPath filePath) found
          simp only [Except.mapError, bind, Except.bind, opened, Option.some.injEq, exists_eq_left']
          rw [readRange_start, ← read]
          cases returned : readRange (buffering.cut content) (cleanPath filePath)
              query.startLine query.requestedEnd query.maxBytes true with
          | error err => simp [query] at returned ⊢
          | ok range => simp [query] at returned ⊢
    · simp [issued]

variable (service) in

/-- The request is complete and belongs to the attempt. -/
def Accepts (request : IssueRequest) : Prop :=
  validateIssueRequest request = .ok () ∧ service.validateLineage request = .ok ()

variable {buffering : Buffering} {request : IssueRequest} {found : FileRange} {rows : List Item}
  {item : Item} {call : IssueCall}

theorem fetch_ok_iff :
    service.fetch buffering request = .ok found ↔
      service.Accepts request ∧
        ∃ content, service.content request.repositoryID request.snapshotID request.filePath =
            some content ∧
          request.query.Shows (content.splitOn newline) ∧
            request.query.found (cleanPath request.filePath) (content.splitOn newline) = found := by
  have read := @readEvidence_ok_iff service buffering request.repositoryID request.snapshotID
    request.filePath request.startLine request.endLine request.maxBytes found
  unfold fetch Accepts
  cases complete : validateIssueRequest request with
  | error err => simp [bind, Except.bind]
  | ok _ =>
    cases lineage : service.validateLineage request with
    | error err => simp [bind, Except.bind]
    | ok _ =>
      simp only [bind, Except.bind, true_and]
      exact read

/-- The second half of `Issue`: the lookup fails, the item is there, it is stored, or the insert
fails and it is looked up once more. -/
theorem record_cases (call : IssueCall) (found : FileRange) (rows : List Item) :
    let item := service.newItem call found
    (∃ err, call.faults.find = some err ∧
        service.record call found rows = (.error (.other err), rows)) ∨
      (∃ existing, call.faults.find = none ∧
        service.findCanonical rows (service.identity item) = some existing ∧
        service.record call found rows = (.ok existing, rows)) ∨
      (call.faults.find = none ∧ service.findCanonical rows (service.identity item) = none ∧
        call.faults.create = none ∧ service.record call found rows = (.ok item, rows ++ [item])) ∨
      (call.faults.create.isSome ∧
        ((∃ existing, service.findCanonical (rows ++ call.others) (service.identity item) =
          some existing ∧
            service.record call found rows = (.ok existing, rows ++ call.others)) ∨
          ∃ err, service.record call found rows = (.error err, rows ++ call.others))) := by
  intro item
  unfold record
  cases failed : call.faults.find with
  | some err => exact .inl ⟨err, rfl, rfl⟩
  | none =>
    right
    cases canonical : service.findCanonical rows (service.identity item) with
    | some existing => exact .inl ⟨existing, rfl, rfl, by simp [item, canonical]⟩
    | none =>
      right
      cases refused : call.faults.create with
      | none => exact .inl ⟨rfl, rfl, rfl, by simp [item, canonical]⟩
      | some fault =>
        right
        refine ⟨rfl, ?_⟩
        simp only [IssueCall.others, refused, Option.map_some, Option.getD_some]
        cases again : service.findCanonical (rows ++ fault.2) (service.identity item) with
        | none =>
          right
          cases call.faults.refind <;> simp [item, canonical]
        | some existing =>
          cases call.faults.refind with
          | none => exact .inl ⟨existing, rfl, by simp [item, canonical]⟩
          | some _ => exact .inr ⟨_, by simp only [item, canonical]; rfl⟩

theorem identity_of_findCanonical {identity : Identity}
    (found : service.findCanonical rows identity = some item) :
    item ∈ rows ∧ service.identity item = identity :=
  ⟨List.mem_of_find?_eq_some found, by simpa using List.find?_some found⟩

theorem record_ok (returned : (service.record call found rows).1 = .ok item) :
    item = service.newItem call found ∨
      item ∈ rows ++ call.others ∧
        service.identity item = service.identity (service.newItem call found) := by
  rcases @record_cases service call found rows with
    ⟨err, -, ends⟩ | ⟨existing, -, there, ends⟩ | ⟨-, -, -, ends⟩ |
      ⟨-, ⟨existing, there, ends⟩ | ⟨err, ends⟩⟩
  all_goals rw [ends] at returned; cases returned
  · obtain ⟨member, same⟩ := identity_of_findCanonical there
    exact .inr ⟨List.mem_append_left _ member, same⟩
  · exact .inl rfl
  · exact .inr (identity_of_findCanonical there)

theorem issue_ok (issued : (service.issue call rows).1 = .ok item) :
    ∃ found, service.fetch call.buffering call.request = .ok found ∧
      (service.record call found rows).1 = .ok item := by
  unfold issue at issued
  cases fetched : service.fetch call.buffering call.request with
  | error err => simp [fetched] at issued
  | ok found => exact ⟨found, rfl, by simpa [fetched] using issued⟩

theorem record_rows (call : IssueCall) (found : FileRange) (rows : List Item) :
    (service.record call found rows).2 = rows ∨
      call.faults.find = none ∧ call.faults.create = none ∧
        (service.record call found rows).2 = rows ++ [service.newItem call found] ∨
      (service.record call found rows).2 = rows ++ call.others := by
  rcases @record_cases service call found rows with
    ⟨err, -, ends⟩ | ⟨existing, -, -, ends⟩ | ⟨lookup, -, insert, ends⟩ |
      ⟨-, ⟨existing, -, ends⟩ | ⟨err, ends⟩⟩
  all_goals rw [ends]
  · exact .inl rfl
  · exact .inl rfl
  · exact .inr (.inl ⟨lookup, insert, rfl⟩)
  · exact .inr (.inr rfl)
  · exact .inr (.inr rfl)

theorem readEvidence_again {content : Bytes}
    (there : service.content request.repositoryID request.snapshotID request.filePath =
      some content)
    (shows_ : request.query.Shows (content.splitOn newline)) (buffering : Buffering) :
    service.readEvidence buffering request.repositoryID request.snapshotID
        (cleanPath request.filePath) request.query.startLine
        (request.query.startLine - 1 + (request.query.taken (content.splitOn newline)).length) 0 =
      .ok ((request.query.reread (content.splitOn newline)).found (cleanPath request.filePath)
        (content.splitOn newline)) := by
  have start := shows_.proper.start
  rw [readEvidence_ok_iff]
  refine ⟨content, content_cleanPath there, ?_⟩
  rw [if_neg (show ¬ request.query.startLine ≤ 0 by omega), cleanPath_cleanPath]
  exact ⟨RangeQuery.reread_shows shows_, rfl⟩

theorem verify_ok (fetched : service.fetch call.buffering call.request = .ok found)
    (path : item.filePath = (service.newItem call found).filePath)
    (same : service.identity item = service.identity (service.newItem call found))
    (buffering : Buffering) {lineage : DraftLineage}
    (repository : lineage.repositoryID = call.request.repositoryID)
    (attempt : lineage.attemptID = item.attemptID)
    (run : lineage.diagnosisRunID = item.diagnosisRunID)
    (snapshot : lineage.snapshotID = item.snapshotID)
    (build : lineage.codeIndexBuildID = item.codeIndexBuildID) :
    service.verify buffering item lineage = .ok () := by
  obtain ⟨-, content, there, shows_, rfl⟩ := fetch_ok_iff.mp fetched
  simp only [identity, newItem, Identity.mk.injEq, RangeQuery.found] at path same
  obtain ⟨-, ofSnapshot, -, first, last, hash⟩ := same
  have again := readEvidence_again there shows_ buffering
  rw [← ofSnapshot, ← path, ← last, ← first, ← repository] at again
  obtain ⟨text, start, stop⟩ := RangeQuery.reread_found shows_ item.filePath
  unfold verify
  simp only [attempt, run, snapshot, build, ne_eq, not_true_eq_false, or_self, if_false, again,
    bind, Except.bind, pure, Except.pure]
  simp [text, start, stop, hash, first, last]

variable (service) in

def Issued (item : Item) : Prop :=
  ∃ call found, service.fetch call.buffering call.request = .ok found ∧
    item = service.newItem call found

inductive Reached (service : Service) : List Item → Prop
  | empty : Reached service []
  | issue {rows : List Item} (call : IssueCall) :
      Reached service rows → (∀ row ∈ call.others, service.Issued row) →
        Reached service (service.issue call rows).2

theorem Reached.issued (reached : service.Reached rows) :
    ∀ row ∈ rows, service.Issued row := by
  induction reached with
  | empty => simp
  | @issue rows call _ others ih =>
    intro row member
    unfold Service.issue at member
    cases fetched : service.fetch call.buffering call.request with
    | error err =>
      rw [fetched] at member
      exact ih row member
    | ok found =>
      rw [fetched] at member
      rcases @record_rows service call found rows with same | ⟨-, -, grown⟩ | grown
      · exact ih row (same ▸ member)
      · simp only [grown, List.mem_append, List.mem_singleton] at member
        rcases member with earlier | rfl
        · exact ih row earlier
        · exact ⟨call, found, fetched, rfl⟩
      · simp only [grown, List.mem_append] at member
        exact member.elim (ih row) (others row)

theorem fetch_lineage {select : String → Except String LineageRow} (db : service.db = some select)
    (fetched : service.fetch buffering request = .ok found) :
    select request.attemptID = .ok ⟨request.diagnosisRunID, request.repositoryID,
      request.snapshotID, request.codeIndexBuildID⟩ := by
  have lineage := (fetch_ok_iff.mp fetched).1.2
  unfold validateLineage at lineage
  rw [db] at lineage
  cases row : select request.attemptID with
  | error err => simp [row] at lineage
  | ok row_ =>
    simp only [row] at lineage
    split at lineage
    · cases lineage
    · split at lineage
      · next same => rw [same]
      · cases lineage

theorem lineage_eq (db : service.db.isSome) {buffering_ : Buffering} {other : IssueRequest}
    {found_ : FileRange} (fetched : service.fetch buffering request = .ok found)
    (fetched_ : service.fetch buffering_ other = .ok found_)
    (attempt : request.attemptID = other.attemptID) : request.lineage = other.lineage := by
  obtain ⟨select, db⟩ := Option.isSome_iff_exists.mp db
  have stored := fetch_lineage db fetched
  rw [attempt, fetch_lineage db fetched_, Except.ok.injEq, LineageRow.mk.injEq] at stored
  simp [IssueRequest.lineage, attempt, stored]

end Service

/-- `Verify` accepts an item that `Issue` returns as long as the file system stays the same, under
the lineage it carries: that of the request where the database is checked. A row that an arbitrary
table holds has to be found under its own path, as it is where paths are compared exactly. -/
theorem issue_verifies (service : Service) (call : IssueCall) (rows : List Item) (item : Item)
    (issued : (service.issue call rows).1 = .ok item) (buffering : Buffering) :
    (∀ lineage : DraftLineage, Function.Injective service.collate ∨
        item.filePath = cleanPath call.request.filePath →
      lineage.repositoryID = call.request.repositoryID →
      lineage.attemptID = item.attemptID → lineage.diagnosisRunID = item.diagnosisRunID →
      lineage.snapshotID = item.snapshotID → lineage.codeIndexBuildID = item.codeIndexBuildID →
      service.verify buffering item lineage = .ok ()) ∧
    (service.db.isSome → service.Reached rows → (∀ row ∈ call.others, service.Issued row) →
      service.verify buffering item call.request.lineage = .ok ()) := by
  obtain ⟨found, fetched, returned⟩ := Service.issue_ok issued
  have origin := Service.record_ok returned
  have same : service.identity item = service.identity (service.newItem call found) := by
    rcases origin with rfl | found_
    · rfl
    · exact found_.2
  constructor
  · intro lineage spelled repository attempt run snapshot build
    have path : item.filePath = (service.newItem call found).filePath := by
      rcases spelled with exact_ | path
      · exact exact_ (congrArg Identity.filePath same)
      · obtain ⟨-, content, -, -, rfl⟩ := Service.fetch_ok_iff.mp fetched
        exact path
    exact Service.verify_ok fetched path same buffering repository attempt run snapshot build
  intro db reached others
  have attempt : item.attemptID = call.request.attemptID := congrArg Identity.attemptID same
  have made : service.Issued item := by
    rcases origin with rfl | ⟨member, -⟩
    · exact ⟨call, found, fetched, rfl⟩
    · rcases List.mem_append.mp member with earlier | added
      · exact reached.issued item earlier
      · exact others item added
  obtain ⟨maker, range, read, rfl⟩ := made
  have lineage := Service.lineage_eq db read fetched attempt
  exact Service.verify_ok read rfl rfl buffering
    (congrArg DraftLineage.repositoryID lineage).symm attempt.symm
    (congrArg DraftLineage.diagnosisRunID lineage).symm
    (congrArg DraftLineage.snapshotID lineage).symm
    (congrArg DraftLineage.codeIndexBuildID lineage).symm

def oneFile (content : Bytes) : LocalSnapshotStore where
  getSourcePath := fun _ _ => "/s"
  fs := {
    lstat := fun path =>
      if path = "/s" then some .directory else if path = "/s/a.go" then some .regular else none
    evalSymlinks := some
    content := fun path => if path = "/s/a.go" then some content else none
    manifest := fun _ => .missing }

def sizeDigest : Sha256 where
  hex := fun content =>
    String.ofList (List.replicate 64 (if content.length % 2 = 0 then '0' else '1'))
  digits := fun content => by split <;> decide

def oneFileService (content : Bytes) : Service where
  db := some fun _ => .ok ⟨"run", "repo", "snap", 1⟩
  storeFS := some (oneFile content)
  sha256 := sizeDigest
  collate := id

theorem oneFile_safePath (content : Bytes) :
    safePath (oneFile content).fs "/s" "a.go" = .ok "/s/a.go" := by
  have same : safePath (oneFile content).fs "/s" "a.go" =
      safePath (oneFile []).fs "/s" "a.go" := rfl
  rw [same]
  decide +kernel

theorem oneFileService_content (content : Bytes) :
    (oneFileService content).content "repo" "snap" "a.go" = some content := by
  -- the policy does not look at the content
  have issued : (canIssueEvidenceFromSnapshot (oneFile content).fs "/s" "a.go").allowed = true := by
    have same : canIssueEvidenceFromSnapshot (oneFile content).fs "/s" "a.go" =
        canIssueEvidenceFromSnapshot (oneFile []).fs "/s" "a.go" := rfl
    rw [same]
    decide +kernel
  have root : (oneFile content).getSourcePath "repo" "snap" = "/s" := rfl
  simp only [Service.content, oneFileService, root, issued, if_true, oneFile_safePath]
  rfl

def readCall (id path : String) (startLine endLine maxBytes : Int) : IssueCall where
  request := ⟨"attempt", "run", "repo", "snap", 1, .readFile, 0, "", path, startLine, endLine,
    maxBytes⟩
  id
  now := 0
  buffering := .byLine
  faults := .none

/-- Three lines without a final newline, read through a path that is not clean under a
budget that only the first two of them fit in. -/
theorem issue_verifies_cut :
    let service := oneFileService (Utf8.ofString "one\ntwo\nthree")
    let call := readCall "1" "./x/../a.go" 0 9 8
    let item := service.newItem call ⟨"a.go", 1, 2, 3, Utf8.ofString "one\ntwo", true⟩
    (service.issue call []).1 = .ok item ∧
      service.verify .byLine item call.request.lineage = .ok () := by
  intro service call item
  have issued : (service.issue call []).1 = .ok item := by decide +kernel
  exact ⟨issued, (issue_verifies service call [] item issued .byLine).2 rfl .empty
    (by simp [IssueCall.others, call, readCall, StoreFaults.none])⟩

end Evidence

end RepoLens
